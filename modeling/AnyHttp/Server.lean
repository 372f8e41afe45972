import AnyHttp.Event
import AnyHttp.Lib.Run
import AnyHttp.Lib.Update

/-!
# The sessions of a server

`server_impl.cpp`: the registry `sessions_`, the tasks that serve the connections, the loop that
accepts them and then waits for them, and `destroy()`.  QUIC sessions are registered by
`process_quic_batch()`, see `quic/server.cpp`.

The tasks run on executors of their own, so that everything interleaves, except for what is done
under `session_mutex_`: a step that takes the lock and releases it is only possible while nobody has
it.  The completion callback of a task is two steps, as its `notify()` is seen by a loop that does
not have the lock.  What a session does between `do_session()` and its end is not part of the model,
and neither are the log messages.
-/

namespace AnyHttp

open Lib

namespace Server

inductive Kind
  | tcp
  | quic
deriving DecidableEq, Repr

inductive Phase
  /-- `handle_connection()`, before there is a session. -/
  | detecting
  /-- There is a session, on its way into `add_session()`. -/
  | registering
  /-- `add_session()` has returned false. -/
  | refused
  /-- In `do_session()`. -/
  | serving
  /-- On its way into `remove_session()`. -/
  | leaving
  /-- `handle_connection()` has ended, and its completion callback has not been called. -/
  | ended
  /-- The callback has counted the task, and has the lock. -/
  | completing
  | done
deriving DecidableEq, Repr

structure Task where
  kind : Kind
  phase : Phase
deriving DecidableEq, Repr

/-- Where `tcp_accept_loop()` is. -/
inductive LoopPhase
  | accepting
  /-- `accept()` has failed. -/
  | terminated
  /-- It has swept the registry and released the lock, on its way into `sessionDone.wait()`. -/
  | unlocked
  | waiting
  | returned
deriving DecidableEq, Repr

end Server

open Server

/-- A session has the index of the task that serves it. -/
structure Server where
  tasks : List Task := []
  sessions : List Nat := []
  destroyed : Bool := false
  /-- The sessions whose `destroy()` has been called, or dispatched to their executor. -/
  told : List Nat := []
  sessionCounter : Nat := 0
  sessionDone : Signal := {}
  /-- The task whose callback has `session_mutex_`. -/
  locked : Option Nat := none
  loop : LoopPhase := .accepting
deriving DecidableEq, Repr

namespace Server

inductive Action
  /-- A connection is accepted, and `handle_connection()` launched. -/
  | accept
  | acceptFails
  /-- The first batch of a QUIC connection has initialized its session. -/
  | initial
  /-- It is known what the connection speaks. -/
  | detected (i : Nat)
  | addSession (i : Nat)
  /-- A session that has been refused is destroyed. -/
  | drop (i : Nat)
  /-- `do_session()` returns. -/
  | finish (i : Nat)
  /-- Something is thrown, or `handle_connection()` returns early. -/
  | throws (i : Nat)
  | removeSession (i : Nat)
  /-- The completion callback of a task takes the lock. -/
  | complete (i : Nat)
  | notify (i : Nat)
  | destroy
  /-- The loop takes the lock and looks at the counter, for the first time or after a wait. -/
  | sweep
  | wait
  /-- The wait completes without a `notify()`. -/
  | spurious
deriving DecidableEq, Repr

/-- The task goes on to another phase. -/
def move (s : Server) (i : Nat) (task : Task) : Server := { s with tasks := s.tasks.set i task }

/-- `add_session()`. -/
def addSession (s : Server) (i : Nat) : Server × Bool :=
  -- too late
  if s.destroyed then (s, false) else ({ s with sessions := i :: s.sessions }, true)

/-- `remove_session()`. -/
def removeSession (s : Server) (i : Nat) : Server :=
  { s with sessions := s.sessions.filter (· ≠ i) }

/-- The step of a task, which is in this phase. -/
def taskStep (s : Server) (i : Nat) (task : Task) : Action → Option Server
  | .detected _ =>
    match task with
    | ⟨.tcp, .detecting⟩ => some (s.move i ⟨.tcp, .registering⟩)
    | _ => none
  | .addSession _ =>
    if task.phase = .registering ∧ s.locked = none then
      match s.addSession i with
      | (s, true) => some (s.move i ⟨task.kind, .serving⟩)
      | (s, false) => some (s.move i ⟨task.kind, .refused⟩)
    else none
  | .drop _ =>
    match task with
    | ⟨.tcp, .refused⟩ => some ({ s with told := i :: s.told }.move i ⟨.tcp, .ended⟩)
    | ⟨.quic, .refused⟩ => some ({ s with told := i :: s.told }.move i ⟨.quic, .done⟩)
    | _ => none
  | .finish _ =>
    if task.phase = .serving then some (s.move i ⟨task.kind, .leaving⟩) else none
  | .throws _ =>
    match task with
    | ⟨.tcp, .detecting⟩ | ⟨.tcp, .registering⟩ => some (s.move i ⟨.tcp, .ended⟩)
    -- `handle_connection()` does not get to `remove_session()`
    | ⟨.tcp, .serving⟩ => some (s.move i ⟨.tcp, .ended⟩)
    -- the completion callback of `do_session()` is called either way
    | ⟨.quic, .serving⟩ => some (s.move i ⟨.quic, .leaving⟩)
    | _ => none
  | .removeSession _ =>
    -- the task of a QUIC session is over with it, as nobody counts it
    if s.locked = none then
      match task with
      | ⟨.tcp, .leaving⟩ => some ((s.removeSession i).move i ⟨.tcp, .ended⟩)
      | ⟨.quic, .leaving⟩ => some ((s.removeSession i).move i ⟨.quic, .done⟩)
      | _ => none
    else none
  | .complete _ =>
    if task = ⟨.tcp, .ended⟩ ∧ s.locked = none then
      some ({ s with sessionCounter := s.sessionCounter - 1, locked := some i }.move i
        ⟨.tcp, .completing⟩)
    else none
  | .notify _ =>
    if task = ⟨.tcp, .completing⟩ then
      some ({ s with sessionDone := s.sessionDone.notify, locked := none }.move i ⟨.tcp, .done⟩)
    else none
  | _ => none

def step (s : Server) (a : Action) : Option Server :=
  match a with
  | .accept =>
    if s.loop = .accepting ∧ s.locked = none then
      some { s with
        tasks := s.tasks ++ [⟨.tcp, .detecting⟩]
        sessionCounter := s.sessionCounter + 1 }
    else none
  | .acceptFails =>
    if s.loop = .accepting then some { s with loop := .terminated } else none
  | .initial => some { s with tasks := s.tasks ++ [⟨.quic, .registering⟩] }
  | .detected i | .addSession i | .drop i | .finish i | .throws i | .removeSession i
  | .complete i | .notify i => s.tasks[i]?.bind fun task => s.taskStep i task a
  | .destroy =>
    -- every session that is registered is told
    if s.locked = none then
      some { s with destroyed := true, told := s.sessions ++ s.told }
    else none
  | .sweep =>
    if (s.loop = .terminated ∨ s.loop = .waiting ∧ s.sessionDone.woken = true) ∧
        s.locked = none then
      if s.sessionCounter = 0 then
        some { s with loop := .returned, sessionDone := s.sessionDone.resume }
      else
        some { s with
          loop := .unlocked
          sessionDone := s.sessionDone.resume
          told := s.sessions ++ s.told
          sessions := [] }
    else none
  | .wait =>
    if s.loop = .unlocked then
      some { s with loop := .waiting, sessionDone := s.sessionDone.wait }
    else none
  | .spurious =>
    if s.loop = .waiting ∧ s.sessionDone.waiting = true then
      some { s with sessionDone := { s.sessionDone with waiting := false, woken := true } }
    else none

end Server

end AnyHttp
