import AnyHttp.Quic.Equiv.WriteQueue

/-!
# Every stream gets its turn

What holds of the write queue over the whole life of a connection, whatever ngtcp2 does: the flags
are right, no stream that could send something is forgotten, and the streams are served round robin.

* `writeQueue_right` puts this together.
-/

namespace AnyHttp.Quic.Packing

open Lib StreamApplication

variable {κ : Type} {api : Ngtcp2 κ}

/-! ### A pass of `write_pkt()` -/

namespace QuicSession

variable {p : QuicSession κ} {data : Option StreamData}

/-- The stream that is offered is at the front of the queue, if it is in there. -/
def InFront (p : QuicSession κ) (data : Option StreamData) : Prop :=
  ∀ d, data = some d → p.app.flag d.id = some true → p.app.writeQueue.head? = some d.id

theorem keeps_written (hfront : p.InFront data) (ndatalen : Option Nat) :
    p.app.Keeps (p.written data ndatalen).app := by
  cases ndatalen with
  | none => exact .refl _
  | some n =>
    cases data with
    | none => exact .refl _
    | some data => exact keeps_onStreamDataWritten (hfront data rfl) n _

/-- A stream that is not to send any more is out of the queue. -/
theorem flag_onStreamShutWr (app : StreamApplication) (id : Nat) :
    (app.onStreamShutWr id).flag id ≠ some true := by
  cases hstream : app.findStream id with
  | none =>
    have hsame : app.onStreamShutWr id = app := by rw [onStreamShutWr, hstream]
    rw [hsame, flag, hstream]
    rintro ⟨⟩
  | some stream =>
    have hself : (app.onStreamShutWr id).findStream id =
        some { stream with
          q := stream.q.abortWriting .connectionReset
          scheduled := false } := by
      rw [onStreamShutWr, hstream]
      exact findStream_modify_self (findStream_unscheduleFront hstream)
    rw [flag, hself]
    rintro ⟨⟩

theorem keeps_handle (hfront : p.InFront data) (result : Writev) :
    p.app.Keeps (after (p.handle data result)).app := by
  cases result with
  | packet nwrite ndatalen => exact keeps_written hfront ndatalen
  | error code => exact .refl _
  | writeMore ndatalen => exact keeps_written hfront ndatalen
  | streamDataBlocked =>
    cases data with
    | none => exact .refl _
    | some data => exact keeps_onStreamBlocked (hfront data rfl)
  | streamShutWr =>
    cases data with
    | none => exact .refl _
    | some data => exact keeps_onStreamShutWr (hfront data rfl)
  | streamNotFound =>
    cases data with
    | none => exact .refl _
    | some data =>
      unfold handle
      dsimp only
      split
      · exact .refl _
      · refine (keeps_onStreamShutWr (hfront data rfl)).trans (keeps_onStreamBlocked ?_)
        exact fun hset => absurd hset (flag_onStreamShutWr p.app data.id)

theorem keeps_pass (api : Ngtcp2 κ) (hordered : p.app.Ordered) :
    p.app.Keeps (after (p.pass api)).app := by
  unfold pass
  split
  · exact .refl _
  · rename_i conn _
    split
    · exact .refl _
    · have hoffer : p.app.Keeps (p.offer api conn).1 ∧ ∀ data, (p.offer api conn).2 = some data →
          (p.offer api conn).1.writeQueue.head? = some data.id := by
        unfold offer
        split
        · obtain ⟨hkeeps, _, hfound⟩ := nextStreamData_spec hordered
          refine ⟨hkeeps, fun data hdata => ?_⟩
          obtain ⟨_, rest, _, _, hqueue⟩ := (hfound data hdata).first
          rw [hqueue, List.head?_cons]
        · exact ⟨.refl _, fun _ h => nomatch h⟩
      dsimp only
      generalize p.offer api conn = offer at hoffer
      have hhandle := keeps_handle
        (p := { p with app := offer.1, conn := some (api.writev conn offer.2).1 })
        (fun data hdata _ => hoffer.2 data hdata) (api.writev conn offer.2).2
      exact hoffer.1.trans hhandle

end QuicSession

/-! ### Runs -/

namespace Scheduler

variable {config : Config} {mode : WriteMode} {s t : Scheduler κ} {conn : Option κ}
  {es : List (Event κ)}

/-- What holds in every state. -/
structure Inv (s : Scheduler κ) : Prop where
  known : ∀ id, s.app.Known id → id ∈ s.made
  ordered : s.app.Ordered
  inStep : s.app.closed = false → s.app.InStep

theorem Inv.init (conn : Option κ) : (init conn).Inv where
  known := fun _ h => h.elim (fun h => absurd h List.not_mem_nil) fun h => absurd rfl h
  ordered := fun _ _ h => nomatch h
  inStep := fun _ => ⟨fun _ _ h => (nomatch h), fun _ _ h => (nomatch h)⟩

theorem Inv.keeps (h : s.Inv) (hkeeps : s.app.Keeps t.app) (hmade : t.made = s.made) :
    t.Inv where
  known := fun id hid => hmade ▸ h.known id (hkeeps.known id hid)
  ordered := hkeeps.ordered h.ordered
  inStep := fun hopen => by
    have hopen' : s.app.closed = false := hkeeps.closed ▸ hopen
    exact hkeeps.inStep hopen' h.ordered (h.inStep hopen')

theorem Inv.step {e : Event κ} (h : s.Inv) (ht : step api config mode s e = some t) : t.Inv := by
  cases e with
  | createStream id =>
    unfold Scheduler.step at ht
    dsimp only at ht
    split at ht
    · exact nomatch ht
    · rename_i hnew
      rw [not_or] at hnew
      obtain rfl := Option.some.inj ht
      have hunknown : ¬s.app.Known id := mt (h.known id) hnew.1
      refine ⟨fun j hj => ?_, ordered_createStream config mode hunknown h.ordered,
        fun hopen => inStep_createStream config mode hunknown (h.inStep hopen)⟩
      rcases known_createStream config mode hunknown hj with rfl | hj
      · exact List.mem_cons_self
      · exact List.mem_cons_of_mem _ (h.known j hj)
  | stream id o => exact Option.some.inj ht ▸ h.keeps (keeps_operate s.app id o) rfl
  | extendMaxStreamData id =>
    exact Option.some.inj ht ▸ h.keeps (keeps_extendMaxStreamData s.app id) rfl
  | writePkt conn closed applicationReady => exact Option.some.inj ht ▸ h.keeps (.refl _) rfl
  | pass => exact Option.some.inj ht ▸ h.keeps (QuicSession.keeps_pass api h.ordered) rfl
  | onClosed =>
    obtain rfl := Option.some.inj ht
    refine ⟨fun j hj => ?_, h.ordered, nofun⟩
    rcases hj with hmem | hfind
    · exact absurd hmem List.not_mem_nil
    · exact h.known j (.inr hfind)

theorem Inv.run (hrun : run (Scheduler.step api config mode) (Scheduler.init conn) es = some s) :
    s.Inv :=
  run_inv (fun _ _ _ hs ht => hs.step ht) (.init conn) hrun

/-- The id of a stream is in the queue once if it is scheduled, and else not at all; and it is in
there if the stream is not blocked, and has data to send, or a FIN that is not handed over yet. -/
def QueueRight (app : StreamApplication) : Prop :=
  ∀ id stream, app.findStream id = some stream →
    app.writeQueue.count id = (if stream.scheduled = true then 1 else 0) ∧
      (stream.blocked = false → stream.q.hasMore = true → id ∈ app.writeQueue)

theorem queueRight_of_inStep {app : StreamApplication} (h : app.InStep) : QueueRight app := by
  intro id stream hstream
  have hflag : app.flag id = some stream.scheduled := by
    rw [flag, hstream]
    rfl
  refine ⟨h.tracked id _ hflag, fun hblocked hmore => ?_⟩
  exact (h.tracked.mem_iff hflag).mpr (h.awake id stream hstream hblocked hmore)

/-- **The write queue is right** at any time before the connection is closed, and after
`next_stream_data()` as well.  That returns the first stream of the queue that is not blocked and
has something to send, and nothing only if there is none.  Whatever of it is written then, the
stream goes behind all the others. -/
theorem writeQueue_right
    (hrun : run (Scheduler.step api config mode) (Scheduler.init conn) es = some s)
    (hopen : s.app.closed = false) :
    QueueRight s.app ∧ QueueRight s.app.nextStreamData.1 ∧
      (s.app.nextStreamData.2 = none → ∀ id ∈ s.app.writeQueue, ¬s.app.Eligible id) ∧
        ∀ data, s.app.nextStreamData.2 = some data →
          ∃ passed rest, s.app.writeQueue = passed ++ data.id :: rest ∧
            (∀ id ∈ passed, ¬s.app.Eligible id) ∧ s.app.Eligible data.id ∧
              s.app.nextStreamData.1.writeQueue = data.id :: rest ∧
                ∀ n fin, (s.app.nextStreamData.1.onStreamDataWritten data.id n fin).writeQueue =
                  rest ++ [data.id] := by
  have hinv := Inv.run hrun
  obtain ⟨hkeeps, hnone, hsome⟩ := nextStreamData_spec hinv.ordered
  have hinStep := hkeeps.inStep hopen hinv.ordered (hinv.inStep hopen)
  refine ⟨queueRight_of_inStep (hinv.inStep hopen), queueRight_of_inStep hinStep, hnone, ?_⟩
  intro data hdata
  obtain ⟨⟨passed, rest, hqueue, hpassed, hrest⟩, heligible, stream, hstream, hblocked, _⟩ :=
    hsome data hdata
  refine ⟨passed, rest, hqueue, hpassed, heligible, hrest, fun n fin => ?_⟩
  exact onStreamDataWritten_writeQueue (hkeeps.closed.trans hopen) hstream hblocked hrest n fin

/-- Two streams are written to, the first of which gets a byte into a packet. -/
def turns : List (Event Nat) :=
  [.createStream 0, .createStream 4, .stream 0 .makeHandle, .stream 4 .makeHandle,
    .stream 0 (.startWrite none [1, 2, 3] true), .stream 4 (.startWrite none [4] false),
    .writePkt (some 2) false true, .pass]

theorem writeQueue_turns :
    ∃ s, run (Scheduler.step QuicSession.sparse ⟨0, 0⟩ .staged) (Scheduler.init (some 2)) turns =
        some s ∧ s.app.writeQueue = [4, 0] ∧ QueueRight s.app := by
  have hqueue : (run (Scheduler.step QuicSession.sparse ⟨0, 0⟩ .staged)
      (Scheduler.init (some 2)) turns).map
        (fun s => (s.app.writeQueue, s.app.closed)) = some ([4, 0], false) := by decide
  obtain ⟨s, hrun, hs⟩ := Option.map_eq_some_iff.mp hqueue
  obtain ⟨hqueue, hopen⟩ := Prod.mk.inj hs
  exact ⟨s, hrun, hqueue, (writeQueue_right hrun hopen).1⟩

end Scheduler

end AnyHttp.Quic.Packing
