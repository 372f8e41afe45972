import AnyHttp.Common

/-!
# `Event` and `Signal`

`Event` of the runtime wakes up the one coroutine that waits for it.  It is latched, and it never
resumes the coroutine itself, but posts that: what has been posted is `woken`.

`Signal` may be notified from any thread.  It is a channel that holds one wake-up, and drops a
second one.
-/

namespace AnyHttp

structure Event where
  isSet : Bool := false
  /-- `waiter_`. -/
  waiting : Bool := false
  /-- A completion of the wait that has been posted. -/
  woken : Option ErrorCode := none
deriving DecidableEq, Repr

namespace Event

def wake (e : Event) (ec : ErrorCode) : Event := { e with waiting := false, woken := some ec }

def set (e : Event) : Event :=
  if e.waiting then { e with isSet := true }.wake .success else { e with isSet := true }

def clear (e : Event) : Event := { e with isSet := false }

/-- `wait()`, where there is something to wait for. -/
def wait (e : Event) : Event := { e with waiting := true }

/-- The wait is cancelled. -/
def cancel (e : Event) : Event := if e.waiting then e.wake .canceled else e

@[simp] theorem clear_isSet (e : Event) : e.clear.isSet = false := rfl
@[simp] theorem clear_waiting (e : Event) : e.clear.waiting = e.waiting := rfl
@[simp] theorem clear_woken (e : Event) : e.clear.woken = e.woken := rfl

@[simp] theorem set_isSet (e : Event) : e.set.isSet = true := by
  unfold set
  split <;> rfl

/-- Nobody waits for an event that is set. -/
@[simp] theorem set_waiting (e : Event) : e.set.waiting = false := by
  unfold set
  split
  · rfl
  · rename_i h
    exact Bool.eq_false_iff.mpr h

theorem set_woken (e : Event) :
    e.set.woken = if e.waiting then some .success else e.woken := by
  unfold set
  split
  · rfl
  · rfl

@[simp] theorem cancel_waiting (e : Event) : e.cancel.waiting = false := by
  unfold cancel
  split
  · rfl
  · rename_i h
    exact Bool.eq_false_iff.mpr h

end Event

structure Signal where
  /-- There is a wake-up in the channel. -/
  pending : Bool := false
  waiting : Bool := false
  /-- The wait has completed. -/
  woken : Bool := false
deriving DecidableEq, Repr

namespace Signal

/-- `try_send()`. -/
def notify (s : Signal) : Signal :=
  if s.waiting then { s with waiting := false, woken := true } else { s with pending := true }

/-- `async_receive()`. -/
def wait (s : Signal) : Signal :=
  if s.pending then { s with pending := false, woken := true } else { s with waiting := true }

/-- The coroutine goes on. -/
def resume (s : Signal) : Signal := { s with woken := false }

@[simp] theorem notify_waiting (s : Signal) : s.notify.waiting = false := by
  unfold notify
  split
  · rfl
  · rename_i h
    exact Bool.eq_false_iff.mpr h

theorem notify_woken (s : Signal) : s.notify.woken = if s.waiting then true else s.woken := by
  unfold notify
  split
  · rfl
  · rfl

/-- Without a waiter, a wake-up is kept. -/
theorem notify_pending {s : Signal} (h : s.waiting = false) : s.notify.pending = true := by
  rw [notify, h, if_neg Bool.false_ne_true]

end Signal

end AnyHttp
