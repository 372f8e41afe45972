import Mathlib.Data.Nat.Notation

/-!
# Flow control by credit

A sender that may send `limit` units, and as many more as the receiver has granted since.  What it
has sent is on its way, kept by the receiver, returned by it, or lost; what has been returned is
granted sooner or later (`Balance`).  So there are never more than `limit` units on their way or
kept, and once everything sent has arrived and been returned, the window is as large as it was in
the beginning.
-/

namespace AnyHttp.Lib

/-- The sender's side. It never sends more than it may. -/
structure Window (limit : ℕ) where
  sent : ℕ
  granted : ℕ
  sent_le : sent ≤ limit + granted
deriving DecidableEq

namespace Window

variable {limit : ℕ}

/-- Nothing has been sent yet. -/
def fresh : Window limit := ⟨0, 0, Nat.zero_le _⟩

/-- How much may be sent. -/
def room (w : Window limit) : ℕ := limit + w.granted - w.sent

def spend (w : Window limit) (n : ℕ) (h : n ≤ w.room) : Window limit where
  sent := w.sent + n
  granted := w.granted
  sent_le := by
    have hle := w.sent_le
    rw [room] at h
    omega

def grant (w : Window limit) (n : ℕ) : Window limit where
  sent := w.sent
  granted := w.granted + n
  sent_le := by
    have hle := w.sent_le
    omega

@[simp] theorem spend_sent (w : Window limit) (n : ℕ) (h : n ≤ w.room) :
    (w.spend n h).sent = w.sent + n := rfl

@[simp] theorem spend_granted (w : Window limit) (n : ℕ) (h : n ≤ w.room) :
    (w.spend n h).granted = w.granted := rfl

@[simp] theorem grant_sent (w : Window limit) (n : ℕ) : (w.grant n).sent = w.sent := rfl

@[simp] theorem grant_granted (w : Window limit) (n : ℕ) :
    (w.grant n).granted = w.granted + n := rfl

/-- Where everything is that has been sent. -/
structure Balance (w : Window limit) (flight kept returned lost : ℕ) : Prop where
  sent : w.sent = flight + kept + returned + lost
  granted : w.granted ≤ returned

variable {w : Window limit} {flight kept returned lost n : ℕ}

theorem Balance.init : Balance (fresh : Window limit) 0 0 0 0 := ⟨rfl, Nat.le_refl 0⟩

theorem Balance.spend (h : Balance w flight kept returned lost) (hroom : n ≤ w.room) :
    Balance (w.spend n hroom) (flight + n) kept returned lost := by
  refine ⟨?_, h.granted⟩
  have hsent := h.sent
  rw [spend_sent]
  omega

theorem Balance.grant (h : Balance w flight kept returned lost) (hn : w.granted + n ≤ returned) :
    Balance (w.grant n) flight kept returned lost :=
  ⟨h.sent, hn⟩

/-- Some of it goes from one place to another. -/
theorem Balance.move (h : Balance w flight kept returned lost) {flight' kept' returned' lost' : ℕ}
    (hreturned : returned ≤ returned')
    (hsum : flight' + kept' + returned' + lost' = flight + kept + returned + lost) :
    Balance w flight' kept' returned' lost' :=
  ⟨h.sent.trans hsum.symm, Nat.le_trans h.granted hreturned⟩

/-- **Back pressure**: no more is on its way or kept than the limit. -/
theorem Balance.bounded (h : Balance w flight kept returned lost) : flight + kept ≤ limit := by
  have hle := w.sent_le
  have hsent := h.sent
  have hgranted := h.granted
  omega

/-- **No credit is lost**: with nothing on its way or kept, and everything granted that has been
returned, the whole of the window is open. -/
theorem Balance.full (h : Balance w 0 0 returned 0) :
    (w.grant (returned - w.granted)).room = limit := by
  have hsent := h.sent
  have hgranted := h.granted
  rw [room, grant_sent, grant_granted]
  omega

end Window

end AnyHttp.Lib
