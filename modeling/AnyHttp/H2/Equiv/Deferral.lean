import AnyHttp.H2.Equiv.Outgoing

/-!
# A body that waits for nothing

nghttp2 does not ask a stream again that is deferred, until it is resumed, and only `async_write()`
resumes it.  A write that is parked must therefore not find itself deferred as long as there is
something of it that nghttp2 has not been given (`Awake`).  Version 2 defers the stream all the same
where it is asked with no room for a vector.

* `awake_iff`: that is the only exception.
-/

namespace AnyHttp.H2.Stream

open Lib

variable {m t : Stream} {a : Action} {as : List Action}

/-- What nghttp2 has not been given of the write that is parked. -/
def unsent (m : Stream) : List UInt8 :=
  match m.backend with
  | .v1 => m.tx.writeBuffer
  | .v2 _ => m.tx.writeBuffer.drop m.tx.offered

/-- There are bytes for nghttp2, or the end of the body. -/
def ToHandOver (m : Stream) : Prop :=
  m.unsent ≠ [] ∨ m.tx.eofRequested = true ∧ m.tx.eofSubmitted = false

/-- As long as a write is parked that there is something of, nghttp2 asks for it. -/
def Awake (m : Stream) : Prop :=
  m.tx.writeHandler ≠ none → m.ToHandOver → m.closed = false → m.tx.isDeferred = false

/-- Version 2 is asked with no room for anything, while there are bytes. -/
def Starves (m : Stream) (a : Action) : Prop :=
  a = .dataReader 0 ∧ m.tx.writeHandler ≠ none ∧ m.unsent ≠ []

theorem awake_of_none (h : m.tx.writeHandler = none) : Awake m := fun hsome => absurd h hsome

theorem awake_of_asking (h : m.tx.isDeferred = false) : Awake m := fun _ _ _ => h

theorem Awake.of_untouched (h : Awake m) (hsame : Untouched m t) : Awake t := by
  have hout := hsame.outgoing
  simp only [outgoing, Prod.mk.injEq, Outgoing.mk.injEq, true_and] at hout
  obtain ⟨hbackend, ⟨hbuffer, hhandler, hoffered, _, hrequested, hsubmitted⟩, _⟩ := hout
  unfold Awake ToHandOver unsent at h ⊢
  rw [hbackend, hbuffer, hhandler, hoffered, hrequested, hsubmitted, hsame.deferred]
  exact fun hhandler hmore hopen => h hhandler hmore (hsame.closed hopen)

theorem keeps_awake : Keeps Awake :=
  keeps_of_untouched (fun _ _ h hsame => h.of_untouched hsame) fun _ _ _ _ _ => awake_of_none rfl

/-! ### The operations -/

theorem Awake.asyncWrite (hm : Awake m) (h : Handler) (buffer : List UInt8) (eof : Bool) :
    Awake (m.asyncWrite h buffer eof) := by
  unfold Stream.asyncWrite
  split
  · exact hm
  · unfold resume
    split
    · exact awake_of_asking rfl
    · rename_i hdeferred
      exact awake_of_asking (eq_false_of_ne_true hdeferred)

theorem Awake.cancelWrite (hm : Awake m) : Awake m.cancelWrite := by
  unfold Stream.cancelWrite
  split
  · exact hm
  · split
    · exact awake_of_none rfl
    · exact hm

theorem Awake.producerCallback (hm : Awake m) (hb : m.backend = .v1) (length : Nat) :
    Awake (m.producerCallback length) := by
  unfold Stream.producerCallback
  split
  · exact hm
  · rename_i hopen
    split
    · rename_i hnone
      exact awake_of_none hnone
    · rename_i h hh
      split
      · rename_i hbytes
        dsimp only
        split
        · exact awake_of_none rfl
        · -- there have been bytes before
          have hmore : m.ToHandOver := by
            left
            unfold unsent
            rw [hb]
            exact hbytes
          have hasking := hm (by rw [hh]; exact nofun) hmore (eq_false_of_ne_true hopen)
          exact awake_of_asking hasking
      · exact awake_of_none rfl

/-- Bytes have been offered, which may be the last ones of a write and of the body. -/
theorem awake_offered {h : Handler} {ends copied : Bool} (hasking : m.tx.isDeferred = false) :
    Awake (if copied then ((if ends then m.endBody else m).completeWrite h .success).push .done
      else if ends then m.endBody else m) := by
  split
  · exact awake_of_none rfl
  · split
    · exact awake_of_asking hasking
    · exact awake_of_asking hasking

/-- Where version 2 is asked, it defers the stream only if there is nothing, or no room. -/
theorem Awake.dataReader_iff (hm : Awake m) {mode : WriteMode} (hb : m.backend = .v2 mode)
    (hopen : m.closed = false) (veccnt : Nat) :
    Awake (m.dataReader mode veccnt) ↔ ¬m.Starves (.dataReader veccnt) := by
  have hunsent : m.unsent = m.tx.writeBuffer.drop m.tx.offered := by
    unfold unsent
    rw [hb]
  unfold Stream.dataReader Starves
  rw [hunsent]
  split
  · rename_i hnone
    have hawake : Awake (if m.tx.eofSubmitted = true then { m with ended := some m.handed.length }
        else m.deferData) := by
      split
      · exact awake_of_none hnone
      · exact awake_of_none hnone
    exact iff_of_true hawake fun h => h.2.1 hnone
  · rename_i h hh
    dsimp only
    split
    · rename_i hleft
      refine iff_of_true ?_ fun h => h.2.2 hleft
      split
      · rename_i hended
        intro _ hmore _
        -- there is nothing left of this write, and its end has been given, if it has one
        rcases hmore with hbytes | ⟨hrequested, hsubmitted⟩
        · have hbytes' : m.unsent ≠ [] := hbytes
          rw [hunsent] at hbytes'
          exact absurd hleft hbytes'
        · have hrequested' : m.tx.eofRequested = true := hrequested
          have hsubmitted' : m.tx.eofSubmitted = false := hsubmitted
          rw [hrequested', hsubmitted'] at hended
          exact nomatch hended
      · exact awake_of_none rfl
    · rename_i hleft
      have hmore : m.ToHandOver := .inl (hunsent ▸ hleft)
      have hsome : m.tx.writeHandler ≠ none := by
        rw [hh]
        exact nofun
      split
      · rename_i hcount
        refine iff_of_false ?_ fun hroom => hroom ⟨by rw [hcount], hsome, hleft⟩
        intro hawake
        have hmore' : m.deferData.ToHandOver := hmore
        exact nomatch hawake hsome hmore' hopen
      · rename_i hcount
        refine iff_of_true ?_ fun h => hcount (Action.dataReader.inj h.1)
        have hasking : m.tx.isDeferred = false := hm hsome hmore hopen
        exact awake_offered hasking

theorem Awake.onWriteOffset (hm : Awake m) (mode : WriteMode) (len : Nat) :
    Awake (m.onWriteOffset mode len) := by
  unfold Stream.onWriteOffset
  dsimp only
  split
  · exact hm
  · split
    · rename_i hnone
      exact awake_of_none hnone
    · split
      · exact hm
      · exact awake_of_none rfl

theorem Awake.dropWriter (hm : Awake m) : Awake m.dropWriter := by
  unfold Stream.dropWriter
  split
  · exact Awake.of_untouched (m := { m with writer := false, writerHandle := .released }) hm
      (untouched_maybeCloseStream _)
  · exact hm

theorem awake_destroy (m : Stream) : Awake m.destroy := by
  obtain ⟨u, _, _, heq⟩ := destroy_outgoing m
  rw [heq]
  split
  · exact awake_of_none rfl
  · exact awake_of_none ‹_›

/-- **Step lemma**: nothing else puts a stream to sleep that has something to send. -/
theorem Awake.step_iff (hm : Awake m) (h : step m a = some t) : Awake t ↔ ¬m.Starves a := by
  have hkeep (hreader : ∀ mode veccnt, a = .dataReader veccnt → m.backend = .v2 mode →
      m.closed = false → m.destroyed = false → m.framed = m.handed.length →
        Awake (m.dataReader mode veccnt)) : Awake t :=
    step_keeps (fun _ _ hm hsame => hm.of_untouched hsame) keeps_awake
      (fun h' buffer eof _ _ => hm.asyncWrite h' buffer eof) hm.cancelWrite
      (fun length hb _ _ => hm.producerCallback hb length) hreader
      (fun mode len _ _ _ _ _ => hm.onWriteOffset mode len) (fun _ => hm.dropWriter)
      (fun _ => awake_destroy m) hm h
  cases a with
  | dataReader veccnt =>
    rw [step] at h
    split at h
    · cases h
    · rename_i mode hb
      obtain ⟨hguard, h⟩ := Option.ite_none_right_eq_some.mp h
      simp only [open_, Bool.and_eq_true, Bool.not_eq_true', decide_eq_true_eq] at hguard
      obtain ⟨⟨⟨⟨_, hclosed⟩, _⟩, _⟩, _⟩ := hguard
      rw [← Option.some.inj h]
      exact hm.dataReader_iff hb hclosed veccnt
  | _ => exact iff_of_true (hkeep fun _ _ h => by cases h) fun hstarves => by cases hstarves.1

/-! ### Runs -/

theorem awake_fresh (hm : Fresh m) : Awake m := by
  obtain ⟨_, _, rfl | rfl⟩ := hm
  · exact awake_of_none rfl
  · exact awake_of_none rfl

/-- **No lost wake-up**: a write that is parked, and that nghttp2 has not been given all of, finds
the stream awake in every state of a run, exactly if nghttp2 never asks for the bytes of one without
any room for them. -/
theorem awake_iff (hm : Fresh m) (hrun : run step m as = some t) :
    Throughout step Awake m as ↔ Meets step (fun m a => ¬m.Starves a) m as :=
  throughout_iff_meets (I := fun _ => True) (fun _ _ _ _ _ => trivial)
    (fun _ _ _ _ hs h => hs.step_iff h) trivial (awake_fresh hm) hrun

/-- Two writes, the second of which the handler of the first one starts while nghttp2 asks; it is
cancelled, and then the body ends. -/
def wakeUps : List Action :=
  [.producer 10, .asyncWrite ⟨0, none⟩ [1, 2, 3] false, .producer 2, .producer 2,
    .asyncWrite ⟨1, none⟩ [4] false, .ret, .cancelWrite, .producer 10,
    .asyncWrite ⟨2, none⟩ [] true]

theorem awake_wakeUps :
    Throughout step Awake (client .v1 1000) wakeUps ∧
      (run step (client .v1 1000) wakeUps).isSome = true := by
  have hsome : (run step (client .v1 1000) wakeUps).isSome = true := by decide +kernel
  obtain ⟨t, hrun⟩ := Option.isSome_iff_exists.mp hsome
  refine ⟨(awake_iff ⟨_, _, .inl rfl⟩ hrun).mpr ?_, hsome⟩
  apply meets_of_forall
  intro a ha s hstarves
  rw [hstarves.1] at ha
  exact absurd ha (by decide)

/-- nghttp2 asks with no room, and does not ask again: there is nobody to resume the stream. -/
theorem not_awake :
    ¬Throughout step Awake (server (.v2 .staged) 1000)
      [.asyncWrite ⟨0, none⟩ [1, 2, 3] true, .dataReader 0] := by
  intro h
  have hlast := (h.2 _ rfl).2 _ rfl
  exact nomatch hlast nofun (.inl nofun) rfl

end AnyHttp.H2.Stream
