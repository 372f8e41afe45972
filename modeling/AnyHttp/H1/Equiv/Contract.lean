import AnyHttp.Contract
import AnyHttp.H1.Equiv.Sequencing

/-!
# The contract of the HTTP/1.1 writer

A body has ended only when its last bytes have been written, so that a `write_eof()` that fails, or
is cancelled, has not ended it: the connection is unusable by then, and that is what later writes
are told.  Detaching the writer changes nothing (`honours`).

What a session does to the writer of a response is a run of the writer (`writer_run`).
-/

namespace AnyHttp.H1.Writer

open Lib

variable {b : Beast} {w w' : Writer} {phase : EndPhase}

/-- What can happen to a writer. -/
inductive Act
  | message (m : Head)
  | writeHead (m : Head) (bodiless : Bool)
  | write (data : List UInt8) (eof : Bool)
  | emit (n : Nat)
  | finish (ec : ErrorCode)
  | detach
deriving DecidableEq, Repr

variable (b) in
def step (w : Writer) : Act → Option Writer
  | .message m => some { w with message := m }
  | .writeHead m bodiless =>
    if w.writing = none ∧ (bodiless = true → w.begun = none) then
      some ({ w with message := m }.writeHead b bodiless)
    else none
  | .write data eof =>
    if w.writing = none then
      match w.answer data eof with
      | some _ => some w
      | none => some (w.write b data eof)
    else none
  | .emit n => w.writing.map fun p => w.emit p n
  | .finish ec =>
    match w.writing with
    | some p => if ec = .success → p.rest = [] then some (w.finish p ec) else none
    | none => none
  | .detach => some w.detach

/-- There is nothing else that can happen to the writer of a session. -/
theorem Op.eq_or_step {retry : Bool} {bytes : List UInt8} (h : Op b retry w bytes w') :
    w' = w ∨ ∃ a, step b w a = some w' := by
  cases h with
  | keep => exact .inl rfl
  | detach => exact .inr ⟨.detach, rfl⟩
  | message m => exact .inr ⟨.message m, rfl⟩
  | writeHead m bodiless hidle _ hbodiless =>
    exact .inr ⟨.writeHead m bodiless, if_pos ⟨hidle, hbodiless⟩⟩
  | write data eof hidle hanswer =>
    refine .inr ⟨.write data eof, ?_⟩
    simp only [step, if_pos hidle, hanswer]
  | emit p n hpass =>
    refine .inr ⟨.emit n, ?_⟩
    simp only [step, hpass, Option.map_some]
  | finish p ec hpass hrest =>
    refine .inr ⟨.finish ec, ?_⟩
    simp only [step, hpass]
    exact if_pos hrest

/-- The operation that fails was to end the body. -/
def failsEnd (w : Writer) : Act → Bool
  | .finish ec => decide (ec ≠ .success) && w.writing.any Pass.eof
  | _ => false

variable (b) in
def model : WriterModel Writer Act where
  step := step b
  write
    | .write data eof => some (data, eof)
    | _ => none
  answer := answer
  ready w := w.writing.isNone
  handed w := w.eofSubmitted
  withdraws := failsEnd
  detaches
    | .detach => true
    | _ => false

/-! ### The invariant -/

structure EndInv (w : Writer) (phase : EndPhase) : Prop where
  fresh : w.begun = none → w.writing = none ∧ w.eofSubmitted = false
  pass : ∀ p, w.writing = some p → p.eof = true → w.eofSubmitted = false
  ended : phase = .ended → w.eofSubmitted = true ∨ ∃ p, w.writing = some p ∧ p.eof = true
  withdrawn : phase = .withdrawn →
    w.eofSubmitted = false ∧ w.cancelled = true ∧ w.begun ≠ none ∧
      ∀ p, w.writing = some p → p.eof = false

theorem endInv_init (m : Head) (attached : Bool) :
    EndInv { attached := attached, message := m } .unended where
  fresh _ := ⟨rfl, rfl⟩
  pass _ h := by cases h
  ended h := by cases h
  withdrawn h := by cases h

theorem EndInv.writeHead (hw : EndInv w phase) (m : Head) {bodiless : Bool}
    (hidle : w.writing = none) (hbodiless : bodiless = true → w.begun = none) :
    EndInv ({ w with message := m }.writeHead b bodiless) phase := by
  constructor
  · intro h
    cases h
  · intro p hp heof
    rw [← Option.some.inj hp] at heof
    exact (hw.fresh (hbodiless heof)).2
  · intro hended
    rcases hw.ended hended with heof | ⟨p, hp, _⟩
    · exact .inl heof
    · exact absurd (hp.symm.trans hidle) (by simp)
  · intro hwithdrawn
    obtain ⟨heof, hc, hbegun, _⟩ := hw.withdrawn hwithdrawn
    refine ⟨heof, hc, nofun, ?_⟩
    intro p hp
    rw [← Option.some.inj hp]
    exact Bool.eq_false_of_not_eq_true fun h => hbegun (hbodiless h)

/-- A write that is accepted: the end has not been asked for before. -/
theorem EndInv.write (hw : EndInv w phase) {data : List UInt8} {eof : Bool}
    (hidle : w.writing = none) (hanswer : w.answer data eof = none) :
    EndInv (w.write b data eof) (if eof = true then .ended else phase) := by
  obtain ⟨heof, _, hc⟩ := answer_eq_none hanswer
  have hopen : phase = .unended := by
    cases phase with
    | unended => rfl
    | ended =>
      -- the end that was asked for is submitted, or on its way
      rcases hw.ended rfl with h | ⟨p, hp, _⟩
      · exact absurd (h.symm.trans heof) (by decide)
      · exact absurd (hp.symm.trans hidle) (by simp)
    | withdrawn => exact absurd ((hw.withdrawn rfl).2.1.symm.trans hc) (by decide)
  subst hopen
  constructor
  · intro h
    cases h
  · intro _ _ _
    exact heof
  · intro hended
    refine .inr ⟨_, rfl, ?_⟩
    cases eof with
    | true => rfl
    | false => cases hended
  · intro hwithdrawn
    cases eof <;> cases hwithdrawn

theorem EndInv.emit (hw : EndInv w phase) {p : Pass} (n : Nat) (hpass : w.writing = some p) :
    EndInv (w.emit p n) phase := by
  constructor
  · intro h
    exact absurd ((hw.fresh h).1.symm.trans hpass) (by simp)
  · intro q hq heof
    rw [← Option.some.inj hq] at heof
    exact hw.pass p hpass heof
  · intro hended
    rcases hw.ended hended with heof | ⟨q, hq, heof⟩
    · exact .inl heof
    · exact .inr ⟨_, rfl, Option.some.inj (hpass.symm.trans hq) ▸ heof⟩
  · intro hwithdrawn
    obtain ⟨heof, hc, hbegun, hrest⟩ := hw.withdrawn hwithdrawn
    refine ⟨heof, hc, hbegun, ?_⟩
    intro q hq
    rw [← Option.some.inj hq]
    exact hrest p hpass

/-- The end of a pass: unless the one that was to end the body has failed, the body has ended if
that was asked for. -/
theorem EndInv.finish (hw : EndInv w phase) {p : Pass} {ec : ErrorCode}
    (hpass : w.writing = some p) :
    EndInv (w.finish p ec) (if ec ≠ .success ∧ p.eof = true then .withdrawn else phase) := by
  have hbegun : w.begun ≠ none := by
    intro h
    exact absurd ((hw.fresh h).1.symm.trans hpass) (by simp)
  constructor
  · intro h
    exact absurd h hbegun
  · intro _ h
    cases h
  · intro hended
    left
    -- a pass that fails takes the end of the body back
    by_cases hfails : ec ≠ .success ∧ p.eof = true
    · rw [if_pos hfails] at hended
      cases hended
    · rw [if_neg hfails] at hended
      rcases hw.ended hended with heof | ⟨q, hq, heof⟩
      · simp [Writer.finish, heof]
      · have hp : p.eof = true := Option.some.inj (hpass.symm.trans hq) ▸ heof
        have hec : ec = .success := not_not.mp fun h => hfails ⟨h, hp⟩
        simp [Writer.finish, hp, hec]
  · intro hwithdrawn
    by_cases hfails : ec ≠ .success ∧ p.eof = true
    · refine ⟨?_, ?_, hbegun, fun _ h => by cases h⟩
      · simp [Writer.finish, hw.pass p hpass hfails.2, hfails.1]
      · simp [Writer.finish, hfails.1]
    · rw [if_neg hfails] at hwithdrawn
      obtain ⟨heof, hc, _, hrest⟩ := hw.withdrawn hwithdrawn
      refine ⟨?_, ?_, hbegun, fun _ h => by cases h⟩
      · simp [Writer.finish, heof, hrest p hpass]
      · simp [Writer.finish, hc]

theorem EndInv.step (hw : EndInv w phase) {a : Act} (h : step b w a = some w') :
    EndInv w' ((model b).next w a phase) := by
  cases a with
  | message m =>
    rw [← Option.some.inj h, (model b).next_of_not_write rfl rfl]
    exact ⟨hw.1, hw.2, hw.3, hw.4⟩
  | detach =>
    rw [← Option.some.inj h, (model b).next_of_not_write rfl rfl]
    exact ⟨hw.1, hw.2, hw.3, hw.4⟩
  | writeHead m bodiless =>
    obtain ⟨⟨hidle, hbodiless⟩, heq⟩ := Option.ite_none_right_eq_some.mp h
    rw [← Option.some.inj heq, (model b).next_of_not_write rfl rfl]
    exact hw.writeHead m hidle hbodiless
  | write data eof =>
    obtain ⟨hidle, heq⟩ := Option.ite_none_right_eq_some.mp h
    rw [(model b).next_of_write (a := .write data eof) rfl rfl]
    show EndInv w' (if eof && (w.answer data eof).isNone then .ended else phase)
    -- a write is answered at once, or begins a pass
    cases hanswer : w.answer data eof with
    | some ec =>
      rw [hanswer] at heq
      rw [← Option.some.inj heq, Option.isNone_some, Bool.and_false, if_neg Bool.false_ne_true]
      exact hw
    | none =>
      rw [hanswer] at heq
      rw [← Option.some.inj heq, Option.isNone_none, Bool.and_true]
      exact hw.write hidle hanswer
  | emit n =>
    obtain ⟨p, hpass, rfl⟩ := Option.map_eq_some_iff.mp h
    rw [(model b).next_of_not_write rfl rfl]
    exact hw.emit n hpass
  | finish ec =>
    cases hpass : w.writing with
    | none =>
      simp only [Writer.step, hpass] at h
      cases h
    | some p =>
      simp only [Writer.step, hpass] at h
      obtain ⟨_, heq⟩ := Option.ite_none_right_eq_some.mp h
      have hnext : (model b).next w (.finish ec) phase =
          if ec ≠ .success ∧ p.eof = true then .withdrawn else phase := by
        have hfails : failsEnd w (.finish ec) = (decide (ec ≠ .success) && p.eof) := by
          simp only [failsEnd, hpass, Option.any_some]
        by_cases hcond : ec ≠ .success ∧ p.eof = true
        · rw [if_pos hcond]
          apply (model b).next_of_withdraws
          exact hfails.trans (by simp [hcond.1, hcond.2])
        · rw [if_neg hcond]
          apply (model b).next_of_not_write rfl
          exact hfails.trans (by simpa using hcond)
      rw [← Option.some.inj heq, hnext]
      exact hw.finish hpass

theorem EndInv.contract (hw : EndInv w phase) : (model b).Contract w phase where
  empty := rfl
  data := by
    intro hended hready data hdata eof
    have hidle : w.writing = none := Option.isNone_iff_eq_none.mp hready
    have heof : w.eofSubmitted = true := by
      rcases hw.ended hended with heof | ⟨p, hp, _⟩
      · exact heof
      · exact absurd (hp.symm.trans hidle) (by simp)
    show w.answer data eof = some .brokenPipe
    simp [answer, hdata, heof]
  again := by
    rintro ⟨heof, _⟩ _
    have heof : w.eofSubmitted = true := heof
    show w.answer [] true = some .success
    simp [answer, heof]
  withdrawn := by
    intro hwithdrawn _ data hdata eof
    obtain ⟨heof, hc, _⟩ := hw.withdrawn hwithdrawn
    show w.answer data eof ≠ some .brokenPipe
    cases hattached : w.attached <;> simp [answer, hdata, heof, hc, hattached]

/-- What has been written stays written. -/
theorem eofSubmitted_of_step {a : Act} (h : step b w a = some w') (heof : w.eofSubmitted = true) :
    w'.eofSubmitted = true := by
  cases a with
  | message m =>
    rw [← Option.some.inj h]
    exact heof
  | detach =>
    rw [← Option.some.inj h]
    exact heof
  | writeHead m bodiless =>
    obtain ⟨_, heq⟩ := Option.ite_none_right_eq_some.mp h
    rw [← Option.some.inj heq]
    exact heof
  | write data eof =>
    obtain ⟨_, heq⟩ := Option.ite_none_right_eq_some.mp h
    split at heq
    · rw [← Option.some.inj heq]
      exact heof
    · rw [← Option.some.inj heq]
      exact heof
  | emit n =>
    obtain ⟨p, _, rfl⟩ := Option.map_eq_some_iff.mp h
    exact heof
  | finish ec =>
    cases hpass : w.writing with
    | none =>
      simp only [Writer.step, hpass] at h
      cases h
    | some p =>
      simp only [Writer.step, hpass] at h
      obtain ⟨_, heq⟩ := Option.ite_none_right_eq_some.mp h
      rw [← Option.some.inj heq]
      show (w.eofSubmitted || _) = true
      rw [heof, Bool.true_or]

theorem kept {a : Act} (h : step b w a = some w') : (model b).Kept w a w' where
  handed := eofSubmitted_of_step h
  detached := by
    intro hdetach _
    cases a with
    | detach => rfl
    | _ => cases hdetach

/-- **The HTTP/1.1 writer honours the contract**, in every run. -/
theorem honours (m : Head) (attached : Bool) :
    (model b).Honours { attached := attached, message := m } :=
  (model b).honours_of_inv (endInv_init m attached) (fun _ _ _ _ hw h => hw.step h)
    (fun _ _ hw => hw.contract) fun _ _ _ _ _ h => kept h

end AnyHttp.H1.Writer

namespace AnyHttp.H1

open Lib Writer

/-! ### The writers of a session -/

/-- A writer stays as it is, or something happens to it that can happen to a writer. -/
theorem Change.next {b : Beast} {free : Bool} {ws ws' : List Writer} {bytes : List UInt8}
    (h : Change b free ws bytes ws') {i : Nat} {w : Writer} (hw : ws[i]? = some w) :
    ∃ w', ws'[i]? = some w' ∧ (w' = w ∨ ∃ a, Writer.step b w a = some w') := by
  have hi : i < ws.length := (List.getElem?_eq_some_iff.mp hw).1
  have hmap : ∀ {f : Writer → Writer}, (ws.map f)[i]? = some (f w) := by
    intro f
    rw [List.getElem?_map, hw, Option.map_some]
  cases h with
  | op j v v' _ hv hop =>
    -- the writer that changes, or another one
    by_cases hj : j = i
    · subst hj
      obtain rfl : v = w := Option.some.inj (hv.symm.trans hw)
      exact ⟨v', List.getElem?_set_self hi, hop.eq_or_step⟩
    · exact ⟨w, (List.getElem?_set_ne hj).trans hw, .inl rfl⟩
  | map f hf => exact ⟨f w, hmap, (hf w).eq_or_step⟩
  | add f v hf =>
    refine ⟨f w, ?_, (hf w).eq_or_step⟩
    rw [List.getElem?_append_left (by rwa [List.length_map])]
    exact hmap

/-- **What a session does to the writer of a response** is a run of the writer. -/
theorem Server.writer_run {P : Type*} {Γ : Context P} {s t : Server P} {as : List Action}
    (hrun : run (Server.step Γ) s as = some t) {i : Nat} {w : Writer}
    (hw : s.writers[i]? = some w) :
    ∃ w' acts, t.writers[i]? = some w' ∧ run (Writer.step Γ.beast) w acts = some w' := by
  -- on the run: every step of the session is one of this writer, or none
  induction as generalizing s w with
  | nil => exact ⟨w, [], Option.some.inj hrun ▸ hw, rfl⟩
  | cons a as ih =>
    obtain ⟨u, hstep, hrest⟩ := run_cons_eq_some.mp hrun
    have horder : true = false → Server.Orderly s a := fun h => absurd h (by decide)
    obtain ⟨_, hchange, _⟩ := Server.step_change horder hstep
    obtain ⟨v, hv, hnext⟩ := hchange.next hw
    obtain ⟨w', acts, hw', hacts⟩ := ih hrest hv
    rcases hnext with rfl | ⟨act, hact⟩
    · exact ⟨w', acts, hw', hacts⟩
    · exact ⟨w', act :: acts, hw', run_cons_eq_some.mpr ⟨v, hact, hacts⟩⟩

end AnyHttp.H1
