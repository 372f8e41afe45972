import AnyHttp.H1.Writer

/-!
# What a writer puts on the connection

`Writer.Op b retry w bytes w'` is everything that can happen to a writer, with the bytes that reach
the connection on the way; without `retry`, a message that could not be written is not submitted
again.  `Writer.Inv` is what these operations preserve: unless an operation has failed, what has
been emitted is, together with the pass in progress, the script: the header and the accepted pieces
of the body.  Once the end of the body has been written (`eofSubmitted`), the message is complete,
and nothing comes after it (`Op.eq_nil_of_complete`).  Without `retry`, what has been emitted is the
beginning of the script in any case (`Tidy`).
-/

namespace AnyHttp.H1.Writer

variable {b : Beast} {retry : Bool} {w w' : Writer} {bytes : List UInt8}

inductive Op (b : Beast) (retry : Bool) : Writer → List UInt8 → Writer → Prop
  | keep (w : Writer) : Op b retry w [] w
  | detach (w : Writer) : Op b retry w [] w.detach
  | message (w : Writer) (m : Head) : Op b retry w [] { w with message := m }
  | writeHead (w : Writer) (m : Head) (bodiless : Bool) (hidle : w.writing = none)
      (hretry : retry = false → w.cancelled = false)
      (hbodiless : bodiless = true → w.begun = none) :
      Op b retry w [] ({ w with message := m }.writeHead b bodiless)
  | write (w : Writer) (data : List UInt8) (eof : Bool) (hidle : w.writing = none)
      (hanswer : w.answer data eof = none) : Op b retry w [] (w.write b data eof)
  | emit (w : Writer) (p : Pass) (n : Nat) (hpass : w.writing = some p) :
      Op b retry w (p.rest.take n) (w.emit p n)
  | finish (w : Writer) (p : Pass) (ec : ErrorCode) (hpass : w.writing = some p)
      (hrest : ec = .success → p.rest = []) : Op b retry w [] (w.finish p ec)

/-- Pieces of a body the last of which ends it; or there are none. -/
def Ended (pieces : List (List UInt8 × Bool)) : Prop :=
  pieces = [] ∨ ∃ before data, pieces = before ++ [(data, true)] ∧ ∀ x ∈ before, x.2 = false

structure Inv (b : Beast) (w : Writer) : Prop where
  /-- Before its header, a message is nothing. -/
  fresh : w.begun = none →
    w.accepted = [] ∧ w.emitted = [] ∧ w.headerDone = false ∧ w.writing = none ∧
      w.eofSubmitted = false ∧ w.cancelled = false
  idle : w.cancelled = false → w.writing = none →
    w.emitted = w.script b ∧ (w.begun ≠ none → w.headerDone = true)
  pass : ∀ p, w.writing = some p → w.cancelled = false → w.emitted ++ p.rest = w.script b
  open_idle : w.cancelled = false → w.writing = none → w.eofSubmitted = false →
    ∀ x ∈ w.accepted, x.2 = false
  open_pass : ∀ p, w.writing = some p → w.cancelled = false → p.eof = false →
    w.eofSubmitted = false → ∀ x ∈ w.accepted, x.2 = false
  end_pass : ∀ p, w.writing = some p → p.eof = true → w.cancelled = false ∧ Ended w.accepted
  done : w.eofSubmitted = true →
    w.headerDone = true ∧ w.Complete b ∧ ∀ p, w.writing = some p → p.rest = []

/-- What has been emitted is the beginning of the message, and nothing is emitted after
a failure. -/
structure Tidy (b : Beast) (w : Writer) : Prop where
  emitted_of_script : w.emitted <+: w.script b
  failed : w.cancelled = true → w.writing = none

theorem script_of_begun {head : Head} (h : w.begun = some head) :
    w.script b = b.head head ++ w.accepted.flatMap fun x => b.body head x.1 x.2 := by
  rw [script, h]

theorem complete_of_ended {head : Head} (heof : w.eofSubmitted = true)
    (hbegun : w.begun = some head) (hemitted : w.emitted = w.script b) (hended : Ended w.accepted) :
    w.Complete b :=
  ⟨heof, head, hbegun, hemitted.trans (script_of_begun hbegun), hended⟩

theorem inv_init (m : Head) (attached : Bool) :
    Inv b { attached := attached, message := m } where
  fresh _ := ⟨rfl, rfl, rfl, rfl, rfl, rfl⟩
  idle _ _ := ⟨rfl, fun h => absurd rfl h⟩
  pass _ h := nomatch h
  open_idle _ _ _ _ hx := nomatch hx
  open_pass _ h := nomatch h
  end_pass _ h := nomatch h
  done h := nomatch h

theorem tidy_init (m : Head) (attached : Bool) :
    Tidy b { attached := attached, message := m } where
  emitted_of_script := List.nil_prefix
  failed h := nomatch h

/-- What a write that gets to the connection has found. -/
theorem answer_eq_none {data : List UInt8} {eof : Bool} (h : w.answer data eof = none) :
    w.eofSubmitted = false ∧ w.attached = true ∧ w.cancelled = false := by
  unfold answer at h
  split_ifs at h with _ heof hattached hcancelled
  exact ⟨by simpa using heof, by simpa using hattached, by simpa using hcancelled⟩

/-- A header that has been written is the one the message has begun with. -/
theorem Inv.begun_of_headerDone (hw : Inv b w) (h : w.headerDone = true) :
    ∃ head, w.begun = some head := by
  cases hb : w.begun with
  | none => exact absurd ((hw.fresh hb).2.2.1.symm.trans h) (by decide)
  | some head => exact ⟨head, rfl⟩

theorem Inv.begun_of_pass (hw : Inv b w) {p : Pass} (h : w.writing = some p) : w.begun ≠ none := by
  intro hb
  exact absurd (h.symm.trans (hw.fresh hb).2.2.2.1) (by simp)

/-! ### Starting a pass -/

/-- The header that goes with the next pass is what is missing of the script. -/
theorem Inv.emitted_header (hw : Inv b w) (hidle : w.writing = none) (hc : w.cancelled = false)
    (head : Head) (hhead : w.headerDone = true → w.begun = some head) :
    w.emitted ++ w.header b head =
      b.head head ++ w.accepted.flatMap fun x => b.body head x.1 x.2 := by
  obtain ⟨hemitted, hdone⟩ := hw.idle hc hidle
  cases hd : w.headerDone with
  | true =>
    rw [header, if_pos hd, List.append_nil, hemitted, script_of_begun (hhead hd)]
  | false =>
    -- without a header so far, nothing has been accepted or emitted
    have hbegun : w.begun = none := by
      by_contra h
      exact absurd ((hdone h).symm.trans hd) (by decide)
    obtain ⟨haccepted, hnil, _⟩ := hw.fresh hbegun
    simp [header, hd, haccepted, hnil]

theorem script_writeHead (hw : Inv b w) (m : Head) (bodiless : Bool) (hidle : w.writing = none)
    (hc : w.cancelled = false) : w.emitted ++ w.header b m =
      ({ w with message := m }.writeHead b bodiless).script b := by
  cases hd : w.headerDone with
  | true =>
    obtain ⟨head, hhead⟩ := hw.begun_of_headerDone hd
    rw [header, if_pos hd, List.append_nil, (hw.idle hc hidle).1, script_of_begun hhead]
    simp [Writer.writeHead, script, hhead]
  | false =>
    rw [hw.emitted_header hidle hc m (fun h => absurd (h.symm.trans hd) (by decide))]
    simp [Writer.writeHead, script]

theorem Inv.writeHead (hw : Inv b w) (m : Head) (bodiless : Bool) (hidle : w.writing = none)
    (hbodiless : bodiless = true → w.begun = none) :
    Inv b ({ w with message := m }.writeHead b bodiless) := by
  constructor
  · intro h
    exact nomatch h
  · intro _ h
    exact nomatch h
  · intro p hp hc
    rw [← Option.some.inj hp]
    exact script_writeHead hw m bodiless hidle hc
  · intro _ h
    exact nomatch h
  · intro p _ hc _ heof
    exact hw.open_idle hc hidle heof
  · intro p hp heof
    rw [← Option.some.inj hp] at heof
    have hfresh := hw.fresh (hbodiless heof)
    exact ⟨hfresh.2.2.2.2.2, .inl hfresh.1⟩
  · intro heof
    -- the header is out, so there is nothing to emit any more
    obtain ⟨hdone, ⟨_, head, hhead, hcomplete, hended⟩, _⟩ := hw.done heof
    refine ⟨hdone, ⟨heof, head, ?_, hcomplete, hended⟩, ?_⟩
    · simp [Writer.writeHead, hdone, hhead]
    · intro p hp
      rw [← Option.some.inj hp]
      simp [header, hdone]

theorem script_write (hw : Inv b w) (data : List UInt8) (eof : Bool) (hidle : w.writing = none)
    (hc : w.cancelled = false) : w.emitted ++ (w.header b (w.begun.getD w.message) ++
      b.body (w.begun.getD w.message) data eof) = (w.write b data eof).script b := by
  have hhead : w.headerDone = true → w.begun = some (w.begun.getD w.message) := by
    intro hd
    obtain ⟨head, hhead⟩ := hw.begun_of_headerDone hd
    rw [hhead, Option.getD_some]
  rw [← List.append_assoc, hw.emitted_header hidle hc _ hhead]
  simp [Writer.write, script, List.append_assoc]

theorem Inv.write (hw : Inv b w) (data : List UInt8) (eof : Bool) (hidle : w.writing = none)
    (hanswer : w.answer data eof = none) : Inv b (w.write b data eof) := by
  obtain ⟨heof, _, hc⟩ := answer_eq_none hanswer
  have hopen := hw.open_idle hc hidle heof
  constructor
  · intro h
    exact nomatch h
  · intro _ h
    exact nomatch h
  · intro p hp _
    rw [← Option.some.inj hp]
    exact script_write hw data eof hidle hc
  · intro _ h
    exact nomatch h
  · intro p hp _ hmore _ x hx
    rw [← Option.some.inj hp] at hmore
    rcases List.mem_append.mp hx with hx | hx
    · exact hopen x hx
    · rw [List.mem_singleton.mp hx]
      exact hmore
  · intro p hp hend
    rw [← Option.some.inj hp] at hend
    refine ⟨hc, .inr ⟨w.accepted, data, ?_, hopen⟩⟩
    simp only [Writer.write]
    rw [show eof = true from hend]
  · intro h
    exact absurd (h.symm.trans heof) (by decide)

/-! ### The rest of a pass -/

theorem Inv.emit (hw : Inv b w) {p : Pass} (n : Nat) (hpass : w.writing = some p) :
    Inv b (w.emit p n) := by
  constructor
  · intro h
    exact absurd h (hw.begun_of_pass hpass)
  · intro _ h
    exact nomatch h
  · intro q hq hc
    rw [← Option.some.inj hq]
    show w.emitted ++ p.rest.take n ++ p.rest.drop n = w.script b
    rw [List.append_assoc, List.take_append_drop, hw.pass p hpass hc]
  · intro _ h
    exact nomatch h
  · intro q hq hc hmore heof
    rw [← Option.some.inj hq] at hmore
    exact hw.open_pass p hpass hc hmore heof
  · intro q hq hend
    rw [← Option.some.inj hq] at hend
    exact hw.end_pass p hpass hend
  · intro heof
    obtain ⟨hdone, ⟨_, head, hhead, hemitted, hended⟩, hrest⟩ := hw.done heof
    have hnil : p.rest = [] := hrest p hpass
    refine ⟨hdone, ⟨heof, head, hhead, ?_, hended⟩, ?_⟩
    · simpa [Writer.emit, hnil] using hemitted
    · intro q hq
      rw [← Option.some.inj hq, hnil]
      exact List.drop_nil

theorem Inv.finish (hw : Inv b w) {p : Pass} {ec : ErrorCode} (hpass : w.writing = some p)
    (hrest : ec = .success → p.rest = []) : Inv b (w.finish p ec) := by
  have hbegun : w.begun ≠ none := hw.begun_of_pass hpass
  have hok : (w.finish p ec).cancelled = false → w.cancelled = false ∧ ec = .success := by
    intro h
    simpa [Writer.finish] using h
  have hemitted : w.cancelled = false → ec = .success → w.emitted = w.script b := by
    intro hc h
    rw [← hw.pass p hpass hc, hrest h, List.append_nil]
  constructor
  · intro h
    exact absurd h hbegun
  · intro h _
    obtain ⟨hc, hec⟩ := hok h
    refine ⟨hemitted hc hec, fun _ => ?_⟩
    simp [Writer.finish, hec]
  · intro _ h
    exact nomatch h
  · intro h _ heof
    obtain ⟨hc, hec⟩ := hok h
    have hmore : p.eof = false ∧ w.eofSubmitted = false := by
      simpa [Writer.finish, hec, and_comm] using heof
    exact hw.open_pass p hpass hc hmore.1 hmore.2
  · intro _ h
    exact nomatch h
  · intro _ h
    exact nomatch h
  · intro heof
    refine and_assoc.mp ⟨?_, fun _ h => nomatch h⟩
    cases h : w.eofSubmitted with
    | true =>
      obtain ⟨hdone, ⟨_, head, hhead, hcomplete, hended⟩, _⟩ := hw.done h
      exact ⟨by simp [Writer.finish, hdone], heof, head, hhead, hcomplete, hended⟩
    | false =>
      have hend : p.eof = true ∧ ec = .success := by
        simpa [Writer.finish, h] using heof
      obtain ⟨hc, hended⟩ := hw.end_pass p hpass hend.1
      obtain ⟨head, hhead⟩ := Option.ne_none_iff_exists'.mp hbegun
      refine ⟨by simp [Writer.finish, hend.2], ?_⟩
      exact complete_of_ended heof hhead (hemitted hc hend.2) hended

/-- **Every operation keeps the invariant.** -/
theorem Inv.op (hw : Inv b w) (h : Op b retry w bytes w') : Inv b w' := by
  cases h with
  | keep => exact hw
  | detach => exact ⟨hw.1, hw.2, hw.3, hw.4, hw.5, hw.6, hw.7⟩
  | message m => exact ⟨hw.1, hw.2, hw.3, hw.4, hw.5, hw.6, hw.7⟩
  | writeHead m bodiless hidle hretry hbodiless => exact hw.writeHead m bodiless hidle hbodiless
  | write data eof hidle hanswer => exact hw.write data eof hidle hanswer
  | emit p n hpass => exact hw.emit n hpass
  | finish p ec hpass hrest => exact hw.finish hpass hrest

/-- Without another attempt after a failure, what is emitted stays the beginning of the message. -/
theorem Tidy.op (ht : Tidy b w) (hw : Inv b w) (h : Op b false w bytes w') : Tidy b w' := by
  cases h with
  | keep => exact ht
  | detach => exact ⟨ht.1, ht.2⟩
  | message m => exact ⟨ht.1, ht.2⟩
  | writeHead m bodiless hidle hretry hbodiless =>
    have hc := hretry rfl
    refine ⟨?_, fun h => absurd (h.symm.trans hc) (by decide)⟩
    rw [← script_writeHead hw m bodiless hidle hc]
    exact List.prefix_append _ _
  | write data eof hidle hanswer =>
    have hc := (answer_eq_none hanswer).2.2
    refine ⟨?_, fun h => absurd (h.symm.trans hc) (by decide)⟩
    rw [← script_write hw data eof hidle hc]
    exact List.prefix_append _ _
  | emit p n hpass =>
    have hc : w.cancelled = false := by
      by_contra h
      exact absurd (hpass.symm.trans (ht.failed (by simpa using h))) (by simp)
    refine ⟨?_, fun h => absurd (h.symm.trans hc) (by decide)⟩
    show w.emitted ++ p.rest.take n <+: w.script b
    rw [← hw.pass p hpass hc]
    exact (List.prefix_append_right_inj _).mpr (List.take_prefix n p.rest)
  | finish p ec hpass hrest => exact ⟨ht.1, fun _ => rfl⟩

/-- The bytes an operation puts on the connection are the ones the writer has emitted by it. -/
theorem Op.emitted_eq (h : Op b retry w bytes w') : w'.emitted = w.emitted ++ bytes := by
  cases h with
  | emit p n hpass => rfl
  | keep => exact (List.append_nil _).symm
  | detach => exact (List.append_nil _).symm
  | message m => exact (List.append_nil _).symm
  | writeHead m bodiless hidle hretry hbodiless => exact (List.append_nil _).symm
  | write data eof hidle hanswer => exact (List.append_nil _).symm
  | finish p ec hpass hrest => exact (List.append_nil _).symm

theorem Op.eofSubmitted (h : Op b retry w bytes w') (heof : w.eofSubmitted = true) :
    w'.eofSubmitted = true := by
  cases h with
  | finish p ec hpass hrest => simp [Writer.finish, heof]
  | keep => exact heof
  | detach => exact heof
  | message m => exact heof
  | writeHead m bodiless hidle hretry hbodiless => exact heof
  | write data eof hidle hanswer => exact heof
  | emit p n hpass => exact heof

/-- **Nothing comes after a complete message.** -/
theorem Op.eq_nil_of_complete (hw : Inv b w) (h : Op b retry w bytes w')
    (hcomplete : w.Complete b) :
    bytes = [] := by
  cases h with
  | emit p n hpass => rw [(hw.done hcomplete.1).2.2 p hpass, List.take_nil]
  | keep => rfl
  | detach => rfl
  | message m => rfl
  | writeHead m bodiless hidle hretry hbodiless => rfl
  | write data eof hidle hanswer => rfl
  | finish p ec hpass hrest => rfl

theorem Op.complete (hw : Inv b w) (h : Op b retry w bytes w') (hcomplete : w.Complete b) :
    w'.Complete b :=
  ((hw.op h).done (h.eofSubmitted hcomplete.1)).2.1

end AnyHttp.H1.Writer
