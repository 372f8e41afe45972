import AnyHttp.RequestHandlers

/-!
# What the request handlers do

Of each coroutine, what its dialogues are, whatever the answers: `echo()` writes what it has read
and nothing else, and ends the response only where the request has ended (`echo_copies`); `drain()`
and `read()` return what they have read once they have been told about its end (`receive_result`);
`send_and_force_eof()` writes a range piece by piece, and ends the body behind it or behind a write
that fails (`send_and_force_eof_sends`), and `generate()` does that with its pattern; `respond()`
and `hello_world()` write their body once, with the end (`hello_world_responds`).
-/

namespace AnyHttp

open Lib

/-- What the coroutine has got. -/
def readOf : Op × OpResult → List UInt8
  | (.readSome _, answer) => if answer.ec = .success then answer.bytes else []
  | _ => []

/-- What it writes. -/
def Op.buffer : Op → List UInt8
  | .write buffer | .writeEof buffer => buffer
  | _ => []

def Op.isWrite : Op → Bool
  | .write _ | .writeEof _ => true
  | _ => false

def writtenOf (x : Op × OpResult) : List UInt8 := x.1.buffer

/-- What it is about to write. -/
def upcoming (next : Option Op) : List UInt8 := (next.map Op.buffer).getD []

/-- Nothing has failed yet. -/
def Smooth (d : List (Op × OpResult)) : Prop := ∀ x ∈ d, x.2.ec = .success

/-- The end of the body has been read. -/
def SeenEof (d : List (Op × OpResult)) : Prop :=
  ∃ size bytes, (Op.readSome size, (⟨.eof, bytes⟩ : OpResult)) ∈ d

/-- After a write that fails nothing else is written. -/
def Stops (d : List (Op × OpResult)) (next : Option Op) : Prop :=
  ∀ e x f, d = e ++ x :: f → x.1.isWrite = true → x.2.ec ≠ .success →
    f.flatMap writtenOf ++ upcoming next = []

variable {d e : List (Op × OpResult)} {op : Op} {answer : OpResult} {next : Option Op}

theorem smooth_nil : Smooth [] := by simp [Smooth]

theorem Smooth.concat (h : Smooth d) (hsuccess : answer.ec = .success) :
    Smooth (d ++ [(op, answer)]) := by
  intro x hx
  rcases List.mem_append.mp hx with hx | hx
  · exact h x hx
  · rw [List.mem_singleton.mp hx]
    exact hsuccess

theorem flatMap_concat {α β : Type*} (f : α → List β) (l : List α) (a : α) :
    (l ++ [a]).flatMap f = l.flatMap f ++ f a := by
  rw [List.flatMap_append, List.flatMap_singleton]

theorem stops_of_writes (h : ∀ x ∈ d, x.1.isWrite = true → x.2.ec = .success) : Stops d next := by
  intro e x f heq hwrite hfails
  refine absurd (h x ?_ hwrite) hfails
  rw [heq]
  exact List.mem_append_right _ (List.mem_cons_self ..)

/-- Only the last write fails. -/
theorem stops_concat {x : Op × OpResult} (h : ∀ y ∈ d, y.1.isWrite = true → y.2.ec = .success)
    (hnext : upcoming next = []) : Stops (d ++ [x]) next := by
  intro e y f heq hwrite hfails
  rcases f.eq_nil_or_concat with rfl | ⟨f, z, rfl⟩
  · exact hnext
  · -- another operation follows, so that this one has not failed
    rw [List.concat_eq_append, ← List.cons_append, ← List.append_assoc] at heq
    obtain ⟨rfl, _⟩ := List.append_inj' heq rfl
    exact absurd (h y (by simp) hwrite) hfails

theorem Stops.init {x : Op × OpResult} (h : Stops (d ++ [x]) none) : Stops d none := by
  rintro e y f rfl hwrite hfails
  have hnil := h e y (f ++ [x]) (by simp) hwrite hfails
  rw [flatMap_concat] at hnil
  have hf : f.flatMap writtenOf = [] :=
    List.append_eq_nil_iff.mp (List.append_eq_nil_iff.mp hnil).1 |>.1
  rw [hf]
  rfl

namespace RequestHandlers

/-! ### `echo()` -/

/-- What `echo()` has done so far, where it waits for `next`. -/
structure Copies (d : List (Op × OpResult)) (next : Option Op) : Prop where
  /-- What has been written, and is about to be, is what has been read. -/
  written : d.flatMap writtenOf ++ upcoming next <+: d.flatMap readOf
  /-- It gives up where a write fails. -/
  stops : Stops d next
  /-- The response ends where the request has ended, and there is nothing else to write. -/
  ends : ∀ buffer, next = some (.writeEof buffer) ∨ (∃ answer, (Op.writeEof buffer, answer) ∈ d) →
    buffer = [] ∧ SeenEof d ∧ d.flatMap writtenOf = d.flatMap readOf ∧
      (∀ size, next ≠ some (.readSome size)) ∧
        ∀ x ∈ d, x.1.isWrite = true → x.2.ec = .success ∨ x.1 = .writeEof []

/-- Everything has gone well, and what has been read has been written, but for `rest`. -/
structure Level (d : List (Op × OpResult)) (rest : List UInt8) : Prop where
  smooth : Smooth d
  unended : ∀ x ∈ d, ∀ buffer, x.1 ≠ .writeEof buffer
  eq : d.flatMap writtenOf ++ rest = d.flatMap readOf

/-- The invariant of the loop. -/
inductive Copying : List (Op × OpResult) → Copy → Prop
  | reading {d : List (Op × OpResult)} : Level d [] → Copying d .reading
  | writing {d : List (Op × OpResult)} {buffer : List UInt8} : Level d buffer →
    Copying d (.writing buffer)
  | ending {d : List (Op × OpResult)} {size : Nat} {bytes : List UInt8} : Level d [] →
    Copying (d ++ [(.readSome size, ⟨.eof, bytes⟩)]) .ending
  | ended {d : List (Op × OpResult)} {size : Nat} {bytes : List UInt8} {answer : OpResult} :
    Level d [] →
    Copying (d ++ [(.readSome size, ⟨.eof, bytes⟩)] ++ [(.writeEof [], answer)]) .returned
  | gaveUp {d : List (Op × OpResult)} {op : Op} {answer : OpResult} : Level d op.buffer →
    (∀ buffer, op ≠ .writeEof buffer) → answer.ec ≠ .success →
    Copying (d ++ [(op, answer)]) .returned

theorem Level.concat {rest : List UInt8} (h : Level d (op.buffer ++ rest))
    (hop : ∀ buffer, op ≠ .writeEof buffer) (hsuccess : answer.ec = .success) :
    Level (d ++ [(op, answer)]) (rest ++ readOf (op, answer)) := by
  refine ⟨h.smooth.concat hsuccess, ?_, ?_⟩
  · intro x hx
    rcases List.mem_append.mp hx with hx | hx
    · exact h.unended x hx
    · rw [List.mem_singleton.mp hx]
      exact hop
  · rw [flatMap_concat, flatMap_concat, ← h.eq, writtenOf]
    simp only [List.append_assoc]

/-- **Step lemma**: every answer preserves `Copying`. -/
theorem Copying.resume {s : Copy} (h : Copying d s) (hnext : copy.next s = some op)
    (answer : OpResult) : Copying (d ++ [(op, answer)]) (copy.resume s answer) := by
  cases h with
  | reading hlevel =>
    obtain rfl : Op.readSome (64 * 1024) = op := Option.some.inj hnext
    show Copying _ (if answer.ec = .eof then .ending
      else if answer.ec ≠ .success then .returned else .writing answer.bytes)
    by_cases heof : answer.ec = .eof
    · obtain ⟨ec, bytes⟩ := answer
      obtain rfl : ec = .eof := heof
      exact .ending hlevel
    · rw [if_neg heof]
      by_cases hsuccess : answer.ec = .success
      · have hread : Level (d ++ [(.readSome (64 * 1024), answer)])
            ([] ++ readOf (.readSome (64 * 1024), answer)) :=
          Level.concat hlevel (by simp) hsuccess
        rw [readOf, if_pos hsuccess] at hread
        rw [if_neg (not_not_intro hsuccess)]
        exact .writing hread
      · rw [if_pos hsuccess]
        exact .gaveUp hlevel (by simp) hsuccess
  | @writing _ buffer hlevel =>
    obtain rfl : Op.write buffer = op := Option.some.inj hnext
    show Copying _ (if answer.ec = .success then .reading else .returned)
    by_cases hsuccess : answer.ec = .success
    · rw [if_pos hsuccess]
      have hbuffer : Level d ((Op.write buffer).buffer ++ []) := by
        show Level d (buffer ++ [])
        rw [List.append_nil]
        exact hlevel
      exact .reading (Level.concat hbuffer (by simp) hsuccess)
    · rw [if_neg hsuccess]
      exact .gaveUp hlevel (by simp) hsuccess
  | ending hlevel =>
    obtain rfl : Op.writeEof [] = op := Option.some.inj hnext
    exact .ended hlevel
  | ended | gaveUp => exact absurd hnext (by simp [copy])

/-- The end of the request is the first thing that is not a success. -/
theorem Level.eof (h : Level d []) (size : Nat) (bytes : List UInt8) :
    SeenEof (d ++ [(.readSome size, ⟨.eof, bytes⟩)]) ∧
      (d ++ [(Op.readSome size, (⟨.eof, bytes⟩ : OpResult))]).flatMap writtenOf =
        (d ++ [(Op.readSome size, (⟨.eof, bytes⟩ : OpResult))]).flatMap readOf ∧
      ∀ x ∈ d ++ [(Op.readSome size, (⟨.eof, bytes⟩ : OpResult))],
        (∀ buffer, x.1 ≠ .writeEof buffer) ∧ (x.1.isWrite = true → x.2.ec = .success) := by
  refine ⟨⟨size, bytes, by simp⟩, ?_, ?_⟩
  · rw [flatMap_concat, flatMap_concat, ← h.eq]
    simp [writtenOf, Op.buffer, readOf]
  · intro x hx
    rcases List.mem_append.mp hx with hx | hx
    · exact ⟨h.unended x hx, fun _ => h.smooth x hx⟩
    · rw [List.mem_singleton.mp hx]
      exact ⟨by simp, by simp [Op.isWrite]⟩

theorem Copying.copies {s : Copy} (h : Copying d s) : Copies d (copy.next s) := by
  cases h with
  | reading hlevel =>
    refine ⟨?_, stops_of_writes fun x hx _ => hlevel.smooth x hx, ?_⟩
    · rw [← hlevel.eq]
      exact List.prefix_rfl
    · rintro buffer (hnext | ⟨answer, hmem⟩)
      · exact absurd hnext (by simp [copy])
      · exact absurd rfl (hlevel.unended _ hmem buffer)
  | writing hlevel =>
    refine ⟨?_, stops_of_writes fun x hx _ => hlevel.smooth x hx, ?_⟩
    · rw [← hlevel.eq]
      exact List.prefix_rfl
    · rintro buffer (hnext | ⟨answer, hmem⟩)
      · exact absurd hnext (by simp [copy])
      · exact absurd rfl (hlevel.unended _ hmem buffer)
  | @ending d size bytes hlevel =>
    obtain ⟨hseen, hall, hevery⟩ := hlevel.eof size bytes
    refine ⟨?_, stops_of_writes fun x hx => (hevery x hx).2, ?_⟩
    · show _ ++ [] <+: _
      rw [List.append_nil]
      exact hall ▸ List.prefix_rfl
    · rintro buffer (hnext | ⟨answer, hmem⟩)
      · obtain rfl := Op.writeEof.inj (Option.some.inj hnext)
        exact ⟨rfl, hseen, hall, by simp [copy],
          fun x hx hwrite => .inl ((hevery x hx).2 hwrite)⟩
      · exact absurd rfl ((hevery _ hmem).1 buffer)
  | @ended d size bytes answer hlevel =>
    obtain ⟨hseen, hall, hevery⟩ := hlevel.eof size bytes
    have hall' : (d ++ [(Op.readSome size, (⟨.eof, bytes⟩ : OpResult))] ++
        [(Op.writeEof [], answer)]).flatMap writtenOf =
        (d ++ [(Op.readSome size, (⟨.eof, bytes⟩ : OpResult))] ++
          [(Op.writeEof [], answer)]).flatMap readOf := by
      rw [List.flatMap_append, hall]
      simp [writtenOf, Op.buffer, readOf]
    refine ⟨?_, stops_concat (fun x hx => (hevery x hx).2) rfl, ?_⟩
    · show _ ++ [] <+: _
      rw [List.append_nil]
      exact hall' ▸ List.prefix_rfl
    · rintro buffer (hnext | ⟨answer', hmem⟩)
      · exact absurd hnext (by simp [copy])
      · obtain ⟨size', bytes', hmem'⟩ := hseen
        refine ⟨?_, ⟨size', bytes', List.mem_append_left _ hmem'⟩, hall', by simp [copy], ?_⟩
        · rcases List.mem_append.mp hmem with hmem | hmem
          · exact absurd rfl ((hevery _ hmem).1 buffer)
          · exact Op.writeEof.inj (congrArg Prod.fst (List.mem_singleton.mp hmem))
        · intro x hx hwrite
          rcases List.mem_append.mp hx with hx | hx
          · exact .inl ((hevery x hx).2 hwrite)
          · rw [List.mem_singleton.mp hx]
            exact .inr rfl
  | @gaveUp d op answer hlevel hop hfails =>
    refine ⟨?_, stops_concat (fun x hx _ => hlevel.smooth x hx) rfl, ?_⟩
    · show _ ++ [] <+: _
      rw [List.append_nil, flatMap_concat, flatMap_concat, writtenOf, hlevel.eq]
      exact List.prefix_append _ _
    · rintro buffer (hnext | ⟨answer', hmem⟩)
      · exact absurd hnext (by simp [copy])
      · rcases List.mem_append.mp hmem with hmem | hmem
        · exact absurd rfl (hlevel.unended _ hmem buffer)
        · exact absurd (congrArg Prod.fst (List.mem_singleton.mp hmem)).symm (hop buffer)

/-- The loop of `echo()`, behind some operations that neither read nor write. -/
theorem copying_of_dialogue {s t : Copy} (h : copy.Dialogue s e t) (hs : Copying d s) :
    Copying (d ++ e) t :=
  h.inv (fun _ _ _ answer hcopying hnext => hcopying.resume hnext answer) hs

/-- The header is submitted first. -/
theorem submit_dialogue {status : Nat} {contentLength : Option Nat} {t : Submit}
    (h : submit.Dialogue (.submitting status contentLength) d t) :
    d = [] ∧ t = .submitting status contentLength ∨
      ∃ answer, d = [(.submit status contentLength, answer)] ∧ t = .submitted answer.ec := by
  cases d with
  | nil => exact .inl ⟨rfl, (Coroutine.dialogue_nil.mp h).symm⟩
  | cons x d =>
    obtain ⟨op, answer⟩ := x
    obtain ⟨hnext, hrest⟩ := Coroutine.dialogue_cons.mp h
    obtain rfl : Op.submit status contentLength = op := Option.some.inj hnext
    have hresumed : submit.Dialogue (.submitted answer.ec) d t := hrest
    obtain rfl := hresumed.eq_nil rfl
    exact .inr ⟨answer, rfl, (Coroutine.dialogue_nil.mp hresumed).symm⟩

/-- A handler that submits the header first. -/
theorem submitting_cases {σ : Type} {D : Coroutine Op OpResult σ} {go stop : σ}
    (hstop : D.next stop = none) {status : Nat} {contentLength : Option Nat} {x : Submit ⊕ σ}
    (h : (submit.andThen D (Submit.enter go stop)).Dialogue
      (.inl (.submitting status contentLength)) d x) :
    d = [] ∧ (submit.andThen D (Submit.enter go stop)).next x =
        some (.submit status contentLength) ∨
      ∃ answer : OpResult,
        answer.ec ≠ .success ∧ d = [(.submit status contentLength, answer)] ∧
          (submit.andThen D (Submit.enter go stop)).next x = none ∨
        answer.ec = .success ∧ ∃ f v, d = (.submit status contentLength, answer) :: f ∧
          D.Dialogue go f v ∧ (submit.andThen D (Submit.enter go stop)).next x = D.next v := by
  rcases Coroutine.dialogue_andThen h with ⟨t, ht, rfl⟩ | ⟨e, f, t, v, rfl, he, hreturned, hf, rfl⟩
  · rcases submit_dialogue ht with ⟨rfl, rfl⟩ | ⟨answer, rfl, rfl⟩
    · exact .inl ⟨rfl, rfl⟩
    · refine .inr ⟨answer, ?_⟩
      have hnext : (submit.andThen D (Submit.enter go stop)).next (.inl (.submitted answer.ec)) =
          D.next (if answer.ec = .success then go else stop) := rfl
      by_cases hsuccess : answer.ec = .success
      · rw [if_pos hsuccess] at hnext
        exact .inr ⟨hsuccess, [], go, rfl, .nil go, hnext⟩
      · rw [if_neg hsuccess] at hnext
        exact .inl ⟨hsuccess, rfl, hnext.trans hstop⟩
  · rcases submit_dialogue he with ⟨rfl, rfl⟩ | ⟨answer, rfl, rfl⟩
    · exact absurd hreturned (by simp [submit])
    · refine .inr ⟨answer, ?_⟩
      rw [Submit.enter] at hf
      by_cases hsuccess : answer.ec = .success
      · rw [if_pos hsuccess] at hf
        exact .inr ⟨hsuccess, f, v, rfl, hf, rfl⟩
      · rw [if_neg hsuccess] at hf
        obtain rfl := hf.eq_nil hstop
        obtain rfl := Coroutine.dialogue_nil.mp hf
        exact .inl ⟨hsuccess, rfl, hstop⟩

/-- **`echo()` copies**: whatever it is answered, it writes what it has read, in order, it gives up
where a write fails, and it ends the response only where it has read the end of the request and
written all of it. -/
theorem echo_copies {contentLength : Option Nat} {x : Submit ⊕ Copy}
    (h : echo.Dialogue (echoing contentLength) d x) : Copies d (echo.next x) := by
  rcases submitting_cases rfl h with ⟨rfl, hnext⟩ | ⟨answer, ⟨_, rfl, hnext⟩ |
    ⟨hsuccess, f, v, rfl, hf, hnext⟩⟩
  · rw [echo, hnext]
    refine ⟨List.prefix_rfl, stops_of_writes (by simp), ?_⟩
    rintro buffer (heof | ⟨_, hmem⟩)
    · exact absurd heof (by simp)
    · exact absurd hmem (by simp)
  · rw [echo, hnext]
    refine ⟨List.prefix_rfl, stops_of_writes ?_, ?_⟩
    · intro x hx hwrite
      rw [List.mem_singleton.mp hx] at hwrite
      exact absurd hwrite (by simp [Op.isWrite])
    · rintro buffer (heof | ⟨_, hmem⟩)
      · exact absurd heof (by simp)
      · exact absurd (congrArg Prod.fst (List.mem_singleton.mp hmem)) (by simp)
  · rw [echo, hnext]
    have hlevel : Level [(Op.submit 200 contentLength, answer)] [] := by
      refine ⟨?_, by simp, rfl⟩
      exact smooth_nil.concat hsuccess
    exact (copying_of_dialogue hf (.reading hlevel)).copies

/-! ### Reading a body -/

/-- What has been read so far, piece by piece. -/
def collect {α : Type} (add : α → List UInt8 → α) (none : α) (d : List (Op × OpResult)) : α :=
  d.foldl (fun received x => add received x.2.bytes) none

/-- Nothing else has been done than reading, and all has gone well. -/
structure OnlyReads (d : List (Op × OpResult)) : Prop where
  smooth : Smooth d
  ops : ∀ x ∈ d, x.1 = .readSome (16 * 1024)

/-- The invariant of `drain()`, `read()` and `try_receive()`. -/
inductive Receiving {α : Type} (add : α → List UInt8 → α) (none : α) :
    List (Op × OpResult) → Receive α → Prop
  | reading {d : List (Op × OpResult)} : OnlyReads d →
    Receiving add none d (.reading (collect add none d))
  | stopped {d : List (Op × OpResult)} {answer : OpResult} : OnlyReads d → answer.ec ≠ .success →
    Receiving add none (d ++ [(.readSome (16 * 1024), answer)])
      (.stopped (collect add none (d ++ [(.readSome (16 * 1024), answer)])) answer.ec)

theorem receiving_of_dialogue {α : Type} {add : α → List UInt8 → α} {none : α} {s : Receive α}
    (h : (receive add).Dialogue (.reading none) d s) : Receiving add none d s := by
  refine h.inv (P := Receiving add none) (d := []) ?_ (.reading ⟨smooth_nil, by simp⟩)
  intro d s op answer hreceiving hnext
  cases hreceiving with
  | reading hreads =>
    obtain rfl : Op.readSome (16 * 1024) = op := Option.some.inj hnext
    have hcollect : collect add none (d ++ [(.readSome (16 * 1024), answer)]) =
        add (collect add none d) answer.bytes := List.foldl_append ..
    show Receiving _ _ _ (if answer.ec = .success then .reading _ else .stopped _ _)
    rw [← hcollect]
    by_cases hsuccess : answer.ec = .success
    · rw [if_pos hsuccess]
      refine .reading ⟨hreads.smooth.concat hsuccess, ?_⟩
      intro x hx
      rcases List.mem_append.mp hx with hx | hx
      · exact hreads.ops x hx
      · rw [List.mem_singleton.mp hx]
    · rw [if_neg hsuccess]
      exact .stopped hreads hsuccess
  | stopped => exact absurd hnext (by simp [receive])

/-- **`drain()` and `read()`** return what they have read once they have been told about its end,
and not before. -/
theorem receive_result {α : Type} {add : α → List UInt8 → α} {none received : α} {s : Receive α}
    (h : (receive add).Dialogue (.reading none) d s) (hresult : s.result = some (.ok received)) :
    received = collect add none d ∧ SeenEof d ∧ ∀ x ∈ d, x.1 = .readSome (16 * 1024) := by
  cases receiving_of_dialogue h with
  | reading => exact absurd hresult (by simp [Receive.result])
  | @stopped d answer hreads _ =>
    obtain ⟨ec, bytes⟩ := answer
    have hif : (if ec = .eof then .ok (collect add none _) else .error ec : Except ErrorCode α) =
        .ok received := Option.some.inj hresult
    by_cases heof : ec = .eof
    · subst heof
      rw [if_pos rfl] at hif
      refine ⟨(Except.ok.inj hif).symm, ⟨16 * 1024, bytes, by simp⟩, ?_⟩
      intro x hx
      rcases List.mem_append.mp hx with hx | hx
      · exact hreads.ops x hx
      · rw [List.mem_singleton.mp hx]
    · rw [if_neg heof] at hif
      exact absurd hif (by simp)

/-! ### Sending a body -/

/-- A range has been sent so far, and all has gone well. -/
structure Piecewise (range : List UInt8) (d : List (Op × OpResult)) (rest : List UInt8) : Prop where
  smooth : Smooth d
  unended : ∀ x ∈ d, ∀ buffer, x.1 ≠ .writeEof buffer
  eq : d.flatMap writtenOf ++ rest = range

theorem piecewise_nil (range : List UInt8) : Piecewise range [] range :=
  ⟨smooth_nil, by simp, rfl⟩

theorem Piecewise.concat {range rest buffer : List UInt8} (h : Piecewise range d (buffer ++ rest))
    (hsuccess : answer.ec = .success) : Piecewise range (d ++ [(.write buffer, answer)]) rest := by
  refine ⟨h.smooth.concat hsuccess, ?_, ?_⟩
  · intro x hx
    rcases List.mem_append.mp hx with hx | hx
    · exact h.unended x hx
    · rw [List.mem_singleton.mp hx]
      simp
  · rw [flatMap_concat, ← h.eq]
    simp [writtenOf, Op.buffer]

/-- The invariant of `send()`. -/
inductive Sending (range : List UInt8) : List (Op × OpResult) → Send → Prop
  | sending {d : List (Op × OpResult)} {rest : List UInt8} : Piecewise range d rest →
    Sending range d (.sending rest)
  | threw {d : List (Op × OpResult)} {buffer rest : List UInt8} {answer : OpResult} :
    Piecewise range d (buffer ++ rest) → answer.ec ≠ .success →
    Sending range (d ++ [(.write buffer, answer)]) (.threw answer.ec)

theorem Sending.resume {range : List UInt8} {s : Send} (h : Sending range d s)
    (hnext : send.next s = some op) (answer : OpResult) :
    Sending range (d ++ [(op, answer)]) (send.resume s answer) := by
  cases h with
  | @sending _ rest hpieces =>
    have hop : Op.write (rest.take (16 * 1024)) = op := by
      cases rest with
      | nil => exact absurd hnext (by simp [send])
      | cons => exact Option.some.inj hnext
    subst hop
    rw [← List.take_append_drop (16 * 1024) rest] at hpieces
    show Sending _ _ (if answer.ec = .success then _ else _)
    by_cases hsuccess : answer.ec = .success
    · rw [if_pos hsuccess]
      exact .sending (hpieces.concat hsuccess)
    · rw [if_neg hsuccess]
      exact .threw hpieces hsuccess
  | threw => exact absurd hnext (by simp [send])

/-- What `send_and_force_eof()` has done so far, where it waits for `next`. -/
structure Sends (range : List UInt8) (d : List (Op × OpResult)) (next : Option Op) : Prop where
  /-- What has been written, and is about to be, is a part of the range, from the beginning. -/
  written : d.flatMap writtenOf ++ upcoming next <+: range
  stops : Stops d next
  /-- The body ends behind the range, or where a write has failed. -/
  ends : ∀ buffer, next = some (.writeEof buffer) ∨ (∃ answer, (Op.writeEof buffer, answer) ∈ d) →
    buffer = [] ∧ (d.flatMap writtenOf = range ∨
      ∃ x ∈ d, (∃ buffer, x.1 = .write buffer) ∧ x.2.ec ≠ .success)

theorem Sending.sends {range : List UInt8} {s : Send} (h : Sending range d s) :
    Sends range d (sendAndForceEof.next (.inl s)) := by
  have hnone : ∀ {b : List UInt8} {rest : List UInt8}, Piecewise range d rest →
      ¬ ∃ answer, (Op.writeEof b, answer) ∈ d := by
    rintro b rest hpieces ⟨answer, hmem⟩
    exact absurd rfl (hpieces.unended _ hmem b)
  cases h with
  | @sending _ rest hpieces =>
    have hstops : ∀ next, Stops d next := fun next =>
      stops_of_writes fun x hx _ => hpieces.smooth x hx
    cases rest with
    | nil =>
      -- the range has been sent, and `send()` returns
      have hall : d.flatMap writtenOf = range := by rw [← hpieces.eq, List.append_nil]
      refine ⟨?_, hstops _, ?_⟩
      · show d.flatMap writtenOf ++ [] <+: range
        rw [List.append_nil]
        exact hall ▸ List.prefix_rfl
      · rintro buffer (hnext | hmem)
        · exact ⟨(Op.writeEof.inj (Option.some.inj hnext)).symm, .inl hall⟩
        · exact absurd hmem (hnone hpieces)
    | cons byte rest =>
      refine ⟨?_, hstops _, ?_⟩
      · show d.flatMap writtenOf ++ (byte :: rest).take (16 * 1024) <+: range
        rw [← hpieces.eq]
        exact (List.prefix_append_right_inj _).mpr (List.take_prefix _ _)
      · rintro buffer (hnext | hmem)
        · exact absurd (Option.some.inj hnext) (by simp)
        · exact absurd hmem (hnone hpieces)
  | @threw d buffer rest answer hpieces hfails =>
    -- the write that has failed counts, as some of it may have been taken
    refine ⟨?_, stops_concat (fun x hx _ => hpieces.smooth x hx) rfl, ?_⟩
    · show _ ++ [] <+: range
      rw [List.append_nil, flatMap_concat, ← hpieces.eq, ← List.append_assoc]
      exact List.prefix_append _ _
    · rintro buffer' (hnext | ⟨answer', hmem⟩)
      · refine ⟨(Op.writeEof.inj (Option.some.inj hnext)).symm, .inr ?_⟩
        exact ⟨_, List.mem_append_right _ (List.mem_singleton_self _), ⟨buffer, rfl⟩, hfails⟩
      · rcases List.mem_append.mp hmem with hmem | hmem
        · exact absurd rfl (hpieces.unended _ hmem buffer')
        · exact absurd (congrArg Prod.fst (List.mem_singleton.mp hmem)) (by simp)

/-- Once the body has been ended, nothing else happens. -/
theorem Sends.ended {range : List UInt8} (h : Sends range d (some (.writeEof []))) :
    Sends range (d ++ [(.writeEof [], answer)]) none := by
  have hwritten : (d ++ [(Op.writeEof [], answer)]).flatMap writtenOf = d.flatMap writtenOf := by
    rw [flatMap_concat]
    exact List.append_nil _
  refine ⟨?_, ?_, ?_⟩
  · rw [hwritten]
    exact h.written
  · intro e x f heq hwrite hfails
    show f.flatMap writtenOf ++ [] = []
    rcases f.eq_nil_or_concat with rfl | ⟨f, y, rfl⟩
    · rfl
    · rw [List.concat_eq_append, ← List.cons_append, ← List.append_assoc] at heq
      obtain ⟨rfl, hy⟩ := List.append_inj' heq rfl
      obtain rfl := List.singleton_inj.mp hy
      rw [List.concat_eq_append, flatMap_concat]
      exact congrArg (· ++ []) (h.stops e x f rfl hwrite hfails)
  · rintro buffer (hnext | ⟨answer', hmem⟩)
    · exact absurd hnext (by simp)
    · have hbuffer : buffer = [] ∧ (d.flatMap writtenOf = range ∨
          ∃ x ∈ d, (∃ buffer, x.1 = .write buffer) ∧ x.2.ec ≠ .success) := by
        rcases List.mem_append.mp hmem with hmem | hmem
        · exact h.ends buffer (.inr ⟨answer', hmem⟩)
        · obtain ⟨_, hends⟩ := h.ends [] (.inl rfl)
          exact ⟨Op.writeEof.inj (congrArg Prod.fst (List.mem_singleton.mp hmem)), hends⟩
      refine ⟨hbuffer.1, ?_⟩
      rw [hwritten]
      refine hbuffer.2.imp_right ?_
      rintro ⟨x, hx, hx'⟩
      exact ⟨x, List.mem_append_left _ hx, hx'⟩

theorem writeEof_dialogue {s : Ending} {buffer : List UInt8}
    (h : writeEof.Dialogue (.ending buffer) d s) :
    d = [] ∧ s = .ending buffer ∨ ∃ answer, d = [(.writeEof buffer, answer)] ∧ s = .returned := by
  cases d with
  | nil => exact .inl ⟨rfl, (Coroutine.dialogue_nil.mp h).symm⟩
  | cons x d =>
    obtain ⟨op, answer⟩ := x
    obtain ⟨hnext, hrest⟩ := Coroutine.dialogue_cons.mp h
    obtain rfl : Op.writeEof buffer = op := Option.some.inj hnext
    have hresumed : writeEof.Dialogue .returned d s := hrest
    obtain rfl := hresumed.eq_nil rfl
    exact .inr ⟨answer, rfl, (Coroutine.dialogue_nil.mp hresumed).symm⟩

/-- **`send_and_force_eof()`**: whatever it is answered, it writes the range from the beginning, in
order, and ends the body behind the last byte or behind a write that has failed. -/
theorem send_and_force_eof_sends {range : List UInt8} {x : Send ⊕ Ending}
    (h : sendAndForceEof.Dialogue (.inl (.sending range)) d x) :
    Sends range d (sendAndForceEof.next x) := by
  have hsend : ∀ {e : List (Op × OpResult)} {s : Send}, send.Dialogue (.sending range) e s →
      Sending range e s := fun he =>
    he.inv (d := []) (fun _ _ _ answer hsending hnext => hsending.resume hnext answer)
      (.sending (piecewise_nil range))
  rcases Coroutine.dialogue_andThen h with ⟨s, hs, rfl⟩ | ⟨e, f, s, v, rfl, he, hreturned, hf, rfl⟩
  · exact (hsend hs).sends
  · have hsends := (hsend he).sends
    have hnext : sendAndForceEof.next (.inl s) = some (.writeEof []) := by
      show (send.next s).or _ = _
      rw [hreturned]
      rfl
    rw [hnext] at hsends
    rcases writeEof_dialogue hf with ⟨rfl, rfl⟩ | ⟨answer, rfl, rfl⟩
    · rw [List.append_nil]
      exact hsends
    · exact hsends.ended

/-- Before the body, there is the header. -/
theorem Sends.cons {range : List UInt8} {x : Op × OpResult} (h : Sends range d next)
    (hx : x.1.isWrite = false) : Sends range (x :: d) next := by
  have hsilent : writtenOf x = [] := by
    obtain ⟨op, answer⟩ := x
    cases op with
    | submit | readSome => rfl
    | write | writeEof => exact absurd hx (by simp [Op.isWrite])
  have hwritten : (x :: d).flatMap writtenOf = d.flatMap writtenOf := by
    rw [List.flatMap_cons, hsilent, List.nil_append]
  refine ⟨?_, ?_, ?_⟩
  · rw [hwritten]
    exact h.written
  · intro e y f heq hwrite hfails
    cases e with
    | nil =>
      obtain ⟨rfl, _⟩ := List.cons.inj heq
      exact absurd (hx.symm.trans hwrite) (by decide)
    | cons z e => exact h.stops e y f (List.cons.inj heq).2 hwrite hfails
  · rintro buffer (hnext | ⟨answer, hmem⟩)
    · obtain ⟨hbuffer, hends⟩ := h.ends buffer (.inl hnext)
      rw [hwritten]
      exact ⟨hbuffer, hends.imp_right fun ⟨y, hy, hy'⟩ => ⟨y, List.mem_cons_of_mem _ hy, hy'⟩⟩
    · rcases List.mem_cons.mp hmem with rfl | hmem
      · exact absurd hx (by simp [Op.isWrite])
      · obtain ⟨hbuffer, hends⟩ := h.ends buffer (.inr ⟨answer, hmem⟩)
        rw [hwritten]
        exact ⟨hbuffer, hends.imp_right fun ⟨y, hy, hy'⟩ => ⟨y, List.mem_cons_of_mem _ hy, hy'⟩⟩

/-- Below `2 ^ 31`, nothing is lost of a length. -/
theorem takeCount_of_lt {length : Nat} (h : length < 2 ^ 31) : takeCount length = some length := by
  have hmod : length % 2 ^ 32 = length := Nat.mod_eq_of_lt (by omega)
  unfold takeCount
  rw [hmod]
  exact if_pos h

/-- Five bytes are generated for a length of `2 ^ 32 + 5`. -/
example : takeCount (2 ^ 32 + 5) = some 5 := by decide

/-- `generate()` does it with its pattern, behind the header. -/
theorem generate_sends {length : Nat} {range : List UInt8} {x : Submit ⊕ (Send ⊕ Ending)}
    (h : (generateRange range).Dialogue (generating length) d x) :
    Sends range d ((generateRange range).next x) := by
  have hnil : ∀ next, upcoming next = [] → (∀ buffer, next ≠ some (.writeEof buffer)) →
      Sends range [] next := by
    intro next hnext hends
    refine ⟨?_, stops_of_writes (by simp), ?_⟩
    · rw [hnext]
      exact List.nil_prefix
    · rintro buffer (hnext | ⟨_, hmem⟩)
      · exact absurd hnext (hends buffer)
      · exact absurd hmem (by simp)
  rcases submitting_cases rfl h with ⟨rfl, hnext⟩ | ⟨answer, ⟨_, rfl, hnext⟩ |
    ⟨_, f, v, rfl, hf, hnext⟩⟩
  · rw [generateRange, hnext]
    exact hnil _ rfl (by simp)
  · rw [generateRange, hnext]
    exact (hnil none rfl (by simp)).cons rfl
  · rw [generateRange, hnext]
    exact (send_and_force_eof_sends hf).cons rfl

/-! ### Short responses -/

/-- What a handler has done so far that writes its body in one piece. -/
structure Responds (body : List UInt8) (d : List (Op × OpResult)) (next : Option Op) : Prop where
  written : d.flatMap writtenOf ++ upcoming next <+: body
  stops : Stops d next
  /-- The end of the response comes with all of it. -/
  ends : ∀ buffer, next = some (.writeEof buffer) ∨ (∃ answer, (Op.writeEof buffer, answer) ∈ d) →
    buffer = body

/-- **`hello_world()`, and `respond()`** without a body: whatever it is answered, it writes nothing
but its body, once, and together with the end. -/
theorem hello_world_responds {body : List UInt8} {status : Nat} {contentLength : Option Nat}
    {x : Submit ⊕ Ending}
    (h : (helloWorld body).Dialogue (.inl (.submitting status contentLength)) d x) :
    Responds body d ((helloWorld body).next x) := by
  have hsubmit : ∀ answer : OpResult, ∀ x ∈ [(Op.submit status contentLength, answer)],
      x.1.isWrite = true → x.2.ec = .success := by
    simp [Op.isWrite]
  rcases submitting_cases rfl h with ⟨rfl, hnext⟩ | ⟨answer, ⟨_, rfl, hnext⟩ |
    ⟨_, f, v, rfl, hf, hnext⟩⟩
  · rw [helloWorld, hnext]
    refine ⟨List.nil_prefix, stops_of_writes (by simp), ?_⟩
    rintro buffer (hends | ⟨_, hmem⟩)
    · exact absurd hends (by simp)
    · exact absurd hmem (by simp)
  · rw [helloWorld, hnext]
    refine ⟨List.nil_prefix, stops_of_writes (hsubmit answer), ?_⟩
    rintro buffer (hends | ⟨_, hmem⟩)
    · exact absurd hends (by simp)
    · exact absurd (congrArg Prod.fst (List.mem_singleton.mp hmem)) (by simp)
  · rw [helloWorld, hnext]
    rcases writeEof_dialogue hf with ⟨rfl, rfl⟩ | ⟨answer', rfl, rfl⟩
    · refine ⟨List.prefix_rfl, stops_of_writes (hsubmit answer), ?_⟩
      rintro buffer (hends | ⟨_, hmem⟩)
      · exact (Op.writeEof.inj (Option.some.inj hends)).symm
      · exact absurd (congrArg Prod.fst (List.mem_singleton.mp hmem)) (by simp)
    · refine ⟨?_, stops_concat (hsubmit answer) rfl, ?_⟩
      · show body ++ [] ++ [] <+: body
        simp
      · rintro buffer (hends | ⟨_, hmem⟩)
        · exact absurd hends (by simp [writeEof])
        · rcases List.mem_cons.mp hmem with heq | hmem
          · exact absurd (congrArg Prod.fst heq) (by simp)
          · exact Op.writeEof.inj (congrArg Prod.fst (List.mem_singleton.mp hmem))

end RequestHandlers

end AnyHttp
