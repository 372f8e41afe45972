import AnyHttp.Equiv.RequestHandlers
import AnyHttp.H2.Task
import AnyHttp.H2.Equiv.Duplex

/-!
# What becomes of what a coroutine reads and writes

Between a coroutine and its end of a stream there is at most one operation.  A step of the stream
completes that, or leaves all of them as they are (`step_answers`, `step_concludes`); so that the
answers in a dialogue are those of the stream, in order, and the writes that it has accepted those
of the dialogue (`Attends`).  Where nothing is written behind a write that fails, what the stream
has taken is what the dialogue says, up to some point (`Attends.taken`), and all of it where none
has failed (`Attends.all`).
-/

namespace AnyHttp.H2

open Lib

namespace Stream

variable {m t u : Stream} {a : Action}

/-! ### Reads -/

/-- Nothing happens to the reads, or the one that waits completes. -/
def Answers (m u : Stream) : Prop :=
  u.readReplies = m.readReplies ∧ u.rx.readHandler = m.rx.readHandler ∨
    m.rx.readHandler.isSome = true ∧ u.rx.readHandler = none ∧
      ∃ answer, u.readReplies = m.readReplies ++ [answer]

theorem Answers.refl (m : Stream) : Answers m m := .inl ⟨rfl, rfl⟩

/-- One more call is one more reply to a read, if it completes one. -/
theorem readReplies_concat {c : Call} (h : u.trace = m.trace ++ [c]) :
    u.readReplies = m.readReplies ++ (readReply c).toList := by
  unfold readReplies
  rw [h, List.filterMap_append]
  cases hc : readReply c with
  | none => rw [List.filterMap_cons_none hc]; rfl
  | some answer => rw [List.filterMap_cons_some hc]; rfl

/-- Calls that complete no read are no replies. -/
theorem filterMap_readReply_other {cs : List Call} (h : ∀ c ∈ cs, Other c) :
    cs.filterMap readReply = [] := by
  rw [List.filterMap_eq_nil_iff]
  intro c hc
  have hc := h c hc
  cases c with
  | completeRead => exact hc.elim
  | _ => rfl

/-- A read completes, which is the one that waits. -/
theorem Answers.complete (h : Answers m u) {handler : Handler} {size count : Nat} {ec : ErrorCode}
    {bytes : List UInt8} (hh : u.rx.readHandler = some handler) (hnone : t.rx.readHandler = none)
    (htrace : t.trace = u.trace ++ [.completeRead handler size ec count bytes]) : Answers m t := by
  rcases h with ⟨hreplies, hsame⟩ | ⟨_, hdone, _⟩
  · refine .inr ⟨?_, hnone, { ec := ec, bytes := bytes }, ?_⟩
    · rw [← hsame, hh]
      rfl
    · rw [readReplies_concat htrace, hreplies]
      rfl
  · rw [hdone] at hh
    exact absurd hh (by simp)

/-- **Whatever happens inside of a step**, the read that waits is completed once at most. -/
theorem reads_answers (m : Stream) : Reads (Answers m) where
  unseen u t hu h := by
    obtain ⟨cs, htrace, hother⟩ := h.trace
    have hreplies : t.readReplies = u.readReplies := by
      unfold readReplies
      rw [htrace, List.filterMap_append, filterMap_readReply_other hother, List.append_nil]
    unfold Answers
    rw [hreplies, h.handler]
    exact hu
  deliver u h hh _ hu := hu.complete hh rfl rfl
  fail u h ec hh _ hu := hu.complete hh rfl rfl

/-- The destructor cuts short the read that waits. -/
theorem lastCalls_readReply (m : Stream) : m.lastCalls.filterMap readReply =
    m.rx.readHandler.toList.map fun _ => { ec := .partialMessage } := by
  unfold lastCalls
  cases m.rs.responseHandler <;> cases m.rx.readHandler <;> cases m.tx.writeHandler <;> rfl

/-- The destructor completes it, if it still waits. -/
theorem answers_destroy (m : Stream) : Answers m m.destroy := by
  obtain ⟨htrace, _, hrx, _⟩ := destroy_spec m
  have hreplies : m.destroy.readReplies = m.readReplies ++
      m.rx.readHandler.toList.map fun _ => { ec := .partialMessage } := by
    rw [← lastCalls_readReply]
    unfold readReplies
    rw [htrace, List.filterMap_append]
  unfold Answers
  rw [hreplies, hrx]
  cases m.rx.readHandler with
  | none => exact .inl ⟨List.append_nil _, rfl⟩
  | some h => exact .inr ⟨rfl, rfl, { ec := .partialMessage }, rfl⟩

/-- **Step lemma** for reads. -/
theorem step_answers (ha : ∀ h size, a ≠ .asyncReadSome h size) (h : step m a = some t) :
    Answers m t :=
  (reads_answers m).step (fun h' size heq => absurd heq (ha h' size))
    (fun _ => answers_destroy m) (.refl m) h

/-- A read that is begun waits, or has completed. -/
theorem step_asyncReadSome {handler : Handler} {size : Nat}
    (h : step m (.asyncReadSome handler size) = some t) :
    t.readReplies = m.readReplies ∧ t.rx.readHandler.isSome = true ∨
      t.rx.readHandler = none ∧ ∃ answer, t.readReplies = m.readReplies ++ [answer] := by
  obtain ⟨hguard, h⟩ := Option.ite_none_right_eq_some.mp h
  have hnone : m.rx.readHandler = none :=
    Option.isNone_iff_eq_none.mp (Bool.and_eq_true_iff.mp hguard).2
  have hanswered : ∀ size' ec,
      (m.call (.completeRead handler size' ec 0 [])).rx.readHandler = none ∧
        ∃ answer, (m.call (.completeRead handler size' ec 0 [])).readReplies =
          m.readReplies ++ [answer] :=
    fun size' ec => ⟨hnone, { ec := ec },
      readReplies_concat (c := .completeRead handler size' ec 0 []) rfl⟩
  rw [← Option.some.inj h, asyncReadSome]
  split
  · exact .inr (hanswered 0 .success)
  · split
    · exact .inr (hanswered size _)
    · -- as if the read had been waiting before
      have hanswers := (reads_answers { m with rx := { m.rx with
        readHandler := some handler, readHandlerBuffer := size } }).keeps.callReadHandler
          (.refl _) []
      rcases hanswers with ⟨hreplies, hsame⟩ | ⟨_, hdone, hanswer⟩
      · left
        refine ⟨hreplies, ?_⟩
        rw [hsame]
        rfl
      · exact .inr ⟨hdone, hanswer⟩

/-! ### An error comes without data -/

def Bare (m : Stream) : Prop := ∀ answer ∈ m.readReplies, answer.ec ≠ .success → answer.bytes = []

/-- A reply that tells an error comes without data, like the others. -/
theorem Bare.concat (h : Bare m) {c : Call} (htrace : u.trace = m.trace ++ [c])
    (hc : ∀ answer, readReply c = some answer → answer.ec ≠ .success → answer.bytes = []) :
    Bare u := by
  unfold Bare
  rw [readReplies_concat htrace]
  intro answer hanswer
  rcases List.mem_append.mp hanswer with hold | hnew
  · exact h answer hold
  · exact hc answer (Option.mem_toList.mp hnew)

/-- Only a success comes with data in `call_read_handler()`. -/
theorem reads_bare : Reads Bare where
  unseen u t hu h := by
    obtain ⟨cs, htrace, hother⟩ := h.trace
    unfold Bare readReplies
    rw [htrace, List.filterMap_append, filterMap_readReply_other hother, List.append_nil]
    exact hu
  deliver u h _ _ hu := by
    refine hu.concat (c := .completeRead h u.rx.readHandlerBuffer .success _ _) rfl ?_
    intro answer hanswer hfails
    rw [← Option.some.inj hanswer] at hfails
    exact absurd rfl hfails
  fail u h ec _ _ hu := by
    refine hu.concat (c := .completeRead h u.rx.readHandlerBuffer ec 0 []) rfl ?_
    intro answer hanswer _
    rw [← Option.some.inj hanswer]

/-- **Step lemma**: an error always comes without data. -/
theorem Bare.step (hm : Bare m) (h : step m a = some t) : Bare t := by
  have hcall : ∀ h' size ec, Bare (m.call (.completeRead h' size ec 0 [])) := by
    intro h' size ec
    refine hm.concat (c := .completeRead h' size ec 0 []) rfl ?_
    intro answer hanswer _
    rw [← Option.some.inj hanswer]
  refine reads_bare.step ?_ ?_ hm h
  · intro h' size _
    apply reads_bare.asyncReadSome
    · exact fun _ => hcall h' 0 .success
    · exact fun ec _ => hcall h' size ec
    · exact fun _ => hm
  · intro _
    obtain ⟨htrace, _⟩ := destroy_spec m
    unfold Bare readReplies
    rw [htrace, List.filterMap_append, List.forall_mem_append]
    refine ⟨hm, ?_⟩
    rw [lastCalls_readReply]
    intro answer hanswer _
    obtain ⟨_, _, rfl⟩ := List.mem_map.mp hanswer
    rfl

theorem bare_fresh (hm : Fresh m) : Bare m := by
  obtain ⟨_, _, rfl | rfl⟩ := hm
  · intro answer hanswer
    exact absurd hanswer (by simp [readReplies, client])
  · intro answer hanswer
    exact absurd hanswer (by simp [readReplies, server])

/-- What has been delivered is what reads have completed with. -/
theorem delivered_eq (m : Stream) : m.delivered = m.readReplies.flatMap OpResult.bytes := by
  unfold delivered readReplies
  induction m.trace with
  | nil => rfl
  | cons c cs ih =>
    rw [List.flatMap_cons, ih]
    cases c with
    | completeRead => rfl
    | _ => rfl

/-! ### Writes -/

/-- A write that has been accepted, as the user sees it: what has been asked for, and the result. -/
abbrev Entry := List UInt8 × Bool × Option ErrorCode

def entryOf (w : WriteRec) : Entry := (w.buffer, w.eof, w.result)

def ledger (m : Stream) : List Entry := m.writes.map entryOf

/-- The last write gets its result. -/
def settle (entries : List Entry) (ec : ErrorCode) : List Entry :=
  entries.modify (entries.length - 1) fun e => (e.1, e.2.1, some ec)

/-- Nothing happens to the writes, or the one that waits completes. -/
def Concludes (m u : Stream) : Prop :=
  u.ledger = m.ledger ∧ u.tx.writeHandler = m.tx.writeHandler ∨
    m.tx.writeHandler.isSome = true ∧ u.tx.writeHandler = none ∧
      ∃ ec, u.ledger = settle m.ledger ec

theorem Concludes.refl (m : Stream) : Concludes m m := .inl ⟨rfl, rfl⟩

/-- What concludes a write is told from the ledger and who waits. -/
theorem Concludes.of_eq (h : Concludes m u) (hledger : t.ledger = u.ledger)
    (hhandler : t.tx.writeHandler = u.tx.writeHandler) : Concludes m t := by
  unfold Concludes
  rw [hledger, hhandler]
  exact h

theorem Concludes.of_same (h : Concludes m u) (hsame : SameOut u t) : Concludes m t := by
  have hout := hsame.outgoing
  simp only [outgoing, Prod.mk.injEq, Outgoing.mk.injEq, true_and] at hout
  obtain ⟨_, ⟨_, hhandler, _, _, _, _⟩, hwrites, _⟩ := hout
  exact h.of_eq (congrArg (List.map entryOf) hwrites) hhandler

/-- The last entry of the ledger is the one that is settled. -/
theorem settle_concat (es : List Entry) (e : Entry) (ec : ErrorCode) :
    settle (es ++ [e]) ec = es ++ [(e.1, e.2.1, some ec)] := by
  unfold settle
  rw [List.length_append, List.length_singleton, Nat.add_sub_cancel]
  induction es with
  | nil => rfl
  | cons first es ih => exact congrArg (first :: ·) ih

/-- An update of the last write that is not seen. -/
theorem ledger_updateWrite {f : WriteRec → WriteRec} (hf : ∀ w, entryOf (f w) = entryOf w)
    (ws : List WriteRec) : (updateWrite ws f).map entryOf = ws.map entryOf := by
  rcases ws.eq_nil_or_concat with rfl | ⟨ws, w, rfl⟩
  · rfl
  · rw [List.concat_eq_append, updateWrite_concat, List.map_append, List.map_append]
    exact congrArg (fun e => ws.map entryOf ++ [e]) (hf w)

/-- What nghttp2 is given is no result, ... -/
theorem ledger_give (m : Stream) (left : List UInt8) (n : Nat) :
    (m.give left n).ledger = m.ledger :=
  ledger_updateWrite (by intro w; rfl) m.writes

/-- ... and neither is the end of the body. -/
theorem ledger_endBody (m : Stream) : m.endBody.ledger = m.ledger :=
  ledger_updateWrite (by intro w; rfl) m.writes

theorem Concludes.endBody (h : Concludes m u) : Concludes m u.endBody :=
  h.of_eq (ledger_endBody u) rfl

/-- nghttp2 is given more of the write that waits. -/
theorem concludes_give (m : Stream) (left : List UInt8) (n : Nat) {tx : Outgoing}
    (htx : tx.writeHandler = m.tx.writeHandler) :
    Concludes m { m.give left n with tx := tx } :=
  .inl ⟨ledger_give m left n, htx⟩

/-- A write completes, which is the one that waits. -/
theorem Concludes.complete (h : Concludes m u) {handler : Handler} (ec : ErrorCode)
    (hh : u.tx.writeHandler = some handler) : Concludes m (u.completeWrite handler ec) := by
  rcases h with ⟨hledger, hsame⟩ | ⟨_, hdone, _⟩
  · refine .inr ⟨?_, rfl, ec, ?_⟩
    · rw [← hsame, hh]
      rfl
    · rw [← hledger]
      show (updateWrite u.writes _).map entryOf = settle (u.writes.map entryOf) ec
      rcases u.writes.eq_nil_or_concat with hws | ⟨ws, w, hws⟩
      · rw [hws]
        rfl
      · rw [hws, List.concat_eq_append, updateWrite_concat, List.map_append, List.map_append]
        show _ = settle (ws.map entryOf ++ [entryOf w]) ec
        rw [settle_concat]
        rfl
  · rw [hdone] at hh
    exact absurd hh (by simp)

/-- A write that has been taken as a whole is told of its success. -/
theorem Concludes.finish (h : Concludes m u) {handler : Handler}
    (hh : u.tx.writeHandler = some handler) :
    Concludes m ((u.completeWrite handler .success).push .done) :=
  (h.complete .success hh).of_eq rfl rfl

/-- ... and before that, the body may end. -/
theorem Concludes.offered (h : Concludes m u) {handler : Handler}
    (hh : u.tx.writeHandler = some handler) {ends copied : Bool} :
    Concludes m (if copied = true then
      ((if ends = true then u.endBody else u).completeWrite handler .success).push .done
        else if ends = true then u.endBody else u) := by
  have hends : Concludes m (if ends = true then u.endBody else u) := by
    split
    · exact h.endBody
    · exact h
  split
  · refine hends.finish ?_
    split
    · exact hh
    · exact hh
  · exact hends

/-- `close_stream()` settles the write that waits. -/
theorem keeps_concludes (m : Stream) : Keeps (Concludes m) :=
  keeps_of_untouched (fun _ _ hu h => hu.of_same h.toSameOut)
    fun u _ hh _ hu => hu.complete u.closeCode hh

/-- A cancellation settles it, or waits for the reset. -/
theorem concludes_cancelWrite (m : Stream) : Concludes m m.cancelWrite := by
  unfold cancelWrite
  split
  · exact .inl ⟨rfl, rfl⟩
  · split
    · exact (Concludes.refl m).complete .canceled ‹_›
    · exact .refl m

/-- Version 1 settles it with the last of its bytes, ... -/
theorem concludes_producerCallback (m : Stream) (length : Nat) :
    Concludes m (m.producerCallback length) := by
  unfold producerCallback
  split
  · exact .refl m
  · split
    · exact .inl ⟨rfl, rfl⟩
    · rename_i handler hh
      split
      · dsimp only
        split
        · -- the last bytes of it
          refine Concludes.finish ?_ ?_
          · split
            · exact (concludes_give m _ _ rfl).endBody
            · exact concludes_give m _ _ rfl
          · split
            · exact hh
            · exact hh
        · exact concludes_give m _ _ rfl
      · exact Concludes.finish (Concludes.refl m).endBody hh

/-- ... version 2 with the end of a staged body, ... -/
theorem concludes_dataReader (m : Stream) (mode : WriteMode) (veccnt : Nat) :
    Concludes m (m.dataReader mode veccnt) := by
  unfold dataReader
  split
  · split
    · exact .inl ⟨rfl, rfl⟩
    · exact .inl ⟨rfl, rfl⟩
  · rename_i handler hh
    dsimp only
    split
    · split
      · exact .inl ⟨rfl, rfl⟩
      · exact Concludes.finish (Concludes.refl m).endBody hh
    · split
      · exact .inl ⟨rfl, rfl⟩
      · refine Concludes.offered ?_ ?_
        · exact concludes_give m _ _ rfl
        · exact hh

/-- ... or with what has been framed of one that it reads in place. -/
theorem concludes_onWriteOffset (m : Stream) (mode : WriteMode) (len : Nat) :
    Concludes m (m.onWriteOffset mode len) := by
  unfold onWriteOffset
  dsimp only
  split
  · exact .inl ⟨rfl, rfl⟩
  · split
    · exact .inl ⟨rfl, rfl⟩
    · rename_i handler hh
      split
      · exact .inl ⟨rfl, rfl⟩
      · exact Concludes.finish (.inl ⟨rfl, rfl⟩) hh

/-- The destructor settles it, if it still waits. -/
theorem concludes_destroy (m : Stream) : Concludes m m.destroy := by
  obtain ⟨u, hsame, _, heq⟩ := destroy_outgoing m
  rw [heq]
  have hu := (Concludes.refl m).of_same hsame
  split
  · exact hu.complete .canceled ‹_›
  · exact hu

/-- **Step lemma** for writes. -/
theorem step_concludes (ha : ∀ h buffer eof, a ≠ .asyncWrite h buffer eof) (h : step m a = some t) :
    Concludes m t :=
  step_keeps (fun _ _ hu h => hu.of_same h.toSameOut) (keeps_concludes m)
    (fun h' buffer eof heq => absurd heq (ha h' buffer eof)) (concludes_cancelWrite m)
    (fun length _ _ _ => concludes_producerCallback m length)
    (fun mode veccnt _ _ _ _ _ => concludes_dataReader m mode veccnt)
    (fun mode len _ _ _ _ _ => concludes_onWriteOffset m mode len)
    (fun _ => (Concludes.refl m).of_same (sameOut_dropWriter m)) (fun _ => concludes_destroy m)
    (.refl m) h

/-- A write that is begun has been refused, or waits. -/
theorem step_asyncWrite {handler : Handler} {buffer : List UInt8} {eof : Bool}
    (h : step m (.asyncWrite handler buffer eof) = some t) :
    (∃ ec, m.writeAnswer buffer eof = some ec) ∧ t.ledger = m.ledger ∧ t.tx.writeHandler = none ∨
      m.writeAnswer buffer eof = none ∧ t.ledger = m.ledger ++ [(buffer, eof, none)] ∧
        t.tx.writeHandler.isSome = true := by
  obtain ⟨⟨_, hidle⟩, h⟩ := Option.ite_none_right_eq_some.mp h
  rw [← Option.some.inj h, asyncWrite]
  split
  · rename_i ec hanswer
    exact .inl ⟨⟨ec, hanswer⟩, rfl, hidle⟩
  · rename_i hanswer
    right
    have hledger : (m.beginWrite handler buffer eof).ledger =
        m.ledger ++ [(buffer, eof, none)] := by
      show (m.writes ++ [_]).map entryOf = _
      rw [List.map_append]
      rfl
    refine ⟨hanswer, ?_, ?_⟩
    · rw [← hledger]
      unfold Stream.resume
      split
      · rfl
      · rfl
    · unfold Stream.resume
      split
      · rfl
      · rfl

/-- Nothing is accepted that is answered with success right away, but an end. -/
theorem writeAnswer_success {buffer : List UInt8} {eof : Bool}
    (h : m.writeAnswer buffer eof = some .success) : buffer = [] := by
  unfold writeAnswer at h
  split at h
  · split_ifs at h with h1 h2 h3
    · exact h1.1
    · exact h3
    · exact absurd h (by simp)
    · exact absurd h (by simp)
  · split_ifs at h with h1 h2 h3 h4
    · exact h1.1
    · exact absurd h (by simp)
    · by_contra hb
      exact h2 ⟨h3.1, hb⟩
    · exact absurd h (by simp)

end Stream

/-! ### Between the coroutine and its stream -/

/-- A write ends the body. -/
def endsBody : Op → Bool
  | .writeEof _ => true
  | _ => false

/-- What the coroutine has written, and what the stream has accepted. -/
inductive Recorded : List (Op × OpResult) → List Stream.Entry → Prop
  | nil : Recorded [] []
  /-- A write that has been refused, or anything else. -/
  | aside {d : List (Op × OpResult)} {es : List Stream.Entry} {op : Op} {answer : OpResult} :
    Recorded d es → (op.isWrite = true → answer.ec = .success → op.buffer = []) →
    Recorded (d ++ [(op, answer)]) es
  | accepted {d : List (Op × OpResult)} {es : List Stream.Entry} {op : Op} {answer : OpResult}
    {result : Option ErrorCode} : Recorded d es → op.isWrite = true →
    (answer.ec = .success → result = some .success) →
    Recorded (d ++ [(op, answer)]) (es ++ [(op.buffer, endsBody op, result)])

variable {m t : Stream} {a : Action} {d : List (Op × OpResult)} {op : Op} {answer : OpResult}
  {next : Option Op} {begun : Option (Option ErrorCode)} {ws : List WriteRec}

/-- Every write that the stream has accepted is one of the coroutine. -/
theorem Recorded.mem {es : List Stream.Entry} (h : Recorded d es) {e : Stream.Entry} (he : e ∈ es) :
    ∃ x ∈ d, x.1.isWrite = true ∧ e.1 = x.1.buffer ∧ e.2.1 = endsBody x.1 := by
  induction h with
  | nil => exact absurd he (by simp)
  | aside _ _ ih =>
    obtain ⟨x, hx, hx'⟩ := ih he
    exact ⟨x, List.mem_append_left _ hx, hx'⟩
  | accepted _ hwrite _ ih =>
    rcases List.mem_append.mp he with he | he
    · obtain ⟨x, hx, hx'⟩ := ih he
      exact ⟨x, List.mem_append_left _ hx, hx'⟩
    · rw [List.mem_singleton.mp he]
      exact ⟨_, List.mem_append_right _ (List.mem_singleton_self _), hwrite, rfl, rfl⟩

/-- Where no write has failed that had anything to write, all of it has been taken. -/
theorem Recorded.all {es : List Stream.Entry} (h : Recorded d es) (hws : ws.map Stream.entryOf = es)
    (hsuccess : ∀ w ∈ ws, w.result = some .success → Stream.takenOf w = w.buffer)
    (hall : ∀ x ∈ d, x.1.isWrite = true → x.2.ec = .success ∨ x.1.buffer = []) :
    ws.flatMap Stream.takenOf = d.flatMap writtenOf := by
  induction h generalizing ws with
  | nil =>
    rw [List.map_eq_nil_iff.mp hws]
    rfl
  | @aside d es op answer _ hrefused ih =>
    -- a write that has been refused had nothing to write, or has failed
    have hempty : op.buffer = [] := by
      cases hwrite : op.isWrite with
      | true =>
        rcases hall _ (List.mem_append_right _ (List.mem_singleton_self _)) hwrite with hok | hempty
        · exact hrefused hwrite hok
        · exact hempty
      | false =>
        cases op with
        | submit | readSome => rfl
        | write | writeEof => exact absurd hwrite (by simp [Op.isWrite])
    rw [flatMap_concat, writtenOf, hempty, List.append_nil]
    exact ih hws hsuccess fun x hx => hall x (List.mem_append_left _ hx)
  | @accepted d es op answer result _ hwrite hresult ih =>
    obtain ⟨front, last, rfl, hfront, hlast⟩ := List.map_eq_append_iff.mp hws
    obtain ⟨w, rfl, hw⟩ := List.map_eq_singleton_iff.mp hlast
    have hbuffer : w.buffer = op.buffer := congrArg Prod.fst hw
    have htaken : Stream.takenOf w = op.buffer := by
      rcases hall _ (List.mem_append_right _ (List.mem_singleton_self _)) hwrite with hok | hempty
      · rw [← hbuffer]
        refine hsuccess w (List.mem_append_right _ (List.mem_singleton_self _)) ?_
        exact (congrArg (fun e => e.2.2) hw).trans (hresult hok)
      · rw [Stream.takenOf, hbuffer]
        have hempty : op.buffer = [] := hempty
        rw [hempty, List.take_nil]
    rw [flatMap_concat, flatMap_concat, htaken]
    refine congrArg (· ++ op.buffer) (ih hfront ?_ ?_)
    · exact fun w hw => hsuccess w (List.mem_append_left _ hw)
    · exact fun x hx => hall x (List.mem_append_left _ hx)

/-- Where nothing is written behind a write that fails, there is no gap in what has been taken. -/
theorem Recorded.taken {es : List Stream.Entry} (h : Recorded d es)
    (hws : ws.map Stream.entryOf = es)
    (hsuccess : ∀ w ∈ ws, w.result = some .success → Stream.takenOf w = w.buffer)
    (hstops : Stops d none) : ws.flatMap Stream.takenOf <+: d.flatMap writtenOf := by
  induction h generalizing ws with
  | nil =>
    rw [List.map_eq_nil_iff.mp hws]
    exact List.prefix_rfl
  | aside _ _ ih =>
    rw [flatMap_concat]
    exact (ih hws hsuccess hstops.init).trans (List.prefix_append _ _)
  | @accepted d es op answer result hrecorded hwrite hresult ih =>
    obtain ⟨front, last, rfl, hfront, hlast⟩ := List.map_eq_append_iff.mp hws
    obtain ⟨w, rfl, hw⟩ := List.map_eq_singleton_iff.mp hlast
    have hbuffer : w.buffer = op.buffer := congrArg Prod.fst hw
    have hsuccess' : ∀ w ∈ front, w.result = some .success → Stream.takenOf w = w.buffer :=
      fun w hw => hsuccess w (List.mem_append_left _ hw)
    rw [flatMap_concat, flatMap_concat]
    by_cases hall : ∀ x ∈ d, x.1.isWrite = true → x.2.ec = .success ∨ x.1.buffer = []
    · rw [hrecorded.all hfront hsuccess' hall]
      refine (List.prefix_append_right_inj _).mpr ?_
      rw [Stream.takenOf, hbuffer]
      exact List.take_prefix _ _
    · -- one before it has failed, and this one is empty
      push Not at hall
      obtain ⟨x, hx, hxwrite, hfails, _⟩ := hall
      obtain ⟨e, f, rfl⟩ := List.append_of_mem hx
      have hnil := hstops e x (f ++ [(op, answer)]) (by simp) hxwrite hfails
      rw [flatMap_concat] at hnil
      have hempty : op.buffer = [] :=
        (List.append_eq_nil_iff.mp (List.append_eq_nil_iff.mp hnil).1).2
      rw [Stream.takenOf, hbuffer, hempty, List.take_nil, List.append_nil, writtenOf, hempty,
        List.append_nil]
      exact ih hfront hsuccess' hstops.init

/-- What a coroutine has been told by a read. -/
def readAnswer : Op × OpResult → Option OpResult
  | (.readSome _, answer) => some answer
  | _ => none

/-- One more exchange with the coroutine is one more answer, if it is a read. -/
theorem readAnswer_concat (d : List (Op × OpResult)) (x : Op × OpResult) :
    (d ++ [x]).filterMap readAnswer = d.filterMap readAnswer ++ (readAnswer x).toList := by
  rw [List.filterMap_append]
  cases hx : readAnswer x with
  | none => rw [List.filterMap_cons_none hx]; rfl
  | some answer => rw [List.filterMap_cons_some hx]; rfl

/-- Nothing waits at the stream, and the coroutine knows about everything. -/
structure Idle (m : Stream) (d : List (Op × OpResult)) : Prop where
  replies : m.readReplies = d.filterMap readAnswer
  reader : m.rx.readHandler = none
  writer : m.tx.writeHandler = none
  recorded : Recorded d m.ledger

/-- The invariant, for an operation that has been begun, or not. -/
inductive Attends (m : Stream) (d : List (Op × OpResult)) :
    Option Op → Option (Option ErrorCode) → Prop
  | idle {next : Option Op} : Idle m d → Attends m d next none
  | reading {size : Nat} : m.readReplies = d.filterMap readAnswer →
    m.rx.readHandler.isSome = true → m.tx.writeHandler = none → Recorded d m.ledger →
    Attends m d (some (.readSome size)) (some none)
  | hasRead {size : Nat} {answer : OpResult} : m.readReplies = d.filterMap readAnswer ++ [answer] →
    m.rx.readHandler = none → m.tx.writeHandler = none → Recorded d m.ledger →
    Attends m d (some (.readSome size)) (some none)
  | writing {op : Op} {es : List Stream.Entry} : op.isWrite = true →
    m.readReplies = d.filterMap readAnswer → m.rx.readHandler = none →
    m.tx.writeHandler.isSome = true → m.ledger = es ++ [(op.buffer, endsBody op, none)] →
    Recorded d es → Attends m d (some op) (some none)
  | hasWritten {op : Op} {es : List Stream.Entry} {ec : ErrorCode} : op.isWrite = true →
    m.readReplies = d.filterMap readAnswer → m.rx.readHandler = none →
    m.tx.writeHandler = none → m.ledger = es ++ [(op.buffer, endsBody op, some ec)] →
    Recorded d es → Attends m d (some op) (some none)
  | refused {op : Op} {ec : ErrorCode} : op.isWrite = true → Idle m d →
    (ec = .success → op.buffer = []) → Attends m d (some op) (some (some ec))

/-- With no read waiting, none is answered. -/
theorem Stream.Answers.idle {m t : Stream} (h : Answers m t) (hnone : m.rx.readHandler = none) :
    t.readReplies = m.readReplies ∧ t.rx.readHandler = none := by
  rcases h with ⟨hreplies, hsame⟩ | ⟨hsome, _⟩
  · exact ⟨hreplies, hsame.trans hnone⟩
  · rw [hnone] at hsome
    exact absurd hsome (by simp)

/-- With no write waiting, none is settled. -/
theorem Stream.Concludes.idle {m t : Stream} (h : Concludes m t)
    (hnone : m.tx.writeHandler = none) : t.ledger = m.ledger ∧ t.tx.writeHandler = none := by
  rcases h with ⟨hledger, hsame⟩ | ⟨hsome, _⟩
  · exact ⟨hledger, hsame.trans hnone⟩
  · rw [hnone] at hsome
    exact absurd hsome (by simp)

/-- **Step lemma**: with nothing waiting, the coroutine still knows about everything. -/
theorem Idle.step (h : Idle m d) (hanswers : m.Answers t) (hconcludes : m.Concludes t) :
    Idle t d := by
  obtain ⟨hreplies, hreader⟩ := hanswers.idle h.reader
  obtain ⟨hledger, hwriter⟩ := hconcludes.idle h.writer
  refine ⟨hreplies.trans h.replies, hreader, hwriter, ?_⟩
  rw [hledger]
  exact h.recorded

/-- Something happens to the stream that is not an operation of the coroutine. -/
theorem Attends.stream (h : Attends m d next begun) (ha : a.uses = false)
    (hs : m.step a = some t) : Attends t d next begun := by
  have hanswers : m.Answers t := by
    refine Stream.step_answers ?_ hs
    rintro h' size rfl
    exact absurd ha (by simp [Action.uses])
  have hconcludes : m.Concludes t := by
    refine Stream.step_concludes ?_ hs
    rintro h' buffer eof rfl
    exact absurd ha (by simp [Action.uses])
  cases h with
  | idle hidle => exact .idle (hidle.step hanswers hconcludes)
  | reading hreplies hreader hwriter hrecorded =>
    obtain ⟨hledger, hwriter⟩ := hconcludes.idle hwriter
    rw [← hledger] at hrecorded
    rcases hanswers with ⟨hsame, hhandler⟩ | ⟨_, hdone, answer, hanswer⟩
    · rw [← hhandler] at hreader
      exact .reading (hsame.trans hreplies) hreader hwriter hrecorded
    · rw [hreplies] at hanswer
      exact .hasRead hanswer hdone hwriter hrecorded
  | hasRead hreplies hreader hwriter hrecorded =>
    obtain ⟨hledger, hwriter⟩ := hconcludes.idle hwriter
    obtain ⟨hsame, hreader⟩ := hanswers.idle hreader
    rw [← hledger] at hrecorded
    exact .hasRead (hsame.trans hreplies) hreader hwriter hrecorded
  | writing hwrite hreplies hreader hwriter hledger hrecorded =>
    obtain ⟨hsame, hreader⟩ := hanswers.idle hreader
    rcases hconcludes with ⟨hkept, hhandler⟩ | ⟨_, hdone, ec, hsettled⟩
    · rw [← hhandler] at hwriter
      exact .writing hwrite (hsame.trans hreplies) hreader hwriter (hkept.trans hledger) hrecorded
    · rw [hledger, Stream.settle_concat] at hsettled
      exact .hasWritten hwrite (hsame.trans hreplies) hreader hdone hsettled hrecorded
  | hasWritten hwrite hreplies hreader hwriter hledger hrecorded =>
    obtain ⟨hsame, hreader⟩ := hanswers.idle hreader
    obtain ⟨hkept, hwriter⟩ := hconcludes.idle hwriter
    exact .hasWritten hwrite (hsame.trans hreplies) hreader hwriter (hkept.trans hledger) hrecorded
  | refused hwrite hidle hec => exact .refused hwrite (hidle.step hanswers hconcludes) hec

/-- An operation is begun. -/
theorem Attends.begin (h : Attends m d (some op) none) (hop : begins op = some a)
    (hs : m.step a = some t) : Attends t d (some op) (some (m.refuses op)) := by
  obtain ⟨hidle⟩ := h
  have hwrite : ∀ {buffer : List UInt8} {eof : Bool}, op.isWrite = true → op.buffer = buffer →
      endsBody op = eof → m.refuses op = m.writeAnswer buffer eof →
      m.step (.asyncWrite ⟨0, none⟩ buffer eof) = some t →
      Attends t d (some op) (some (m.refuses op)) := by
    rintro buffer eof hwrite rfl rfl hrefuses hs
    rw [hrefuses]
    have hanswers : m.Answers t := Stream.step_answers (by simp) hs
    obtain ⟨hreplies, hreader⟩ := hanswers.idle hidle.reader
    rcases Stream.step_asyncWrite hs with
      ⟨⟨ec, hec⟩, hledger, hhandler⟩ | ⟨hnone, hledger, hhandler⟩
    · rw [hec]
      refine .refused hwrite ⟨hreplies.trans hidle.replies, hreader, hhandler, ?_⟩ ?_
      · rw [hledger]
        exact hidle.recorded
      · rintro rfl
        exact Stream.writeAnswer_success hec
    · rw [hnone]
      exact .writing hwrite (hreplies.trans hidle.replies) hreader hhandler hledger hidle.recorded
  cases op with
  | submit => exact absurd hop (by simp [begins])
  | readSome size =>
    obtain rfl := Option.some.inj hop
    have hconcludes : m.Concludes t := Stream.step_concludes (by simp) hs
    obtain ⟨hledger, hwriter⟩ := hconcludes.idle hidle.writer
    have hrecorded := hidle.recorded
    rw [← hledger] at hrecorded
    rcases Stream.step_asyncReadSome hs with ⟨hreplies, hreader⟩ | ⟨hreader, answer, hanswer⟩
    · exact .reading (hreplies.trans hidle.replies) hreader hwriter hrecorded
    · rw [hidle.replies] at hanswer
      exact .hasRead hanswer hreader hwriter hrecorded
  | write buffer =>
    obtain rfl := Option.some.inj hop
    exact hwrite rfl rfl rfl rfl hs
  | writeEof buffer =>
    obtain rfl := Option.some.inj hop
    exact hwrite rfl rfl rfl rfl hs

/-- The result of the last write is the one of the last entry. -/
theorem Stream.getLast?_result {m : Stream} {es : List Entry} {buffer : List UInt8} {eof : Bool}
    {result : Option ErrorCode} (h : m.ledger = es ++ [(buffer, eof, result)]) :
    m.writes.getLast?.bind WriteRec.result = result := by
  obtain ⟨front, last, hws, _, hlast⟩ := List.map_eq_append_iff.mp h
  obtain ⟨w, rfl, hw⟩ := List.map_eq_singleton_iff.mp hlast
  rw [hws, List.getLast?_concat]
  exact congrArg (fun e => e.2.2) hw

/-- A write is answered with its refusal, or with the result of the last entry. -/
theorem Stream.reply_write (m : Stream) (refused : Option ErrorCode) (hwrite : op.isWrite = true) :
    m.reply refused op = (refused.or (m.writes.getLast?.bind WriteRec.result)).map
      fun ec => { ec := ec } := by
  cases op with
  | submit | readSome => exact absurd hwrite (by simp [Op.isWrite])
  | write | writeEof => rfl

/-- A write is not answered with data. -/
theorem readAnswer_write (hwrite : op.isWrite = true) (answer : OpResult) :
    readAnswer (op, answer) = none := by
  cases op with
  | submit | readSome => exact absurd hwrite (by simp [Op.isWrite])
  | write | writeEof => rfl

/-- It completes, and the coroutine is told. -/
theorem Attends.resume {refused : Option ErrorCode} (h : Attends m d (some op) (some refused))
    (hreply : m.reply refused op = some answer) : Idle m (d ++ [(op, answer)]) := by
  have hsilent : op.isWrite = true →
      m.readReplies = d.filterMap readAnswer →
      m.readReplies = (d ++ [(op, answer)]).filterMap readAnswer := by
    intro hwrite hreplies
    rw [readAnswer_concat, readAnswer_write hwrite]
    exact hreplies.trans (List.append_nil _).symm
  cases h with
  | @reading size hreplies hreader hwriter hrecorded =>
    -- it has not completed yet
    have hwaits : m.rx.readHandler.isNone = false := by rw [← Option.not_isSome, hreader]; rfl
    rw [Stream.reply, hwaits] at hreply
    exact absurd hreply (by simp)
  | @hasRead size answer' hreplies hreader hwriter hrecorded =>
    rw [Stream.reply, hreader, hreplies, List.getLast?_concat] at hreply
    obtain rfl : answer' = answer := Option.some.inj hreply
    refine ⟨?_, hreader, hwriter, hrecorded.aside (by simp [Op.isWrite])⟩
    rw [readAnswer_concat]
    exact hreplies
  | writing hwrite hreplies hreader hwriter hledger hrecorded =>
    rw [Stream.reply_write m none hwrite, Stream.getLast?_result hledger] at hreply
    exact absurd hreply (by simp)
  | hasWritten hwrite hreplies hreader hwriter hledger hrecorded =>
    rw [Stream.reply_write m none hwrite, Stream.getLast?_result hledger] at hreply
    obtain rfl := Option.some.inj hreply
    refine ⟨hsilent hwrite hreplies, hreader, hwriter, ?_⟩
    rw [hledger]
    refine hrecorded.accepted hwrite ?_
    rintro rfl
    rfl
  | refused hwrite hidle hec =>
    rw [Stream.reply_write m _ hwrite, Option.some_or] at hreply
    obtain rfl := Option.some.inj hreply
    refine ⟨hsilent hwrite hidle.replies, hidle.reader, hidle.writer, ?_⟩
    exact hidle.recorded.aside fun _ => hec

/-- The header is submitted. -/
theorem Attends.submitted (h : Attends m d (some op) begun) (hop : begins op = none) :
    begun = none ∧ Idle m (d ++ [(op, answer)]) := by
  cases op with
  | readSome | write | writeEof => exact absurd hop (by simp [begins])
  | submit status contentLength =>
    cases h with
    | idle hidle =>
      refine ⟨rfl, ?_, hidle.reader, hidle.writer, hidle.recorded.aside (by simp [Op.isWrite])⟩
      rw [readAnswer_concat]
      exact hidle.replies.trans (List.append_nil _).symm
    | writing hwrite | hasWritten hwrite | refused hwrite =>
      exact absurd hwrite (by simp [Op.isWrite])

/-! ### What becomes of the writes and the reads -/

/-- A write that waits counts as one that fails. -/
theorem Attends.recorded (h : Attends m d next begun) :
    Recorded d m.ledger ∨ ∃ op, next = some op ∧ op.isWrite = true ∧
      Recorded (d ++ [(op, { ec := .canceled })]) m.ledger := by
  cases h with
  | idle hidle => exact .inl hidle.recorded
  | reading _ _ _ hrecorded | hasRead _ _ _ hrecorded => exact .inl hrecorded
  | writing hwrite _ _ _ hledger hrecorded | hasWritten hwrite _ _ _ hledger hrecorded =>
    refine .inr ⟨_, rfl, hwrite, ?_⟩
    rw [hledger]
    exact hrecorded.accepted hwrite (by simp)
  | refused _ hidle => exact .inl hidle.recorded

/-- A write that has succeeded has been taken as a whole. -/
theorem success_of_isSending (hm : m.IsSending) :
    ∀ w ∈ m.writes, w.result = some .success → Stream.takenOf w = w.buffer := by
  intro w hw hresult
  rw [Stream.takenOf, hm.bodyHandedOver.success w hw hresult, List.take_length]

/-- Nothing else has been taken than what the coroutine has written, or is about to. -/
theorem Attends.taken (h : Attends m d next begun) (hm : m.IsSending) (hstops : Stops d next) :
    m.writes.flatMap Stream.takenOf <+: d.flatMap writtenOf ++ upcoming next := by
  have hsuccess := success_of_isSending hm
  rcases h.recorded with hrecorded | ⟨op, rfl, _, hrecorded⟩
  · refine (hrecorded.taken rfl hsuccess ?_).trans (List.prefix_append _ _)
    intro e x f heq hwrite hfails
    show f.flatMap writtenOf ++ [] = []
    rw [(List.append_eq_nil_iff.mp (hstops e x f heq hwrite hfails)).1]
    rfl
  · have htaken := hrecorded.taken rfl hsuccess ?_
    · rw [flatMap_concat] at htaken
      exact htaken
    · intro e x f heq hwrite hfails
      show f.flatMap writtenOf ++ [] = []
      rcases f.eq_nil_or_concat with rfl | ⟨f, y, rfl⟩
      · rfl
      · rw [List.concat_eq_append, ← List.cons_append, ← List.append_assoc] at heq
        obtain ⟨rfl, hy⟩ := List.append_inj' heq rfl
        rw [List.concat_eq_append, flatMap_concat, ← List.singleton_inj.mp hy, List.append_nil]
        exact hstops e x f rfl hwrite hfails

/-- Where nothing has failed that had anything to write, all of it has been taken. -/
theorem Attends.all (h : Attends m d next begun) (hm : m.IsSending) (hnext : upcoming next = [])
    (hall : ∀ x ∈ d, x.1.isWrite = true → x.2.ec = .success ∨ x.1.buffer = []) :
    m.writes.flatMap Stream.takenOf = d.flatMap writtenOf := by
  have hsuccess := success_of_isSending hm
  rcases h.recorded with hrecorded | ⟨op, rfl, _, hrecorded⟩
  · exact hrecorded.all rfl hsuccess hall
  · have hempty : op.buffer = [] := hnext
    rw [hrecorded.all rfl hsuccess ?_, flatMap_concat, writtenOf, hempty, List.append_nil]
    intro x hx
    rcases List.mem_append.mp hx with hx | hx
    · exact hall x hx
    · rw [List.mem_singleton.mp hx]
      exact fun _ => .inr hempty

/-- The body ends with an operation of the coroutine. -/
theorem Attends.ends (h : Attends m d next begun) {w : WriteRec} (hw : w ∈ m.writes)
    (heof : w.eof = true) :
    next = some (.writeEof w.buffer) ∨ ∃ answer, (Op.writeEof w.buffer, answer) ∈ d := by
  have hop : ∀ {op : Op}, w.buffer = op.buffer → endsBody op = true → op = .writeEof w.buffer := by
    intro op hbuffer hends
    cases op with
    | writeEof buffer => exact congrArg Op.writeEof hbuffer.symm
    | submit | readSome | write => exact absurd hends (by simp [endsBody])
  have hentry : Stream.entryOf w ∈ m.ledger := List.mem_map_of_mem hw
  rcases h.recorded with hrecorded | ⟨op, rfl, _, hrecorded⟩
  · obtain ⟨⟨op, answer⟩, hx, _, hbuffer, hends⟩ := hrecorded.mem hentry
    obtain rfl := hop hbuffer (hends.symm.trans heof)
    exact .inr ⟨answer, hx⟩
  · obtain ⟨⟨op', answer⟩, hx, _, hbuffer, hends⟩ := hrecorded.mem hentry
    obtain rfl := hop hbuffer (hends.symm.trans heof)
    rcases List.mem_append.mp hx with hx | hx
    · exact .inr ⟨answer, hx⟩
    · obtain ⟨rfl, _⟩ := Prod.mk.inj (List.mem_singleton.mp hx)
      exact .inl rfl

/-- The coroutine knows what its reads have completed with, but for one that has just done so. -/
theorem Attends.replies (h : Attends m d next begun) :
    m.readReplies = d.filterMap readAnswer ∨
      (∃ size, next = some (.readSome size)) ∧
        ∃ answer, m.readReplies = d.filterMap readAnswer ++ [answer] := by
  cases h with
  | idle hidle => exact .inl hidle.replies
  | reading hreplies => exact .inl hreplies
  | hasRead hreplies => exact .inr ⟨⟨_, rfl⟩, _, hreplies⟩
  | writing _ hreplies | hasWritten _ hreplies => exact .inl hreplies
  | refused _ hidle => exact .inl hidle.replies

/-- The answers that the coroutine has got are the first replies. -/
theorem Attends.answers_prefix (h : Attends m d next begun) :
    d.filterMap readAnswer <+: m.readReplies := by
  rcases h.replies with hreplies | ⟨_, answer, hreplies⟩
  · exact hreplies ▸ List.prefix_rfl
  · rw [hreplies]
    exact List.prefix_append _ _

/-- What the coroutine has got are the bytes of its answers. -/
theorem flatMap_readOf (h : ∀ answer ∈ d.filterMap readAnswer, answer.ec ≠ .success →
    answer.bytes = []) : d.flatMap readOf = (d.filterMap readAnswer).flatMap OpResult.bytes := by
  -- on the dialogue
  induction d with
  | nil => rfl
  | cons x d ih =>
    obtain ⟨op, answer⟩ := x
    cases op with
    | submit | write | writeEof => exact ih h
    | readSome size =>
      have hall : ∀ answer' ∈ answer :: d.filterMap readAnswer, answer'.ec ≠ .success →
          answer'.bytes = [] := h
      have hrest := ih fun answer' hanswer' => hall answer' (List.mem_cons_of_mem _ hanswer')
      show (if answer.ec = .success then answer.bytes else []) ++ d.flatMap readOf =
        answer.bytes ++ (d.filterMap readAnswer).flatMap OpResult.bytes
      rw [hrest]
      split
      · rfl
      · rw [hall answer (List.mem_cons_self ..) ‹_›]

/-- What it has read is what has been delivered, but for a read that it has not been answered. -/
theorem Attends.delivered (h : Attends m d next begun) (hm : m.Bare) :
    d.flatMap readOf <+: m.delivered ∧
      ((∀ size, next ≠ some (.readSome size)) → d.flatMap readOf = m.delivered) := by
  have hfirst := h.answers_prefix
  rw [flatMap_readOf fun answer hanswer => hm answer (hfirst.subset hanswer), Stream.delivered_eq]
  constructor
  · obtain ⟨rest, hrest⟩ := hfirst
    rw [← hrest, List.flatMap_append]
    exact List.prefix_append _ _
  · intro hnext
    -- the last read has been answered to the task, or not yet
    rcases h.replies with hreplies | ⟨⟨size, hsize⟩, _⟩
    · rw [hreplies]
    · exact absurd hsize (hnext size)

/-- The coroutine knows about the end only from its stream. -/
theorem Attends.told (h : Attends m d next begun) (hseen : SeenEof d) :
    ∃ c ∈ m.trace, Stream.IsEof c := by
  obtain ⟨size, bytes, hmem⟩ := hseen
  have hanswer : (⟨.eof, bytes⟩ : OpResult) ∈ m.readReplies :=
    h.answers_prefix.subset (List.mem_filterMap.mpr ⟨_, hmem, rfl⟩)
  obtain ⟨c, hc, hreply⟩ := List.mem_filterMap.mp hanswer
  refine ⟨c, hc, ?_⟩
  cases c with
  | completeRead h' size' ec count bytes' =>
    exact congrArg OpResult.ec (Option.some.inj hreply)
  | completeWrite | completeResponse | consumeStream | resumeData | resetStream | postReset =>
    exact absurd hreply (by simp [Stream.readReply])

end AnyHttp.H2
