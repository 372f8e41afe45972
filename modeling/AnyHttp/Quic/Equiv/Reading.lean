import AnyHttp.Quic.Equiv.Reception
import AnyHttp.Quic.Equiv.Told

/-!
# The integrity of the incoming body

As long as nothing but data and its end reaches the reader, what it gets is the body: every byte
once and in order, as much of it with each read as there is and fits, and the end after the last
byte.  No read waits while there is something for it, and the peer is granted credit for exactly
what has been delivered.

The invariants are those of `Quic/Equiv/Receiver.lean` and `Quic/Equiv/Told.lean`; what is left to
do is to look at a single read (`Receiver.Step.reads`), and at all the reads of an action, in the
order they complete in (`Receiver.Turn.reads`).

* `Stream.bodyRead_of_undisturbed`: all of this holds at the end of every undisturbed run.
-/

namespace AnyHttp.Quic

open Lib

namespace Receiver

variable {c : Conduct} {p p' : Phase} {r r' : Receiver}

/-- Nothing is taken away from a reader that is not disturbed. -/
structure Peace (r r' : Receiver) : Prop where
  kind : r'.kind = r.kind
  aborted : r'.readAborted = r.readAborted
  closed : r.kind ≠ .http3 → r'.closed = r.closed
  reader : r'.reader = .released → r.reader = .released

theorem Peace.refl (r : Receiver) : Peace r r := ⟨rfl, rfl, fun _ => rfl, id⟩

theorem Peace.trans {r'' : Receiver} (h : Peace r r') (h' : Peace r' r'') : Peace r r'' where
  kind := h'.kind.trans h.kind
  aborted := h'.aborted.trans h.aborted
  closed := fun hk => (h'.closed (h.kind.symm ▸ hk)).trans (h.closed hk)
  reader := fun hr => h.reader (h'.reader hr)

theorem Step.calm (hstep : Step .calm p r p' r') : Peace r r' := by
  cases hstep with
  | drop r hcalm => exact absurd rfl hcalm
  | abort r hcalm => exact absurd rfl hcalm
  | release r hcalm => exact absurd rfl hcalm
  | fail r ec handler hh hcalm => exact ⟨rfl, rfl, fun hk => absurd (hcalm rfl) hk, id⟩
  | close r closed hclosed hcalm =>
    exact ⟨rfl, rfl, fun hk => (hcalm rfl).resolve_left hk, id⟩
  | destroy r =>
    refine ⟨rfl, rfl, fun _ => rfl, fun hr => ?_⟩
    by_contra hne
    by_cases hattached : r.reader = .attached
    · simp [detachAll, hattached] at hr
    · simp [detachAll, hattached, hne] at hr
  | _ => exact ⟨rfl, rfl, fun _ => rfl, id⟩

theorem Steps.calm (hsteps : Steps .calm p r p' r') : Peace r r' := by
  induction hsteps with
  | refl p r => exact .refl r
  | cons hstep _ ih => exact hstep.calm.trans ih

theorem Turn.calm {a : Act} (hturn : Turn .calm r a r') : Peace r r' := by
  cases hturn with
  | arrive data fin hdata hlive hframes hclosed heof haborted hfin hsteps =>
    exact ⟨hsteps.calm.kind, hsteps.calm.aborted, hsteps.calm.closed, hsteps.calm.reader⟩
  | read handler size hsize hreader hh hsteps =>
    exact ⟨hsteps.calm.kind, hsteps.calm.aborted, hsteps.calm.closed, hsteps.calm.reader⟩
  | answer => exact ⟨rfl, rfl, fun _ => rfl, id⟩
  | steps hsteps => exact hsteps.calm

/-- After `trace`, `calls` have been made, and each read that succeeded has got as much as there was
and as fitted into its buffer. -/
def ReadsAll (received : List UInt8) (trace calls : List Call) : Prop :=
  ∀ pre post handler size bytes, calls = pre ++ .completeRead handler size .success bytes :: post →
    bytes = (received.drop (delivered (trace ++ pre)).length).take size

theorem readsAll_of_not_success {received : List UInt8} {trace calls : List Call}
    (h : ∀ handler size bytes, .completeRead handler size .success bytes ∉ calls) :
    ReadsAll received trace calls := by
  rintro pre post handler size bytes rfl
  exact absurd (List.mem_append_right pre List.mem_cons_self) (h handler size bytes)

theorem readsAll_singleton {received bytes : List UInt8} {trace : List Call} {handler : Handler}
    {size : Nat} (h : bytes = (received.drop (delivered trace).length).take size) :
    ReadsAll received trace [.completeRead handler size .success bytes] := by
  intro pre post handler' size' bytes' heq
  cases pre with
  | nil =>
    obtain ⟨hcall, _⟩ := List.cons_eq_cons.mp heq
    cases hcall
    rw [List.append_nil]
    exact h
  | cons d pre => exact absurd (List.cons_eq_cons.mp heq).2 (by simp)

theorem ReadsAll.append {received : List UInt8} {trace cs ds : List Call}
    (h₁ : ReadsAll received trace cs) (h₂ : ReadsAll received (trace ++ cs) ds) :
    ReadsAll received trace (cs ++ ds) := by
  intro pre post handler size bytes heq
  rcases List.append_eq_append_iff.mp heq with ⟨more, rfl, hds⟩ | ⟨more, hcs, hpost⟩
  · rw [← List.append_assoc]
    exact h₂ more post handler size bytes hds
  · cases more with
    | nil =>
      -- the read is the first of the later calls
      simp only [List.append_nil] at hcs
      subst hcs
      have hfirst := h₂ [] post handler size bytes (by simpa using hpost.symm)
      simpa using hfirst
    | cons d more =>
      obtain ⟨rfl, rfl⟩ := List.cons_eq_cons.mp hpost
      exact h₁ pre more handler size bytes hcs

/-- Every read that a step completes gets the next bytes of the body. -/
theorem Step.reads (hstep : Step c p r p' r') (hc : c ≠ .any) (hrep : r.Rep p) (h : r.Told p) :
    r'.received = r.received ∧ ∃ cs, r'.trace = r.trace ++ cs ∧ ReadsAll r.received r.trace cs := by
  have hnone : r'.received = r.received → r'.trace = r.trace →
      r'.received = r.received ∧
        ∃ cs, r'.trace = r.trace ++ cs ∧ ReadsAll r.received r.trace cs :=
    fun hreceived htrace => ⟨hreceived, [], by rw [htrace, List.append_nil],
      readsAll_of_not_success (by simp)⟩
  have hcall : ∀ x, r'.received = r.received → r'.trace = r.trace ++ [x] →
      (∀ handler size bytes, .completeRead handler size .success bytes ≠ x) →
      r'.received = r.received ∧
        ∃ cs, r'.trace = r.trace ++ cs ∧ ReadsAll r.received r.trace cs :=
    fun x hreceived htrace hx => ⟨hreceived, [x], htrace,
      readsAll_of_not_success (by simpa using hx)⟩
  cases hstep with
  | data r n k handler hh hunread =>
    have hne := hrep.unread_ne_nil hunread
    have haborted : r.readAborted = false := by
      by_contra ha
      exact hne (hrep.aborted ((Bool.not_eq_false _).mp ha)).2
    have hflow := h.flow haborted (Or.inr (by simp [hh]))
    refine ⟨rfl, [_], rfl, readsAll_singleton ?_⟩
    rw [readBytes_eq hrep.parked, ← hflow, List.drop_left]
  | fail r ec handler hh hcalm hfair =>
    obtain ⟨hec, hnested⟩ := hfair hc
    have hcode : r.failCode ec = .partialMessage :=
      if_pos ⟨hec, (hrep.nothing_left hh hnested).2.1⟩
    exact hcall _ rfl rfl (by simp [hcode])
  | destroy r hframes hlive =>
    refine ⟨rfl, r.detachCalls, rfl, readsAll_of_not_success ?_⟩
    simp [detachCalls]
  | calls r cs hcs =>
    refine ⟨rfl, cs, rfl, readsAll_of_not_success fun handler size bytes hmem => ?_⟩
    exact absurd (hcs _ hmem) (by simp [Call.aboutReading])
  | eof | truncated | leave | cancel => exact hcall _ rfl rfl (by simp)
  | _ => exact hnone rfl rfl

theorem Steps.reads (hsteps : Steps c p r p' r') (hc : c ≠ .any) (hrep : r.Rep p) (h : r.Told p) :
    r'.received = r.received ∧ ∃ cs, r'.trace = r.trace ++ cs ∧ ReadsAll r.received r.trace cs := by
  induction hsteps with
  | refl p r =>
    exact ⟨rfl, [], (List.append_nil _).symm, readsAll_of_not_success (by simp)⟩
  | @cons p₁ p₂ p₃ r₁ r₂ r₃ hstep _ ih =>
    obtain ⟨hreceived, cs, htrace, hreads⟩ := hstep.reads hc hrep h
    obtain ⟨hreceived', ds, htrace', hreads'⟩ := ih (hstep.rep hrep) (hstep.told hc hrep h)
    rw [hreceived, htrace] at hreads'
    refine ⟨hreceived'.trans hreceived, cs ++ ds, ?_, hreads.append hreads'⟩
    rw [htrace', htrace, List.append_assoc]

/-- All the reads of an action. -/
theorem Turn.reads {a : Act} (hturn : Turn c r a r') (hc : c ≠ .any) (hrep : r.Rep .rest)
    (h : r.Told .rest) :
    ∃ cs, r'.trace = r.trace ++ cs ∧ ReadsAll r'.received r.trace cs := by
  cases hturn with
  | arrive data fin hdata hlive hframes hclosed heof haborted hfin hsteps =>
    obtain ⟨hreceived, cs, htrace, hreads⟩ := hsteps.reads hc
      (hrep.arrive hlive hframes heof haborted hfin)
      (h.arrive hrep hlive hframes hclosed heof haborted)
    exact ⟨cs, htrace, hreceived ▸ hreads⟩
  | read handler size hsize hreader hh hsteps =>
    obtain ⟨hreceived, cs, htrace, hreads⟩ := hsteps.reads hc (hrep.arm hreader handler size)
      (h.arm hrep hreader handler size)
    refine ⟨.onCancel handler .read :: cs, ?_, ?_⟩
    · rw [htrace]
      simp [Receiver.arm]
    · have harm : ReadsAll r'.received r.trace [.onCancel handler .read] :=
        readsAll_of_not_success (by simp)
      exact harm.append (hreceived ▸ hreads)
  | answer handler size ec hanswer =>
    refine ⟨[_], rfl, ?_⟩
    rcases hanswer with ⟨rfl, rfl⟩ | hreader
    · exact readsAll_singleton (List.take_zero).symm
    · refine readsAll_of_not_success fun handler' size' bytes hmem => ?_
      rcases h.detached ec hreader with ⟨rfl, _⟩ | ⟨rfl, _⟩ <;> simp at hmem
  | steps hsteps =>
    obtain ⟨hreceived, cs, htrace, hreads⟩ := hsteps.reads hc hrep h
    exact ⟨cs, htrace, hreceived ▸ hreads⟩

end Receiver

open Receiver

namespace Stream

variable {c : Conduct} {m m' : Stream}

theorem told_init (kind : Kind) (mode : WriteMode) (headers : Bool) :
    (init kind mode headers).past.Told .rest where
  flow := fun _ _ => rfl
  aborted := fun ha => absurd ha (by simp [Stream.past, Stream.receiver, init])
  detached := fun _ hec => absurd hec (by simp [Stream.past, Stream.receiver, init])
  eof := fun ht => absurd ht (by simp [tells, Stream.past, init])
  truncated := fun ht => absurd ht (by simp [tells, Stream.past, init])
  sensible := by simp [Stream.past, init]
  sticky := List.Pairwise.nil

/-- The integrity of the incoming body. -/
structure BodyRead (m : Stream) : Prop where
  /-- What has been delivered is a prefix of what has been received, and the rest is there. -/
  whole : delivered m.trace ++ m.q.rx.unread = m.received
  eof : tells (· = .eof) m.trace → m.q.rx.eofReceived = true ∧ delivered m.trace = m.received
  pending : m.frames = [] → m.q.rx.readHandler ≠ none →
    m.q.rx.unread = [] ∧ m.q.rx.eofReceived = false
  credit : m.frames = [] → credited m.trace = (delivered m.trace).length

/-- Each read that succeeds during a step delivers as many of the bytes that are available as its
buffer holds. -/
def ReadsFull (m m' : Stream) : Prop :=
  ∃ cs, m'.trace = m.trace ++ cs ∧
    ∀ pre post handler size bytes, cs = pre ++ .completeRead handler size .success bytes :: post →
      bytes <+: m'.received.drop (delivered (m.trace ++ pre)).length ∧
        bytes.length = min size (m'.received.drop (delivered (m.trace ++ pre)).length).length

/-- What an undisturbed run keeps. -/
structure Calm (m : Stream) : Prop where
  rep : m.past.Rep .rest
  told : m.past.Told .rest
  aborted : m.q.readAborted = false
  opened : m.q.kind ≠ .http3 → m.q.closed = false
  reader : m.reader ≠ .released

theorem Calm.step (h : m.Calm) {a : Act} (hquiet : m.Undisturbed a) (hstep : m.step a = some m') :
    m'.Calm := by
  have hturn : Turn .calm m.past a m'.past := reception h.rep ⟨hquiet, h.opened⟩ hstep
  exact
    { rep := hturn.rep h.rep
      told := hturn.told (by simp) h.rep h.told
      aborted := hturn.calm.aborted.trans h.aborted
      opened := fun hk => by
        have hkind : m'.q.kind = m.q.kind := hturn.calm.kind
        rw [hkind] at hk
        exact (hturn.calm.closed hk).trans (h.opened hk)
      reader := fun hr => h.reader (hturn.calm.reader hr) }

theorem Calm.bodyRead (h : m.Calm) : m.BodyRead where
  whole := h.told.flow h.aborted (Or.inl h.reader)
  eof := fun ht => ⟨(h.told.eof ht).eof, (h.told.eof ht).all⟩
  pending := fun hframes hh => by
    obtain ⟨hunread, heof, _⟩ := h.rep.pending (by simp) (h.rep.inactive hframes) hh
    exact ⟨hunread, heof⟩
  credit := fun hframes => by
    have hcredit := h.rep.credit
    have hnone : m.past.running .rest = [] := by
      simp [Receiver.running, Phase.loops, Stream.past, Stream.receiver, hframes, loops]
    rw [hnone] at hcredit
    exact hcredit

theorem Calm.readsFull (h : m.Calm) {a : Act} (hquiet : m.Undisturbed a)
    (hstep : m.step a = some m') : m.ReadsFull m' := by
  have hturn : Turn .calm m.past a m'.past := reception h.rep ⟨hquiet, h.opened⟩ hstep
  obtain ⟨cs, htrace, hreads⟩ := hturn.reads (by simp) h.rep h.told
  refine ⟨cs, htrace, fun pre post handler size bytes heq => ?_⟩
  have hbytes := hreads pre post handler size bytes heq
  have hlen : bytes.length =
      min size (m'.received.drop (delivered (m.trace ++ pre)).length).length := by
    rw [hbytes, List.length_take]
    rfl
  exact ⟨hbytes ▸ List.take_prefix size _, hlen⟩

/-- **The incoming body arrives at the reader as it is**: at the end of every run that leaves the
reader in peace, and with every further step that does. -/
theorem bodyRead_of_undisturbed {kind : Kind} {mode : WriteMode} {headers : Bool} {acts : List Act}
    (hrun : run step (init kind mode headers) acts = some m)
    (hquiet : Meets step Undisturbed (init kind mode headers) acts) :
    m.BodyRead ∧ delivered m.trace <+: m.received ∧
      ∀ a m', m.Undisturbed a → m.step a = some m' → m.ReadsFull m' := by
  have hcalm : m.Calm := run_inv_of_meets (fun s a t hs hq ht => hs.step hq ht)
    ⟨rep_init kind mode headers, told_init kind mode headers, rfl, fun _ => rfl, by simp [init]⟩
    hquiet hrun
  refine ⟨hcalm.bodyRead, ?_, fun a m' ha hstep => hcalm.readsFull ha hstep⟩
  exact ⟨m.q.rx.unread, hcalm.bodyRead.whole⟩

/-- A chunk that is parked and read in two goes, the second one from inside the completion of the
first, before the last chunk arrives. -/
def readInTwoGoes : List Act :=
  [.recvStreamData [1, 2, 3] false, .asyncReadSome ⟨1, none⟩ 2, .asyncReadSome ⟨2, none⟩ 5, .ret,
    .ret, .recvStreamData [4] true]

theorem bodyRead_readInTwoGoes :
    delivered (after (.plain ⟨0, 0⟩) .staged readInTwoGoes).trace = [1, 2, 3] ∧
      (after (.plain ⟨0, 0⟩) .staged readInTwoGoes).received = [1, 2, 3, 4] ∧
      credited (after (.plain ⟨0, 0⟩) .staged readInTwoGoes).trace = 3 ∧
      (after (.plain ⟨0, 0⟩) .staged readInTwoGoes).BodyRead := by
  have hrun : run step (init (.plain ⟨0, 0⟩) .staged true) readInTwoGoes =
      some (after (.plain ⟨0, 0⟩) .staged readInTwoGoes) := by decide
  refine ⟨by decide, by decide, by decide, (bodyRead_of_undisturbed hrun (meets_of_forall ?_ _)).1⟩
  simp [readInTwoGoes, Undisturbed]

end Stream

end AnyHttp.Quic
