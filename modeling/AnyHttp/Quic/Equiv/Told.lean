import AnyHttp.Quic.Equiv.Receiver

/-!
# What the reader has been told

`Receiver.Told` is what a receiving side that is treated fairly owes to its past: what has been
delivered and what is unread are, together, what has been received (`flow`); after the reader has
been told the end of the body there is nothing left of it (`Whole`), and after it has been told that
the body is truncated, nothing will complete it (`Broken`, and `Cut` once the stream is gone).

Each of the three only ever changes to the same again, and that is why what the reader is told
next is the same as well.
-/

namespace AnyHttp.Quic

open Lib

/-! ### Outcomes of reads -/

/-- How a read has completed; one into an empty buffer says nothing. -/
def Call.outcome : Call → Option ErrorCode
  | .completeRead _ size ec _ => if size = 0 then none else some ec
  | _ => none

/-- Neither data nor the end of the body, and nobody has cancelled anything. -/
def Truncates (ec : ErrorCode) : Prop := ec ≠ .success ∧ ec ≠ .eof ∧ ec ≠ .canceled

/-- A read succeeds with at least one byte, or completes with none. -/
def Call.Sensible (c : Call) : Prop :=
  ∀ h size ec bytes, c = .completeRead h size ec bytes → size ≠ 0 →
    (ec = .success ↔ bytes ≠ [])

/-- The end of the body is the end for every later read, and so is truncation. -/
def Call.Sticky (c d : Call) : Prop :=
  ∀ e e', c.outcome = some e → d.outcome = some e' → e' ≠ .canceled →
    (e = .eof → e' = .eof) ∧ (e = .partialMessage → e' = .partialMessage) ∧
      (Truncates e → Truncates e')

/-- Some read has completed this way. -/
def tells (P : ErrorCode → Prop) (calls : List Call) : Prop :=
  ∃ c ∈ calls, ∃ e, c.outcome = some e ∧ P e

theorem tells_append {P : ErrorCode → Prop} {cs ds : List Call} :
    tells P (cs ++ ds) ↔ tells P cs ∨ tells P ds := by
  simp only [tells, List.mem_append]
  constructor
  · rintro ⟨c, hc | hc, hP⟩
    · exact Or.inl ⟨c, hc, hP⟩
    · exact Or.inr ⟨c, hc, hP⟩
  · rintro (⟨c, hc, hP⟩ | ⟨c, hc, hP⟩)
    · exact ⟨c, Or.inl hc, hP⟩
    · exact ⟨c, Or.inr hc, hP⟩

theorem tells_singleton {P : ErrorCode → Prop} {c : Call} :
    tells P [c] ↔ ∃ e, c.outcome = some e ∧ P e := by
  simp [tells]

/-- Nobody is told anything by these. -/
def Quiet (cs : List Call) : Prop := ∀ c ∈ cs, c.outcome = none

theorem Quiet.not_tells {cs : List Call} (h : Quiet cs) (P : ErrorCode → Prop) :
    ¬tells P cs := by
  rintro ⟨c, hc, e, he, _⟩
  exact absurd ((h c hc).symm.trans he) (by simp)

theorem Quiet.sensible {cs : List Call} (h : Quiet cs) : ∀ c ∈ cs, c.Sensible := by
  rintro c hc handler size ec bytes rfl hsize
  have hnone := h _ hc
  rw [Call.outcome, if_neg hsize] at hnone
  exact absurd hnone (by simp)

theorem quiet_of_other {cs : List Call} (h : ∀ c ∈ cs, c.aboutReading = false) : Quiet cs := by
  intro c hc
  cases c with
  | completeRead handler size ec bytes => exact absurd (h _ hc) (by simp [Call.aboutReading])
  | _ => rfl

theorem sticky_quiet {cs ds : List Call} (h : cs.Pairwise Call.Sticky) (hds : Quiet ds) :
    (cs ++ ds).Pairwise Call.Sticky := by
  have hnone : ∀ c d : Call, d ∈ ds → c.Sticky d := fun c d hd e e' _ he' =>
    absurd ((hds d hd).symm.trans he') (by simp)
  refine List.pairwise_append.mpr ⟨h, ?_, fun c _ d hd => hnone c d hd⟩
  exact List.pairwise_of_forall_mem_list fun c _ d hd => hnone c d hd

/-- What a further read may complete with. -/
theorem sticky_concat {cs : List Call} {c : Call} {e : ErrorCode} (h : cs.Pairwise Call.Sticky)
    (hc : c.outcome = some e) (heof : tells (· = .eof) cs → e = .canceled ∨ e = .eof)
    (hpart : tells (· = .partialMessage) cs → e = .canceled ∨ e = .partialMessage)
    (htrunc : tells Truncates cs → e = .canceled ∨ Truncates e) :
    (cs ++ [c]).Pairwise Call.Sticky := by
  refine List.pairwise_append.mpr ⟨h, List.pairwise_singleton _ _, fun d hd c' hc' => ?_⟩
  rw [List.mem_singleton.mp hc']
  intro e₀ e' he₀ he' hne
  obtain rfl : e = e' := Option.some.inj (hc.symm.trans he')
  exact ⟨fun he => (heof ⟨d, hd, e₀, he₀, he⟩).resolve_left hne,
    fun he => (hpart ⟨d, hd, e₀, he₀, he⟩).resolve_left hne,
    fun he => (htrunc ⟨d, hd, e₀, he₀, he⟩).resolve_left hne⟩

namespace Receiver

variable {c : Conduct} {p p' : Phase} {r r' : Receiver}

/-- The peer has ended the body, and all of it has been delivered. -/
structure Whole (r : Receiver) : Prop where
  eof : r.rx.eofReceived = true
  unread : r.rx.unread = []
  aborted : r.readAborted = false
  all : delivered r.trace = r.received

/-- The stream is gone, and not all of the body has been delivered. -/
def Cut (r : Receiver) : Prop :=
  r.rx.eofReceived = false ∨
    r.rx.unread ≠ [] ∧ delivered r.trace ++ r.rx.unread = r.received

/-- The body has no end, nothing of it is left, and nothing more will come. -/
structure Broken (p : Phase) (r : Receiver) : Prop where
  unread : r.rx.unread = []
  eof : r.rx.eofReceived = false
  /-- The end has not come with a chunk that is still being delivered either. -/
  noEnd : .chunk true ∉ r.conts p
  isOver : r.closed = true ∨ r.readAborted = true
  idle : (∀ k, p ≠ .calling k) → r.rx.callReadHandlerActive = false → r.rx.readHandler = none

structure Told (p : Phase) (r : Receiver) : Prop where
  flow : r.readAborted = false → r.reader ≠ .released ∨ r.rx.readHandler ≠ none →
    delivered r.trace ++ r.rx.unread = r.received
  aborted : r.readAborted = true → r.rx.eofReceived = false ∧ .chunk true ∉ r.conts p
  detached : ∀ ec, r.reader = .detached ec → ec = .eof ∧ r.Whole ∨ ec = .partialMessage ∧ r.Cut
  eof : tells (· = .eof) r.trace → r.Whole
  truncated : tells Truncates r.trace →
    r.destroyed = false ∧ r.Broken p ∨ r.destroyed = true ∧ r.Cut
  sensible : ∀ c ∈ r.trace, c.Sensible
  sticky : r.trace.Pairwise Call.Sticky

/-! ### What lasts -/

theorem Rep.live (h : r.Rep p) {handler : Handler} (hh : r.rx.readHandler = some handler) :
    r.destroyed = false := by
  by_contra hd
  have hnone := (h.gone ((Bool.not_eq_false _).mp hd)).1
  exact absurd (hnone.symm.trans hh) (by simp)

theorem Rep.unread_ne_nil (h : r.Rep p) (hunread : r.rx.readHead ≠ [] ∨ r.rx.incoming ≠ []) :
    r.rx.unread ≠ [] := by
  intro hnil
  obtain ⟨hhead, hincoming⟩ := (unread_eq_nil h.parked).mp hnil
  rcases hunread with h | h
  · exact h hhead
  · exact h hincoming

/-- The end of the body comes with a chunk only if that is how it has arrived. -/
theorem Step.ends (hstep : Step c p r p' r') (hend : .chunk true ∈ r'.conts p') :
    .chunk true ∈ r.conts p := by
  cases hstep with
  | back r | park r => exact List.mem_cons_of_mem _ hend
  | parkEnd r => exact List.mem_cons_self
  | again r n k frames hframes | failed r n frames hframes =>
    simpa [Receiver.conts, Phase.conts, hframes, loops] using hend
  | ended r | abort r => simpa [Receiver.conts, Phase.conts] using hend
  | _ => exact hend

/-- What is whole remains whole. -/
theorem Step.whole (hstep : Step c p r p' r') (h : r.Rep p) (hw : r.Whole) : r'.Whole := by
  obtain ⟨heof, hunread, haborted, hall⟩ := hw
  cases hstep with
  | data r n k handler hh hne => exact absurd hunread (h.unread_ne_nil hne)
  | park r =>
    obtain ⟨_, heof', _⟩ := park_same r.rx
    exact ⟨heof'.trans heof, (unread_park h.parked).1.trans hunread, haborted, hall⟩
  | parkEnd r => exact ⟨rfl, (unread_park h.parked).1.trans hunread, haborted, hall⟩
  | drop r hcalm hreader hfair => exact ⟨heof, unread_clear r.rx, haborted, hall⟩
  | ended r hlive hframes hclosed hnoeof => exact ⟨rfl, hunread, haborted, hall⟩
  | abort r hcalm hlive hkind hnoeof =>
    exact absurd (hnoeof.symm.trans heof) Bool.false_ne_true
  | destroy r hframes hlive =>
    refine ⟨heof, hunread, haborted, ?_⟩
    simpa [detachAll] using hall
  | calls r cs hcs =>
    refine ⟨heof, hunread, haborted, ?_⟩
    simpa [delivered_other hcs] using hall
  | _ =>
    refine ⟨heof, hunread, haborted, ?_⟩
    simpa [Receiver.pass, Receiver.call] using hall

theorem Cut.same (h : r.Cut) (heof : r'.rx.eofReceived = r.rx.eofReceived)
    (hunread : r'.rx.unread = r.rx.unread) (hdelivered : delivered r'.trace = delivered r.trace)
    (hreceived : r'.received = r.received) : r'.Cut := by
  unfold Cut
  rw [heof, hunread, hdelivered, hreceived]
  exact h

/-- Nothing happens to the body of a stream that is gone. -/
theorem Step.cut (hstep : Step c p r p' r') (h : r.Rep p) (hd : r.destroyed = true)
    (hcut : r.Cut) : r'.destroyed = true ∧ r'.Cut := by
  have hdead : r.destroyed ≠ false := by simp [hd]
  cases hstep with
  | data r n k handler hh => exact absurd (h.live hh) hdead
  | park r =>
    exact ⟨hd, hcut.same (park_same r.rx).2.1 (unread_park h.parked).1 rfl rfl⟩
  | parkEnd r => exact absurd (h.ending List.mem_cons_self).2.2 hdead
  | drop r hcalm hreader => exact absurd (h.live_of_attached hreader) hdead
  | ended r hlive => exact absurd hlive hdead
  | abort r hcalm hlive => exact absurd hlive hdead
  | destroy r hframes hlive => exact absurd hlive hdead
  | calls r cs hcs => exact ⟨hd, hcut.same rfl rfl (by simp [delivered_other hcs]) rfl⟩
  | _ => exact ⟨hd, hcut.same rfl rfl (by simp [Receiver.pass]) rfl⟩

/-- What is broken remains broken, or is cut. -/
theorem Step.broken (hstep : Step c p r p' r') (h : r.Rep p) (hlive : r.destroyed = false)
    (hb : r.Broken p) :
    r'.destroyed = false ∧ r'.Broken p' ∨ r'.destroyed = true ∧ r'.Cut := by
  obtain ⟨hunread, heof, hnoend, hover, hidle⟩ := hb
  have hnoend' : .chunk true ∉ r'.conts p' := fun hend => hnoend (hstep.ends hend)
  cases hstep with
  | skip r k hskip =>
    refine Or.inl ⟨hlive, hunread, heof, hnoend', hover, fun _ hactive => hskip.resolve_right ?_⟩
    rw [hactive]
    exact Bool.false_ne_true
  | enter r k handler hh => exact Or.inl ⟨hlive, hunread, heof, hnoend', hover,
    fun _ ha => absurd ha (by simp)⟩
  | data r n k handler hh hne => exact absurd hunread (h.unread_ne_nil hne)
  | eof r n k handler hh hread heof' => exact absurd (heof.symm.trans heof') Bool.false_ne_true
  | leave r n k hdone =>
    refine Or.inl ⟨hlive, hunread, heof, hnoend', hover, fun _ _ => hdone.resolve_right ?_⟩
    rintro ⟨_, _, _, hclosed, haborted⟩
    simp [hclosed, haborted] at hover
  | back r => exact Or.inl ⟨hlive, hunread, heof, hnoend', hover, fun _ => hidle (by simp)⟩
  | park r =>
    obtain ⟨hactive, heof', hhandler⟩ := park_same r.rx
    refine Or.inl
      ⟨hlive, (unread_park h.parked).1.trans hunread, heof'.trans heof, hnoend', hover, ?_⟩
    intro _ ha
    exact hhandler.trans (hidle (by simp) (hactive ▸ ha))
  | parkEnd r => exact absurd List.mem_cons_self hnoend
  | again r n k frames hframes =>
    refine Or.inl ⟨hlive, hunread, heof, hnoend', hover, fun _ ha => ?_⟩
    have hrunning := h.running
    rw [ha] at hrunning
    simp [Receiver.running, Phase.loops, hframes, loops] at hrunning
  | drop r hcalm hreader =>
    exact Or.inl ⟨hlive, unread_clear r.rx, heof, hnoend', hover, hidle⟩
  | ended r _ hframes hclosed heof' haborted =>
    rcases hover with hover | hover
    · exact absurd (hclosed.symm.trans hover) Bool.false_ne_true
    · exact absurd ((haborted (h.aborted hover).1).symm.trans hover) Bool.false_ne_true
  | abort r _ _ hkind =>
    exact Or.inl ⟨hlive, unread_clear r.rx, heof, hnoend', Or.inr rfl, fun hp => absurd rfl (hp _)⟩
  | fail r => exact Or.inl ⟨hlive, hunread, heof, hnoend', Or.inl rfl, fun _ _ => rfl⟩
  | close r closed hclosed =>
    refine Or.inl ⟨hlive, hunread, heof, hnoend', ?_, hidle⟩
    rcases hover with hover | hover
    · exact Or.inl (hclosed hover)
    · exact Or.inr hover
  | destroy r => exact Or.inr ⟨rfl, Or.inl heof⟩
  | release r hcalm hd => exact absurd (hlive.symm.trans hd) Bool.false_ne_true
  | truncated r | cancel r => exact Or.inl ⟨hlive, hunread, heof, hnoend', hover, fun _ _ => rfl⟩
  | failing | failed | calls => exact Or.inl ⟨hlive, hunread, heof, hnoend', hover, hidle⟩

/-! ### What is told next -/

/-- What the reader may be told, with what it has been told before. -/
structure News (p' : Phase) (r r' : Receiver) (cs : List Call) : Prop where
  trace : r'.trace = r.trace ++ cs
  eof : tells (· = .eof) cs → r'.Whole
  truncated : tells Truncates cs →
    r'.destroyed = false ∧ r'.Broken p' ∨ r'.destroyed = true ∧ r'.Cut
  sensible : ∀ c ∈ cs, c.Sensible
  sticky : r.trace.Pairwise Call.Sticky → r'.trace.Pairwise Call.Sticky

/-- Calls that complete no read tell the reader nothing new. -/
theorem Quiet.news {cs : List Call} (h : Quiet cs) (htrace : r'.trace = r.trace ++ cs) :
    News p' r r' cs where
  trace := htrace
  eof := fun ht => absurd ht (h.not_tells _)
  truncated := fun ht => absurd ht (h.not_tells _)
  sensible := h.sensible
  sticky := fun hs => by rw [htrace]; exact sticky_quiet hs h

theorem no_news (htrace : r'.trace = r.trace) : News p' r r' [] :=
  Quiet.news (by simp [Quiet]) (htrace.trans (List.append_nil _).symm)

/-- What lasts does. -/
structure Lasts (p : Phase) (r : Receiver) (p' : Phase) (r' : Receiver) : Prop where
  whole : r.Whole → r'.Whole
  cut : r.destroyed = true → r.Cut → r'.destroyed = true ∧ r'.Cut
  broken : r.destroyed = false → r.Broken p →
    r'.destroyed = false ∧ r'.Broken p' ∨ r'.destroyed = true ∧ r'.Cut

theorem Step.lasts (hstep : Step c p r p' r') (hrep : r.Rep p) : Lasts p r p' r' where
  whole := hstep.whole hrep
  cut := hstep.cut hrep
  broken := hstep.broken hrep

theorem Told.next (h : r.Told p) (hlasts : Lasts p r p' r') (hrep : r.Rep p) {cs : List Call}
    (hnews : News p' r r' cs)
    (hflow : r'.readAborted = false → r'.reader ≠ .released ∨ r'.rx.readHandler ≠ none →
      delivered r'.trace ++ r'.rx.unread = r'.received)
    (haborted : r'.readAborted = true → r'.rx.eofReceived = false ∧ .chunk true ∉ r'.conts p')
    (hdetached : ∀ ec, r'.reader = .detached ec →
      r.reader = .detached ec ∨ ec = .eof ∧ r'.Whole ∨ ec = .partialMessage ∧ r'.Cut) :
    r'.Told p' where
  flow := hflow
  aborted := haborted
  detached := fun ec hec => by
    -- the reader has been detached before, or is now
    rcases hdetached ec hec with hold | hnew
    · rcases h.detached ec hold with ⟨he, hwhole⟩ | ⟨he, hcut⟩
      · exact Or.inl ⟨he, hlasts.whole hwhole⟩
      · exact Or.inr ⟨he, (hlasts.cut (hrep.detached ec hold) hcut).2⟩
    · exact hnew
  eof := fun ht => by
    rw [hnews.trace] at ht
    -- told before, or by these calls
    rcases tells_append.mp ht with ht | ht
    · exact hlasts.whole (h.eof ht)
    · exact hnews.eof ht
  truncated := fun ht => by
    rw [hnews.trace] at ht
    -- the same of a truncation
    rcases tells_append.mp ht with ht | ht
    · rcases h.truncated ht with ⟨hlive, hbroken⟩ | ⟨hdead, hcut⟩
      · exact hlasts.broken hlive hbroken
      · exact Or.inr (hlasts.cut hdead hcut)
    · exact hnews.truncated ht
  sensible := fun c hc => by
    rw [hnews.trace] at hc
    rcases List.mem_append.mp hc with hc | hc
    · exact h.sensible c hc
    · exact hnews.sensible c hc
  sticky := hnews.sticky h.sticky

/-- A step that delivers nothing, and leaves what is unread alone. -/
theorem Told.still (h : r.Told p) (hlasts : Lasts p r p' r') (hrep : r.Rep p) {cs : List Call}
    (hnews : News p' r r' cs) (hdelivered : delivered cs = [])
    (hunread : r'.rx.unread = r.rx.unread) (hreceived : r'.received = r.received)
    (heof : r'.rx.eofReceived = r.rx.eofReceived) (haborted : r'.readAborted = r.readAborted)
    (hreader : r'.reader ≠ .released ∨ r'.rx.readHandler ≠ none →
      r.reader ≠ .released ∨ r.rx.readHandler ≠ none)
    (hconts : .chunk true ∈ r'.conts p' → .chunk true ∈ r.conts p)
    (hdetached : ∀ ec, r'.reader = .detached ec → r.reader = .detached ec) : r'.Told p' := by
  refine h.next hlasts hrep hnews ?_ ?_ fun ec hec => Or.inl (hdetached ec hec)
  · intro ha hr
    rw [hnews.trace, delivered_append, hdelivered, List.append_nil, hunread, hreceived]
    exact h.flow (haborted ▸ ha) (hreader hr)
  · intro ha
    obtain ⟨hnoeof, hnochunk⟩ := h.aborted (haborted ▸ ha)
    exact ⟨heof.trans hnoeof, fun hend => hnochunk (hconts hend)⟩

/-- One read that completes tells the reader what is true of the body. -/
theorem news_read {handler : Handler} {size : Nat} {ec : ErrorCode} {bytes : List UInt8}
    (htrace : r'.trace = r.trace ++ [.completeRead handler size ec bytes])
    (hsensible : size ≠ 0 → (ec = .success ↔ bytes ≠ [])) (heof : ec = .eof → r'.Whole)
    (htruncated : Truncates ec →
      r'.destroyed = false ∧ r'.Broken p' ∨ r'.destroyed = true ∧ r'.Cut)
    (hafterEof : tells (· = .eof) r.trace → ec = .canceled ∨ ec = .eof)
    (hafter : tells Truncates r.trace → ec = .canceled ∨ ec = .partialMessage) :
    News p' r r' [.completeRead handler size ec bytes] := by
  -- a read of no bytes tells nothing
  by_cases hsize : size = 0
  · refine Quiet.news (fun c hc => ?_) htrace
    rw [List.mem_singleton.mp hc, Call.outcome, if_pos hsize]
  have hout : Call.outcome (.completeRead handler size ec bytes) = some ec := if_neg hsize
  have htells : ∀ {P : ErrorCode → Prop}, tells P [.completeRead handler size ec bytes] → P ec := by
    intro P hP
    obtain ⟨e, he, hPe⟩ := tells_singleton.mp hP
    rwa [Option.some.inj (hout.symm.trans he)]
  have hpartial : Truncates .partialMessage := ⟨by simp, by simp, by simp⟩
  exact
    { trace := htrace
      eof := fun ht => heof (htells ht)
      truncated := fun ht => htruncated (htells ht)
      sensible := fun c hc handler' size' ec' bytes' heq hne => by
        rw [List.mem_singleton.mp hc] at heq
        cases heq
        exact hsensible hne
      sticky := fun hs => by
        rw [htrace]
        refine sticky_concat hs hout hafterEof ?_ ?_
        · rintro ⟨c, hc, e, he, rfl⟩
          exact hafter ⟨c, hc, _, he, hpartial⟩
        · intro ht
          rcases hafter ht with he | he
          · exact Or.inl he
          · exact Or.inr (he ▸ hpartial) }

/-- There is nothing for a read that waits while nothing runs, nor for one that `fail()` may
complete while something does. -/
theorem Rep.nothing_left (hrep : r.Rep .rest) {handler : Handler}
    (hh : r.rx.readHandler = some handler)
    (hnested : r.frames ≠ [] → r.rx.unread = [] ∧ r.rx.eofReceived = false ∧
      ∀ n, .loop n (.chunk true) ∉ r.frames) :
    r.rx.unread = [] ∧ r.rx.eofReceived = false ∧ .chunk true ∉ r.conts .rest := by
  by_cases hframes : r.frames = []
  · obtain ⟨hunread, heof, _⟩ := hrep.pending (by simp) (hrep.inactive hframes) (by simp [hh])
    exact ⟨hunread, heof, by simp [Receiver.conts, Phase.conts, hframes, loops]⟩
  · obtain ⟨hunread, heof, hnoend⟩ := hnested hframes
    refine ⟨hunread, heof, fun hend => ?_⟩
    obtain ⟨n, hmem⟩ := mem_conts_rest.mp hend
    exact hnoend n hmem

theorem Whole.not_cut (h : r.Whole) : ¬r.Cut := by
  rintro (heof | ⟨hunread, _⟩)
  · exact absurd (heof.symm.trans h.eof) Bool.false_ne_true
  · exact hunread h.unread

/-- A read that is waiting while nothing runs is not one that follows a truncation. -/
theorem Told.not_truncated (h : r.Told .rest) (hrep : r.Rep .rest) (hframes : r.frames = [])
    {handler : Handler} (hh : r.rx.readHandler = some handler) : ¬tells Truncates r.trace := by
  intro ht
  rcases h.truncated ht with ⟨_, hbroken⟩ | ⟨hdead, _⟩
  · exact absurd ((hbroken.idle (by simp) (hrep.inactive hframes)).symm.trans hh) (by simp)
  · exact absurd ((hrep.live hh).symm.trans hdead) Bool.false_ne_true

/-- After a truncation, nothing is left to read. -/
theorem Told.unread_of_truncated (h : r.Told p) (hlive : r.destroyed = false)
    (ht : tells Truncates r.trace) : r.rx.unread = [] ∧ r.rx.eofReceived = false := by
  rcases h.truncated ht with ⟨_, hbroken⟩ | ⟨hdead, _⟩
  · exact ⟨hbroken.unread, hbroken.eof⟩
  · exact absurd (hlive.symm.trans hdead) Bool.false_ne_true

/-- What `detach()` latches is the end of a body that has been read as a whole, or that it has been
cut off. -/
theorem Told.latched (h : r.Told .rest) (hrep : r.Rep .rest) (hreader : r.reader = .attached) :
    r.latched = .eof ∧ r.Whole ∨ r.latched = .partialMessage ∧ r.Cut := by
  have hflow : r.readAborted = false → delivered r.trace ++ r.rx.unread = r.received :=
    fun ha => h.flow ha (Or.inl (by simp [hreader]))
  have hnot : r.rx.eofReceived = true → r.readAborted = false := by
    intro heof
    by_contra ha
    have hnoeof := (h.aborted ((Bool.not_eq_false _).mp ha)).1
    exact absurd (hnoeof.symm.trans heof) Bool.false_ne_true
  unfold Receiver.latched
  split
  case isTrue hfinished =>
    simp only [Bool.and_eq_true, List.isEmpty_iff] at hfinished
    obtain ⟨⟨heof, hhead⟩, hincoming⟩ := hfinished
    have hunread := (unread_eq_nil hrep.parked).mpr ⟨hhead, hincoming⟩
    have hall := hflow (hnot heof)
    rw [hunread, List.append_nil] at hall
    exact Or.inl ⟨rfl, heof, hunread, hnot heof, hall⟩
  case isFalse hfinished =>
    refine Or.inr ⟨rfl, ?_⟩
    cases heof : r.rx.eofReceived with
    | false => exact Or.inl heof
    | true =>
      refine Or.inr ⟨fun hnil => hfinished ?_, hflow (hnot heof)⟩
      obtain ⟨hhead, hincoming⟩ := (unread_eq_nil hrep.parked).mp hnil
      simp [heof, hhead, hincoming]

/-- A read that is waiting when the stream is destroyed waits for something that did not come. -/
theorem Told.news_detachAll (h : r.Told .rest) (hrep : r.Rep .rest) (hframes : r.frames = []) :
    News .rest r r.detachAll r.detachCalls := by
  cases hh : r.rx.readHandler with
  | none => exact Quiet.news (by simp [Quiet, detachCalls, hh]) rfl
  | some handler =>
    obtain ⟨_, heof, _⟩ := hrep.pending (by simp) (hrep.inactive hframes) (by simp [hh])
    have hcalls : r.detachCalls =
        [.completeRead handler r.rx.readHandlerBuffer .connectionReset []] := by
      simp [detachCalls, hh]
    rw [hcalls]
    refine news_read ?_ (by simp) (by simp) ?_ ?_ ?_
    · rw [← hcalls]
      rfl
    · exact fun _ => Or.inr ⟨rfl, Or.inl heof⟩
    · exact fun ht => absurd (heof.symm.trans (h.eof ht).eof) Bool.false_ne_true
    · exact fun ht => absurd ht (h.not_truncated hrep hframes hh)

theorem Step.told (hstep : Step c p r p' r') (hc : c ≠ .any) (hrep : r.Rep p) (h : r.Told p) :
    r'.Told p' := by
  have hlasts := hstep.lasts hrep
  have hends : .chunk true ∈ r'.conts p' → .chunk true ∈ r.conts p := hstep.ends
  cases hstep with
  | skip r k hskip | back r =>
    exact h.still hlasts hrep (no_news rfl) rfl rfl rfl rfl rfl id
      (by simp [Receiver.conts, Phase.conts]) fun _ => id
  | enter r k handler hh hactive =>
    exact h.still hlasts hrep (no_news rfl) rfl rfl rfl rfl rfl id id fun _ => id
  | leave r n k hdone =>
    exact h.still hlasts hrep (Quiet.news (by simp [Quiet, Call.outcome]) rfl) rfl rfl rfl rfl rfl
      id id fun _ => id
  | park r =>
    obtain ⟨_, heof, hhandler⟩ := park_same r.rx
    refine h.still hlasts hrep (no_news rfl) rfl (unread_park hrep.parked).1 rfl heof rfl ?_ ?_
      fun _ => id
    · rw [hhandler]
      exact id
    · simp [Receiver.conts, Phase.conts]
  | again r n k frames hframes =>
    refine h.still hlasts hrep (no_news rfl) rfl rfl rfl rfl rfl id (fun hend => ?_) fun _ => id
    simpa [Receiver.conts, Phase.conts, hframes, loops] using hend
  | close r closed hclosed | failing r ec =>
    exact h.still hlasts hrep (no_news rfl) rfl rfl rfl rfl rfl id id fun _ => id
  | failed r ec frames hframes =>
    refine h.still hlasts hrep (no_news rfl) rfl rfl rfl rfl rfl id (fun hend => ?_) fun _ => id
    simpa [Receiver.conts, Phase.conts, hframes, loops] using hend
  | release r hcalm hd =>
    refine h.still hlasts hrep (no_news rfl) rfl rfl rfl rfl rfl (fun hr => ?_) id
      fun _ hec => absurd hec (by simp)
    exact Or.inr (hr.resolve_left (by simp))
  | calls r cs hcs =>
    exact h.still hlasts hrep (Quiet.news (quiet_of_other hcs) rfl)
      (delivered_other hcs) rfl rfl rfl
      rfl id id fun _ => id
  | data r n k handler hh hunread =>
    have hlive := hrep.live hh
    have hne := hrep.unread_ne_nil hunread
    refine h.next hlasts hrep (news_read rfl ?_ (by simp) (fun ht => absurd rfl ht.1)
      (fun ht => absurd (h.eof ht).unread hne)
      (fun ht => absurd (h.unread_of_truncated hlive ht).1 hne)) ?_ ?_ fun _ => Or.inl
    · intro hsize
      rw [readBytes_eq hrep.parked]
      simp [hne, hsize]
    · intro ha _
      have hflow := h.flow ha (Or.inr (by simp [hh]))
      show delivered (r.trace ++ _) ++ (afterRead r.rx _).unread = r.received
      rw [delivered_append, delivered_data, readBytes_eq hrep.parked, unread_afterRead hrep.parked,
        List.append_assoc, List.take_append_drop]
      exact hflow
    · exact fun ha => absurd (hrep.aborted ha).2 hne
  | eof r n k handler hh hread heof =>
    have hlive := hrep.live hh
    have hunread := (unread_eq_nil hrep.parked).mpr hread
    have haborted : r.readAborted = false := by
      by_contra ha
      have hnoeof := (h.aborted ((Bool.not_eq_false _).mp ha)).1
      exact absurd (hnoeof.symm.trans heof) Bool.false_ne_true
    have hall := h.flow haborted (Or.inr (by simp [hh]))
    rw [hunread, List.append_nil] at hall
    refine h.still hlasts hrep (news_read rfl (by simp) ?_ (fun ht => absurd rfl ht.2.1)
      (fun _ => Or.inr rfl) ?_) rfl rfl rfl rfl rfl (fun hr => Or.inr (by simp [hh])) id fun _ => id
    · exact fun _ => ⟨heof, hunread, haborted, by simpa [Receiver.pass] using hall⟩
    · intro ht
      exact absurd ((h.unread_of_truncated hlive ht).2.symm.trans heof) Bool.false_ne_true
  | truncated r n k handler hh hread heof hover hfair =>
    refine h.still hlasts hrep (news_read rfl (by simp) (by simp) ?_ ?_ (fun _ => Or.inr rfl)) rfl
      rfl rfl rfl rfl (fun hr => Or.inr (by simp [hh])) id fun _ => id
    · refine fun _ => Or.inl ⟨hrep.live hh, (unread_eq_nil hrep.parked).mpr hread, heof,
        fun hend => ?_, hover, fun _ _ => rfl⟩
      rcases hover with hover | hover
      · have hk : k = .chunk true := by
          simpa [Receiver.conts, Phase.conts, hrep.loops_eq_nil, eq_comm] using hends hend
        exact hfair hc hover hk
      · exact (h.aborted hover).2 (hends hend)
    · exact fun ht => absurd (heof.symm.trans (h.eof ht).eof) Bool.false_ne_true
  | parkEnd r =>
    refine h.next hlasts hrep (no_news rfl) ?_ ?_ fun _ => Or.inl
    · intro ha hr
      show delivered r.trace ++ (Receiver.park r.rx).unread = r.received
      rw [(unread_park hrep.parked).1]
      have hr' : r.reader ≠ .released ∨ (Receiver.park r.rx).readHandler ≠ none := hr
      rw [(park_same r.rx).2.2] at hr'
      exact h.flow ha hr'
    · exact fun ha => absurd List.mem_cons_self (h.aborted ha).2
  | cancel r handler hh =>
    exact h.still hlasts hrep (news_read rfl (by simp) (by simp) (fun ht => absurd rfl ht.2.2)
      (fun _ => Or.inl rfl) (fun _ => Or.inl rfl)) rfl rfl rfl rfl rfl
      (fun hr => Or.inr (by simp [hh])) id fun _ => id
  | drop r hcalm hreader hfair =>
    refine h.next hlasts hrep (no_news rfl) ?_ h.aborted fun _ hec => absurd hec (by simp)
    intro ha hr
    have hh : r.rx.readHandler ≠ none := hr.resolve_left (by simp)
    have hflow := h.flow ha (Or.inr hh)
    rw [hfair hc hh] at hflow
    exact hflow
  | ended r hlive hframes hclosed heof haborted =>
    refine h.next hlasts hrep (no_news rfl) h.flow (fun ha => ?_) fun _ => Or.inl
    exact absurd ((haborted (hrep.aborted ha).1).symm.trans ha) Bool.false_ne_true
  | abort r hcalm hlive hkind heof hfair =>
    refine h.next hlasts hrep (no_news rfl) (fun ha => absurd ha (by simp)) (fun _ => ⟨heof, ?_⟩)
      fun _ => Or.inl
    intro hend
    obtain ⟨n, hmem⟩ := mem_conts_rest.mp (hends hend)
    exact hfair hc n hmem
  | fail r ec handler hh hcalm hfair =>
    obtain ⟨hec, hnested⟩ := hfair hc
    have hdone := hrep.nothing_left hh hnested
    have hcode : r.failCode ec = .partialMessage := if_pos ⟨hec, hdone.2.1⟩
    refine h.still hlasts hrep (news_read rfl ?_ ?_ ?_ ?_ fun _ => Or.inr hcode)
      (delivered_read _ _ _)
      rfl rfl rfl rfl (fun hr => Or.inr (by simp [hh])) id fun _ => id
    · simp [hcode]
    · simp [hcode]
    · exact fun _ =>
        Or.inl ⟨hrep.live hh, hdone.1, hdone.2.1, hdone.2.2, Or.inl rfl, fun _ _ => rfl⟩
    · exact fun ht => absurd (hdone.2.1.symm.trans (h.eof ht).eof) Bool.false_ne_true
  | destroy r hframes hlive =>
    refine h.next hlasts hrep (h.news_detachAll hrep hframes) ?_ ?_ ?_
    · intro ha hr
      show delivered (r.trace ++ r.detachCalls) ++ r.rx.unread = r.received
      rw [delivered_append, delivered_detachCalls, List.append_nil]
      refine h.flow ha (Or.inl fun hreleased => hr.resolve_right (by simp [detachAll]) ?_)
      simp [detachAll, hreleased]
    · intro ha
      exact ⟨(h.aborted ha).1, by simp [Receiver.conts, Phase.conts, detachAll, hframes, loops]⟩
    · intro ec hec
      -- only a reader that is attached is told something new
      by_cases hreader : r.reader = .attached
      · have hec' : r.latched = ec := by simpa [detachAll, hreader] using hec
        rw [← hec']
        rcases h.latched hrep hreader with ⟨he, hwhole⟩ | ⟨he, hcut⟩
        · exact Or.inr (Or.inl ⟨he, hlasts.whole hwhole⟩)
        · exact Or.inr (Or.inr ⟨he, hcut.same rfl rfl (by simp [detachAll]) rfl⟩)
      · exact Or.inl (by simpa [detachAll, hreader] using hec)

/-- A read is issued. -/
theorem Told.arm (h : r.Told .rest) (hrep : r.Rep .rest) (hreader : r.reader = .attached)
    (handler : Handler) (size : Nat) : (r.arm handler size).Told (.calling .caller) := by
  have hlive := hrep.live_of_attached hreader
  have hlasts : Lasts .rest r (.calling .caller) (r.arm handler size) :=
    { whole := fun hw => ⟨hw.eof, hw.unread, hw.aborted, by simpa [Receiver.arm] using hw.all⟩
      cut := fun hd => absurd (hlive.symm.trans hd) Bool.false_ne_true
      broken := fun _ hb => Or.inl ⟨hlive, hb.unread, hb.eof,
        by simpa [Receiver.conts, Receiver.arm, Phase.conts] using hb.noEnd, hb.isOver,
        fun hp => absurd rfl (hp _)⟩ }
  refine h.still hlasts hrep (Quiet.news (by simp [Quiet, Call.outcome]) rfl) rfl rfl rfl rfl rfl
    (fun _ => Or.inl (by simp [hreader])) ?_ fun _ => id
  simp [Receiver.conts, Receiver.arm, Phase.conts]

/-- A read is answered with what was latched, or because it asks for nothing. -/
theorem Told.answer (h : r.Told .rest) (hrep : r.Rep .rest) {handler : Handler} {size : Nat}
    {ec : ErrorCode} (hanswer : size = 0 ∧ ec = .success ∨ r.reader = .detached ec) :
    (r.call (.completeRead handler size ec [])).Told .rest := by
  have hlasts : Lasts .rest r .rest (r.call (.completeRead handler size ec [])) :=
    { whole := fun hw => ⟨hw.eof, hw.unread, hw.aborted, by simpa [Receiver.call] using hw.all⟩
      cut := fun hd hcut => ⟨hd, hcut.same rfl rfl (by simp [Receiver.call]) rfl⟩
      broken := fun hlive hb => Or.inl ⟨hlive, hb.unread, hb.eof, hb.noEnd, hb.isOver, hb.idle⟩ }
  -- there is no room for bytes, or the reader is detached
  rcases hanswer with ⟨rfl, rfl⟩ | hreader
  · exact h.still hlasts hrep (Quiet.news (by simp [Quiet, Call.outcome]) rfl) rfl rfl rfl rfl rfl
      id id fun _ => id
  have hdead := hrep.detached ec hreader
  refine h.still hlasts hrep (news_read rfl ?_ ?_ ?_ ?_ ?_) (delivered_read _ _ _) rfl rfl rfl rfl
    id id fun _ => id
  · rcases h.detached ec hreader with ⟨rfl, _⟩ | ⟨rfl, _⟩ <;> simp
  · rintro rfl
    rcases h.detached _ hreader with ⟨_, hwhole⟩ | ⟨habsurd, _⟩
    · exact hlasts.whole hwhole
    · exact absurd habsurd (by simp)
  · intro ht
    rcases h.detached ec hreader with ⟨rfl, _⟩ | ⟨rfl, hcut⟩
    · exact absurd rfl ht.2.1
    · exact Or.inr (hlasts.cut hdead hcut)
  · intro ht
    rcases h.detached ec hreader with ⟨rfl, _⟩ | ⟨rfl, hcut⟩
    · exact Or.inr rfl
    · exact absurd hcut (h.eof ht).not_cut
  · intro ht
    rcases h.detached ec hreader with ⟨rfl, hwhole⟩ | ⟨rfl, _⟩
    · rcases h.truncated ht with ⟨hlive, _⟩ | ⟨_, hcut⟩
      · exact absurd (hlive.symm.trans hdead) Bool.false_ne_true
      · exact absurd hcut hwhole.not_cut
    · exact Or.inr rfl

/-- More data comes only while nothing has been told that it could contradict. -/
theorem Told.arrive (h : r.Told .rest) (hrep : r.Rep .rest) {data : List UInt8} {fin : Bool}
    (hlive : r.destroyed = false) (hframes : r.frames = []) (hclosed : r.closed = false)
    (heof : r.rx.eofReceived = false) (haborted : r.kind ≠ .http3 → r.readAborted = false) :
    (r.arrive data).Told (.calling (.chunk fin)) := by
  have hnot : r.readAborted ≠ true := fun ha =>
    absurd ((haborted (hrep.aborted ha).1).symm.trans ha) Bool.false_ne_true
  exact
    { flow := fun ha hr => by
        have hunread : (r.arrive data).rx.unread = r.rx.unread ++ data := by
          simp [Incoming.unread, Receiver.arrive, hrep.no_incoming hframes]
        rw [hunread, ← List.append_assoc]
        exact congrArg (· ++ data) (h.flow ha hr)
      aborted := fun ha => absurd ha hnot
      detached := fun ec hec =>
        absurd (hlive.symm.trans (hrep.detached ec hec)) Bool.false_ne_true
      eof := fun ht => absurd (heof.symm.trans (h.eof ht).eof) Bool.false_ne_true
      truncated := fun ht => by
        rcases h.truncated ht with ⟨_, hbroken⟩ | ⟨hdead, _⟩
        · rcases hbroken.isOver with hover | hover
          · exact absurd (hclosed.symm.trans hover) Bool.false_ne_true
          · exact absurd hover hnot
        · exact absurd (hlive.symm.trans hdead) Bool.false_ne_true
      sensible := h.sensible
      sticky := h.sticky }

theorem Steps.told (hsteps : Steps c p r p' r') (hc : c ≠ .any) (hrep : r.Rep p) (h : r.Told p) :
    r'.Told p' := by
  induction hsteps with
  | refl => exact h
  | cons hstep _ ih => exact ih (hstep.rep hrep) (hstep.told hc hrep h)

/-- **What a fair receiving side owes to its past, it owes after every action.** -/
theorem Turn.told {a : Act} (hturn : Turn c r a r') (hc : c ≠ .any) (hrep : r.Rep .rest)
    (h : r.Told .rest) :
    r'.Told .rest := by
  cases hturn with
  | arrive data fin hdata hlive hframes hclosed heof haborted hfin hsteps =>
    exact hsteps.told hc (hrep.arrive hlive hframes heof haborted hfin)
      (h.arrive hrep hlive hframes hclosed heof haborted)
  | read handler size hsize hreader hh hsteps =>
    exact hsteps.told hc (hrep.arm hreader handler size) (h.arm hrep hreader handler size)
  | answer handler size ec hanswer => exact h.answer hrep hanswer
  | steps hsteps => exact hsteps.told hc hrep h

end Receiver

end AnyHttp.Quic
