import AnyHttp.H1.Io

/-!
# Reading does not depend on how the stream is cut

What `read_header()` and a reader's `read_some()` come to, as far as a message is valid, is a
function of the bytes that are in the buffer or still to come, and of how the stream ends, not of
the pieces the stream arrives in, of the sizes of the body buffers or of the calls of the parser.
For a message that is not, it is only when there is an error, and which one, that depends on them:

* `Moves` is what all the loops do: they use up some of these bytes, as the automaton would, and
  leave the others where they are;
* `fill_comes` is the inversion of the innermost loop, by induction on what arrives;
* `readHeader_right` and `readAll_right` are what follows for the loops around it.
-/

namespace AnyHttp.H1

open Lib

/-! ### What a stream brings -/

/-- How a stream goes on behind its bytes. -/
inductive Ending
  | pending
  | eof
  | truncated
  | error (ec : Failure)
deriving DecidableEq, Repr

/-- The bytes that arrive. -/
def bytesOf : List Incoming → List UInt8
  | [] => []
  | .bytes data :: rest => data ++ bytesOf rest
  | .detach :: rest => bytesOf rest
  | _ :: _ => []

def endingOf : List Incoming → Ending
  | [] => .pending
  | .bytes _ :: rest => endingOf rest
  | .detach :: rest => endingOf rest
  | .eof :: _ => .eof
  | .truncated :: _ => .truncated
  | .error ec :: _ => .error ec

/-- The bytes that are there or still to come. -/
def Input.ahead {P : Type*} (s : Input P) (incoming : List Incoming) : List UInt8 :=
  s.buffer ++ bytesOf incoming

/-- Without an end of the stream, there is nothing to tell. -/
def BasicParser.over {P : Type*} (β : BasicParser P) (p : P) : Ending → Option (ErrorCode × P)
  | .pending => none
  | .eof =>
    some (if β.gotSome p then ((β.putEof p).2.toErrorCode, (β.putEof p).1) else (endOfStream, p))
  | .truncated => some (if β.gotSome p then .partialMessage else endOfStream, p)
  | .error ec => some (ec.val, p)

/-! ### What the loops do -/

section Moves

variable {P Q : Type*} (β : BasicParser P) (A : Transducer Q UInt8 UInt8 Verdict) (view : P → Q)
  (limit : P → ℕ∞)

/-- From `s` and `incoming`, so many of the bytes ahead have been used up, and nothing else has
happened to them. -/
structure Moves (s : Input P) (incoming : List Incoming) (s' : Input P) (incoming' : List Incoming)
    (r : Taken P UInt8) : Prop where
  takes : Takes A view s.parser (s.ahead incoming) r
  parser : s'.parser = r.parser
  ahead : s'.ahead incoming' = (s.ahead incoming).drop r.used
  payload : s'.payload = s.payload ++ r.payload
  room : s'.room + r.payload.length = s.room
  parsed : s'.parsed = s.parsed + r.used
  suffix : incoming' <:+ incoming
  ending : endingOf incoming' = endingOf incoming
  attached : s'.attached = s.attached ∨ Incoming.detach ∈ incoming
  gotSome : β.gotSome s'.parser = true ∨ s'.ahead incoming' ≠ [] ↔
    β.gotSome s.parser = true ∨ s.ahead incoming ≠ []
  counts : limit s.parser ≤ limit s'.parser + r.used
  begun : β.gotSome s.parser = true → β.gotSome s'.parser = true

variable {β A view limit} {s t u : Input P} {is js ks : List Incoming} {r q : Taken P UInt8}

theorem Moves.refl : Moves β A view limit s is s is ⟨s.parser, 0, []⟩ where
  takes := Takes.nothing
  parser := rfl
  ahead := rfl
  payload := (List.append_nil _).symm
  room := rfl
  parsed := rfl
  suffix := List.suffix_rfl
  ending := rfl
  attached := .inl rfl
  gotSome := Iff.rfl
  counts := le_self_add
  begun := id

theorem Moves.trans (h₁ : Moves β A view limit s is t js r)
    (h₂ : Moves β A view limit t js u ks q) :
    Moves β A view limit s is u ks ⟨q.parser, r.used + q.used, r.payload ++ q.payload⟩ where
  takes := by
    refine h₁.takes.trans ?_
    rw [← h₁.parser, ← h₁.ahead]
    exact h₂.takes
  parser := h₂.parser
  ahead := by rw [h₂.ahead, h₁.ahead, List.drop_drop]
  payload := by rw [h₂.payload, h₁.payload, List.append_assoc]
  room := by
    have hr₁ := h₁.room
    have hr₂ := h₂.room
    rw [List.length_append]
    omega
  parsed := by rw [h₂.parsed, h₁.parsed, Nat.add_assoc]
  suffix := h₂.suffix.trans h₁.suffix
  ending := h₂.ending.trans h₁.ending
  attached := by
    rcases h₂.attached with h | h
    · rw [h]
      exact h₁.attached
    · exact .inr (h₁.suffix.subset h)
  gotSome := h₂.gotSome.trans h₁.gotSome
  counts := by
    calc limit s.parser ≤ limit t.parser + r.used := h₁.counts
      _ ≤ limit u.parser + q.used + r.used := add_le_add_left h₂.counts _
      _ = limit u.parser + (r.used + q.used : ℕ) := by
        rw [add_assoc, ← Nat.cast_add, Nat.add_comm]
  begun := h₂.begun ∘ h₁.begun

/-- What is used up is gone. -/
theorem Moves.length_ahead (h : Moves β A view limit s is t js r) :
    (t.ahead js).length + r.used = (s.ahead is).length := by
  have hle := h.takes.used_le
  rw [h.ahead, List.length_drop]
  omega

/-- Nothing that has been used up is a stop. -/
theorem Moves.firstStop (h : Moves β A view limit s is t js r) :
    A.firstStop (view s.parser) (s.ahead is) =
      (A.firstStop (view t.parser) (t.ahead js)).map fun x => (x.1 + r.used, x.2) := by
  rw [h.takes.firstStop, h.parser, h.ahead]

theorem Moves.avoids {e : Verdict} (h : Moves β A view limit s is t js r)
    (hrest : A.Avoids e (view t.parser) (t.ahead js)) :
    A.Avoids e (view s.parser) (s.ahead is) := by
  refine h.takes.avoids ?_
  rw [← h.parser, ← h.ahead]
  exact hrest

theorem Moves.open_iff (h : Moves β A view limit s is t js r) :
    A.Open (view s.parser) (s.ahead is) ↔ A.Open (view t.parser) (t.ahead js) := by
  rw [Transducer.Open, h.firstStop]
  exact Option.map_eq_none_iff

/-- The bytes of a piece that arrives are in the buffer then. -/
theorem Moves.bytes {data : List UInt8}
    (h : Moves β A view limit { s with buffer := s.buffer ++ data } is t js r) :
    Moves β A view limit s (.bytes data :: is) t js r where
  takes := by
    have hahead : ({ s with buffer := s.buffer ++ data } : Input P).ahead is =
        s.ahead (.bytes data :: is) := List.append_assoc _ _ _
    rw [← hahead]
    exact h.takes
  parser := h.parser
  ahead := h.ahead.trans (congrArg (List.drop r.used) (List.append_assoc _ _ _))
  payload := h.payload
  room := h.room
  parsed := h.parsed
  suffix := h.suffix.trans (List.suffix_cons _ _)
  ending := h.ending
  attached := h.attached.imp_right (List.mem_cons_of_mem _)
  gotSome := by
    refine h.gotSome.trans (or_congr_right (not_congr ?_))
    show s.buffer ++ data ++ bytesOf is = [] ↔ s.buffer ++ (data ++ bytesOf is) = []
    rw [List.append_assoc]
  counts := h.counts
  begun := h.begun

theorem Moves.detach (h : Moves β A view limit { s with attached := false } is t js r) :
    Moves β A view limit s (.detach :: is) t js r where
  takes := h.takes
  parser := h.parser
  ahead := h.ahead
  payload := h.payload
  room := h.room
  parsed := h.parsed
  suffix := h.suffix.trans (List.suffix_cons _ _)
  ending := h.ending
  attached := .inr List.mem_cons_self
  gotSome := h.gotSome
  counts := h.counts
  begun := h.begun

variable {done : P → Bool} {endsWithStream : Q → Bool}

/-- A call of the parser that does not give an error. -/
theorem feed_moves (is : List Incoming) (h : β.Parses A view done endsWithStream limit)
    (hstop : A.stop (view s.parser) = none) (hok : ∀ ec, (β.feed s).2 ≠ .error ec) :
    Moves β A view limit s is (β.feed s).1 is (β.put s.parser s.room s.buffer).1 where
  takes := (h.takes s.parser s.room s.buffer hstop hok).append
  parser := rfl
  ahead := by
    have hle := (h.takes s.parser s.room s.buffer hstop hok).used_le
    exact (List.drop_append_of_le_length hle).symm
  payload := rfl
  room := by
    have hroom := h.room s.parser s.room s.buffer
    show s.room - _ + _ = s.room
    omega
  parsed := rfl
  suffix := List.suffix_rfl
  ending := rfl
  attached := .inl rfl
  gotSome := by
    have hgot := h.gotSome s.parser s.room s.buffer
    show β.gotSome (β.put s.parser s.room s.buffer).1.parser = true ∨
      s.buffer.drop _ ++ bytesOf is ≠ [] ↔ _ ∨ s.buffer ++ bytesOf is ≠ []
    rw [hgot]
    by_cases hbuffer : s.buffer = []
    · rw [hbuffer, List.drop_nil]
      simp
    · simp [hbuffer]
  counts := h.counts s.parser s.room s.buffer hok
  begun := fun hgot => (h.gotSome s.parser s.room s.buffer).mpr (.inl hgot)

/-! ### The innermost loop -/

/-- The parser has been given what is in the buffer, and needs more. -/
structure Starved (β : BasicParser P) (A : Transducer Q UInt8 UInt8 Verdict) (view : P → Q)
    (endsWithStream : Q → Bool) (s : Input P) : Prop where
  stop : A.stop (view s.parser) = none
  notDone : A.Avoids .done (view s.parser) s.buffer
  gotSome : s.buffer ≠ [] → β.gotSome s.parser = true
  whole : endsWithStream (view s.parser) = true → s.buffer = []
  wholeFed : A.Open (view s.parser) s.buffer →
    endsWithStream (A.feed (view s.parser) s.buffer) = true → s.buffer = []

/-- What is ahead is not a message, or the parser may refuse it for its length. -/
def Refusable (A : Transducer Q UInt8 UInt8 Verdict) (view : P → Q) (limit : P → ℕ∞) (s : Input P)
    (is : List Incoming) : Prop :=
  (∃ n ec, A.firstStop (view s.parser) (s.ahead is) = some (n, .failed ec)) ∨
    limit s.parser ≤ (s.ahead is).length ∧
      ∀ n, A.firstStop (view s.parser) (s.ahead is) = some (n, .done) → limit s.parser ≤ n

/-- What reading comes to: it waits for the peer, the parser has made progress or does not go on,
or the stream is over without either. -/
inductive Comes (β : BasicParser P) (A : Transducer Q UInt8 UInt8 Verdict) (view : P → Q)
    (endsWithStream : Q → Bool) (limit : P → ℕ∞) (s : Input P) (is : List Incoming) :
    Option (Outcome P) → Prop
  | waits (hnot : A.Avoids .done (view s.parser) (s.ahead is)) (hending : endingOf is = .pending) :
      Comes β A view endsWithStream limit s is none
  | moves (o : Outcome P) (r : Taken P UInt8)
      (hmoves : Moves β A view limit s is o.input o.incoming r)
      (hec : o.ec = .success) (hvalid : ∀ ec, A.stop (view o.input.parser) ≠ some (.failed ec))
      (hprogress : r.used ≠ 0 ∨ A.stop (view o.input.parser) = some .done ∨
        o.incoming.length < is.length ∨
        o.input.room = 0 ∧ ∃ p room xs, A.stop (view p) = none ∧
          (β.put p room xs).2 = .needBuffer) :
      Comes β A view endsWithStream limit s is (some o)
  | fails (o : Outcome P) (more : List UInt8) (hpayload : o.input.payload = s.payload ++ more)
      (hmore : more <+: A.output (view s.parser) (A.upToStop (view s.parser) (s.ahead is)))
      (hrefuse : Refusable A view limit s is) (ec : Failure) (hec : o.ec = ec.val) :
      Comes β A view endsWithStream limit s is (some o)
  | ends (o : Outcome P) (t : Input P) (js : List Incoming) (r : Taken P UInt8)
      (hmoves : Moves β A view limit s is t js r) (hstop : A.stop (view t.parser) = none)
      (hnot : A.Avoids .done (view s.parser) (s.ahead is))
      (hover : β.over t.parser (endingOf is) = some (o.ec, o.input.parser))
      (hpayload : o.input.payload = t.payload)
      (hahead : endingOf is = .eof → o.input.ahead o.incoming = t.ahead js)
      (hgot : β.gotSome t.parser = true ↔ β.gotSome s.parser = true ∨ s.ahead is ≠ [])
      (hwhole : endsWithStream (view t.parser) = true → t.ahead js = [])
      (hfed : A.Open (view t.parser) (t.ahead js) →
        endsWithStream (A.feed (view t.parser) (t.ahead js)) = true → t.ahead js = []) :
      Comes β A view endsWithStream limit s is (some o)

/-- What has been used up counts for the limit. -/
theorem Moves.limit_le (h : Moves β A view limit s is t js r) (n : ℕ) (hn : limit t.parser ≤ n) :
    limit s.parser ≤ (n + r.used : ℕ) :=
  calc limit s.parser ≤ limit t.parser + r.used := h.counts
    _ ≤ n + r.used := add_le_add_left hn _
    _ = (n + r.used : ℕ) := (Nat.cast_add _ _).symm

/-- What the parser has moved on by does not make it refuse more. -/
theorem Refusable.after (hmoves : Moves β A view limit s is t js r)
    (h : Refusable A view limit t js) : Refusable A view limit s is := by
  have hlength := hmoves.length_ahead
  have hcounts := hmoves.limit_le
  rcases h with ⟨n, ec, hn⟩ | ⟨hlong, hdone⟩
  · refine .inl ⟨n + r.used, ec, ?_⟩
    rw [hmoves.firstStop, hn, Option.map_some]
  · refine .inr ⟨?_, ?_⟩
    · rw [← hlength]
      exact hcounts _ hlong
    · intro n hn
      rw [hmoves.firstStop, Option.map_eq_some_iff] at hn
      obtain ⟨⟨m, v⟩, hm, heq⟩ := hn
      obtain ⟨rfl, rfl⟩ := Prod.mk.inj heq
      exact hcounts m (hdone m hm)

/-- What comes after the parser has moved on. -/
theorem Comes.after {x : Option (Outcome P)} (hmoves : Moves β A view limit s is t js r)
    (h : Comes β A view endsWithStream limit t js x) :
    Comes β A view endsWithStream limit s is x := by
  cases h with
  | waits hnot hending => exact .waits (hmoves.avoids hnot) (hmoves.ending.symm.trans hending)
  | moves o q hq hec hvalid hprogress =>
    refine .moves o _ (hmoves.trans hq) hec hvalid ?_
    -- what the earlier reads have used up counts as progress as well
    rcases hprogress with hused | hdone | hshort | hbuffer
    · exact .inl (by show r.used + q.used ≠ 0; omega)
    · exact .inr (.inl hdone)
    · have hle := hmoves.suffix.length_le
      exact .inr (.inr (.inl (by omega)))
    · exact .inr (.inr (.inr hbuffer))
  | fails o more hpayload hmore hrefuse ec hec =>
    refine .fails o (r.payload ++ more) ?_ ?_ (hrefuse.after hmoves) ec hec
    · rw [hpayload, hmoves.payload, List.append_assoc]
    · rw [hmoves.takes.output_upToStop, ← hmoves.parser, ← hmoves.ahead]
      exact (List.prefix_append_right_inj _).mpr hmore
  | ends o u ks q hq hstop hnot hover hpayload hahead hgot hwhole hfed =>
    rw [hmoves.ending] at hover hahead
    exact .ends o u ks _ (hmoves.trans hq) hstop (hmoves.avoids hnot) hover hpayload hahead
      (hgot.trans hmoves.gotSome) hwhole hfed

theorem feed_ne_error (hmore : (β.feed s).2 = .needMore) (ec : Failure) :
    (β.feed s).2 ≠ .error ec := by
  rw [hmore]
  exact nofun

/-- A parser that needs more has not come to the end of the message, and has got what there was. -/
theorem feed_starved (h : β.Parses A view done endsWithStream limit)
    (hstop : A.stop (view s.parser) = none) (hmore : (β.feed s).2 = .needMore) :
    Starved β A view endsWithStream (β.feed s).1 := by
  have htakes := h.takes s.parser s.room s.buffer hstop (feed_ne_error hmore)
  obtain ⟨hstop', hnot, hwhole, hfed⟩ := h.needMore s.parser s.room s.buffer hstop hmore
  have hnil : (β.put s.parser s.room s.buffer).1.used = s.buffer.length →
      (β.feed s).1.buffer = [] := by
    intro hall
    show s.buffer.drop _ = []
    rw [hall, List.drop_length]
  constructor
  · exact hstop'
  · intro n hn
    have hn' : A.firstStop (view (β.put s.parser s.room s.buffer).1.parser)
        (s.buffer.drop (β.put s.parser s.room s.buffer).1.used) = some (n, .done) := hn
    refine hnot (n + (β.put s.parser s.room s.buffer).1.used) ?_
    rw [htakes.firstStop, hn', Option.map_some]
  · intro hbuffer
    refine (h.gotSome s.parser s.room s.buffer).mpr (.inr ?_)
    rintro hnone
    apply hbuffer
    show s.buffer.drop _ = []
    rw [hnone, List.drop_nil]
  · exact fun hends => hnil (hwhole hends)
  · intro hopen hends
    have hfeed : A.feed (view (β.feed s).1.parser) (β.feed s).1.buffer =
        A.feed (view s.parser) s.buffer := by
      show A.feed (view (β.put s.parser s.room s.buffer).1.parser) (s.buffer.drop _) = _
      rw [htakes.view_eq, ← Transducer.feed_append, List.take_append_drop]
    have hopen' : A.firstStop (view (β.put s.parser s.room s.buffer).1.parser)
        (s.buffer.drop (β.put s.parser s.room s.buffer).1.used) = none := hopen
    rw [hfeed] at hends
    refine hnil (hfed ?_ hends)
    rw [Transducer.Open, htakes.firstStop, hopen', Option.map_none]

/-- A call of the parser that does not need more has made progress, or does not go on. -/
theorem feed_cases (is : List Incoming) (h : β.Parses A view done endsWithStream limit)
    (hstop : A.stop (view s.parser) = none) (hsaid : (β.feed s).2 ≠ .needMore) :
    ((∀ ec, (β.feed s).2 ≠ .error ec) ∧ (β.feed s).2.toErrorCode = .success ∧
        (∀ ec, A.stop (view (β.feed s).1.parser) ≠ some (.failed ec)) ∧
        (s.buffer ≠ [] → (β.put s.parser s.room s.buffer).1.used ≠ 0 ∨
          A.stop (view (β.feed s).1.parser) = some .done ∨
          (β.feed s).2 = .needBuffer ∧ s.room = 0)) ∨
      ∀ incoming, Comes β A view endsWithStream limit s is
        (some ⟨(β.feed s).2.toErrorCode, (β.feed s).1, incoming⟩) := by
  -- the parser may refuse what it is given: it is invalid, or the header is too long
  by_cases herror : ∃ ec, (β.feed s).2 = .error ec
  · refine .inr fun incoming => ?_
    obtain ⟨ec, hsay⟩ := herror
    obtain ⟨hmore, hrefuse⟩ := h.error s.parser s.room s.buffer ec hstop hsay
    have hahead : s.ahead is = s.buffer ++ bytesOf is := rfl
    refine .fails _ (β.put s.parser s.room s.buffer).1.payload rfl ?_ ?_ ec ?_
    · refine hmore.trans ?_
      rw [hahead]
      exact Transducer.output_upToStop_prefix _ _ _
    · rcases hrefuse with ⟨n, ec', hn⟩ | ⟨hlong, hdone⟩
      · exact .inl ⟨n, ec', Transducer.firstStop_append_of_some hn⟩
      · refine .inr ⟨hlong.trans ?_, fun n hn => ?_⟩
        · rw [hahead, List.length_append]
          exact Nat.cast_le.mpr (Nat.le_add_right _ _)
        · cases hbuffer : A.firstStop (view s.parser) s.buffer with
          | none =>
            -- what is done is longer than what the parser has seen
            exact hlong.trans (Nat.cast_le.mpr (Transducer.Open.length_le hbuffer hn))
          | some v =>
            rw [hahead, Transducer.firstStop_append_of_some hbuffer] at hn
            exact hdone n (hbuffer.trans hn)
    · rw [hsay]
      rfl
  · have hok : ∀ ec, (β.feed s).2 ≠ .error ec := fun ec hec => herror ⟨ec, hec⟩
    have hec : (β.feed s).2.toErrorCode = .success := by
      cases hsay : (β.feed s).2 with
      | error ec => exact absurd hsay (hok ec)
      | ok | needMore | needBuffer => rfl
    exact .inl ⟨hok, hec, h.ok s.parser s.room s.buffer hstop hsaid hec⟩

/-- **The inversion of the innermost loop**, by induction on what arrives. -/
theorem fill_comes (h : β.Parses A view done endsWithStream limit) {maxSize : Nat}
    (hstarved : Starved β A view endsWithStream s) (hfits : (s.ahead is).length < maxSize) :
    Comes β A view endsWithStream limit s is (β.fill maxSize is s) := by
  -- on what is still to be read: every read takes one of it
  induction is generalizing s with
  | nil =>
    have hroom : ¬maxSize ≤ s.buffer.length := by
      rw [Input.ahead, List.length_append] at hfits
      omega
    rw [BasicParser.fill, if_neg hroom]
    refine .waits ?_ rfl
    rw [Input.ahead, bytesOf, List.append_nil]
    exact hstarved.notDone
  | cons i is ih =>
    have hroom : ¬maxSize ≤ s.buffer.length := by
      rw [Input.ahead, List.length_append] at hfits
      omega
    -- behind the end of the stream, there is only what is in the buffer
    have hends : bytesOf (i :: is) = [] → ∀ o : Outcome P,
        β.over s.parser (endingOf (i :: is)) = some (o.ec, o.input.parser) →
        o.input.payload = s.payload →
        (endingOf (i :: is) = .eof → o.input.ahead o.incoming = s.ahead (i :: is)) →
        Comes β A view endsWithStream limit s (i :: is) (some o) := by
      intro hnil o hover hpayload hrest
      have hahead : s.ahead (i :: is) = s.buffer := by rw [Input.ahead, hnil, List.append_nil]
      refine .ends o s (i :: is) _ Moves.refl hstarved.stop ?_ hover hpayload hrest ?_ ?_ ?_
      · rw [hahead]
        exact hstarved.notDone
      · rw [hahead]
        exact ⟨.inl, fun hor => hor.elim id hstarved.gotSome⟩
      · rw [hahead]
        exact hstarved.whole
      · rw [hahead]
        exact hstarved.wholeFed
    cases i with
    | eof =>
      rw [BasicParser.fill, if_neg hroom]
      refine hends rfl _ ?_ ?_ ?_
      · show some _ = some _
        rw [BasicParser.atEof]
        split <;> rfl
      · rw [BasicParser.atEof]
        split <;> rfl
      · rw [BasicParser.atEof]
        split <;> exact fun _ => rfl
    | truncated =>
      rw [BasicParser.fill, if_neg hroom]
      exact hends rfl _ rfl rfl fun _ => rfl
    | error ec =>
      rw [BasicParser.fill, if_neg hroom]
      exact hends rfl _ rfl rfl fun heof => absurd heof (by simp [endingOf])
    | detach =>
      rw [BasicParser.fill, if_neg hroom]
      have hdetached : Starved β A view endsWithStream { s with attached := false } :=
        ⟨hstarved.stop, hstarved.notDone, hstarved.gotSome, hstarved.whole, hstarved.wholeFed⟩
      exact .after (Moves.refl.detach) (ih hdetached hfits)
    | bytes data =>
      rw [BasicParser.fill, if_neg hroom]
      have hstop : A.stop (view s.parser) = none := hstarved.stop
      -- the parser may ask for more again, with all of the data that has come
      by_cases hsaid : (β.feed { s with buffer := s.buffer ++ data }).2 = .needMore
      · have hfeed := (feed_moves (s := { s with buffer := s.buffer ++ data }) is h hstop
          (feed_ne_error hsaid)).bytes
        have hmore := feed_starved (s := { s with buffer := s.buffer ++ data }) h hstop hsaid
        have hlength := hfeed.length_ahead
        dsimp only
        rw [if_pos hsaid]
        exact Comes.after hfeed (ih hmore (by omega))
      · dsimp only
        rw [if_neg hsaid]
        rcases feed_cases (s := { s with buffer := s.buffer ++ data }) is h hstop hsaid with
          ⟨hok, hec, hvalid, _⟩ | hfails
        · have hfeed := (feed_moves (s := { s with buffer := s.buffer ++ data }) is h hstop
            hok).bytes
          exact .moves _ _ hfeed hec hvalid (.inr (.inr (.inl (Nat.lt_succ_self _))))
        · exact Comes.after Moves.refl.bytes (hfails is)

/-- `read_some()`, for a message that has not come to its stop. -/
theorem readSome_comes (s : Input P) (is : List Incoming)
    (h : β.Parses A view done endsWithStream limit) {maxSize : Nat}
    (hstop : A.stop (view s.parser) = none) (hfits : (s.ahead is).length < maxSize) :
    Comes β A view endsWithStream limit s is (β.readSome maxSize is s) := by
  rw [BasicParser.readSome]
  -- with an empty buffer, the parser is not asked before there is data
  by_cases hbuffer : s.buffer = []
  · rw [if_pos hbuffer]
    refine fill_comes h ⟨hstop, ?_, fun hne => absurd hbuffer hne, fun _ => hbuffer,
      fun _ _ => hbuffer⟩ hfits
    rw [hbuffer]
    exact (Transducer.open_nil.mpr hstop).avoids
  · rw [if_neg hbuffer]
    -- what is left in the buffer may not be enough for the parser
    by_cases hsaid : (β.feed s).2 = .needMore
    · have hfeed := feed_moves is h hstop (feed_ne_error hsaid)
      have hlength := hfeed.length_ahead
      dsimp only
      rw [if_pos hsaid]
      exact Comes.after hfeed (fill_comes h (feed_starved h hstop hsaid) (by omega))
    · dsimp only
      rw [if_neg hsaid]
      rcases feed_cases is h hstop hsaid with ⟨hok, hec, hvalid, hprogress⟩ | hfails
      · refine .moves _ _ (feed_moves is h hstop hok) hec hvalid ?_
        -- without progress, the parser has asked for more, and the buffer has no room for it
        rcases hprogress hbuffer with hused | hdone | ⟨hsay, hroom⟩
        · exact .inl hused
        · exact .inr (.inl hdone)
        · refine .inr (.inr (.inr ⟨?_, _, _, _, hstop, hsay⟩))
          show s.room - _ = 0
          rw [hroom, Nat.zero_sub]
      · exact hfails is

/-! ### Headers -/

/-- The error code if the stream ends before the message does. -/
def Ending.code (begun : Prop) [Decidable begun] : Ending → Option ErrorCode
  | .pending => none
  | .error ec => some ec.val
  | _ => some (if begun then .partialMessage else endOfStream)

/-- Reading fails, with an error that is not the end of the body. -/
def Fails (x : Option (Outcome P)) : Prop := ∃ o, x = some o ∧ o.ec ≠ .success ∧ o.ec ≠ .eof

/-- What reading a header comes to: it goes by the bytes that are ahead, and by how they end.  A
header that is invalid is never taken for one: reading fails, unless the peer keeps the parser
waiting for the rest of it. -/
def HeaderRead (β : BasicParser P) (A : Transducer Q UInt8 UInt8 Verdict) (view : P → Q)
    (limit : P → ℕ∞) (s : Input P) (is : List Incoming) (x : Option (Outcome P)) : Prop :=
  match A.firstStop (view s.parser) (s.ahead is) with
  | some (n, .done) => limit s.parser ≤ n ∧ Fails x ∨
      ∃ o, x = some o ∧ o.ec = .success ∧ o.input.parsed = s.parsed + n ∧
        view o.input.parser = A.feed (view s.parser) ((s.ahead is).take n) ∧
        o.input.ahead o.incoming = (s.ahead is).drop n ∧ endingOf o.incoming = endingOf is
  | some (_, .failed _) => x = none ∧ endingOf is = .pending ∨ Fails x
  | none => limit s.parser ≤ (s.ahead is).length ∧ Fails x ∨
      x.map Outcome.ec = (endingOf is).code (β.gotSome s.parser = true ∨ s.ahead is ≠ [])

theorem Ending.code_congr {a b : Prop} [Decidable a] [Decidable b] (h : a ↔ b) (e : Ending) :
    e.code a = e.code b := by
  cases e <;> simp only [Ending.code, h]

theorem Ending.code_failure {a : Prop} [Decidable a] {e : Ending} {ec : ErrorCode}
    (h : e.code a = some ec) : ec ≠ .success ∧ ec ≠ .eof := by
  cases e with
  | pending => exact absurd h (by simp [Ending.code])
  | error ec' =>
    rw [← Option.some.inj h]
    exact ec'.property
  | eof =>
    rw [← Option.some.inj h]
    split <;> decide
  | truncated =>
    rw [← Option.some.inj h]
    split <;> decide

/-- The end of the stream is one of the message only if that has no other end. -/
theorem over_code (h : β.Parses A view done endsWithStream limit) {p p' : P} {e : Ending}
    {ec : ErrorCode} (hstop : A.stop (view p) = none) (hends : endsWithStream (view p) = false)
    (hover : β.over p e = some (ec, p')) : e.code (β.gotSome p = true) = some ec := by
  have heof := (h.putEof p hstop).1
  rw [hends] at heof
  cases e with
  | pending => exact absurd hover (by simp [BasicParser.over])
  | error ec' => exact congrArg (Option.map Prod.fst) hover
  | truncated => exact congrArg (Option.map Prod.fst) hover
  | eof =>
    rw [← show _ = some ec from congrArg (Option.map Prod.fst) hover]
    show some (if _ then _ else _) = some (Prod.fst (if _ then _ else _))
    split
    · rw [heof]
      rfl
    · rfl

theorem HeaderRead.after {x : Option (Outcome P)} (hmoves : Moves β A view limit s is t js r)
    (h : HeaderRead β A view limit t js x) : HeaderRead β A view limit s is x := by
  have htakes := hmoves.takes
  have hcounts := hmoves.limit_le
  rw [HeaderRead, hmoves.firstStop]
  rw [HeaderRead] at h
  cases hstop : A.firstStop (view t.parser) (t.ahead js) with
  | none =>
    rw [hstop] at h
    rcases h with ⟨hlong, hfails⟩ | hcode
    · refine .inl ⟨?_, hfails⟩
      rw [← hmoves.length_ahead]
      exact hcounts _ hlong
    · refine .inr ?_
      rw [hcode, hmoves.ending]
      exact Ending.code_congr hmoves.gotSome _
  | some v =>
    obtain ⟨n, v⟩ := v
    rw [hstop] at h
    -- an invalid header, or the end of a valid one
    cases v with
    | failed ec => exact h.imp_left fun hwaits => ⟨hwaits.1, hmoves.ending.symm.trans hwaits.2⟩
    | done =>
      rcases h with ⟨hlong, hfails⟩ | ⟨o, hx, hec, hparsed, hview, hahead, hending⟩
      · exact .inl ⟨hcounts _ hlong, hfails⟩
      · refine .inr ⟨o, hx, hec, ?_, ?_, ?_, hending.trans hmoves.ending⟩
        · rw [hparsed, hmoves.parsed]
          show s.parsed + r.used + n = s.parsed + (n + r.used)
          omega
        · have htake : (s.ahead is).take (n + r.used) =
              (s.ahead is).take r.used ++ ((s.ahead is).drop r.used).take n := by
            rw [Nat.add_comm n, List.take_add]
          show view o.input.parser = A.feed (view s.parser) ((s.ahead is).take (n + r.used))
          rw [htake, Transducer.feed_append, ← htakes.view_eq, ← hmoves.parser, ← hmoves.ahead]
          exact hview
        · show o.input.ahead o.incoming = (s.ahead is).drop (n + r.used)
          rw [hahead, hmoves.ahead, List.drop_drop, Nat.add_comm]

/-- A header that the parser has reason to refuse. -/
theorem HeaderRead.of_refusable {x : Option (Outcome P)} (h : Refusable A view limit s is)
    (hfails : Fails x) : HeaderRead β A view limit s is x := by
  rw [HeaderRead]
  rcases h with ⟨n, ec, hn⟩ | ⟨hlong, hdone⟩
  · rw [hn]
    exact .inr hfails
  · cases hstop : A.firstStop (view s.parser) (s.ahead is) with
    | none => exact .inl ⟨hlong, hfails⟩
    | some v =>
      obtain ⟨n, v⟩ := v
      cases v with
      | done => exact .inl ⟨hdone n hstop, hfails⟩
      | failed ec => exact .inr hfails

/-- A stop that has been come to. -/
theorem firstStop_of_stop {q : Q} (xs : List UInt8) {v : Verdict} (h : A.stop q = some v) :
    A.firstStop q xs = some (0, v) :=
  Transducer.firstStop_eq_some_iff.mpr ⟨Nat.zero_le _, h, Transducer.runs_nil⟩

/-- **Headers**: whichever way the stream is cut, `read_header()` uses up the bytes of the header,
and no others, unless it is too long; it fails if the stream ends before they do, and never takes
for a header what is not valid. -/
theorem readHeader_right (h : β.Parses A view β.isHeaderDone endsWithStream limit) {maxSize : Nat}
    (hends : ∀ q, endsWithStream q = false)
    (hbuffer : ∀ p room xs, A.stop (view p) = none → (β.put p room xs).2 ≠ .needBuffer)
    (fuel : Nat) (s : Input P) (is : List Incoming)
    (hvalid : ∀ ec, A.stop (view s.parser) ≠ some (.failed ec))
    (hfits : (s.ahead is).length < maxSize)
    (hfuel : (s.ahead is).length + is.length + 1 < fuel) :
    ∃ x, β.readHeader maxSize fuel is s = some x ∧ HeaderRead β A view limit s is x := by
  -- on the fuel, which is more than there are bytes and reads
  induction fuel generalizing s is with
  | zero => exact absurd hfuel (Nat.not_lt_zero _)
  | succ fuel ih =>
    rw [BasicParser.readHeader, iterate, BasicParser.readPass]
    by_cases hdone : β.isHeaderDone s.parser = true
    · rw [if_pos hdone]
      refine ⟨_, rfl, ?_⟩
      rw [HeaderRead, firstStop_of_stop _ ((h.stop_done _).mpr hdone)]
      exact .inr ⟨_, rfl, rfl, rfl, rfl, rfl, rfl⟩
    · rw [if_neg hdone]
      have hstop : A.stop (view s.parser) = none := by
        cases hv : A.stop (view s.parser) with
        | none => rfl
        | some v =>
          cases v with
          | done => exact absurd ((h.stop_done _).mp hv) hdone
          | failed ec => exact absurd hv (hvalid ec)
      have hcomes := readSome_comes s is h hstop hfits
      cases hx : β.readSome maxSize is s with
      | none =>
        rw [hx] at hcomes
        cases hcomes with
        | waits hnot hending =>
          refine ⟨none, rfl, ?_⟩
          rw [HeaderRead]
          cases hfirst : A.firstStop (view s.parser) (s.ahead is) with
          | none =>
            rw [hending]
            exact .inr rfl
          | some v =>
            obtain ⟨n, v⟩ := v
            cases v with
            | done => exact absurd hfirst (hnot n)
            | failed ec => exact .inl ⟨rfl, hending⟩
      | some o =>
        rw [hx] at hcomes
        cases hcomes with
        | moves _ r hmoves hec hvalid' hprogress =>
          -- another pass, with less ahead or less to come
          have hlength := hmoves.length_ahead
          have hsuffix := hmoves.suffix.length_le
          dsimp only
          rw [if_pos hec]
          -- every pass uses up bytes or reads, finishes the header, or fills the buffer
          rcases hprogress with hused | hdone' | hshort | ⟨_, p, room, xs, hp, hsay⟩
          · obtain ⟨x, hx', hread⟩ := ih o.input o.incoming hvalid' (by omega) (by omega)
            exact ⟨x, hx', hread.after hmoves⟩
          · -- the header is done
            cases fuel with
            | zero => omega
            | succ fuel =>
              have hdone'' := (h.stop_done _).mp hdone'
              refine ⟨some ⟨.success, o.input, o.incoming⟩, ?_, ?_⟩
              · show iterate (β.readPass maxSize) (fuel + 1) (o.input, o.incoming) = _
                rw [iterate, BasicParser.readPass, if_pos hdone'']
              · refine HeaderRead.after hmoves ?_
                rw [HeaderRead, firstStop_of_stop _ hdone']
                exact .inr ⟨_, rfl, rfl, rfl, rfl, rfl, rfl⟩
          · obtain ⟨x, hx', hread⟩ := ih o.input o.incoming hvalid' (by omega) (by omega)
            exact ⟨x, hx', hread.after hmoves⟩
          · exact absurd hsay (hbuffer p room xs hp)
        | fails _ more hpayload hmore hrefuse ec hec =>
          have hfailure : o.ec ≠ .success ∧ o.ec ≠ .eof := by
            rw [hec]
            exact ec.property
          dsimp only
          rw [if_neg hfailure.1]
          exact ⟨_, rfl, .of_refusable hrefuse ⟨_, rfl, hfailure⟩⟩
        | ends _ t js r hmoves hstop' hnot hover hpayload hahead hgot hwhole hfed =>
          have hec := over_code h hstop' (hends _) hover
          have hfailure := Ending.code_failure hec
          dsimp only
          rw [if_neg hfailure.1]
          refine ⟨_, rfl, ?_⟩
          rw [HeaderRead]
          cases hfirst : A.firstStop (view s.parser) (s.ahead is) with
          | none =>
            refine .inr ?_
            show some o.ec = _
            rw [← hec]
            exact Ending.code_congr hgot _
          | some v =>
            obtain ⟨n, v⟩ := v
            cases v with
            | done => exact absurd hfirst (hnot n)
            | failed ec => exact .inr ⟨_, rfl, hfailure⟩

/-! ### Bodies -/

/-- A body may be as long as it wants to. -/
abbrev noLimit : P → ℕ∞ := fun _ => ⊤

theorem Refusable.failed (h : Refusable A view noLimit s is) :
    ∃ n ec, A.firstStop (view s.parser) (s.ahead is) = some (n, .failed ec) := by
  refine h.resolve_right ?_
  rintro ⟨hlong, _⟩
  exact absurd (top_le_iff.mp hlong) (ENat.natCast_ne_top _)

/-- What a read of a body comes to. -/
inductive ReadComes (β : BasicParser P) (A : Transducer Q UInt8 UInt8 Verdict) (view : P → Q)
    (endsWithStream : Q → Bool) (s : Input P) (is : List Incoming) : Option (Outcome P) → Prop
  | waits (hnot : A.Avoids .done (view s.parser) (s.ahead is)) (hending : endingOf is = .pending) :
      ReadComes β A view endsWithStream s is none
  | data (o : Outcome P) (r : Taken P UInt8)
      (hmoves : Moves β A view noLimit s is o.input o.incoming r)
      (hec : o.ec = .success) (hpayload : o.input.payload = r.payload) (hne : r.payload ≠ [])
      (hvalid : ∀ ec, A.stop (view o.input.parser) ≠ some (.failed ec)) :
      ReadComes β A view endsWithStream s is (some o)
  | eof (o : Outcome P) (r : Taken P UInt8)
      (hmoves : Moves β A view noLimit s is o.input o.incoming r)
      (hec : o.ec = .eof) (hpayload : o.input.payload = r.payload) (hnil : r.payload = [])
      (hdone : A.stop (view o.input.parser) = some .done) :
      ReadComes β A view endsWithStream s is (some o)
  | fails (o : Outcome P)
      (hpayload : o.input.payload <+:
        A.output (view s.parser) (A.upToStop (view s.parser) (s.ahead is)))
      (hstop : ∃ n ec, A.firstStop (view s.parser) (s.ahead is) = some (n, .failed ec))
      (hec : o.ec ≠ .success ∧ o.ec ≠ .eof) : ReadComes β A view endsWithStream s is (some o)
  | cut (o : Outcome P) (t : Input P) (js : List Incoming) (r : Taken P UInt8)
      (hmoves : Moves β A view noLimit s is t js r)
      (hnot : A.Avoids .done (view s.parser) (s.ahead is)) (hpayload : o.input.payload = r.payload)
      (hends : A.Open (view s.parser) (s.ahead is) →
        ¬(endsWithStream (A.feed (view s.parser) (s.ahead is)) = true ∧ endingOf is = .eof))
      (hec : (endingOf is).code True = some o.ec) :
      ReadComes β A view endsWithStream s is (some o)
  /-- The end of the stream is the end of the message. -/
  | ends (o : Outcome P) (t : Input P) (js : List Incoming) (r : Taken P UInt8)
      (hmoves : Moves β A view noLimit s is t js r) (hopen : A.Open (view s.parser) (s.ahead is))
      (hpayload : o.input.payload = r.payload)
      (hends : endsWithStream (A.feed (view s.parser) (s.ahead is)) = true ∧ endingOf is = .eof)
      (hec : o.ec = if r.payload = [] then .eof else .success)
      (hdone : A.stop (view o.input.parser) = some .done) (hnil : t.ahead js = [])
      (hahead : o.input.ahead o.incoming = []) :
      ReadComes β A view endsWithStream s is (some o)

/-- The state at the end of what is ahead. -/
theorem Moves.feed_ahead (h : Moves β A view limit s is t js r) :
    A.feed (view t.parser) (t.ahead js) = A.feed (view s.parser) (s.ahead is) := by
  rw [h.parser, h.takes.view_eq, h.ahead, ← Transducer.feed_append, List.take_append_drop]

/-- A round that has brought nothing. -/
theorem ReadComes.after {x : Option (Outcome P)} (hmoves : Moves β A view noLimit s is t js r)
    (hnil : r.payload = []) (h : ReadComes β A view endsWithStream t js x) :
    ReadComes β A view endsWithStream s is x := by
  have hfeed := hmoves.feed_ahead
  have hpay : ∀ q : Taken P UInt8, q.payload = r.payload ++ q.payload := by
    intro q
    rw [hnil, List.nil_append]
  cases h with
  | waits hnot hending => exact .waits (hmoves.avoids hnot) (hmoves.ending.symm.trans hending)
  | data o q hq hec hpayload hne hvalid =>
    refine .data o _ (hmoves.trans hq) hec (hpayload.trans (hpay q)) ?_ hvalid
    rw [← hpay q]
    exact hne
  | eof o q hq hec hpayload hqnil hdone =>
    exact .eof o _ (hmoves.trans hq) hec (hpayload.trans (hpay q)) ((hpay q).symm.trans hqnil) hdone
  | fails o hpayload hstop hec =>
    refine .fails o ?_ ?_ hec
    · rw [hmoves.takes.output_upToStop, hnil, List.nil_append, ← hmoves.parser, ← hmoves.ahead]
      exact hpayload
    · obtain ⟨n, ec, hn⟩ := hstop
      refine ⟨n + r.used, ec, ?_⟩
      rw [hmoves.firstStop, hn, Option.map_some]
  | cut o u ks q hq hnot hpayload hends hec =>
    rw [hfeed, hmoves.ending] at hends
    rw [hmoves.ending] at hec
    exact .cut o u ks _ (hmoves.trans hq) (hmoves.avoids hnot) (hpayload.trans (hpay q))
      (fun hopen => hends (hmoves.open_iff.mp hopen)) hec
  | ends o u ks q hq hopen hpayload hends hec hdone hnil' hahead =>
    rw [hfeed, hmoves.ending] at hends
    refine .ends o u ks _ (hmoves.trans hq) (hmoves.open_iff.mpr hopen) (hpayload.trans (hpay q))
      hends ?_ hdone hnil' hahead
    rw [← hpay q]
    exact hec

/-- The last words of a stream, for a message that has begun. -/
theorem over_begun (h : β.Parses A view β.isDone endsWithStream limit) {p p' : P} {e : Ending}
    {ec : ErrorCode} (hstop : A.stop (view p) = none) (hgot : β.gotSome p = true)
    (hover : β.over p e = some (ec, p')) :
    endsWithStream (view p) = true ∧ e = .eof ∧ ec = .success ∧ A.stop (view p') = some .done ∨
      ¬(endsWithStream (view p) = true ∧ e = .eof) ∧ e.code True = some ec := by
  -- only a body without a length, and no failure, may end with the stream
  by_cases hends : endsWithStream (view p) = true ∧ e = .eof
  · obtain ⟨hends, rfl⟩ := hends
    obtain ⟨hsay, hdone⟩ := h.putEof p hstop
    rw [BasicParser.over, if_pos hgot, Option.some.injEq, Prod.mk.injEq] at hover
    obtain ⟨rfl, rfl⟩ := hover
    rw [hsay, if_pos hends]
    exact .inl ⟨hends, rfl, rfl, (h.stop_done _).mpr (hdone hends)⟩
  · refine .inr ⟨hends, ?_⟩
    cases he : endsWithStream (view p) with
    | false => exact (Ending.code_congr (by simp [hgot]) e).trans (over_code h hstop he hover)
    | true =>
      -- then it is not the end of the stream that has come
      cases e with
      | eof => exact absurd ⟨he, rfl⟩ hends
      | pending => exact absurd hover (by simp [BasicParser.over])
      | error ec' => exact congrArg (Option.map Prod.fst) hover
      | truncated =>
        rw [BasicParser.over, if_pos hgot] at hover
        exact congrArg (Option.map Prod.fst) hover

/-- **One read of a body**, by induction on the rounds. -/
theorem readSome_read (h : β.Parses A view β.isDone endsWithStream noLimit) {maxSize size : Nat}
    (hsize : size ≠ 0) (fuel : Nat) (s : Input P) (is : List Incoming)
    (hstop : A.stop (view s.parser) = none) (hgot : β.gotSome s.parser = true)
    (hattached : s.attached = true) (hdetach : Incoming.detach ∉ is)
    (hfits : (s.ahead is).length < maxSize) (hfuel : (s.ahead is).length + is.length < fuel) :
    ∃ x, iterate (BeastReader.readPass β maxSize size) fuel (s, is) = some x ∧
      ReadComes β A view endsWithStream (s.fresh size) is x := by
  -- on the fuel, of which every pass that delivers nothing takes some
  induction fuel generalizing s is with
  | zero => exact absurd hfuel (Nat.not_lt_zero _)
  | succ fuel ih =>
    rw [iterate, BeastReader.readPass]
    have hcomes := readSome_comes (s.fresh size) is h hstop hfits
    dsimp only
    cases hx : β.readSome maxSize is (s.fresh size) with
    | none =>
      rw [hx] at hcomes
      cases hcomes with
      | waits hnot hending => exact ⟨none, rfl, .waits hnot hending⟩
    | some o =>
      rw [hx] at hcomes
      dsimp only
      cases hcomes with
      | moves _ r hmoves hec hvalid hprogress =>
        have hpayload : o.input.payload = r.payload := hmoves.payload
        have hroom := hmoves.room
        -- a pass without data goes on, or is the last one
        by_cases hnil : r.payload = []
        · rw [if_pos ⟨hec, hpayload.trans hnil⟩]
          by_cases hdone : β.isDone o.input.parser = true
          · rw [if_pos hdone]
            exact ⟨_, rfl, .eof _ r hmoves rfl hpayload hnil ((h.stop_done _).mpr hdone)⟩
          · rw [if_neg hdone]
            have hattached' : o.input.attached = true :=
              (hmoves.attached.resolve_right hdetach).trans hattached
            rw [hattached', Bool.not_true, if_neg Bool.false_ne_true]
            -- nothing of the body, so there is another round
            have hstop' : A.stop (view o.input.parser) = none := by
              cases hv : A.stop (view o.input.parser) with
              | none => rfl
              | some v =>
                cases v with
                | done => exact absurd ((h.stop_done _).mp hv) hdone
                | failed ec => exact absurd hv (hvalid ec)
            have hlength := hmoves.length_ahead
            have hsuffix := hmoves.suffix.length_le
            have hfresh : o.input.fresh size = o.input := by
              rw [hnil] at hpayload hroom
              have hsize' : size = o.input.room := hroom.symm
              rw [Input.fresh, ← hpayload, hsize']
            have hshort : (o.input.ahead o.incoming).length + o.incoming.length <
                (s.ahead is).length + is.length := by
              show _ < ((s.fresh size).ahead is).length + is.length
              rcases hprogress with hused | hdone' | hshort | ⟨hroom', _⟩
              · omega
              · exact absurd ((h.stop_done _).mp hdone') hdone
              · omega
              · rw [hroom', hnil] at hroom
                exact absurd hroom.symm hsize
            obtain ⟨x, hx', hread⟩ := ih o.input o.incoming hstop' (hmoves.begun hgot) hattached'
              (fun hmem => hdetach (hmoves.suffix.subset hmem))
              (by have : (s.ahead is).length = ((s.fresh size).ahead is).length := rfl
                  omega) (by omega)
            rw [hfresh] at hread
            exact ⟨x, hx', hread.after hmoves hnil⟩
        · rw [if_neg (fun hand => hnil (hpayload.symm.trans hand.2))]
          exact ⟨_, rfl, .data o r hmoves hec hpayload hnil hvalid⟩
      | fails _ more hpayload hmore hrefuse ec hec =>
        have hfailure : o.ec ≠ .success ∧ o.ec ≠ .eof := by
          rw [hec]
          exact ec.property
        rw [if_neg (fun hand => hfailure.1 hand.1)]
        refine ⟨_, rfl, .fails o ?_ hrefuse.failed hfailure⟩
        rw [hpayload]
        exact hmore
      | ends _ t js r hmoves hstop' hnot hover hpayload hahead hgot' hwhole hfed =>
        have hfeed := hmoves.feed_ahead
        have hpay : o.input.payload = r.payload := hpayload.trans hmoves.payload
        -- the stream is over: that ends the body, or cuts it off
        rcases over_begun h hstop' (hgot'.mpr (.inl hgot)) hover with
          ⟨hends, heof, hec, hdone⟩ | ⟨hends, hec⟩
        · have hnil' := hwhole hends
          have hrest := (hahead heof).trans hnil'
          have hopen : A.Open (view (s.fresh size).parser) ((s.fresh size).ahead is) := by
            rw [hmoves.open_iff, hnil']
            exact Transducer.open_nil.mpr hstop'
          rw [hnil', Transducer.feed_nil] at hfeed
          rw [hfeed] at hends
          by_cases hnil : r.payload = []
          · rw [if_pos ⟨hec, hpay.trans hnil⟩, if_pos ((h.stop_done _).mp hdone)]
            refine ⟨_, rfl, .ends _ t js r hmoves hopen hpay ⟨hends, heof⟩ ?_ hdone hnil' hrest⟩
            rw [if_pos hnil]
          · rw [if_neg (fun hand => hnil (hpay.symm.trans hand.2))]
            refine ⟨_, rfl, .ends _ t js r hmoves hopen hpay ⟨hends, heof⟩ ?_ hdone hnil' hrest⟩
            rw [if_neg hnil, hec]
        · rw [if_neg (fun hand => (Ending.code_failure hec).1 hand.1)]
          refine ⟨_, rfl, .cut o t js r hmoves hnot hpay ?_ hec⟩
          rintro hopen ⟨hends', heof⟩
          -- a body that ends with the stream has been taken as a whole
          rw [← hfeed] at hends'
          have hnil' := hfed (hmoves.open_iff.mp hopen) hends'
          rw [hnil', Transducer.feed_nil] at hends'
          exact hends ⟨hends', heof⟩

/-- What reading a body comes to, in at most `count` reads: data are those of the message, in their
order, and the end of the body is told when there are no more of them, and only then. -/
structure BodyRight (A : Transducer Q UInt8 UInt8 Verdict) (view : P → Q)
    (endsWithStream : Q → Bool) (s : Input P) (is : List Incoming) (count : Nat)
    (b : BeastReader.BodyRead P) : Prop where
  isPrefix : b.data <+: A.output (view s.parser) (A.upToStop (view s.parser) (s.ahead is))
  ended : b.ec = some .success ∧ count ≤ b.data.length ∨
    match A.firstStop (view s.parser) (s.ahead is) with
    | some (n, .done) => b.ec = some .eof ∧
        b.data = A.output (view s.parser) ((s.ahead is).take n) ∧
        b.input.ahead b.incoming = (s.ahead is).drop n
    | some (_, .failed _) => b.ec = none ∧ endingOf is = .pending ∨
        ∃ ec, b.ec = some ec ∧ ec ≠ .success ∧ ec ≠ .eof
    | none =>
      if endsWithStream (A.feed (view s.parser) (s.ahead is)) = true ∧ endingOf is = .eof then
        b.ec = some .eof ∧ b.data = A.output (view s.parser) (s.ahead is) ∧
          b.input.ahead b.incoming = []
      else b.ec = (endingOf is).code True

/-- The body buffer makes no difference. -/
theorem BodyRight.of_fresh (size : Nat) {count : Nat} {x : Option (BeastReader.BodyRead P)}
    (h : ∃ b, x = some b ∧ BodyRight A view endsWithStream (s.fresh size) is count b) :
    ∃ b, x = some b ∧ BodyRight A view endsWithStream s is count b := by
  obtain ⟨b, hx, hright⟩ := h
  exact ⟨b, hx, hright.isPrefix, hright.ended⟩

/-- What has been read before. -/
theorem BodyRight.after {count : Nat} {b : BeastReader.BodyRead P}
    (hmoves : Moves β A view limit s is t js r)
    (hne : r.payload ≠ []) (h : BodyRight A view endsWithStream t js count b) :
    BodyRight A view endsWithStream s is (count + 1) { b with data := r.payload ++ b.data } := by
  have htakes := hmoves.takes
  have hlength : 0 < r.payload.length := List.length_pos_iff.mpr hne
  have houtput : ∀ n, A.output (view s.parser) ((s.ahead is).take (n + r.used)) =
      r.payload ++ A.output (view t.parser) ((t.ahead js).take n) := by
    intro n
    rw [Nat.add_comm, List.take_add, Transducer.output_append, ← htakes.view_eq,
      ← htakes.payload_eq, ← hmoves.parser, ← hmoves.ahead]
  constructor
  · rw [htakes.output_upToStop, ← hmoves.parser, ← hmoves.ahead]
    exact (List.prefix_append_right_inj _).mpr h.isPrefix
  · -- how the later reads have ended
    rcases h.ended with ⟨hec, hcount⟩ | hended
    · refine .inl ⟨hec, ?_⟩
      show count + 1 ≤ (r.payload ++ b.data).length
      rw [List.length_append]
      omega
    · refine .inr ?_
      rw [hmoves.firstStop]
      rw [hmoves.feed_ahead, hmoves.ending] at hended
      cases hstop : A.firstStop (view t.parser) (t.ahead js) with
      | none =>
        -- the body does not end before the stream does
        rw [hstop] at hended
        dsimp only [Option.map_none] at hended ⊢
        split
        · next hends =>
          rw [if_pos hends] at hended
          obtain ⟨hec, hdata, hrest⟩ := hended
          refine ⟨hec, ?_, hrest⟩
          show r.payload ++ b.data = _
          have hall := houtput (t.ahead js).length
          rw [List.take_length, hmoves.length_ahead, List.take_length] at hall
          rw [hdata, hall]
        · next hends =>
          rw [if_neg hends] at hended
          exact hended
      | some v =>
        obtain ⟨n, v⟩ := v
        rw [hstop] at hended
        cases v with
        | failed ec => exact hended
        | done =>
          obtain ⟨hec, hdata, hrest⟩ := hended
          refine ⟨hec, ?_, ?_⟩
          · show r.payload ++ b.data = A.output (view s.parser) ((s.ahead is).take (n + r.used))
            rw [houtput, hdata]
          · show b.input.ahead b.incoming = (s.ahead is).drop (n + r.used)
            rw [hrest, hmoves.ahead, List.drop_drop, Nat.add_comm]

/-- **Bodies**: whichever way the stream is cut and however large the caller's buffers are, what is
read is the body, in order, and nothing behind it; its end is told exactly when all of it has been
read, and a body that has been cut off is told from a complete one. -/
theorem readAll_right (h : β.Parses A view β.isDone endsWithStream noLimit) {maxSize fuel : Nat}
    (sizes : List Nat) (hsizes : ∀ size ∈ sizes, size ≠ 0) (s : Input P) (is : List Incoming)
    (hvalid : ∀ ec, A.stop (view s.parser) ≠ some (.failed ec)) (hgot : β.gotSome s.parser = true)
    (hattached : s.attached = true) (hdetach : Incoming.detach ∉ is)
    (hfits : (s.ahead is).length < maxSize) (hfuel : (s.ahead is).length + is.length < fuel) :
    ∃ b, BeastReader.readAll β maxSize fuel sizes is s = some b ∧
      BodyRight A view endsWithStream s is sizes.length b := by
  -- on the buffers: one read for each, until the body ends
  induction sizes generalizing s is with
  | nil =>
    exact ⟨_, rfl, List.nil_prefix, .inl ⟨rfl, Nat.le_refl 0⟩⟩
  | cons size sizes ih =>
    have hsize : size ≠ 0 := hsizes size List.mem_cons_self
    rw [BeastReader.readAll, BeastReader.readSome, if_neg hsize]
    by_cases hdone : β.isDone s.parser = true
    · -- there is nothing left to read
      rw [if_pos hdone]
      have hstop := firstStop_of_stop (s.ahead is) ((h.stop_done _).mpr hdone)
      refine ⟨_, rfl, List.nil_prefix, .inr ?_⟩
      rw [hstop]
      exact ⟨rfl, rfl, rfl⟩
    · have hstop : A.stop (view s.parser) = none := by
        cases hv : A.stop (view s.parser) with
        | none => rfl
        | some v =>
          cases v with
          | done => exact absurd ((h.stop_done _).mp hv) hdone
          | failed ec => exact absurd hv (hvalid ec)
      rw [if_neg hdone, hattached, Bool.not_true, if_neg Bool.false_ne_true]
      obtain ⟨x, hx, hread⟩ :=
        readSome_read h hsize fuel s is hstop hgot hattached hdetach hfits hfuel
      rw [hx, Option.bind_some]
      apply BodyRight.of_fresh size
      cases hread with
      | waits hnot hending =>
        -- the body goes on, but nothing else comes
        refine ⟨_, rfl, List.nil_prefix, .inr ?_⟩
        cases hfirst : A.firstStop (view (s.fresh size).parser) ((s.fresh size).ahead is) with
        | none =>
          rw [hending]
          dsimp only
          rw [if_neg (fun hand => absurd hand.2 (by decide))]
          rfl
        | some v =>
          obtain ⟨n, v⟩ := v
          cases v with
          | done => exact absurd hfirst (hnot n)
          | failed ec => exact .inl ⟨rfl, hending⟩
      | data o r hmoves hec hpayload hne hvalid' =>
        -- the next reads go on where this one has stopped
        have hlength := hmoves.length_ahead
        have hlength' : ((s.fresh size).ahead is).length = (s.ahead is).length := rfl
        have hsuffix := hmoves.suffix.length_le
        obtain ⟨b, hb, hright⟩ := ih (fun n hn => hsizes n (List.mem_cons_of_mem _ hn)) o.input
          o.incoming hvalid' (hmoves.begun hgot)
          ((hmoves.attached.resolve_right hdetach).trans hattached)
          (fun hmem => hdetach (hmoves.suffix.subset hmem)) (by omega) (by omega)
        dsimp only
        rw [if_pos hec, hb, Option.map_some]
        refine ⟨_, rfl, ?_⟩
        rw [hpayload]
        exact hright.after hmoves hne
      | eof o r hmoves hec hpayload hnil hdone' =>
        dsimp only
        rw [if_neg (by rw [hec]; decide)]
        refine ⟨_, rfl, ?_, .inr ?_⟩
        · rw [hpayload, hnil]
          exact List.nil_prefix
        · have hfirst := hmoves.firstStop
          rw [firstStop_of_stop _ hdone', Option.map_some] at hfirst
          rw [hfirst]
          refine ⟨congrArg some hec, ?_, ?_⟩
          · show o.input.payload = A.output _ (((s.fresh size).ahead is).take (0 + r.used))
            rw [hpayload, hmoves.takes.payload_eq, Nat.zero_add]
          · show o.input.ahead o.incoming = ((s.fresh size).ahead is).drop (0 + r.used)
            rw [hmoves.ahead, Nat.zero_add]
      | fails o hpayload hstop' hec =>
        -- what comes is not a body
        obtain ⟨n, ec, hn⟩ := hstop'
        dsimp only
        rw [if_neg hec.1]
        refine ⟨_, rfl, hpayload, .inr ?_⟩
        rw [hn]
        exact .inr ⟨_, rfl, hec⟩
      | cut o t js r hmoves hnot hpayload hends hec =>
        -- the stream ends, and the body should not
        have hfailure := Ending.code_failure hec
        dsimp only
        rw [if_neg hfailure.1]
        refine ⟨_, rfl, ?_, .inr ?_⟩
        · rw [hpayload, hmoves.takes.output_upToStop]
          exact List.prefix_append _ _
        · cases hfirst : A.firstStop (view (s.fresh size).parser) ((s.fresh size).ahead is) with
          | none =>
            dsimp only
            rw [if_neg (hends hfirst)]
            exact hec.symm
          | some v =>
            obtain ⟨n, v⟩ := v
            cases v with
            | done => exact absurd hfirst (hnot n)
            | failed ec => exact .inr ⟨_, rfl, hfailure⟩
      | ends o t js r hmoves hopen hpayload hends hec hdone' hnil hahead =>
        -- the body ends with the stream: this is the rest of it
        have hall : r.payload =
            A.output (view (s.fresh size).parser) ((s.fresh size).ahead is) := by
          have htakes := hmoves.takes
          have hlength := hmoves.length_ahead
          rw [hnil, List.length_nil, Nat.zero_add] at hlength
          rw [htakes.payload_eq, hlength, List.take_length]
        have hopen' : A.firstStop (view (s.fresh size).parser) ((s.fresh size).ahead is) = none :=
          hopen
        dsimp only
        -- the end of the stream came with data, or without any
        by_cases hempty : r.payload = []
        · rw [if_pos hempty] at hec
          rw [if_neg (by rw [hec]; decide)]
          refine ⟨_, rfl, ?_, .inr ?_⟩
          · rw [hpayload, hempty]
            exact List.nil_prefix
          · rw [hopen']
            dsimp only
            rw [if_pos hends]
            exact ⟨congrArg some hec, hpayload.trans hall, hahead⟩
        · -- the end is told by the next read, if there is one
          rw [if_neg hempty] at hec
          rw [if_pos hec]
          cases sizes with
          | nil =>
            refine ⟨_, rfl, ?_, .inl ⟨rfl, ?_⟩⟩
            · rw [hpayload, hall, hopen.upToStop]
              exact ⟨[], (List.append_nil _).trans (List.append_nil _)⟩
            · show 1 ≤ (o.input.payload ++ []).length
              rw [List.append_nil, hpayload]
              exact List.length_pos_iff.mpr hempty
          | cons size' sizes =>
            have hsize' := hsizes size' (List.mem_cons_of_mem _ List.mem_cons_self)
            rw [BeastReader.readAll, BeastReader.readSome, if_neg hsize',
              if_pos ((h.stop_done _).mp hdone')]
            refine ⟨_, rfl, ?_, .inr ?_⟩
            · rw [hpayload, hall, hopen.upToStop]
              exact ⟨[], (List.append_nil _).trans (List.append_nil _)⟩
            · rw [hopen']
              dsimp only
              rw [if_pos hends, hpayload, hall]
              exact ⟨rfl, List.append_nil _, hahead⟩

end Moves

/-! ### The plain parser -/

namespace PlainState

/-- The header is looked for byte by byte. -/
theorem header_eq (p : PlainParser) (xs : List UInt8) :
    header p xs = ((PlainParser.transducer PlainParser.inBody).firstStop p xs).map fun r =>
      (r.1, (PlainParser.transducer PlainParser.inBody).feed p (xs.take r.1)) := by
  induction xs generalizing p with
  | nil => cases p <;> rfl
  | cons c xs ih =>
    cases p with
    | body left => rfl
    | header seen =>
      rw [header, ih]
      show _ = (((PlainParser.transducer PlainParser.inBody).firstStop
        (PlainParser.next (.header seen) c) xs).map fun r => (r.1 + 1, r.2)).map _
      rw [Option.map_map, Option.map_map]
      rfl

/-- Nothing is emitted in a header. -/
theorem output_header (stop : PlainParser → Bool) (p : PlainParser) (xs : List UInt8)
    (h : (PlainParser.transducer PlainParser.inBody).Runs p xs) :
    (PlainParser.transducer stop).output p xs = [] := by
  induction xs generalizing p with
  | nil => rfl
  | cons c xs ih =>
    obtain ⟨hp, hrest⟩ := Transducer.runs_cons.mp h
    cases p with
    | body left => exact absurd hp (by simp [PlainParser.transducer, PlainParser.inBody])
    | header seen =>
      show [] ++ (PlainParser.transducer stop).output _ xs = []
      exact ih _ hrest

/-- A body goes on for as many bytes as are left. -/
theorem feed_body (stop : PlainParser → Bool) (left : Nat) (xs : List UInt8) :
    (PlainParser.transducer stop).feed (.body left) xs = .body (left - xs.length) := by
  induction xs generalizing left with
  | nil => rfl
  | cons c xs ih =>
    rw [Transducer.feed_cons]
    show (PlainParser.transducer stop).feed (.body (left - 1)) xs = _
    rw [ih, List.length_cons]
    congr 1
    omega

theorem output_body (stop : PlainParser → Bool) (left : Nat) (xs : List UInt8)
    (h : xs.length ≤ left) : (PlainParser.transducer stop).output (.body left) xs = xs := by
  induction xs generalizing left with
  | nil => rfl
  | cons c xs ih =>
    rw [List.length_cons] at h
    have hne : ¬PlainParser.body left = .body 0 := by
      rw [PlainParser.body.injEq]
      omega
    show (if PlainParser.inBody (.body left) && decide (PlainParser.body left ≠ .body 0) then [c]
      else []) ++ (PlainParser.transducer stop).output (.body (left - 1)) xs = c :: xs
    rw [ih _ (by omega), PlainParser.inBody, Bool.true_and, decide_eq_true hne, if_pos rfl]
    rfl

/-- A message does not stop before its header does. -/
theorem runs_of_header {stop : PlainParser → Bool} (hstop : ∀ seen, stop (.header seen) = false)
    {p : PlainParser} {xs : List UInt8}
    (h : (PlainParser.transducer PlainParser.inBody).Runs p xs) :
    (PlainParser.transducer stop).Runs p xs := by
  intro k hk
  have hheader := h k hk
  show (if stop _ then _ else _) = none
  have hfeed : ∀ ys, (PlainParser.transducer stop).feed p ys =
      (PlainParser.transducer PlainParser.inBody).feed p ys := fun _ => rfl
  rw [hfeed]
  cases hp : (PlainParser.transducer PlainParser.inBody).feed p (xs.take k) with
  | header seen => rw [hstop, if_neg Bool.false_ne_true]
  | body left =>
    rw [hp] at hheader
    exact absurd hheader (by simp [PlainParser.transducer, PlainParser.inBody])

variable {stop : PlainParser → Bool}

theorem stop_eq_none {p : PlainParser} :
    (PlainParser.transducer stop).stop p = none ↔ stop p = false := by
  show (if stop p = true then _ else _) = none ↔ _
  cases stop p <;> simp

/-- A plain message is never invalid. -/
theorem stop_ne_failed {p : PlainParser} {ec : Failure} :
    (PlainParser.transducer stop).stop p ≠ some (.failed ec) := by
  show (if stop p = true then _ else _) ≠ _
  cases stop p <;> simp

/-- What the parser makes of a header that is complete: all of it, which is something. -/
theorem takes_header (hheader : ∀ seen, stop (.header seen) = false) {seen xs : List UInt8}
    {n : Nat} {q : PlainParser} (h : header (.header seen) xs = some (n, q)) :
    n ≠ 0 ∧ Takes (PlainParser.transducer stop) at_ ⟨.header seen, false⟩ xs
      ⟨⟨q, false⟩, n, []⟩ := by
  rw [header_eq, Option.map_eq_some_iff] at h
  obtain ⟨⟨m, v⟩, hstop, heq⟩ := h
  obtain ⟨rfl, rfl⟩ := Prod.mk.inj heq
  obtain ⟨hle, hv, hruns⟩ := Transducer.firstStop_eq_some_iff.mp hstop
  refine ⟨?_, hle, rfl, ?_, runs_of_header hheader hruns⟩
  · rintro rfl
    exact absurd hv (by simp [PlainParser.transducer, PlainParser.inBody])
  · exact (output_header stop _ _ hruns).symm

/-- A header that is not complete leaves the message open. -/
theorem open_of_header (hheader : ∀ seen, stop (.header seen) = false) {seen xs : List UInt8}
    (h : header (.header seen) xs = none) :
    (PlainParser.transducer stop).Open (.header seen) xs := by
  rw [header_eq, Option.map_eq_none_iff] at h
  obtain ⟨hruns, hlast⟩ := Transducer.open_iff.mp h
  refine Transducer.open_iff.mpr ⟨runs_of_header hheader hruns, ?_⟩
  have hfeed : (PlainParser.transducer stop).feed (.header seen) xs =
      (PlainParser.transducer PlainParser.inBody).feed (.header seen) xs := rfl
  rw [hfeed, stop_eq_none]
  cases hp : (PlainParser.transducer PlainParser.inBody).feed (.header seen) xs with
  | header seen' => exact hheader seen'
  | body left =>
    rw [hp] at hlast
    exact absurd hlast (by simp [PlainParser.transducer, PlainParser.inBody])

/-- It is kept back as a whole. -/
theorem put_of_header {seen xs : List UInt8} (h : header (.header seen) xs = none) (got : Bool)
    (room : Nat) : (put ⟨.header seen, got⟩ room xs).1.parser.at_ = .header seen := by
  rw [put]
  dsimp only
  rw [h]

/-- The next `n` bytes of a body, where there are so many left. -/
theorem takes_body (hzero : stop (.body 0) = true)
    (hsame : ∀ left, stop (.body (left + 1)) = stop (.body 1)) {left : Nat} (n : Nat)
    (xs : List UInt8) (hstop : stop (.body left) = false) (hn : n ≤ left) (hle : n ≤ xs.length) :
    Takes (PlainParser.transducer stop) at_ ⟨.body left, false⟩ xs
      ⟨⟨.body (left - n), false⟩, n, xs.take n⟩ := by
  have hleft : left ≠ 0 := by
    rintro rfl
    exact absurd (hstop.symm.trans hzero) (by decide)
  have hlength : (xs.take n).length = n := List.length_take_of_le hle
  refine ⟨hle, ?_, ?_, ?_⟩
  · show PlainParser.body (left - n) = (PlainParser.transducer stop).feed (.body left) (xs.take n)
    rw [feed_body, hlength]
  · exact (output_body stop left (xs.take n) (by omega)).symm
  · -- in front of the last byte, something is left
    intro k hk
    have hk' : k < n := by
      rw [← hlength]
      exact hk
    rw [feed_body, stop_eq_none, List.take_take, List.length_take]
    obtain ⟨m, hm⟩ : ∃ m, left - min (min k n) xs.length = m + 1 :=
      ⟨left - min (min k n) xs.length - 1, by omega⟩
    obtain ⟨l, rfl⟩ : ∃ l, left = l + 1 := ⟨left - 1, by omega⟩
    rw [hm, hsame, ← hsame l]
    exact hstop

/-- The parser takes what the message takes. -/
theorem takes_put (hheader : ∀ seen, stop (.header seen) = false) (hzero : stop (.body 0) = true)
    (hsame : ∀ left, stop (.body (left + 1)) = stop (.body 1)) (p : PlainState) (room : Nat)
    (xs : List UInt8) (hstop : (PlainParser.transducer stop).stop p.at_ = none) :
    Takes (PlainParser.transducer stop) at_ p xs (put p room xs).1 := by
  obtain ⟨q, got⟩ := p
  cases q with
  | header seen =>
    rw [put]
    dsimp only
    cases hx : header (.header seen) xs with
    | none => exact ⟨Nat.zero_le _, rfl, rfl, Transducer.runs_nil⟩
    | some r =>
      obtain ⟨hle, hview, hpay, hruns⟩ := (takes_header hheader hx).2
      exact ⟨hle, hview, hpay, hruns⟩
  | body left =>
    obtain ⟨hle, hview, hpay, hruns⟩ := takes_body hzero hsame (min left (min room xs.length)) xs
      (stop_eq_none.mp hstop) (by omega) (by omega)
    exact ⟨hle, hview, hpay, hruns⟩

/-- It never gives more than there is room for. -/
theorem length_put (p : PlainState) (room : Nat) (xs : List UInt8) :
    (put p room xs).1.payload.length ≤ room := by
  obtain ⟨q, got⟩ := p
  cases q with
  | header seen =>
    rw [put]
    dsimp only
    cases header (.header seen) xs <;> exact Nat.zero_le _
  | body left =>
    show (xs.take _).length ≤ room
    rw [List.length_take]
    omega

theorem got_put (p : PlainState) (room : Nat) (xs : List UInt8) :
    (put p room xs).1.parser.got = (p.got || decide (xs ≠ [])) := by
  obtain ⟨q, got⟩ := p
  cases q with
  | body left => rfl
  | header seen =>
    rw [put]
    dsimp only
    cases header (.header seen) xs <;> rfl

/-- It asks for more in a header only. -/
theorem header_of_needMore {p : PlainState} {room : Nat} {xs : List UInt8}
    (h : (put p room xs).2 = .needMore) :
    ∃ seen, p.at_ = .header seen ∧ header (.header seen) xs = none := by
  obtain ⟨q, got⟩ := p
  cases q with
  | body left =>
    have hsaid : (if _ then Say.needBuffer else Say.ok) = Say.needMore := h
    split at hsaid <;> exact absurd hsaid (by decide)
  | header seen =>
    refine ⟨seen, rfl, ?_⟩
    rw [put] at h
    dsimp only at h
    cases hx : header (.header seen) xs with
    | none => rfl
    | some r =>
      rw [hx] at h
      exact absurd h (by simp)

theorem put_ne_error (p : PlainState) (room : Nat) (xs : List UInt8) (ec : Failure) :
    (put p room xs).2 ≠ .error ec := by
  obtain ⟨q, got⟩ := p
  intro h
  cases q with
  | header seen =>
    rw [put] at h
    dsimp only at h
    cases hx : header (.header seen) xs <;> rw [hx] at h <;> exact absurd h (by simp)
  | body left =>
    have hsaid : (if _ then Say.needBuffer else Say.ok) = Say.error ec := h
    split at hsaid <;> exact absurd hsaid (by simp)

end PlainState

/-- The plain parser as a parser of headers, or of messages. -/
theorem plain_parses (stop : PlainParser → Bool) (hheader : ∀ seen, stop (.header seen) = false)
    (hzero : stop (.body 0) = true) (hsame : ∀ left, stop (.body (left + 1)) = stop (.body 1)) :
    BasicParser.plain.Parses (PlainParser.transducer stop) PlainState.at_ (fun p => stop p.at_)
      (fun _ => false) noLimit := by
  have hleft : ∀ {left}, stop (.body left) = false → left ≠ 0 := by
    rintro left h rfl
    exact absurd (h.symm.trans hzero) (by decide)
  constructor
  case takes => exact fun p room xs hp _ => PlainState.takes_put hheader hzero hsame p room xs hp
  case room => exact PlainState.length_put
  case gotSome =>
    intro p room xs
    show (PlainState.put p room xs).1.parser.got = true ↔ p.got = true ∨ xs ≠ []
    rw [PlainState.got_put, Bool.or_eq_true, decide_eq_true_iff]
  case counts => exact fun _ _ _ _ => le_self_add
  case stop_done =>
    intro p
    show (if stop p.at_ = true then _ else _) = _ ↔ _
    cases stop p.at_ <;> simp
  case needMore =>
    rintro ⟨q, got⟩ room xs hstop hmore
    obtain ⟨seen, rfl, hnone⟩ := PlainState.header_of_needMore hmore
    refine ⟨?_, (PlainState.open_of_header hheader hnone).avoids,
      fun h => absurd h Bool.false_ne_true, fun _ h => absurd h Bool.false_ne_true⟩
    show (PlainParser.transducer stop).stop
      (PlainState.put ⟨.header seen, got⟩ room xs).1.parser.at_ = none
    rw [PlainState.put_of_header hnone]
    exact hstop
  case ok =>
    rintro ⟨q, got⟩ room xs hstop hsaid _
    refine ⟨fun ec => PlainState.stop_ne_failed, fun hne => ?_⟩
    cases q with
    | header seen =>
      refine .inl ?_
      show (PlainState.put ⟨.header seen, got⟩ room xs).1.used ≠ 0
      have hsaid' : (PlainState.put ⟨.header seen, got⟩ room xs).2 ≠ .needMore := hsaid
      rw [PlainState.put] at hsaid' ⊢
      dsimp only at hsaid' ⊢
      cases hx : PlainState.header (.header seen) xs with
      | none =>
        rw [hx] at hsaid'
        exact absurd rfl hsaid'
      | some r => exact (PlainState.takes_header hheader hx).1
    | body left =>
      have hleft' := hleft (PlainState.stop_eq_none.mp hstop)
      have hlength := List.length_pos_iff.mpr hne
      by_cases hroom : room = 0
      · refine .inr (.inr ⟨?_, hroom⟩)
        show (if _ then Say.needBuffer else Say.ok) = .needBuffer
        rw [if_pos (by omega)]
      · refine .inl ?_
        show min left (min room xs.length) ≠ 0
        omega
  case error =>
    exact fun p room xs ec _ hsaid => absurd hsaid (PlainState.put_ne_error p room xs ec)
  case putEof =>
    rintro ⟨q, got⟩ hstop
    refine ⟨?_, fun h => absurd h Bool.false_ne_true⟩
    show (if q = .body 0 then Say.ok else .error partialMessage) = _
    rw [if_neg, if_neg Bool.false_ne_true]
    rintro rfl
    exact hleft (PlainState.stop_eq_none.mp hstop) rfl

theorem plain_parses_header :
    BasicParser.plain.Parses (PlainParser.transducer PlainParser.inBody) PlainState.at_
      BasicParser.plain.isHeaderDone (fun _ => false) noLimit :=
  plain_parses PlainParser.inBody (fun _ => rfl) rfl (fun _ => rfl)

theorem plain_parses_message :
    BasicParser.plain.Parses (PlainParser.transducer fun p => decide (p = .body 0)) PlainState.at_
      BasicParser.plain.isDone (fun _ => false) noLimit := by
  refine plain_parses _ (fun seen => ?_) ?_ (fun left => ?_)
  · exact decide_eq_false (by simp)
  · exact decide_eq_true rfl
  · rw [decide_eq_false (by simp), decide_eq_false (by simp)]

/-- A request that arrives in three pieces, the last of them with the beginning of the next one. -/
theorem readHeader_right_plain : ∃ x, BasicParser.plain.readHeader 1000 100
      [.bytes (ascii "GET / H".toList), .bytes (ascii "TTP/1.1".toList ++ crlf ++ [13]),
        .bytes ([10] ++ ascii "GET".toList)] { parser := ⟨.header [], false⟩ } = some x ∧
    HeaderRead BasicParser.plain (PlainParser.transducer PlainParser.inBody) PlainState.at_ noLimit
      { parser := ⟨.header [], false⟩ }
      [.bytes (ascii "GET / H".toList), .bytes (ascii "TTP/1.1".toList ++ crlf ++ [13]),
        .bytes ([10] ++ ascii "GET".toList)] x :=
  readHeader_right plain_parses_header (fun _ => rfl)
    (by
      rintro ⟨q, got⟩ room xs hstop
      cases q with
      | body left => exact absurd hstop (by simp [PlainParser.transducer, PlainParser.inBody])
      | header seen =>
        show (PlainState.put ⟨.header seen, got⟩ room xs).2 ≠ .needBuffer
        rw [PlainState.put]
        dsimp only
        cases PlainState.header (.header seen) xs <;> simp)
    100 _ _ (fun _ => by simp [PlainParser.transducer, PlainParser.inBody]) (by decide) (by decide)

/-- Two reads bring what one piece has brought, and the last one tells the end. -/
example : (BeastReader.readAll BasicParser.plain 1000 100 [2, 2, 2, 2, 2]
      [.bytes [1], .bytes [2, 3, 4], .bytes [5, 6]] { parser := ⟨.body 5, true⟩ }).map
      (fun b => (b.data, b.ec, b.input.buffer)) = some ([1, 2, 3, 4, 5], some .eof, [6]) := by
  decide

/-- A body of five bytes that is read in buffers of two. -/
theorem readAll_right_plain : ∃ b, BeastReader.readAll BasicParser.plain 1000 100 [2, 2, 2, 2, 2]
      [.bytes [1], .bytes [2, 3, 4], .bytes [5, 6]] { parser := ⟨.body 5, true⟩ } = some b ∧
    BodyRight (PlainParser.transducer fun p => decide (p = .body 0)) PlainState.at_ (fun _ => false)
      { parser := ⟨.body 5, true⟩ } [.bytes [1], .bytes [2, 3, 4], .bytes [5, 6]] 5 b :=
  readAll_right plain_parses_message [2, 2, 2, 2, 2] (by decide) _ _
    (fun _ => by simp [PlainParser.transducer]) rfl rfl (by decide) (by decide) (by decide)

end AnyHttp.H1
