import AnyHttp.H1.Equiv.Boundary
import AnyHttp.H1.Equiv.Responses
import AnyHttp.H1.Framing

/-!
# Where a message ends, for its sender and for its receiver

The receiver of a message finds its end where the sender has stopped if what has been written fits
the way the receiver goes by, and only then (`ends_iff_fits`).  Nothing in the sender sees to that:
it does not count what it writes against a `Content-Length`, and neither the method of the request
nor the status play any part in what it emits.

* `Server.response_ends_iff`, `Client.request_ends_iff`: that is so of every message the end of
  which has been reported as written, in every run.
* `Client.bodiless_fits`: a request without a body fits always.
* `Server.responses_found_iff`: a client finds every response at its first byte exactly if those
  before it fit.
* `fits_file`: what `serve_file()` writes fits unless the request is a `HEAD`, or the file is empty.
-/

namespace AnyHttp.H1

open Lib

variable {P : Type*} {R : Receiver P} {b : Beast} {head : Head} {p : P}
  {pieces : List (List UInt8 × Bool)}

/-! ### The framing of a header -/

/-- Chunks are not counted by a `Content-Length`, ... -/
theorem Beast.framing_length {fields : Fields} {noBody : Bool} {unframed : Framing} {n : Nat}
    (h : b.framing fields noBody unframed = some (.length n)) : b.chunked fields = false := by
  refine Bool.eq_false_of_not_eq_true fun hchunked => ?_
  unfold Beast.framing at h
  split at h
  · simp [hchunked] at h
  · cases noBody <;> simp [hchunked] at h

/-- ... and only what is sent in chunks is received in chunks. -/
theorem Beast.framing_chunked {fields : Fields} {noBody : Bool} {unframed : Framing}
    (h : b.framing fields noBody unframed = some .chunked) (hunframed : unframed ≠ .chunked) :
    b.chunked fields = true := by
  by_contra hchunked
  unfold Beast.framing at h
  split at h
  · cases noBody <;> simp [hchunked] at h
  · cases noBody <;> simp [hchunked, hunframed] at h

/-! ### Bodies -/

theorem Receiver.feed_nil : R.feed p [] = p := rfl

theorem body_of_not_chunked (hchunked : b.chunked head.fields = false) (data : List UInt8)
    (eof : Bool) : b.body head data eof = data := by
  rw [Beast.body, hchunked, if_neg Bool.false_ne_true]

theorem bodies_of_not_chunked (hchunked : b.chunked head.fields = false) :
    (pieces.flatMap fun x => b.body head x.1 x.2).length =
      (pieces.map fun x => x.1.length).sum := by
  simp only [body_of_not_chunked hchunked, List.length_flatMap]

/-- Behind the header, there is nothing only if nothing has been written, and that not in chunks. -/
theorem bodies_eq_nil_iff (hlast : b.lastChunk ≠ []) (hended : Writer.Ended pieces) :
    (pieces.flatMap fun x => b.body head x.1 x.2) = [] ↔
      (∀ x ∈ pieces, x.1 = []) ∧ (b.chunked head.fields = true → pieces = []) := by
  rw [List.flatMap_eq_nil_iff]
  cases hchunked : b.chunked head.fields with
  | false => simp [body_of_not_chunked hchunked]
  | true =>
    rcases hended with rfl | ⟨before, data, rfl, _⟩
    · simp
    · -- the last piece has the last chunk go with it
      refine iff_of_false (fun h => hlast ?_) fun h => absurd (h.2 rfl) (by simp)
      have hnil := h (data, true) (by simp)
      rw [Beast.body, if_pos hchunked, if_pos rfl] at hnil
      exact (List.append_eq_nil_iff.mp hnil).2

/-- A piece that does not end the body is one chunk, or none. -/
theorem Receiver.Unchunks.piece {between : P → Prop} (h : R.Unchunks b between)
    (hchunked : b.chunked head.fields = true) (hp : between p) (data : List UInt8) :
    (∀ n < (b.body head data false).length,
        R.done (R.feed p ((b.body head data false).take n)) = false) ∧
      between (R.feed p (b.body head data false)) := by
  rw [Beast.body, if_pos hchunked, if_neg Bool.false_ne_true, List.append_nil]
  split_ifs with hdata
  · exact ⟨fun n hn => absurd hn (Nat.not_lt_zero n), hp⟩
  · exact h.chunk p data hp hdata

theorem Receiver.Unchunks.ends {between : P → Prop} (h : R.Unchunks b between)
    (hchunked : b.chunked head.fields = true) (data : List UInt8)
    (before : List (List UInt8 × Bool)) (hopen : ∀ x ∈ before, x.2 = false) :
    ∀ p, between p →
      R.Ends p ((before ++ [(data, true)]).flatMap fun x => b.body head x.1 x.2) := by
  induction before with
  | nil =>
    intro p hp
    have hpiece : b.body head data true = b.body head data false ++ b.lastChunk := by
      simp only [Beast.body, if_pos hchunked, if_true, Bool.false_eq_true, if_false,
        List.append_nil]
    obtain ⟨hopen, hend⟩ := h.piece hchunked hp data
    rw [List.nil_append, List.flatMap_singleton, hpiece]
    exact (ends_append_iff _ _).mpr ⟨hopen, h.last _ hend⟩
  | cons x xs ih =>
    intro p hp
    obtain ⟨hfirst, hp'⟩ := h.piece hchunked hp x.1
    rw [List.cons_append, List.flatMap_cons, hopen x List.mem_cons_self]
    refine (ends_append_iff _ _).mpr ⟨hfirst, ?_⟩
    exact ih (fun y hy => hopen y (List.mem_cons_of_mem _ hy)) _ hp'

/-! ### Messages -/

/-- Behind the header, the body of the message is complete exactly if its pieces fit the framing. -/
theorem Receiver.Follows.ends_iff {framing : Option Framing} (h : R.Follows b p framing)
    (hlength : ∀ n, framing = some (.length n) → b.chunked head.fields = false)
    (hchunked : framing = some .chunked → b.chunked head.fields = true)
    (hlast : b.lastChunk ≠ []) (hended : Writer.Ended pieces) :
    R.Ends p (pieces.flatMap fun x => b.body head x.1 x.2) ↔ b.Fits head framing pieces := by
  cases framing with
  | none =>
    refine iff_of_false (fun hends => ?_) id
    exact absurd (hends.1.symm.trans (h _)) (by decide)
  | some framing =>
    cases framing with
    | bodiless => exact (ends_of_done _ _ h).trans (bodies_eq_nil_iff hlast hended)
    | length n =>
      have hends : R.Ends p (pieces.flatMap fun x => b.body head x.1 x.2) ↔
          (pieces.flatMap fun x => b.body head x.1 x.2).length = n := ends_of_length _ _ h
      rwa [bodies_of_not_chunked (hlength n rfl)] at hends
    | chunked =>
      obtain ⟨between, hun, hp⟩ := h
      rcases hended with rfl | ⟨before, data, rfl, hopen⟩
      · refine iff_of_false (fun hends => ?_) fun hne => hne rfl
        -- the parser waits for a chunk
        have hwaits : R.done p = false := (hun.last p hp).2 0 (List.length_pos_iff.mpr hlast)
        exact absurd (hends.1.symm.trans hwaits) (by decide)
      · exact iff_of_true (hun.ends (hchunked rfl) data before hopen p hp) (by simp [Beast.Fits])
    | untilEof =>
      refine iff_of_false (fun hends => ?_) id
      exact absurd (hends.1.symm.trans (h _)) (by decide)

/-- **The receiver finds the end of a message where the sender has stopped** exactly if what has
been written fits. -/
theorem Receiver.Reads.ends_iff {noBody : Bool} {unframed : Framing}
    (h : R.Reads b head (b.framing head.fields noBody unframed))
    (hunframed : unframed = .bodiless ∨ unframed = .untilEof) (hlast : b.lastChunk ≠ [])
    (hended : Writer.Ended pieces) :
    R.Ends R.init (b.head head ++ pieces.flatMap fun x => b.body head x.1 x.2) ↔
      b.Fits head (b.framing head.fields noBody unframed) pieces := by
  refine (ends_append_iff _ _).trans ((and_iff_right h.header).trans ?_)
  apply h.behind.ends_iff _ _ hlast hended
  · intro n hn
    exact Beast.framing_length hn
  · intro hn
    exact Beast.framing_chunked hn (by rcases hunframed with rfl | rfl <;> simp)

/-- The same of a writer that has come to the end of its message. -/
theorem Receiver.ends_emitted_iff (noBody : Head → Bool) {w : Writer} {unframed : Framing}
    (hcomplete : w.Complete b) (hunframed : unframed = .bodiless ∨ unframed = .untilEof)
    (hlast : b.lastChunk ≠ [])
    (hreads : ∀ head ∈ w.begun, R.Reads b head (b.framing head.fields (noBody head) unframed)) :
    R.Ends R.init w.emitted ↔
      w.Fits b fun head => b.framing head.fields (noBody head) unframed := by
  obtain ⟨_, head, hbegun, hemitted, hended⟩ := hcomplete
  rw [hemitted, (hreads head hbegun).ends_iff hunframed hlast hended]
  constructor
  · intro hfits h hh
    obtain rfl : head = h := Option.some.inj (hbegun.symm.trans hh)
    exact hfits
  · intro hfits
    exact hfits head hbegun

/-! ### The sessions -/

namespace Server

variable {Γ : Context P} {t : Server P} {as : List Action}

/-- In any run, whatever the order of the responses. -/
theorem inv_of_run (hrun : run (step Γ) (init Γ) as = some t) :
    ∀ w ∈ t.writers, Writer.Inv Γ.beast w := by
  refine run_inv (P := fun s : Server P => ∀ w ∈ s.writers, Writer.Inv Γ.beast w) ?_ ?_ hrun
  · intro s a u hs h
    have hany : true = false → Orderly s a := fun hfree => by cases hfree
    obtain ⟨bytes, hchange, _⟩ := step_change hany h
    exact hchange.inv hs
  · rw [init, loop_writers]
    intro w hw
    cases hw

/-- **The client finds the end of a response where the server has stopped** exactly if what has been
written fits, in every run of the server. -/
theorem response_ends_iff {Q : Type*} {Γ' : Client.Context Q} {w : Writer} {m : Method}
    {start : Nat} (hrun : run (step Γ) (init Γ) as = some t) (hw : w ∈ t.writers)
    (hended : w.eofSubmitted = true) (hlast : Γ.beast.lastChunk ≠ [])
    (hreads : ∀ head ∈ w.begun,
      (Γ'.receiver m).Reads Γ.beast head (Γ.beast.responseFraming m head))
    (hcarries : ∀ j c, w.emitted[j]? = some c → Γ'.stream (start + j) = some c) :
    Γ'.automaton.IsMessage (Γ'.init m) start w.emitted.length ↔
      w.Fits Γ.beast (Γ.beast.responseFraming m) := by
  have hcomplete := ((inv_of_run hrun w hw).done hended).2.1
  rw [Automaton.isMessage_iff_ends some hcarries]
  exact Receiver.ends_emitted_iff (R := Γ'.receiver m) (fun head => hasNoBody m head.start)
    hcomplete (.inr rfl) hlast hreads

end Server

namespace Client

variable {Γ : Context P} {t : Client P} {as : List Action}

/-- **The server finds the end of a request where the client has stopped** exactly if what has been
written fits, in every run of the client. -/
theorem request_ends_iff {Q : Type*} {Γ' : H1.Context Q} {r : Request} {start : Nat}
    (hrun : run (step Γ) {} as = some t) (hr : r ∈ t.requests)
    (hended : r.writer.eofSubmitted = true) (hlast : Γ.beast.lastChunk ≠ [])
    (hreads : ∀ head ∈ r.writer.begun,
      Γ'.receiver.Reads Γ.beast head (Γ.beast.requestFraming head))
    (hcarries : ∀ j c, r.writer.emitted[j]? = some c → Γ'.stream (start + j) = c) :
    Γ'.IsRequest start r.writer.emitted.length ↔
      r.writer.Fits Γ.beast Γ.beast.requestFraming := by
  have hsend : Sending Γ t :=
    run_inv (P := Sending Γ) (fun s a u hs h => hs.step h) sending_init hrun
  have hinv := hsend.sequence.inv r.writer (List.mem_map_of_mem hr)
  rw [H1.Context.IsRequest, Automaton.isMessage_iff_ends id hcarries]
  exact Receiver.ends_emitted_iff (R := Γ'.receiver) (fun _ => false)
    (hinv.done hended).2.1 (.inl rfl) hlast hreads

/-- A request that has no body, as `has_body()` has it, is over with its header for the
server, too. -/
theorem bodiless_fits (h : b.hasBody head = false) :
    b.Fits head (b.requestFraming head) [] := by
  simp only [Beast.hasBody, Bool.or_eq_false_iff, decide_eq_false_iff_not, not_not] at h
  obtain ⟨hchunked, hlength⟩ := h
  unfold Beast.requestFraming Beast.framing
  cases hfind : head.fields.find .contentLength with
  | none =>
    rw [hfind, Option.getD_none] at hlength
    exact absurd hlength (by decide)
  | some value =>
    rw [hfind, Option.getD_some] at hlength
    simp [hchunked, hlength, Beast.Fits]

/-- A response begins in one place. -/
theorem At.unique {ms : List Method} {k pos pos' : Nat} (h : At Γ ms k pos)
    (h' : At Γ ms k pos') : pos = pos' := by
  induction h generalizing pos' with
  | first =>
    cases h' with
    | first => rfl
  | next hpos hm hn ih =>
    cases h' with
    | next hpos' hm' hn' =>
      obtain rfl := ih hpos'
      rw [Option.some.inj (hm.symm.trans hm')] at hn
      rw [hn.unique hn']

end Client

/-! ### Serving files -/

section Fields

variable {fields : Fields} {name name' : Field} {value : List Char}

theorem find_erase_self : (fields.erase name).find name = none := by
  simp [Fields.erase, Fields.find, List.find?_eq_none]

theorem find_erase_of_ne (h : name ≠ name') :
    (fields.erase name).find name' = fields.find name' := by
  unfold Fields.erase Fields.find
  rw [List.find?_filter]
  congr 2
  funext f
  by_cases hf : f.1 = name' <;> simp [hf, h.symm]

theorem find_insert_of_ne (h : name ≠ name') :
    (fields.insert name value).find name' = fields.find name' := by
  simp [Fields.insert, Fields.find, List.find?_append, h]

theorem find_insert_self (h : fields.find name = none) :
    (fields.insert name value).find name = some value := by
  simp only [Fields.find, Option.map_eq_none_iff] at h
  simp [Fields.insert, Fields.find, List.find?_append, h]

theorem find_setDefault_of_ne (h : name ≠ name') :
    (fields.setDefault name value).find name' = fields.find name' := by
  unfold Fields.setDefault Fields.set
  split_ifs
  · rw [find_insert_of_ne h, find_erase_of_ne h]
  · rfl

end Fields

theorem fromChars_toDigits {n : Nat} (h : n < 2 ^ 64) : fromChars (Nat.toDigits 10 n) = some n := by
  have hdigits : ∀ c ∈ Nat.toDigits 10 n, charDigit c = some (c.toNat - '0'.toNat) := fun c hc =>
    if_pos (Nat.isDigit_of_mem_toDigits (by decide) (by decide) hc)
  have hvalue : ofDigits ((Nat.toDigits 10 n).filterMap charDigit) = n := by
    have hchars := Nat.ofDigitChars_ten_toDigits (n := n)
    rw [Nat.ofDigitChars_eq_foldl] at hchars
    rw [List.filterMap_congr hdigits, List.filterMap_eq_map', ofDigits, List.foldl_map]
    exact hchars
  refine fromCharsAll_eq_some_iff.mpr ⟨Nat.toDigits_ne_nil, fun c hc => ?_, hvalue, h⟩
  rw [hdigits c hc]
  rfl

/-- The header of a file, submitted as a response that does not say how it is delimited yet. -/
theorem find_fileFields (message : Fields) (size : Nat) (contentType lastModified : List Char) :
    (addFields message (fileFields size contentType lastModified)).find .contentLength =
        some (Nat.toDigits 10 size) ∧
      (addFields message (fileFields size contentType lastModified)).find .transferEncoding =
        message.find .transferEncoding := by
  simp only [addFields, fileFields, List.foldl_cons, List.foldl_nil]
  constructor
  · rw [find_insert_of_ne (by simp), find_insert_of_ne (by simp), find_insert_self]
    rw [find_erase_of_ne (by simp), find_erase_of_ne (by simp), find_erase_self]
  · rw [find_insert_of_ne (by simp), find_insert_of_ne (by simp), find_insert_of_ne (by simp),
      find_erase_of_ne (by simp), find_erase_of_ne (by simp), find_erase_of_ne (by simp)]

/-- **What `serve_file()` writes fits** unless it is the answer to a `HEAD`, with something to
write. -/
theorem fits_file {Γ : Context P} {m : Method} {message : Head} {bytes : List UInt8}
    {contentType lastModified date : List Char} (hsize : bytes.length < 2 ^ 64)
    (hmessage : message.fields.find .transferEncoding = none)
    (hchunked : ∀ fields : Fields, fields.find .transferEncoding = none →
      Γ.beast.chunked fields = false) :
    let head :=
      Server.submitted Γ message 200 (fileFields bytes.length contentType lastModified) date
    Γ.beast.Fits head (Γ.beast.responseFraming m head) [(bytes, true)] ↔
      (m = .head → bytes = []) := by
  intro head
  obtain ⟨hlength, htransfer⟩ :=
    find_fileFields (message.fields.setDefault .date date) bytes.length contentType lastModified
  have hfields : head.fields =
      (addFields (message.fields.setDefault .date date)
        (fileFields bytes.length contentType lastModified)).setDefault .server
          "anyhttp".toList := by
    simp only [head, Server.submitted, Beast.submitHeaders, Fields.hasContentLength, hlength,
      Option.isSome_some, if_true]
  have hnot : Γ.beast.chunked head.fields = false := by
    apply hchunked
    rw [hfields, find_setDefault_of_ne (by simp), htransfer, find_setDefault_of_ne (by simp)]
    exact hmessage
  have hframing : Γ.beast.responseFraming m head =
      some (if m = .head then .bodiless else .length bytes.length) := by
    have hfind : head.fields.find .contentLength = some (Nat.toDigits 10 bytes.length) := by
      rw [hfields, find_setDefault_of_ne (by simp), hlength]
    unfold Beast.responseFraming Beast.framing
    rw [hfind]
    simp only [hnot, Bool.false_eq_true, if_false, fromChars_toDigits hsize, Option.map_some]
    by_cases hm : m = .head <;> simp [hasNoBody, head, Server.submitted, hm]
  rw [hframing]
  split_ifs with hm
  · simp [Beast.Fits, hnot, hm]
  · simp [Beast.Fits, hm]

/-! ### The responses on a connection -/

namespace Server

variable {Γ : Context P} {t : Server P} {as : List Action}

/-- Where response `i` begins on the connection, if all before it have been written. -/
def offset (t : Server P) (i : Nat) : Nat := ((t.writers.take i).map Writer.emitted).flatten.length

theorem offset_succ {i : Nat} {w : Writer} (hw : t.writers[i]? = some w) :
    t.offset (i + 1) = t.offset i + w.emitted.length := by
  rw [offset, List.take_add_one, hw]
  simp [offset]

theorem wire_of_sequenced (hseq : Sequenced Γ t) {i : Nat} {w : Writer}
    (hw : t.writers[i]? = some w) {j : Nat} {c : UInt8} (hc : w.emitted[j]? = some c) :
    t.wire[t.offset i + j]? = some c := by
  obtain ⟨hi, hwi⟩ := List.getElem?_eq_some_iff.mp hw
  have hsplit : t.writers = t.writers.take i ++ w :: t.writers.drop (i + 1) := by
    rw [← hwi, List.getElem_cons_drop, List.take_append_drop]
  have hj := (List.getElem?_eq_some_iff.mp hc).1
  rw [hseq.wire_eq, hsplit, List.map_append, List.flatten_append, List.map_cons,
    List.flatten_cons, offset, List.getElem?_append_right (by omega), Nat.add_sub_cancel_left,
    List.getElem?_append_left hj]
  exact hc

/-- **The client finds every response at its first byte** exactly if what has been written of those
before it fits, in every run in which the session goes on only after a response has been ended. -/
theorem responses_found_iff {Q : Type*} {Γ' : Client.Context Q} {ms : List Method} {k : Nat}
    (hrun : run (step Γ) (init Γ) as = some t) (hq : Meets (step Γ) Orderly (init Γ) as)
    (hended : ∀ i < k, ∃ w, t.writers[i]? = some w ∧ w.eofSubmitted = true) (hms : k ≤ ms.length)
    (hlast : Γ.beast.lastChunk ≠ [])
    (hreads : ∀ w ∈ t.writers, ∀ m ∈ ms, ∀ head ∈ w.begun,
      (Γ'.receiver m).Reads Γ.beast head (Γ.beast.responseFraming m head))
    (hcarries : ∀ j c, t.wire[j]? = some c → Γ'.stream j = some c) :
    (∀ i ≤ k, Client.At Γ' ms i (t.offset i)) ↔
      ∀ i < k, ∀ w m, t.writers[i]? = some w → ms[i]? = some m →
        w.Fits Γ.beast (Γ.beast.responseFraming m) := by
  have hseq := responses_in_sequence hrun hq
  have hends : ∀ i < k, ∀ w m, t.writers[i]? = some w → ms[i]? = some m →
      (Γ'.automaton.IsMessage (Γ'.init m) (t.offset i) w.emitted.length ↔
        w.Fits Γ.beast (Γ.beast.responseFraming m)) := by
    intro i hi w m hw hm
    obtain ⟨w', hw', heof⟩ := hended i hi
    obtain rfl : w = w' := Option.some.inj (hw.symm.trans hw')
    exact response_ends_iff hrun (List.mem_of_getElem? hw) heof hlast
      (hreads w (List.mem_of_getElem? hw) m (List.mem_of_getElem? hm))
      fun j c hc => hcarries _ c (wire_of_sequenced hseq hw hc)
  constructor
  · intro hat i hi w m hw hm
    apply (hends i hi w m hw hm).mp
    have hnext := hat (i + 1) hi
    rw [offset_succ hw] at hnext
    generalize hpos : t.offset i + w.emitted.length = pos at hnext
    cases hnext with
    | @next _ before n _ hbefore hm' hn =>
      obtain rfl : before = t.offset i := hbefore.unique (hat i hi.le)
      obtain rfl : n = w.emitted.length := by omega
      rwa [Option.some.inj (hm'.symm.trans hm)] at hn
  · intro hfits i
    induction i with
    | zero => exact fun _ => .first
    | succ i ih =>
      intro hi
      obtain ⟨w, hw, _⟩ := hended i hi
      have hm := List.getElem?_eq_getElem (l := ms) (i := i) (by omega)
      rw [offset_succ hw]
      exact .next (ih (by omega)) hm ((hends i hi w _ hw hm).mpr (hfits i hi w _ hw hm))

end Server

/-! ### Both roles -/

/-- **The receiver of a message finds its end where the sender has stopped** exactly if what has
been written fits what the receiver goes by, between any server `Γ` and any client `Γ'`: of every
response and of every request the end of which has been reported as written, in every run of either
session. And the client finds every response at its first byte exactly if those before it fit, in
every run in which the server goes on only after a response has been ended. -/
theorem framing_agrees_iff {P Q : Type*} (Γ : Context P) (Γ' : Client.Context Q) :
    (∀ (as : List Action) (t : Server P),
      run (Server.step Γ) (Server.init Γ) as = some t → Γ.beast.lastChunk ≠ [] →
        ∀ w ∈ t.writers, w.eofSubmitted = true → ∀ (m : Method) (start : Nat),
          (∀ head ∈ w.begun,
            (Γ'.receiver m).Reads Γ.beast head (Γ.beast.responseFraming m head)) →
          (∀ (j : Nat) c, w.emitted[j]? = some c → Γ'.stream (start + j) = some c) →
          (Γ'.automaton.IsMessage (Γ'.init m) start w.emitted.length ↔
            w.Fits Γ.beast (Γ.beast.responseFraming m))) ∧
      (∀ (as : List Client.Action) (t : Client Q),
        run (Client.step Γ') {} as = some t → Γ'.beast.lastChunk ≠ [] →
          ∀ r ∈ t.requests, r.writer.eofSubmitted = true → ∀ start : Nat,
            (∀ head ∈ r.writer.begun,
              Γ.receiver.Reads Γ'.beast head (Γ'.beast.requestFraming head)) →
            (∀ (j : Nat) c, r.writer.emitted[j]? = some c → Γ.stream (start + j) = c) →
            (Γ.IsRequest start r.writer.emitted.length ↔
              r.writer.Fits Γ'.beast Γ'.beast.requestFraming)) ∧
      ∀ (as : List Action) (t : Server P) (ms : List Method) (k : Nat),
        run (Server.step Γ) (Server.init Γ) as = some t →
          Meets (Server.step Γ) Server.Orderly (Server.init Γ) as → Γ.beast.lastChunk ≠ [] →
          (∀ i < k, ∃ w, t.writers[i]? = some w ∧ w.eofSubmitted = true) → k ≤ ms.length →
          (∀ w ∈ t.writers, ∀ m ∈ ms, ∀ head ∈ w.begun,
            (Γ'.receiver m).Reads Γ.beast head (Γ.beast.responseFraming m head)) →
          (∀ (j : Nat) c, t.wire[j]? = some c → Γ'.stream j = some c) →
          ((∀ i ≤ k, Client.At Γ' ms i (t.offset i)) ↔
            ∀ i < k, ∀ w m, t.writers[i]? = some w → ms[i]? = some m →
              w.Fits Γ.beast (Γ.beast.responseFraming m)) := by
  refine ⟨?_, ?_, ?_⟩
  · intro as t hrun hlast w hw hended m start hreads hcarries
    exact Server.response_ends_iff hrun hw hended hlast hreads hcarries
  · intro as t hrun hlast r hr hended start hreads hcarries
    exact Client.request_ends_iff hrun hr hended hlast hreads hcarries
  · intro as t ms k hrun hq hlast hended hms hreads hcarries
    exact Server.responses_found_iff hrun hq hended hms hlast hreads hcarries

/-! ### With plain parsers -/

/-- The client's parser, whatever it reads. -/
def plainReceiver (m : Method) : Receiver (Bool × PlainParser) :=
  (Client.Context.plain []).receiver m

theorem feed_plain (m : Method) (skip : Bool) (n : Nat) (bytes : List UInt8) :
    (plainReceiver m).feed (skip, .body n) bytes = (skip, .body (n - bytes.length)) := by
  induction bytes generalizing n with
  | nil => rfl
  | cons c cs ih =>
    have hnext : (plainReceiver m).next (skip, .body n) c = (skip, .body (n - 1)) := rfl
    rw [Receiver.feed, List.foldl_cons, hnext]
    refine (ih (n - 1)).trans ?_
    rw [List.length_cons, Nat.sub_sub, Nat.add_comm]

/-- Behind the header, so many bytes are left to the parser. -/
theorem follows_plain (m : Method) (n : Nat) :
    (plainReceiver m).Follows .plain (false, .body n) (some (.length n)) := by
  intro bytes hle
  rw [feed_plain]
  show (true && (false || decide (PlainParser.body (n - bytes.length) = .body 0))) = true ↔ _
  simp only [Bool.true_and, Bool.false_or, decide_eq_true_eq, PlainParser.body.injEq]
  omega

/-- The head of the response "ok". -/
def okHead : Head :=
  Server.submitted Server.twoRequests (Server.freshResponse Server.twoRequests false) 200
    [(.contentLength, "2".toList)] "now".toList

theorem reads_okHead :
    (plainReceiver .get).Reads .plain okHead (Beast.plain.responseFraming .get okHead) := by
  have hframing : Beast.plain.responseFraming .get okHead = some (.length 2) := by decide +kernel
  have hbehind : (plainReceiver .get).feed (plainReceiver .get).init (Beast.plain.head okHead) =
      (false, .body 2) := by decide +kernel
  constructor
  · decide +kernel
  · rw [hframing, hbehind]
    exact follows_plain .get 2

/-- The head of a request without a body. -/
def bareHead : Head :=
  Client.requestHead Client.twoResponses .get "/".toList "a".toList [(.contentLength, "0".toList)]

theorem reads_bareHead :
    (Context.plain []).receiver.Reads .plain bareHead (Beast.plain.requestFraming bareHead) := by
  have hframing : Beast.plain.requestFraming bareHead = some (.length 0) := by decide +kernel
  have hbehind : (Context.plain []).receiver.done ((Context.plain []).receiver.feed
      (Context.plain []).receiver.init (Beast.plain.head bareHead)) = true := by decide +kernel
  constructor
  · decide +kernel
  · rw [hframing]
    intro bytes hle
    obtain rfl : bytes = [] := List.eq_nil_of_length_eq_zero (Nat.le_zero.mp hle)
    rw [Receiver.feed_nil]
    exact iff_of_true hbehind rfl

theorem framing_agrees_iff_plain :
    (∃ t, run (Server.step Server.twoRequests) (Server.init Server.twoRequests)
        Server.bothAnswered = some t ∧ t.writers.length = 2 ∧
      (∀ w ∈ t.writers, (Client.Context.plain w.emitted).automaton.IsMessage
        ((Client.Context.plain w.emitted).init .get) 0 w.emitted.length) ∧
      ∀ i ≤ 2, Client.At (Client.Context.plain t.wire) [.get, .get] i (t.offset i)) ∧
      ∃ t, run (Client.step Client.twoResponses) {} (Client.sent 0) = some t ∧
        t.requests.length = 1 ∧
        ∀ r ∈ t.requests,
          (Context.plain r.writer.emitted).IsRequest 0 r.writer.emitted.length := by
  have hlast : Beast.plain.lastChunk ≠ [] := by decide +kernel
  constructor
  · have hwriters : (run (Server.step Server.twoRequests) (Server.init Server.twoRequests)
        Server.bothAnswered).map (fun t => t.writers.map fun w =>
          decide (w.eofSubmitted = true ∧ w.begun = some okHead ∧
            w.accepted = [(ascii "ok".toList, true)])) = some [true, true] := by decide +kernel
    obtain ⟨t, hrun, hwriters⟩ := Option.map_eq_some_iff.mp hwriters
    have hlength : t.writers.length = 2 := by simpa using congrArg List.length hwriters
    have hall : ∀ w ∈ t.writers, w.eofSubmitted = true ∧ w.begun = some okHead ∧
        w.accepted = [(ascii "ok".toList, true)] := by
      intro w hw
      have hmem := List.mem_map_of_mem (f := fun w : Writer =>
        decide (w.eofSubmitted = true ∧ w.begun = some okHead ∧
          w.accepted = [(ascii "ok".toList, true)])) hw
      rw [hwriters] at hmem
      simpa using hmem
    have hreads : ∀ w ∈ t.writers, ∀ head ∈ w.begun,
        (plainReceiver .get).Reads .plain head (Beast.plain.responseFraming .get head) := by
      intro w hw head hhead
      obtain rfl : okHead = head := Option.some.inj ((hall w hw).2.1.symm.trans hhead)
      exact reads_okHead
    have hfits : ∀ w ∈ t.writers, w.Fits .plain (Beast.plain.responseFraming .get) := by
      intro w hw head hhead
      obtain rfl : okHead = head := Option.some.inj ((hall w hw).2.1.symm.trans hhead)
      rw [(hall w hw).2.2]
      decide +kernel
    refine ⟨t, hrun, hlength, ?_, ?_⟩
    · intro w hw
      obtain ⟨hresponse, _⟩ := framing_agrees_iff Server.twoRequests (.plain w.emitted)
      exact (hresponse _ t hrun hlast w hw (hall w hw).1 .get 0 (hreads w hw)
        fun j c hc => by rwa [Nat.zero_add]).mpr (hfits w hw)
    · have hget : ∀ m ∈ [Method.get, .get], m = .get := by simp
      obtain ⟨_, _, hfound⟩ := framing_agrees_iff Server.twoRequests (.plain t.wire)
      refine (hfound _ t [.get, .get] 2 hrun (by decide +kernel) hlast ?_ le_rfl ?_
        fun _ _ hc => hc).mpr ?_
      · intro i hi
        have hw := List.getElem?_eq_getElem (l := t.writers) (i := i) (by omega)
        exact ⟨_, hw, (hall _ (List.mem_of_getElem? hw)).1⟩
      · intro w hw m hm
        rw [hget m hm]
        exact hreads w hw
      · intro i _ w m hw hm
        rw [hget m (List.mem_of_getElem? hm)]
        exact hfits w (List.mem_of_getElem? hw)
  · have hrequests : (run (Client.step Client.twoResponses) {} (Client.sent 0)).map
        (fun t => t.requests.map fun r => decide (r.writer.eofSubmitted = true ∧
          r.writer.begun = some bareHead ∧ r.writer.accepted = [])) = some [true] := by
      decide +kernel
    obtain ⟨t, hrun, hrequests⟩ := Option.map_eq_some_iff.mp hrequests
    refine ⟨t, hrun, by simpa using congrArg List.length hrequests, ?_⟩
    intro r hr
    have hmem := List.mem_map_of_mem (f := fun r : Client.Request =>
      decide (r.writer.eofSubmitted = true ∧ r.writer.begun = some bareHead ∧
        r.writer.accepted = [])) hr
    rw [hrequests, List.mem_singleton, decide_eq_true_eq] at hmem
    obtain ⟨hended, hbegun, haccepted⟩ := hmem
    obtain ⟨_, hrequest, _⟩ := framing_agrees_iff (.plain r.writer.emitted) Client.twoResponses
    refine (hrequest _ t hrun hlast r hr hended 0 ?_ ?_).mpr ?_
    · intro head hhead
      obtain rfl : bareHead = head := Option.some.inj (hbegun.symm.trans hhead)
      exact reads_bareHead
    · intro j c hc
      show r.writer.emitted.getD (0 + j) 0 = c
      rw [Nat.zero_add, List.getD_eq_getElem?_getD, hc, Option.getD_some]
    · intro head hhead
      obtain rfl : bareHead = head := Option.some.inj (hbegun.symm.trans hhead)
      rw [haccepted]
      decide +kernel

/-- A `HEAD`, and another request behind it. -/
def headRequest : Context PlainParser :=
  .plain (ascii "HEAD / HTTP/1.1\r\n\r\nGET / HTTP/1.1\r\n\r\n".toList)

/-- The handler of the first request is `serve_file()`, with a file of two bytes. -/
def fileServed : List Action :=
  List.replicate 19 (.receive 0) ++ [.takeUp] ++
    (serveFile 0 (ascii "ok".toList) "text/plain".toList "then".toList "now".toList
      .success).flatMap fun a => [a, .emit 0 1000, .finish 0 .success]

/-- **The file follows its header also in the response to a `HEAD`**, which is over by then for the
client. -/
theorem file_sent_for_head :
    ¬ ∀ as t, run (Server.step headRequest) (Server.init headRequest) as = some t →
      ∀ w ∈ t.writers, w.eofSubmitted = true →
        (Client.Context.plain w.emitted).automaton.IsMessage
          ((Client.Context.plain w.emitted).init .head) 0 w.emitted.length := by
  intro h
  -- the client's parser is done before the two bytes
  have hwriters : (run (Server.step headRequest) (Server.init headRequest) fileServed).map
      (fun t => t.writers.map fun w => (w.eofSubmitted, decide (2 ≤ w.emitted.length),
        (Client.Context.plain w.emitted).done ((Client.Context.plain w.emitted).automaton.feed
          ((Client.Context.plain w.emitted).init .head) 0 (w.emitted.length - 2)))) =
        some [(true, true, true)] := by decide +kernel
  obtain ⟨t, hrun, hwriters⟩ := Option.map_eq_some_iff.mp hwriters
  obtain ⟨w, hw⟩ := List.length_eq_one_iff.mp (by simpa using congrArg List.length hwriters)
  rw [hw, List.map_singleton, List.singleton_inj] at hwriters
  obtain ⟨hended, hrest⟩ := Prod.mk.inj hwriters
  obtain ⟨hlength, hdone⟩ := Prod.mk.inj hrest
  have hmessage := h fileServed t hrun w (by rw [hw]; exact List.mem_singleton_self w) hended
  have hbefore := hmessage.2 (w.emitted.length - 2) (by have := of_decide_eq_true hlength; omega)
  exact absurd (hdone.symm.trans hbefore) (by decide)

end AnyHttp.H1
