import AnyHttp.Alternative
import AnyHttp.Equiv.AltSvc
import AnyHttp.Equiv.Authority

/-!
# What the server advertises is what a client reads

The field value that the server formats, parsed by `parse_alt_svc()`.  The parser goes over it from
left to right, and each of its functions has a lemma about what it makes of what it finds in there;
the numbers are those of `std::format()` and of `std::from_chars()`.

* `fromChars_decimal`: every number that fits is read as it has been written.
* `services_advertisement`: an advertisement by itself, with any port and any numeral.
* `findService_altSvc`: as one of the elements of a list.
-/

namespace AnyHttp.AltSvc

open Lib

/-! ### Numbers -/

theorem decimal_eq (n : Nat) : decimal n = (Nat.toDigits 10 n).map Char.toUInt8 := by
  rw [decimal, text, Nat.toString_eq_ofList_toDigits, String.toList_ofList]

/-- A digit is one byte, which has the value of the digit. -/
theorem isDigit_toUInt8 {c : Char} (h : c.isDigit = true) :
    isDigit c.toUInt8 = true ∧ (c.toUInt8 - '0'.toUInt8).toNat = c.toNat - '0'.toNat := by
  have hall : ∀ n < 58, 48 ≤ n → isDigit (UInt8.ofNat n) = true ∧
      (UInt8.ofNat n - '0'.toUInt8).toNat = n - 48 := by
    decide
  obtain ⟨hlow, hhigh⟩ : 48 ≤ c.toNat ∧ c.toNat ≤ 57 := by
    simpa [Char.isDigit, UInt32.le_iff_toNat_le] using h
  exact hall c.toNat (by omega) hlow

theorem isSome_digit_iff {c : UInt8} : (digit c).isSome = true ↔ isDigit c = true := by
  simp [digit]

theorem isDigit_decimal (n : Nat) : ∀ c ∈ decimal n, isDigit c = true := by
  intro c hc
  rw [decimal_eq] at hc
  obtain ⟨d, hd, rfl⟩ := List.mem_map.mp hc
  exact (isDigit_toUInt8 (Nat.isDigit_of_mem_toDigits (by decide) (by decide) hd)).1

theorem decimal_ne_nil (n : Nat) : decimal n ≠ [] := by
  rw [decimal_eq]
  exact fun h => Nat.toDigits_ne_nil (List.map_eq_nil_iff.mp h)

theorem foldl_digits (digits : List Char) (h : ∀ c ∈ digits, c.isDigit = true) (init : Nat) :
    ((digits.map Char.toUInt8).filterMap digit).foldl (fun n d => 10 * n + d) init =
      Nat.ofDigitChars 10 digits init := by
  induction digits generalizing init with
  | nil => rw [List.map_nil, List.filterMap_nil, List.foldl_nil, Nat.ofDigitChars_nil]
  | cons c digits ih =>
    have hc : digit c.toUInt8 = some (c.toNat - '0'.toNat) := by
      obtain ⟨hdigit, hvalue⟩ := isDigit_toUInt8 (h c List.mem_cons_self)
      rw [digit, if_pos hdigit, hvalue]
    rw [List.map_cons, List.filterMap_cons_some hc, List.foldl_cons, Nat.ofDigitChars_cons]
    exact ih (fun d hd => h d (List.mem_cons_of_mem c hd)) _

/-- A number that fits is read as it has been written. -/
theorem fromChars_decimal {n : Nat} (h : n < 2 ^ 64) :
    fromChars (decimal n) = some (UInt64.ofNat n) := by
  have hvalue : ofDigits ((decimal n).filterMap digit) = n := by
    rw [decimal_eq, ofDigits, foldl_digits _ fun c hc =>
      Nat.isDigit_of_mem_toDigits (by decide) (by decide) hc, Nat.ofDigitChars_ten_toDigits]
  have hall : ∀ c ∈ decimal n, (digit c).isSome = true := fun c hc =>
    isSome_digit_iff.mpr (isDigit_decimal n c hc)
  rw [fromChars, fromCharsAll_eq_some_iff.mpr ⟨decimal_ne_nil n, hall, hvalue, h⟩]
  rfl

/-! ### From left to right -/

/-- A token is taken as a whole, if what follows it begins with no character of a token. -/
theorem someToken_run {name rest : List UInt8} (hne : name ≠ [])
    (hname : ∀ c ∈ name, isTchar c = true) (hrest : rest.takeWhile isTchar = []) :
    someToken.run (name ++ rest) = (some name, rest) := by
  have hdrop : rest.dropWhile isTchar = rest := by
    have hsplit := List.takeWhile_append_dropWhile (p := isTchar) (l := rest)
    rwa [hrest, List.nil_append] at hsplit
  have htoken : token.run (name ++ rest) = (some name, rest) := by
    show (some _, _) = _
    rw [List.takeWhile_append_of_pos hname, List.dropWhile_append_of_pos hname, hrest, hdrop,
      List.append_nil]
  refine (Scanner.bind_of_some htoken).trans ?_
  rw [if_neg hne]
  rfl

theorem consume_run (c : UInt8) (rest : List UInt8) :
    (consume c).run (c :: rest) = (some (), rest) :=
  if_pos rfl

/-- A quoted string that nothing has to be escaped in. -/
theorem quotedRest_plain {w : List UInt8} (h : ∀ c ∈ w, c ≠ '"'.toUInt8 ∧ c ≠ '\\'.toUInt8)
    (result rest : List UInt8) :
    quotedRest result (w ++ '"'.toUInt8 :: rest) = (some (result ++ w), rest) := by
  -- on the text between the quotes
  induction w generalizing result with
  | nil =>
    rw [List.nil_append, List.append_nil, quotedRest.eq_def]
    exact if_pos rfl
  | cons c w ih =>
    obtain ⟨hquote, hescape⟩ := h c List.mem_cons_self
    have hrest := ih (fun d hd => h d (List.mem_cons_of_mem c hd)) (result ++ [c])
    rw [List.append_assoc, List.singleton_append] at hrest
    rw [List.cons_append, quotedRest.eq_def]
    dsimp only
    rw [if_neg hquote, if_neg hescape]
    exact hrest

theorem skipOws_run {front rest : List UInt8} (hfront : ∀ c ∈ front, isOws c = true)
    (hrest : dropOws rest = rest) : skipOws.run (front ++ rest) = (some (), rest) := by
  show (some (), (front ++ rest).dropWhile isOws) = _
  rw [List.dropWhile_append_of_pos hfront]
  exact congrArg (Prod.mk (some ())) hrest

/-- A digit is an ordinary character everywhere. -/
theorem isDigit_plain {c : UInt8} (h : isDigit c = true) :
    isTchar c = true ∧ c ≠ '"'.toUInt8 ∧ c ≠ '\\'.toUInt8 ∧ isOws c = false := by
  have hall : ∀ n < 256, isDigit (UInt8.ofNat n) = true → isTchar (UInt8.ofNat n) = true ∧
      UInt8.ofNat n ≠ '"'.toUInt8 ∧ UInt8.ofNat n ≠ '\\'.toUInt8 ∧
        isOws (UInt8.ofNat n) = false := by
    decide +kernel
  have hc := hall c.toNat c.toNat_lt
  rw [UInt8.ofNat_toNat] at hc
  exact hc h

/-- Optional whitespace is not part of a token, nor does it quote. -/
theorem isOws_plain {c : UInt8} (h : isOws c = true) : isTchar c = false ∧ c ≠ '"'.toUInt8 := by
  have : c = ' '.toUInt8 ∨ c = '\t'.toUInt8 := by simpa [isOws] using h
  rcases this with rfl | rfl <;> decide

/-! ### An advertisement -/

/-- What is advertised, with a port and a numeral for the time. -/
def advertisement (port numeral : List UInt8) : List UInt8 :=
  [0x68, 0x33, 0x3d, 0x22, 0x3a] ++ port ++ [0x22, 0x3b, 0x20, 0x6d, 0x61, 0x3d] ++ numeral

theorem altSvc_eq {port : UInt16} {maxAge : Int64} (h : 0 < maxAge) :
    Server.altSvc port maxAge = advertisement (decimal port.toNat) (decimal maxAge.toInt.toNat) := by
  have hfirst : text "h3=\":" = [0x68, 0x33, 0x3d, 0x22, 0x3a] := by decide
  have hsecond : text "\"; ma=" = [0x22, 0x3b, 0x20, 0x6d, 0x61, 0x3d] := by decide
  rw [Server.altSvc, if_pos h, hfirst, hsecond, advertisement]

section

variable {port numeral back : List UInt8} {ma : UInt64}

/-- A numeral is a number's. -/
theorem isDigit_of_fromChars (h : fromChars numeral = some ma) :
    numeral ≠ [] ∧ ∀ c ∈ numeral, isDigit c = true := by
  obtain ⟨n, hn, _⟩ := Option.map_eq_some_iff.mp h
  obtain ⟨hne, hdigits, _⟩ := fromCharsAll_eq_some_iff.mp hn
  exact ⟨hne, fun c hc => isSome_digit_iff.mp (hdigits c hc)⟩

/-- The parameter `ma=` with a numeral is set, and the whitespace behind it is taken. -/
theorem parameter_run (p : Params) (hma : fromChars numeral = some ma)
    (hback : ∀ c ∈ back, isOws c = true) :
    (parameter p).run (0x20 :: 0x6d :: 0x61 :: 0x3d :: (numeral ++ back)) =
      (some (p.set [0x6d, 0x61] numeral), []) := by
  obtain ⟨hne, hdigits⟩ := isDigit_of_fromChars hma
  have hows : skipOws.run (0x20 :: 0x6d :: 0x61 :: 0x3d :: (numeral ++ back)) =
      (some (), 0x6d :: 0x61 :: 0x3d :: (numeral ++ back)) := rfl
  have hname : someToken.run (0x6d :: 0x61 :: 0x3d :: (numeral ++ back)) =
      (some [0x6d, 0x61], 0x3d :: (numeral ++ back)) :=
    @someToken_run [0x6d, 0x61] _ (by decide) (List.all_eq_true.mp (by decide))
      (List.takeWhile_cons_of_neg (by decide))
  have hvalue : tokenOrQuotedString.run (numeral ++ back) = (some numeral, back) := by
    have hnext : nextIs '"'.toUInt8 (numeral ++ back) = false := by
      cases numeral with
      | nil => exact absurd rfl hne
      | cons c numeral =>
        have hc := (isDigit_plain (hdigits c List.mem_cons_self)).2.1
        exact beq_false_of_ne fun h => hc (Option.some.inj h)
    have hrest : back.takeWhile isTchar = [] := by
      cases back with
      | nil => rfl
      | cons c back =>
        have hc := (isOws_plain (hback c List.mem_cons_self)).1
        exact List.takeWhile_cons_of_neg (by rw [hc]; decide)
    unfold tokenOrQuotedString
    dsimp only
    rw [hnext]
    exact someToken_run hne (fun c hc => (isDigit_plain (hdigits c hc)).1) hrest
  have hend : skipOws.run back = (some (), []) := by
    have h : skipOws.run (back ++ []) = (some (), []) := skipOws_run hback rfl
    rwa [List.append_nil] at h
  refine (Scanner.bind_of_some hows).trans ?_
  refine (Scanner.bind_of_some hname).trans ?_
  refine (Scanner.bind_of_some (consume_run _ _)).trans ?_
  refine (Scanner.bind_of_some hvalue).trans ?_
  exact Scanner.bind_of_some hend

/-- The parameters are the one that there is. -/
theorem parameters_run (p : Params) (hma : fromChars numeral = some ma)
    (hback : ∀ c ∈ back, isOws c = true) :
    (parameters p).run (0x3b :: 0x20 :: 0x6d :: 0x61 :: 0x3d :: (numeral ++ back)) =
      (some (p.set [0x6d, 0x61] numeral), []) := by
  have hpass : parametersPass (p, 0x3b :: 0x20 :: 0x6d :: 0x61 :: 0x3d :: (numeral ++ back)) =
      .inl (p.set [0x6d, 0x61] numeral, []) := by
    have hconsume := consume_run ';'.toUInt8 (0x20 :: 0x6d :: 0x61 :: 0x3d :: (numeral ++ back))
    unfold parametersPass
    dsimp only
    rw [show (0x3b : UInt8) = ';'.toUInt8 by decide, hconsume]
    dsimp only
    rw [parameter_run p hma hback]
  have hows : skipOws.run (0x3b :: 0x20 :: 0x6d :: 0x61 :: 0x3d :: (numeral ++ back)) =
      (some (), 0x3b :: 0x20 :: 0x6d :: 0x61 :: 0x3d :: (numeral ++ back)) := rfl
  refine (Scanner.bind_of_some hows).trans ?_
  show loop parametersPass_variant _ = _
  rw [loop_of_inl _ hpass]
  exact loop_of_inr _ rfl

/-- The alternative is read with its port and its age, and nothing of it is left. -/
theorem parseAltValue_run (hport : IsPort port) (hma : fromChars numeral = some ma)
    (hback : ∀ c ∈ back, isOws c = true) :
    parseAltValue.run (advertisement port numeral ++ back) =
      (some ⟨[0x68, 0x33], [], port, ma.toInt64, false⟩, []) := by
  obtain ⟨parameter, hparameter⟩ : ∃ s, s = (0x3b : UInt8) :: 0x20 :: 0x6d :: 0x61 :: 0x3d ::
      (numeral ++ back) := ⟨_, rfl⟩
  have hvalue : advertisement port numeral ++ back =
      [0x68, 0x33] ++ 0x3d :: 0x22 :: (0x3a :: port ++ '"'.toUInt8 :: parameter) := by
    have hquote : '"'.toUInt8 = 0x22 := by decide
    rw [hparameter, hquote]
    simp [advertisement]
  have hname : someToken.run ([0x68, 0x33] ++ 0x3d :: 0x22 ::
      (0x3a :: port ++ '"'.toUInt8 :: parameter)) =
        (some [0x68, 0x33], 0x3d :: 0x22 :: (0x3a :: port ++ '"'.toUInt8 :: parameter)) :=
    someToken_run (by decide) (List.all_eq_true.mp (by decide))
      (List.takeWhile_cons_of_neg (by decide))
  have hauthority : quotedString.run (0x22 :: (0x3a :: port ++ '"'.toUInt8 :: parameter)) =
      (some (0x3a :: port), parameter) := by
    have hplain : ∀ c ∈ (0x3a : UInt8) :: port, c ≠ '"'.toUInt8 ∧ c ≠ '\\'.toUInt8 := by
      intro c hc
      rcases List.mem_cons.mp hc with rfl | hc
      · decide
      · have hdigit := isDigit_plain (hport.2 c hc)
        exact ⟨hdigit.2.1, hdigit.2.2.1⟩
    refine (Scanner.bind_of_some (consume_run _ _)).trans ?_
    exact quotedRest_plain hplain [] parameter
  have hsplit : splitAuthority (0x3a :: port) = some ([], port) := by
    have hname : splitAuthority ([] ++ 0x3a :: port) =
        if IsPort port then some ([], port) else none :=
      splitAuthority_name (by simp) hport.not_mem
    rw [if_pos hport] at hname
    exact hname
  have hset : ∀ service : AltService, Params.set ⟨service, false, false⟩ [0x6d, 0x61] numeral =
      ⟨{ service with maxAge := ma.toInt64 }, true, false⟩ := by
    intro service
    unfold Params.set
    rw [if_pos ⟨by decide, rfl⟩, hma]
  rw [hvalue]
  refine (Scanner.bind_of_some hname).trans ?_
  refine (Scanner.bind_of_some (consume_run _ _)).trans ?_
  refine (Scanner.bind_of_some hauthority).trans ?_
  rw [hsplit, hparameter]
  refine (Scanner.bind_of_some rfl).trans ?_
  refine (Scanner.bind_of_some (parameters_run _ hma hback)).trans ?_
  rw [hset]
  rfl

/-- An advertisement by itself, with whitespace around it, is one alternative. -/
theorem services_advertisement {front : List UInt8} (hport : IsPort port)
    (hma : fromChars numeral = some ma) (hfront : ∀ c ∈ front, isOws c = true)
    (hback : ∀ c ∈ back, isOws c = true) :
    (parseAltSvc (front ++ (advertisement port numeral ++ back))).services =
      [⟨[0x68, 0x33], [], port, ma.toInt64, false⟩] := by
  have hows : dropOws (front ++ (advertisement port numeral ++ back)) =
      advertisement port numeral ++ back := by
    rw [dropOws, List.dropWhile_append_of_pos hfront]
    rfl
  have hpass : listPass ([], front ++ (advertisement port numeral ++ back)) =
      .inl ([⟨[0x68, 0x33], [], port, ma.toInt64, false⟩], []) := by
    have hparse := parseAltValue_run hport hma hback
    obtain ⟨rest, hrest⟩ : ∃ rest, advertisement port numeral ++ back = 0x68 :: rest := ⟨_, rfl⟩
    unfold listPass
    dsimp only
    rw [hows]
    rw [hrest] at hparse ⊢
    dsimp only
    rw [if_neg (by decide), hparse]
    rfl
  rw [services_parseAltSvc, loop_of_inl _ hpass, loop_nil]

/-- All of its quotes are closed. -/
theorem closed_advertisement {front : List UInt8} (hport : IsPort port)
    (hma : fromChars numeral = some ma) (hfront : ∀ c ∈ front, isOws c = true)
    (hback : ∀ c ∈ back, isOws c = true) :
    quoting.Closed (front ++ (advertisement port numeral ++ back)) := by
  have hows : ∀ s : List UInt8, (∀ c ∈ s, isOws c = true) → quoting.Closed s :=
    fun s hs => Quoting.closed_of_forall fun c hc => (isOws_plain (hs c hc)).2
  have hinside : ∀ s : List UInt8, (∀ c ∈ s, isDigit c = true) →
      quoting.scan .inside s = .inside := by
    intro s hs
    induction s with
    | nil => rfl
    | cons c s ih =>
      have hc := isDigit_plain (hs c List.mem_cons_self)
      rw [Quoting.scan_cons, next_inside hc.2.1 hc.2.2.1]
      exact ih fun d hd => hs d (List.mem_cons_of_mem c hd)
  have hfirst : quoting.scan .outside [0x68, 0x33, 0x3d, 0x22, 0x3a] = .inside := by decide
  have hsecond : quoting.scan .inside [0x22, 0x3b, 0x20, 0x6d, 0x61, 0x3d] = .outside := by decide
  have hnumeral : quoting.Closed numeral :=
    Quoting.closed_of_forall fun c hc => (isDigit_plain ((isDigit_of_fromChars hma).2 c hc)).2.1
  rw [Quoting.closed_append (hows front hfront), Quoting.Closed, Quoting.scan_append, advertisement,
    Quoting.scan_append, Quoting.scan_append, Quoting.scan_append, hfirst, hinside port hport.2,
    hsecond, hnumeral]
  exact hows back hback

end

/-! ### As an element of a list -/

/-- What follows an element that is closed comes behind it. -/
theorem services_append_rest {s rest : List UInt8} (hclosed : quoting.Closed s)
    (hrest : rest = [] ∨ rest.head? = some ','.toUInt8) :
    ∃ behind, (parseAltSvc (s ++ rest)).services = (parseAltSvc s).services ++ behind := by
  cases rest with
  | nil => exact ⟨[], by rw [List.append_nil, List.append_nil]⟩
  | cons c rest =>
    obtain rfl : c = ','.toUInt8 := hrest.elim (fun h => nomatch h) Option.some.inj
    exact ⟨_, services_append s rest hclosed⟩

/-- Elements that do not have a service do not have it together. -/
theorem find?_elements {elements : List (List UInt8)} {protocol : List UInt8}
    (hother : ∀ e ∈ elements, (parseAltSvc e).findService protocol = none) :
    (elements.flatMap fun e => (parseAltSvc e).services).find? (·.protocol == protocol) = none := by
  rw [List.find?_eq_none]
  intro service hservice
  obtain ⟨e, he, hmem⟩ := List.mem_flatMap.mp hservice
  exact List.find?_eq_none.mp (hother e he) service hmem

/-- A duration that is not negative, by way of what it is read as. -/
theorem toInt64_ofNat_toNat {n : Int64} (h : 0 < n) :
    (UInt64.ofNat n.toInt.toNat).toInt64 = n := by
  have hpos : 0 < n.toInt := Int64.lt_iff_toInt_lt.mp h
  have hlt : n.toInt < 2 ^ 63 := n.toInt_lt
  apply Int64.toInt_inj.mp
  show (BitVec.ofNat 64 n.toInt.toNat).toInt = n.toInt
  rw [BitVec.toInt_ofNat', Int.bmod_eq_of_le (by omega) (by omega)]
  omega

/-- **Round trip**: wherever in a list the server's advertisement stands, if nothing before it is
an alternative for HTTP/3, a client finds the port and the time that the server has advertised. -/
theorem findService_altSvc (port : UInt16) (maxAge : Int64) (hage : 0 < maxAge)
    (elements : List (List UInt8)) (hclosed : ∀ e ∈ elements, quoting.Closed e)
    (hother : ∀ e ∈ elements, (parseAltSvc e).findService (text "h3") = none)
    (front back rest : List UInt8) (hfront : ∀ c ∈ front, isOws c = true)
    (hback : ∀ c ∈ back, isOws c = true) (hrest : rest = [] ∨ rest.head? = some ','.toUInt8) :
    ∃ digits, fromChars digits = some (UInt64.ofNat port.toNat) ∧
      (parseAltSvc (elements.foldr (fun e list => e ++ ','.toUInt8 :: list)
        (front ++ (Server.altSvc port maxAge ++ back) ++ rest))).findService (text "h3") =
          some ⟨text "h3", [], digits, maxAge, false⟩ := by
  have hh3 : text "h3" = [0x68, 0x33] := by decide
  have hport : IsPort (decimal port.toNat) := ⟨decimal_ne_nil _, isDigit_decimal _⟩
  have hage' : maxAge.toInt < 2 ^ 63 := maxAge.toInt_lt
  have hma : fromChars (decimal maxAge.toInt.toNat) = some (UInt64.ofNat maxAge.toInt.toNat) :=
    fromChars_decimal (by omega)
  refine ⟨decimal port.toNat, fromChars_decimal (by have := port.toNat_lt; omega), ?_⟩
  obtain ⟨behind, hbehind⟩ := services_append_rest
    (closed_advertisement hport hma hfront hback) hrest
  rw [services_advertisement hport hma hfront hback, toInt64_ofNat_toNat hage, ← hh3] at hbehind
  rw [findService, services_elements elements _ hclosed, altSvc_eq hage, hbehind, List.find?_append,
    find?_elements hother, Option.none_or]
  exact List.find?_cons_of_pos (beq_self_eq_true _)

/-- Behind an alternative of another kind, and an element that is none. -/
theorem findService_altSvc_last :
    ∃ digits, fromChars digits = some (UInt64.ofNat 443) ∧
      (parseAltSvc ([text "h2=\"a:1\"", text " %=,"].foldr (fun e list => e ++ ','.toUInt8 :: list)
        ([0x20] ++ (Server.altSvc 443 86400 ++ []) ++ []))).findService (text "h3") =
          some ⟨text "h3", [], digits, 86400, false⟩ := by
  have helements : [text "h2=\"a:1\"", text " %=,"] =
      [[104, 50, 61, 34, 97, 58, 49, 34], [32, 37, 61, 44]] := by decide
  have hh3 : text "h3" = [0x68, 0x33] := by decide
  rw [helements]
  refine findService_altSvc 443 86400 (by decide) _ ?_ ?_ [0x20] [] []
    (List.all_eq_true.mp (by decide)) (List.all_eq_true.mp (by decide))
    (.inl rfl)
  · decide
  · rw [hh3]
    decide

end AnyHttp.AltSvc
