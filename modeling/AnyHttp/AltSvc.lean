import AnyHttp.Common
import AnyHttp.Lib.Loop
import AnyHttp.Lib.Quoting

/-!
# Alternative services: the value of an `Alt-Svc` field

`parse_alt_svc()` (`alt_svc.cpp`) reads a list of alternatives, each a protocol, an authority in
quotes, and parameters.  Texts are lists of bytes.  A `Parser` is what it has not read yet of its
input: no function of it ever goes back.  The functions that may fail are scanners, which leave
the parser wherever they have got to; both loops of the source are loops with a variant, the number
of bytes that are left.
-/

namespace AnyHttp

open Lib

/-- One advertised alternative. -/
structure AltService where
  protocol : List UInt8
  host : List UInt8
  port : List UInt8
  /-- In seconds, 24 hours unless given. -/
  maxAge : Int64 := 86400
  persist : Bool := false
deriving DecidableEq, Repr

structure AltSvc where
  clear : Bool := false
  services : List AltService := []
deriving DecidableEq, Repr

namespace AltSvc

/-- A token character, as defined for HTTP field values. -/
def isTchar (c : UInt8) : Bool :=
  ('a'.toUInt8 ≤ c && c ≤ 'z'.toUInt8) || ('A'.toUInt8 ≤ c && c ≤ 'Z'.toUInt8) ||
    ('0'.toUInt8 ≤ c && c ≤ '9'.toUInt8) ||
    [0x21, 0x23, 0x24, 0x25, 0x26, 0x27, 0x2a, 0x2b, 0x2d, 0x2e, 0x5e, 0x5f, 0x60, 0x7c,
      0x7e].contains
      c  -- !#$%&'*+-.^_`|~

/-- Optional whitespace. -/
def isOws (c : UInt8) : Bool := c == ' '.toUInt8 || c == '\t'.toUInt8

def isDigit (c : UInt8) : Bool := '0'.toUInt8 ≤ c && c ≤ '9'.toUInt8

/-! ### Values -/

/-- The value of a hexadecimal digit. -/
def hexDigit (c : UInt8) : Option UInt8 :=
  if isDigit c then some (c - '0'.toUInt8)
  else if 'a'.toUInt8 ≤ c && c ≤ 'f'.toUInt8 then some (c - 'a'.toUInt8 + 10)
  else if 'A'.toUInt8 ≤ c && c ≤ 'F'.toUInt8 then some (c - 'A'.toUInt8 + 10)
  else none

/-- `pct_decode()`: a `%` that is not followed by two hex digits stays as it is. -/
def pctDecode : List UInt8 → List UInt8
  | c :: a :: b :: rest =>
    if c = '%'.toUInt8 then
      match hexDigit a, hexDigit b with
      | some x, some y => (16 * x + y) :: pctDecode rest
      | _, _ => c :: pctDecode (a :: b :: rest)
    else c :: pctDecode (a :: b :: rest)
  | c :: rest => c :: pctDecode rest
  | [] => []

/-- `std::from_chars()` with base 16, for an `unsigned`: the value of the digits from `first` on, of
which there may be `n`, and where the first character is that isn't one.  There is no sign and no
prefix, and the value of two digits fits.  It must not read beyond the end of the text. -/
def fromCharsHex (s : List UInt8) (value first : Nat) : Nat → Option (Nat × Nat)
  | 0 => some (value, first)
  | n + 1 => do
    let c ← s[first]?
    match hexDigit c with
    | some digit => fromCharsHex s (16 * value + digit.toNat) (first + 1) n
    | none => some (value, first)

/-- The loop of `pct_decode()` as it is, from position `i` on. -/
def pctDecodeLoop (s : List UInt8) (i : Nat) (out : List UInt8) : Option (List UInt8) :=
  if i < s.length then do
    let c ← s[i]?
    if c = '%'.toUInt8 ∧ i + 2 < s.length then
      let (value, ptr) ← fromCharsHex s 0 (i + 1) 2
      -- both characters have been digits
      if ptr = i + 1 + 2 then pctDecodeLoop s (i + 3) (out ++ [UInt8.ofNat value])
      else pctDecodeLoop s (i + 1) (out ++ [c])
    else pctDecodeLoop s (i + 1) (out ++ [c])
  else some out
termination_by s.length - i

/-- What a character stands for as a decimal digit. -/
def digit (c : UInt8) : Option Nat :=
  if isDigit c then some (c - '0'.toUInt8).toNat else none

/-- `std::from_chars()` for a `uint64_t`, if the number is all there is. -/
def fromChars (s : List UInt8) : Option UInt64 := (fromCharsAll digit 64 s).map UInt64.ofNat

/-- `split_authority()`: host and port, the port behind the bracket that closes an IPv6 literal. -/
def splitAuthority (authority : List UInt8) : Option (List UInt8 × List UInt8) :=
  let literal := authority.head? = some '['.toUInt8 ∧ (find ']'.toUInt8 authority 0).isSome
  -- an IPv6 literal has colons of its own
  let colon :=
    if authority.head? = some '['.toUInt8 then
      (find ']'.toUInt8 authority 0).bind fun bracket => find ':'.toUInt8 authority bracket
    else rfind ':'.toUInt8 authority
  colon.bind fun colon =>
    let digits := authority.drop (colon + 1)
    -- an empty port, or one that is not a number
    if digits = [] ∨ digits.all isDigit = false then none
    else
      let uriHost := authority.take colon
      some (if literal then (uriHost.drop 1).take (uriHost.length - 2) else uriHost, digits)

/-! ### `Parser` -/

abbrev Parser := Scanner UInt8

/-- `skip_ows()`, by itself. -/
def dropOws (s : List UInt8) : List UInt8 := s.dropWhile isOws

def skipOws : Parser Unit := ⟨fun s => (some (), dropOws s)⟩

def consume (c : UInt8) : Parser Unit where
  run
    | [] => (none, [])
    | d :: rest => if d = c then (some (), rest) else (none, d :: rest)

def token : Parser (List UInt8) := ⟨fun s => (some (s.takeWhile isTchar), s.dropWhile isTchar)⟩

/-- A token that is not empty. -/
def someToken : Parser (List UInt8) := do
  let name ← token
  if name = [] then .fail else pure name

/-- The loop of `quoted_string()`. -/
def quotedRest (result : List UInt8) : List UInt8 → Option (List UInt8) × List UInt8
  | [] => (none, [])
  | c :: rest =>
    if c = '"'.toUInt8 then (some result, rest)
    -- the next character stands for itself
    else if c = '\\'.toUInt8 then
      match rest with
      | [] => (none, [])
      | d :: rest => quotedRest (result ++ [d]) rest
    else quotedRest (result ++ [c]) rest

/-- `quoted_string()`: the content, with the backslash escapes resolved. -/
def quotedString : Parser (List UInt8) := do
  consume '"'.toUInt8
  ⟨quotedRest []⟩

def nextIs (c : UInt8) (s : List UInt8) : Bool := s.head? == some c

def tokenOrQuotedString : Parser (List UInt8) :=
  ⟨fun s => if nextIs '"'.toUInt8 s then quotedString.run s else someToken.run s⟩

/-- `skip_element()`: past the next comma that is not inside a quoted string. -/
def skipElement : Bool → List UInt8 → List UInt8
  | _, [] => []
  -- outside of quotes
  | false, c :: rest => if c = ','.toUInt8 then rest else skipElement (c == '"'.toUInt8) rest
  | true, c :: rest =>
    -- inside, where a comma does not separate
    if c = '\\'.toUInt8 then
      match rest with
      | [] => []
      | _ :: rest => skipElement true rest
    else skipElement (c != '"'.toUInt8) rest

/-! ### One alternative -/

/-- An alternative, and which of the parameters it has got. -/
structure Params where
  service : AltService
  haveMaxAge : Bool := false
  havePersist : Bool := false
deriving DecidableEq, Repr

/-- What a parameter says, unless it is a repeated one, or one we don't know. -/
def Params.set (p : Params) (name value : List UInt8) : Params :=
  if name = text "ma" ∧ p.haveMaxAge = false then
    { p with
      haveMaxAge := true
      -- a number that is out of range leaves the default
      service := match fromChars value with
        | some seconds => { p.service with maxAge := seconds.toInt64 }
        | none => p.service }
  else if name = text "persist" ∧ p.havePersist = false then
    { p with
      havePersist := true
      service := { p.service with persist := value == text "1" } }
  else p

/-- One parameter, behind its semicolon. -/
def parameter (p : Params) : Parser Params := do
  skipOws
  let name ← someToken
  consume '='.toUInt8
  let value ← tokenOrQuotedString
  skipOws
  return p.set name value

/-! ### No function of the parser looks beyond its element -/

/-- What separates the elements of a field value, and what quotes. -/
def quoting : Quoting UInt8 := ⟨'"'.toUInt8, '\\'.toUInt8, ','.toUInt8, by decide⟩

theorem elementwise_skipOws : quoting.Elementwise skipOws :=
  Quoting.elementwise_takeWhile (by decide) (by decide) fun _ => ()

theorem elementwise_token : quoting.Elementwise token :=
  Quoting.elementwise_takeWhile (by decide) (by decide) id

theorem elementwise_someToken : quoting.Elementwise someToken := by
  apply elementwise_token.bind
  intro name
  split
  · exact Quoting.elementwise_fail
  · exact Quoting.elementwise_pure name

theorem elementwise_consume {c : UInt8} (hquote : c ≠ '"'.toUInt8) (hcomma : c ≠ ','.toUInt8) :
    quoting.Elementwise (consume c) := by
  constructor
  · intro s
    unfold consume
    dsimp only
    split
    · exact Quoting.Advances.refl []
    · split
      · rename_i d rest hd
        have hplain : ∀ e ∈ [d], e ≠ quoting.quote := by
          intro e he
          rw [List.mem_singleton.mp he, hd]
          exact hquote
        exact Quoting.advances_append hplain
      · exact Quoting.Advances.refl _
  · intro s t _
    cases s with
    | nil =>
      show (consume c).run (','.toUInt8 :: t) = (none, ','.toUInt8 :: t)
      exact if_neg (Ne.symm hcomma)
    | cons d rest =>
      unfold consume
      rw [List.cons_append]
      dsimp only
      split <;> rfl

/-- A character that is neither a quote nor a backslash leaves a quoted string open. -/
theorem next_inside {c : UInt8} (hquote : c ≠ '"'.toUInt8) (hescape : c ≠ '\\'.toUInt8) :
    quoting.next .inside c = .inside := by
  show (if c = '\\'.toUInt8 then _ else if c = '"'.toUInt8 then _ else Scan.inside) = Scan.inside
  rw [if_neg hescape, if_neg hquote]

/-- Where the loop of `quoted_string()` stops: behind the closing quote, or at the end. -/
theorem quotedRest_advance (result s : List UInt8) :
    (∃ w, s = w ++ (quotedRest result s).2 ∧ quoting.scan .inside w = .outside) ∨
      (quotedRest result s).2 = [] ∧ quoting.scan .inside s ≠ .outside := by
  fun_induction quotedRest result s with
  | case1 => exact .inr ⟨rfl, by decide⟩
  | case2 result rest => exact .inl ⟨['"'.toUInt8], rfl, by decide⟩
  | case3 result => exact .inr ⟨rfl, by decide⟩
  | case4 result d rest hne ih =>
    rcases ih with ⟨w, hw, hscan⟩ | ⟨hnil, hscan⟩
    · left
      refine ⟨'\\'.toUInt8 :: d :: w, ?_, hscan⟩
      rw [List.cons_append, List.cons_append, ← hw]
    · exact .inr ⟨hnil, hscan⟩
  | case5 result c rest hquote hescape ih =>
    rw [Quoting.scan_cons, next_inside hquote hescape]
    rcases ih with ⟨w, hw, hscan⟩ | ⟨hnil, hscan⟩
    · left
      refine ⟨c :: w, ?_, ?_⟩
      · rw [List.cons_append, ← hw]
      · rw [Quoting.scan_cons, next_inside hquote hescape]
        exact hscan
    · exact .inr ⟨hnil, hscan⟩

/-- A quoted string that is closed does not depend on what follows. -/
theorem quotedRest_append (result s t : List UInt8) (h : quoting.scan .inside s = .outside) :
    quotedRest result (s ++ t) = ((quotedRest result s).1, (quotedRest result s).2 ++ t) := by
  fun_induction quotedRest result s with
  | case1 => exact absurd h (by decide)
  | case2 result rest =>
    rw [List.cons_append, quotedRest.eq_def]
    exact if_pos rfl
  | case3 result => exact absurd h (by decide)
  | case4 result d rest hne ih => exact ih h
  | case5 result c rest hquote hescape ih =>
    rw [Quoting.scan_cons, next_inside hquote hescape] at h
    rw [List.cons_append, quotedRest.eq_def]
    dsimp only
    rw [if_neg hquote, if_neg hescape]
    exact ih h

theorem elementwise_quotedString : quoting.Elementwise quotedString := by
  have hquoted : ∀ rest, quotedString.run ('"'.toUInt8 :: rest) = quotedRest [] rest := fun _ => rfl
  have hother : ∀ c rest, c ≠ '"'.toUInt8 → quotedString.run (c :: rest) = (none, c :: rest) := by
    intro c rest hc
    apply Scanner.bind_of_none
    exact if_neg hc
  constructor
  · intro s
    cases s with
    | nil => exact Quoting.Advances.refl []
    | cons c rest =>
      by_cases hc : c = '"'.toUInt8
      · subst hc
        rw [hquoted]
        rcases quotedRest_advance [] rest with ⟨w, hw, hscan⟩ | ⟨hnil, hscan⟩
        · left
          refine ⟨'"'.toUInt8 :: w, ?_, hscan⟩
          rw [List.cons_append, ← hw]
        · exact .inr ⟨hnil, hscan⟩
      · rw [hother c rest hc]
        exact Quoting.Advances.refl _
  · intro s t hclosed
    cases s with
    | nil => exact hother _ t (by decide)
    | cons c rest =>
      rw [List.cons_append]
      by_cases hc : c = '"'.toUInt8
      · subst hc
        rw [hquoted, hquoted]
        exact quotedRest_append [] rest _ hclosed
      · rw [hother c _ hc, hother c _ hc, List.cons_append]

theorem elementwise_tokenOrQuotedString : quoting.Elementwise tokenOrQuotedString := by
  constructor
  · intro s
    unfold tokenOrQuotedString
    dsimp only
    split
    · exact elementwise_quotedString.advance s
    · exact elementwise_someToken.advance s
  · intro s t hclosed
    have hnext : nextIs '"'.toUInt8 (s ++ quoting.separator :: t) = nextIs '"'.toUInt8 s := by
      cases s with
      | nil => rfl
      | cons c rest => rfl
    unfold tokenOrQuotedString
    dsimp only
    rw [hnext]
    split
    · exact elementwise_quotedString.apart s t hclosed
    · exact elementwise_someToken.apart s t hclosed

theorem elementwise_parameter (p : Params) : quoting.Elementwise (parameter p) := by
  apply elementwise_skipOws.bind
  intro _
  apply elementwise_someToken.bind
  intro name
  apply (elementwise_consume (by decide) (by decide)).bind
  intro _
  apply elementwise_tokenOrQuotedString.bind
  intro value
  apply elementwise_skipOws.bind
  intro _
  exact Quoting.elementwise_pure (p.set name value)

/-! ### The loop over the parameters -/

/-- One pass: another parameter, if there is a semicolon. -/
def parametersPass : Params × List UInt8 →
    (Params × List UInt8) ⊕ (Option Params × List UInt8)
  | (p, s) =>
    match (consume ';'.toUInt8).run s with
    | (none, s) => .inr (some p, s)
    | (some (), s) =>
      match (parameter p).run s with
      | (some p, s) => .inl (p, s)
      | (none, s) => .inr (none, s)

/-- What is consumed is gone. -/
theorem length_consume {c : UInt8} {s t : List UInt8} (h : (consume c).run s = (some (), t)) :
    s = c :: t := by
  unfold consume at h
  dsimp only at h
  split at h
  · exact absurd h (by simp)
  · split at h
    · rename_i hd
      rw [hd, (Prod.mk.inj h).2]
    · exact absurd h (by simp)

theorem parametersPass_inl {p p' : Params} {s s' : List UInt8}
    (h : parametersPass (p, s) = .inl (p', s')) :
    ∃ t, s = ';'.toUInt8 :: t ∧ (parameter p).run t = (some p', s') := by
  unfold parametersPass at h
  dsimp only at h
  split at h
  · exact nomatch h
  · rename_i t hconsume
    split at h
    · rename_i q u hparameter
      obtain ⟨rfl, rfl⟩ := Prod.mk.inj (Sum.inl.inj h)
      exact ⟨t, length_consume hconsume, hparameter⟩
    · exact nomatch h

theorem parametersPass_variant : Variant parametersPass (fun x => x.2.length) := by
  rintro ⟨p, s⟩ ⟨p', s'⟩ h
  obtain ⟨t, rfl, hparameter⟩ := parametersPass_inl h
  have hle := ((elementwise_parameter p).advance t).length_le
  rw [hparameter] at hle
  exact Nat.lt_succ_of_le hle

/-- All the parameters there are. -/
def parameters (p : Params) : Parser Params := do
  skipOws
  ⟨fun s => loop parametersPass_variant (p, s)⟩

/-- What one pass reads. -/
theorem parametersPass_advance (p : Params) (s : List UInt8) :
    quoting.Advances s ((parametersPass (p, s)).elim Prod.snd Prod.snd) := by
  have hconsume := (elementwise_consume (c := ';'.toUInt8) (by decide) (by decide)).advance s
  unfold parametersPass
  dsimp only
  rcases hc : (consume ';'.toUInt8).run s with ⟨_ | _, t⟩
  · rw [hc] at hconsume
    exact hconsume
  · rw [hc] at hconsume
    have hparameter := (elementwise_parameter p).advance t
    dsimp only
    rcases hp : (parameter p).run t with ⟨_ | p', u⟩
    · rw [hp] at hparameter
      exact hconsume.trans hparameter
    · rw [hp] at hparameter
      exact hconsume.trans hparameter

/-- One pass does not depend on what stands behind the element. -/
theorem parametersPass_apart (p : Params) {s : List UInt8} (t : List UInt8)
    (hclosed : quoting.Closed s) :
    parametersPass (p, s ++ quoting.separator :: t) =
      (parametersPass (p, s)).map (fun x => (x.1, x.2 ++ quoting.separator :: t))
        (fun x => (x.1, x.2 ++ quoting.separator :: t)) := by
  have helement := elementwise_consume (c := ';'.toUInt8) (by decide) (by decide)
  have hadvance := helement.advance s
  have hconsume := helement.apart s t hclosed
  unfold parametersPass
  dsimp only
  rw [hconsume]
  rcases hc : (consume ';'.toUInt8).run s with ⟨_ | _, u⟩
  · rfl
  · rw [hc] at hadvance
    have hparameter := (elementwise_parameter p).apart u t (hadvance.closed hclosed)
    dsimp only
    rw [hparameter]
    rcases (parameter p).run u with ⟨_ | p', v⟩ <;> rfl

theorem elementwise_parameters (p : Params) : quoting.Elementwise (parameters p) := by
  apply elementwise_skipOws.bind
  intro _
  constructor
  · intro s
    refine loop_induction parametersPass_variant (P := fun x r => quoting.Advances x.2 r.2)
      ?_ ?_ (p, s)
    · rintro ⟨p, s⟩ ⟨p', s'⟩ hpass hrest
      have hadvance := parametersPass_advance p s
      rw [hpass] at hadvance
      exact hadvance.trans hrest
    · rintro ⟨p, s⟩ r hpass
      have hadvance := parametersPass_advance p s
      rw [hpass] at hadvance
      exact hadvance
  · intro s t hclosed
    refine loop_induction parametersPass_variant (P := fun x r => quoting.Closed x.2 →
      loop parametersPass_variant (x.1, x.2 ++ quoting.separator :: t) =
        (r.1, r.2 ++ quoting.separator :: t)) ?_ ?_ (p, s) hclosed
    · rintro ⟨p, s⟩ ⟨p', s'⟩ hpass hrest hclosed
      have hadvance := parametersPass_advance p s
      have happart := parametersPass_apart p t hclosed
      rw [hpass] at hadvance happart
      rw [loop_of_inl _ happart]
      exact hrest (hadvance.closed hclosed)
    · rintro ⟨p, s⟩ r hpass hclosed
      have happart := parametersPass_apart p t hclosed
      rw [hpass] at happart
      rw [loop_of_inr _ happart]

/-! ### The list of alternatives -/

/-- `parse_alt_value()`: an alternative and the parameters that go with it. -/
def parseAltValue : Parser AltService := do
  let protocol ← someToken
  consume '='.toUInt8
  let authority ← quotedString
  let (host, port) ← .ofOption (splitAuthority authority)
  let p ← parameters { service := { protocol := pctDecode protocol, host := host, port := port } }
  return p.service

theorem elementwise_parseAltValue : quoting.Elementwise parseAltValue := by
  apply elementwise_someToken.bind
  intro protocol
  apply (elementwise_consume (by decide) (by decide)).bind
  intro _
  apply elementwise_quotedString.bind
  intro authority
  apply (Quoting.elementwise_ofOption _).bind
  intro hostPort
  apply (elementwise_parameters _).bind
  intro p
  exact Quoting.elementwise_pure p.service

/-- One pass of the loop of `parse_alt_svc()`. -/
def listPass : List AltService × List UInt8 → (List AltService × List UInt8) ⊕ List AltService
  | (services, s) =>
    match dropOws s with
    | [] => .inr services
    | c :: rest =>
      -- an empty element
      if c = ','.toUInt8 then .inl (services, rest)
      else
        match parseAltValue.run (c :: rest) with
        -- what can not be read is skipped
        | (none, t) => .inl (services, skipElement false t)
        | (some service, t) =>
          match dropOws t with
          | [] => .inl (services ++ [service], [])
          | d :: rest =>
            if d = ','.toUInt8 then .inl (services ++ [service], rest)
            -- there is more behind the parameters: the rest of the element is skipped
            else .inl (services ++ [service], skipElement false (d :: rest))

/-- The recovery scan is that of the quoting. -/
theorem skipElement_eq (quoted : Bool) (s : List UInt8) :
    skipElement quoted s = quoting.skip (if quoted then .inside else .outside) s := by
  fun_induction skipElement quoted s with
  | case1 quoted => cases quoted <;> rfl
  | case2 rest => rfl
  | case3 c rest hcomma ih =>
    have hskip : quoting.skip .outside (c :: rest) = quoting.skip (quoting.next .outside c) rest :=
      if_neg hcomma
    have hnext : quoting.next .outside c =
        if (c == '"'.toUInt8) = true then Scan.inside else Scan.outside := by
      by_cases hquote : c = '"'.toUInt8
      · rw [hquote]
        rfl
      · rw [if_neg (by simpa using hquote)]
        exact if_neg hquote
    rw [if_neg (by decide), hskip, hnext]
    exact ih
  | case4 => rfl
  | case5 c rest ih => exact ih
  | case6 c rest hescape ih =>
    have hnext : quoting.next .inside c =
        if (c != '"'.toUInt8) = true then Scan.inside else Scan.outside := by
      by_cases hquote : c = '"'.toUInt8
      · rw [hquote]
        rfl
      · rw [next_inside hquote hescape, if_pos (by simpa using hquote)]
    rw [if_pos rfl, Quoting.skip, hnext]
    exact ih

theorem length_skipElement (s : List UInt8) : (skipElement false s).length ≤ s.length - 1 := by
  rw [skipElement_eq]
  exact Quoting.length_skip _ s

theorem length_dropOws (s : List UInt8) : (dropOws s).length ≤ s.length :=
  (elementwise_skipOws.advance s).length_le

theorem listPass_variant : Variant listPass (fun x => x.2.length) := by
  rintro ⟨services, s⟩ ⟨services', s'⟩ h
  have hows := length_dropOws s
  show s'.length < s.length
  unfold listPass at h
  dsimp only at h
  split at h
  · exact nomatch h
  · rename_i c rest hs
    rw [hs, List.length_cons] at hows
    split at h
    · obtain ⟨_, rfl⟩ := Prod.mk.inj (Sum.inl.inj h)
      omega
    · have hvalue := (elementwise_parseAltValue.advance (c :: rest)).length_le
      rw [List.length_cons] at hvalue
      split at h
      · rename_i t ht
        rw [ht] at hvalue
        obtain ⟨_, rfl⟩ := Prod.mk.inj (Sum.inl.inj h)
        have hskip := length_skipElement t
        dsimp only at hvalue
        omega
      · rename_i service t ht
        rw [ht] at hvalue
        have hows' := length_dropOws t
        dsimp only at hvalue
        split at h
        · obtain ⟨_, rfl⟩ := Prod.mk.inj (Sum.inl.inj h)
          rw [List.length_nil]
          omega
        · rename_i d rest' ht'
          rw [ht', List.length_cons] at hows'
          split at h
          · obtain ⟨_, rfl⟩ := Prod.mk.inj (Sum.inl.inj h)
            omega
          · obtain ⟨_, rfl⟩ := Prod.mk.inj (Sum.inl.inj h)
            have hskip := length_skipElement (d :: rest')
            rw [List.length_cons] at hskip
            omega

/-- `parse_alt_svc()`. -/
def parseAltSvc (value : List UInt8) : AltSvc :=
  let trimmed := ((dropOws value).reverse.dropWhile isOws).reverse
  if trimmed = text "clear" then { clear := true }
  else { services := loop listPass_variant ([], value) }

end AltSvc

end AnyHttp
