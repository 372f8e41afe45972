import AnyHttp.AltSvc
import Mathlib.Tactic.Ring

/-!
# Percent-decoding inverts percent-encoding

An encoding of a text has to escape the `%`, and may escape any other byte, with digits in either
case (`Encodes`).  The loop of `pct_decode()` goes by position, and asks `std::from_chars()` for two
digits; as a function of what is left of the text, it is `pctDecode`.

* `pctDecodeLoop_eq`: the loop, which never reads beyond the end of the text.
* `Encodes.pctDecode`: by induction on the encoding, byte by byte.
* `pctDecode_append_percent`: no escape reaches beyond a `%`.
-/

namespace AnyHttp.AltSvc

/-! ### Hexadecimal digits -/

/-- A hexadecimal digit for `n`, in either case. -/
def IsHexDigit (n : Nat) (c : UInt8) : Prop :=
  (text "0123456789abcdef")[n]? = some c ∨ (text "0123456789ABCDEF")[n]? = some c

theorem hexDigit_of_isHexDigit {n : Nat} {c : UInt8} (h : IsHexDigit n c) :
    hexDigit c = some (UInt8.ofNat n) ∧ n < 16 := by
  have hlower : ∀ n < 16, (text "0123456789abcdef")[n]?.bind hexDigit = some (UInt8.ofNat n) := by
    decide
  have hupper : ∀ n < 16, (text "0123456789ABCDEF")[n]?.bind hexDigit = some (UInt8.ofNat n) := by
    decide
  rcases h with h | h
  · have hn : n < 16 := (List.getElem?_eq_some_iff.mp h).1
    have hdigit := hlower n hn
    rw [h] at hdigit
    exact ⟨hdigit, hn⟩
  · have hn : n < 16 := (List.getElem?_eq_some_iff.mp h).1
    have hdigit := hupper n hn
    rw [h] at hdigit
    exact ⟨hdigit, hn⟩

/-- There are no digits but these. -/
theorem isHexDigit_of_hexDigit {c x : UInt8} (h : hexDigit c = some x) : IsHexDigit x.toNat c := by
  have hall : ∀ n < 256, (hexDigit (UInt8.ofNat n)).all (fun x =>
      (text "0123456789abcdef")[x.toNat]? == some (UInt8.ofNat n) ||
        (text "0123456789ABCDEF")[x.toNat]? == some (UInt8.ofNat n)) = true := by
    decide +kernel
  have hc := hall c.toNat c.toNat_lt
  rw [UInt8.ofNat_toNat, h, Option.all_some, Bool.or_eq_true, beq_iff_eq, beq_iff_eq] at hc
  exact hc

/-- A text that starts with two hexadecimal digits. -/
def StartsHex (s : List UInt8) : Prop :=
  ∃ m n a b rest, s = a :: b :: rest ∧ IsHexDigit m a ∧ IsHexDigit n b

/-- An encoding of a text: each `%` is escaped, and so is anything else one likes. -/
inductive Encodes : List UInt8 → List UInt8 → Prop
  | nil : Encodes [] []
  | literal {c : UInt8} {s e : List UInt8} :
    c ≠ '%'.toUInt8 → Encodes s e → Encodes (c :: s) (c :: e)
  | escape {c a b : UInt8} {s e : List UInt8} :
    IsHexDigit (c.toNat / 16) a → IsHexDigit (c.toNat % 16) b → Encodes s e →
      Encodes (c :: s) ('%'.toUInt8 :: a :: b :: e)

/-! ### What is decoded, from the front -/

theorem pctDecode_cons_of_ne {c : UInt8} (hc : c ≠ '%'.toUInt8) (s : List UInt8) :
    pctDecode (c :: s) = c :: pctDecode s := by
  match s with
  | [] => rfl
  | [a] => rfl
  | a :: b :: rest =>
    rw [pctDecode]
    exact if_neg hc

theorem pctDecode_escape {a b x y : UInt8} (ha : hexDigit a = some x) (hb : hexDigit b = some y)
    (s : List UInt8) :
    pctDecode ('%'.toUInt8 :: a :: b :: s) = (16 * x + y) :: pctDecode s := by
  rw [pctDecode, if_pos rfl, ha, hb]

/-- Not an escape: it stays as it is. -/
theorem pctDecode_percent {s : List UInt8} (h : ¬ StartsHex s) :
    pctDecode ('%'.toUInt8 :: s) = '%'.toUInt8 :: pctDecode s := by
  match s, h with
  | [], _ => rfl
  | [a], _ => rfl
  | a :: b :: rest, h =>
    rw [pctDecode, if_pos rfl]
    split
    · rename_i x y ha hb
      exact absurd ⟨_, _, a, b, rest, rfl, isHexDigit_of_hexDigit ha, isHexDigit_of_hexDigit hb⟩ h
    · rfl

/-- What has been escaped is what it was. -/
theorem ofNat_nibbles (c : UInt8) :
    16 * UInt8.ofNat (c.toNat / 16) + UInt8.ofNat (c.toNat % 16) = c := by
  have hlt := c.toNat_lt
  apply UInt8.toNat_inj.mp
  simp only [UInt8.toNat_add, UInt8.toNat_mul, UInt8.toNat_ofNat', UInt8.reduceToNat]
  omega

theorem Encodes.pctDecode {s e : List UInt8} (h : Encodes s e) : pctDecode e = s := by
  induction h with
  | nil => rfl
  | literal hc _ ih => rw [pctDecode_cons_of_ne hc, ih]
  | @escape c a b s e ha hb _ ih =>
    rw [pctDecode_escape (hexDigit_of_isHexDigit ha).1 (hexDigit_of_isHexDigit hb).1, ih,
      ofNat_nibbles]

/-- A `%` is no digit of the escape before it. -/
theorem pctDecode_append_percent (s t : List UInt8) :
    pctDecode (s ++ '%'.toUInt8 :: t) = pctDecode s ++ pctDecode ('%'.toUInt8 :: t) := by
  have hnone : hexDigit '%'.toUInt8 = none := by decide
  have hpercent : ∀ s, (∀ a b rest, s = a :: b :: rest → hexDigit a = none ∨ hexDigit b = none) →
      ¬ StartsHex s := by
    rintro s hs ⟨m, n, a, b, rest, rfl, ha, hb⟩
    rcases hs a b rest rfl with h | h
    · rw [(hexDigit_of_isHexDigit ha).1] at h
      exact nomatch h
    · rw [(hexDigit_of_isHexDigit hb).1] at h
      exact nomatch h
  -- on the text in front, which may end with an escape that is not complete
  induction s using pctDecode.induct with
  | case1 a b rest x y hb ha ih =>
    rw [List.cons_append, List.cons_append, List.cons_append, pctDecode_escape ha hb,
      pctDecode_escape ha hb, ih, List.cons_append]
  | case2 a b rest hdigits ih =>
    have hstarts : ∀ rest, ¬ StartsHex (a :: b :: rest) := by
      intro rest
      apply hpercent
      rintro _ _ _ ⟨⟩
      rcases ha : hexDigit a with _ | x
      · exact .inl rfl
      · rcases hb : hexDigit b with _ | y
        · exact .inr rfl
        · exact absurd hb (hdigits x y ha)
    rw [List.cons_append, pctDecode_percent (hstarts rest), List.cons_append, List.cons_append,
      pctDecode_percent (hstarts _), ← List.cons_append, ← List.cons_append, ih, List.cons_append]
  | case3 c a b rest hc ih =>
    rw [List.cons_append, pctDecode_cons_of_ne hc, pctDecode_cons_of_ne hc, ih, List.cons_append]
  | case4 c rest hshort ih =>
    -- at the end of the part, there is no room for two digits
    by_cases hc : c = '%'.toUInt8
    · have hrest : ∀ u, ¬ StartsHex (rest ++ '%'.toUInt8 :: u) := by
        intro u
        apply hpercent
        match rest, hshort with
        | [], _ =>
          rintro _ _ _ ⟨⟩
          exact .inl hnone
        | [a], _ =>
          rintro _ _ _ ⟨⟩
          exact .inr hnone
        | a :: b :: rest, hshort => exact absurd rfl (hshort a b rest)
      have hend : ¬ StartsHex rest := by
        rintro ⟨m, n, a, b, tail, rfl, _, _⟩
        exact hshort a b tail rfl
      rw [hc, List.cons_append, pctDecode_percent (hrest t), pctDecode_percent hend, ih,
        List.cons_append]
    · rw [List.cons_append, pctDecode_cons_of_ne hc, pctDecode_cons_of_ne hc, ih, List.cons_append]
  | case5 => rfl

/-- An escape takes the place of one byte. -/
theorem length_pctDecode (s : List UInt8) : (pctDecode s).length ≤ s.length := by
  fun_induction pctDecode s with
  | case1 a b rest x y ha hb ih =>
    simp only [List.length_cons]
    omega
  | case2 a b rest hdigits ih =>
    simp only [List.length_cons] at ih ⊢
    omega
  | case3 c a b rest hc ih =>
    simp only [List.length_cons] at ih ⊢
    omega
  | case4 c rest hshort ih =>
    simp only [List.length_cons]
    omega
  | case5 => exact Nat.le_refl 0

/-! ### The loop -/

/-- Two digits are read by `std::from_chars()`, if there are two. -/
theorem fromCharsHex_two {s : List UInt8} {first : Nat} {a b : UInt8} (ha : s[first]? = some a)
    (hb : s[first + 1]? = some b) :
    (∃ x y, hexDigit a = some x ∧ hexDigit b = some y ∧
      fromCharsHex s 0 first 2 = some (16 * x.toNat + y.toNat, first + 2)) ∨
    ((hexDigit a = none ∨ hexDigit b = none) ∧
      ∃ value ptr, fromCharsHex s 0 first 2 = some (value, ptr) ∧ ptr ≠ first + 2) := by
  -- the first character that is no digit ends the number
  rcases hx : hexDigit a with _ | x
  · right
    refine ⟨.inl rfl, 0, first, ?_, by omega⟩
    simp [fromCharsHex, ha, hx]
  · rcases hy : hexDigit b with _ | y
    · right
      refine ⟨.inr rfl, x.toNat, first + 1, ?_, by omega⟩
      simp [fromCharsHex, ha, hb, hx, hy]
    · left
      refine ⟨x, y, rfl, rfl, ?_⟩
      simp [fromCharsHex, ha, hb, hx, hy]

/-- The loop reads the text from its position on, and nothing beyond its end. -/
theorem pctDecodeLoop_eq (s : List UInt8) (i : Nat) (out : List UInt8) :
    pctDecodeLoop s i out = some (out ++ pctDecode (s.drop i)) := by
  -- on what is left of the text
  induction h : s.length - i using Nat.strong_induction_on generalizing i out with
  | _ n ih =>
    rw [pctDecodeLoop]
    by_cases hi : i < s.length
    · have hc : s[i]? = some s[i] := List.getElem?_eq_getElem hi
      have hdrop : s.drop i = s[i] :: s.drop (i + 1) := List.drop_eq_getElem_cons hi
      have hone : ∀ out, pctDecodeLoop s (i + 1) out = some (out ++ pctDecode (s.drop (i + 1))) :=
        fun out => ih (s.length - (i + 1)) (by omega) (i + 1) out rfl
      rw [if_pos hi, hc, Option.bind_eq_bind, Option.bind_some, hdrop]
      -- a percent sign needs two more characters
      by_cases hpercent : s[i] = '%'.toUInt8 ∧ i + 2 < s.length
      · obtain ⟨hpercent, hlen⟩ := hpercent
        have hdigits : s.drop (i + 1) = s[i + 1] :: s[i + 2] :: s.drop (i + 3) := by
          rw [List.drop_eq_getElem_cons (show i + 1 < s.length by omega),
            List.drop_eq_getElem_cons hlen]
        rw [if_pos ⟨hpercent, hlen⟩]
        have hfirst : s[i + 1]? = some s[i + 1] := List.getElem?_eq_getElem (by omega)
        have hsecond : s[i + 1 + 1]? = some s[i + 2] := List.getElem?_eq_getElem hlen
        -- two digits are an escape, anything else stays as it is
        rcases fromCharsHex_two hfirst hsecond with
          ⟨x, y, hx, hy, hread⟩ | ⟨hno, value, ptr, hread, hne⟩
        · rw [hread, Option.bind_eq_bind, Option.bind_some]
          dsimp only
          have hbyte : UInt8.ofNat (16 * x.toNat + y.toNat) = 16 * x + y := by
            apply UInt8.toNat_inj.mp
            simp [UInt8.toNat_add, UInt8.toNat_mul]
          rw [if_pos rfl, ih (s.length - (i + 3)) (by omega) (i + 3) _ rfl, hpercent, hdigits,
            pctDecode_escape hx hy, hbyte, List.append_assoc, List.singleton_append]
        · rw [hread, Option.bind_eq_bind, Option.bind_some]
          dsimp only
          have hstarts : ¬ StartsHex (s.drop (i + 1)) := by
            rintro ⟨m, n, a, b, rest, hs, ha, hb⟩
            rw [hdigits] at hs
            obtain ⟨hfirst, hs⟩ := List.cons.inj hs
            obtain ⟨hsecond, _⟩ := List.cons.inj hs
            rw [hfirst, hsecond, (hexDigit_of_isHexDigit ha).1,
              (hexDigit_of_isHexDigit hb).1] at hno
            exact hno.elim (fun h => nomatch h) (fun h => nomatch h)
          rw [if_neg hne, hone, hpercent, pctDecode_percent hstarts, List.append_assoc,
            List.singleton_append]
      · have hkeep : pctDecode (s[i] :: s.drop (i + 1)) = s[i] :: pctDecode (s.drop (i + 1)) := by
          by_cases hc : s[i] = '%'.toUInt8
          · have hshort : ¬ StartsHex (s.drop (i + 1)) := by
              rintro ⟨m, n, a, b, rest, hs, _, _⟩
              have hlen := congrArg List.length hs
              simp only [List.length_drop, List.length_cons] at hlen
              exact hpercent ⟨hc, by omega⟩
            rw [hc]
            exact pctDecode_percent hshort
          · exact pctDecode_cons_of_ne hc _
        rw [if_neg hpercent, hone, hkeep, List.append_assoc, List.singleton_append]
    · rw [if_neg hi, List.drop_eq_nil_of_le (by omega)]
      simp [pctDecode]

/-- **`pct_decode()` inverts percent-encoding**: it decodes every encoding of a text; a `%` without
two digits behind it stays where it is, between what is before it and what is behind it; and there
is always a result, so that nothing is read beyond the end, and it is no longer than the input. -/
theorem pctDecodeLoop_inverts :
    (∀ s e, Encodes s e → pctDecodeLoop e 0 [] = some s) ∧
      (∀ s t, ¬ StartsHex t → ∃ before behind,
        pctDecodeLoop s 0 [] = some before ∧ pctDecodeLoop t 0 [] = some behind ∧
          pctDecodeLoop (s ++ '%'.toUInt8 :: t) 0 [] = some (before ++ '%'.toUInt8 :: behind)) ∧
      ∀ s, ∃ out, pctDecodeLoop s 0 [] = some out ∧ out.length ≤ s.length := by
  have hloop : ∀ s, pctDecodeLoop s 0 [] = some (pctDecode s) := by
    intro s
    rw [pctDecodeLoop_eq, List.nil_append, List.drop_zero]
  refine ⟨?_, ?_, ?_⟩
  · intro s e h
    rw [hloop, h.pctDecode]
  · intro s t h
    refine ⟨pctDecode s, pctDecode t, hloop s, hloop t, ?_⟩
    rw [hloop, pctDecode_append_percent, pctDecode_percent h]
  · intro s
    exact ⟨pctDecode s, hloop s, length_pctDecode s⟩

/-- The protocol of the tests, with one digit in each case, and a `%` that is none. -/
theorem pctDecodeLoop_inverts_mixed :
    pctDecodeLoop (text "h%6a%6B") 0 [] = some (text "hjk") ∧
      pctDecodeLoop (text "h%" ++ '%'.toUInt8 :: text "+3") 0 [] =
        some (text "h%" ++ '%'.toUInt8 :: text "+3") := by
  have hmixed : Encodes (text "hjk") (text "h%6a%6B") := by
    rw [show text "hjk" = [0x68, 0x6a, 0x6b] by decide,
      show text "h%6a%6B" = [0x68, '%'.toUInt8, 0x36, 0x61, '%'.toUInt8, 0x36, 0x42] by decide]
    refine .literal (by decide) (.escape ?_ ?_ (.escape ?_ ?_ .nil))
    · exact .inl (by decide)
    · exact .inl (by decide)
    · exact .inl (by decide)
    · exact .inr (by decide)
  have hsign : ¬ StartsHex (text "+3") := by
    rintro ⟨m, n, a, b, rest, h, ha, _⟩
    rw [show text "+3" = [0x2b, 0x33] by decide] at h
    obtain ⟨rfl, _⟩ := List.cons.inj h
    have hdigit := (hexDigit_of_isHexDigit ha).1
    rw [show hexDigit 0x2b = none by decide] at hdigit
    exact nomatch hdigit
  obtain ⟨before, behind, hbefore, hbehind, hall⟩ := pctDecodeLoop_inverts.2.1 (text "h%") _ hsign
  have heval : pctDecode (text "h%") = text "h%" ∧ pctDecode (text "+3") = text "+3" := by decide
  rw [pctDecodeLoop_eq, List.nil_append, List.drop_zero, heval.1] at hbefore
  rw [pctDecodeLoop_eq, List.nil_append, List.drop_zero, heval.2] at hbehind
  refine ⟨pctDecodeLoop_inverts.1 _ _ hmixed, ?_⟩
  rw [hall, ← Option.some.inj hbefore, ← Option.some.inj hbehind]

end AnyHttp.AltSvc
