import AnyHttp.AltSvc

/-!
# `parse_alt_svc()` reads a list element by element

A comma that is outside of quotes takes a field value apart: what the parser makes of the whole is
what it makes of the one part, and then of the other.  Wherever an element stops being one, the
recovery scan of `skip_element()` goes on in step with a scan from the front of the element, since
what has been read of it by then ends outside of quotes, or there is nothing left at all; that is
what it means for `parseAltValue` to be elementwise (`Quoting.Elementwise`).

* `listPass_apart`: a pass of the loop over the first part.
* `services_append`: the field value as a whole.
* `parseAltSvc_append`: with what an element can contribute, and that the loops end.
-/

namespace AnyHttp.AltSvc

open Lib

/-! ### A pass of the loop -/

/-- What has been found so far does not matter. -/
theorem listPass_found (found services : List AltService) (s : List UInt8) :
    listPass (found ++ services, s) =
      (listPass (services, s)).map (fun x => (found ++ x.1, x.2)) (found ++ ·) := by
  unfold listPass
  dsimp only
  split
  · rfl
  · split
    · rfl
    · split
      · rfl
      · simp only [List.append_assoc]
        split
        · rfl
        · split <;> rfl

theorem loop_found (found services : List AltService) (s : List UInt8) :
    loop listPass_variant (found ++ services, s) =
      found ++ loop listPass_variant (services, s) := by
  refine loop_induction listPass_variant
    (P := fun x r => loop listPass_variant (found ++ x.1, x.2) = found ++ r) ?_ ?_ (services, s)
  · rintro ⟨services, s⟩ ⟨services', s'⟩ hpass hrest
    have hfound := listPass_found found services s
    rw [hpass] at hfound
    rw [loop_of_inl _ hfound]
    exact hrest
  · rintro ⟨services, s⟩ r hpass
    have hfound := listPass_found found services s
    rw [hpass] at hfound
    exact loop_of_inr _ hfound

/-- There is nothing more to read. -/
theorem loop_nil (services : List AltService) : loop listPass_variant (services, []) = services :=
  loop_of_inr _ rfl

/-- An element that is followed by another one: the recovery scan finds the comma in it, or the one
behind it. -/
theorem skipElement_apart {s : List UInt8} (hclosed : quoting.Closed s) (t : List UInt8) :
    (skipElement false s = [] ∧ skipElement false (s ++ quoting.separator :: t) = t) ∨
      (quoting.Closed (skipElement false s) ∧
        skipElement false (s ++ quoting.separator :: t) =
          skipElement false s ++ quoting.separator :: t) := by
  rw [skipElement_eq, skipElement_eq]
  rcases Quoting.skip_apart hclosed t with hlast | ⟨_, hrest⟩
  · exact .inl hlast
  · exact .inr hrest

/-- A pass over a text that is followed by another element: it stays within the text, or it goes on
to the element. -/
theorem listPass_apart (services : List AltService) {s : List UInt8} (hclosed : quoting.Closed s)
    (t : List UInt8) :
    (∃ services' s', listPass (services, s) = .inl (services', s') ∧ quoting.Closed s' ∧
      listPass (services, s ++ quoting.separator :: t) =
        .inl (services', s' ++ quoting.separator :: t)) ∨
    (∃ services', (listPass (services, s) = .inl (services', []) ∨
        listPass (services, s) = .inr services') ∧
      listPass (services, s ++ quoting.separator :: t) = .inl (services', t)) := by
  have hows : dropOws (s ++ quoting.separator :: t) = dropOws s ++ quoting.separator :: t :=
    dropWhile_append_of_not (by decide) s t
  have hclosed' : quoting.Closed (dropOws s) := (elementwise_skipOws.advance s).closed hclosed
  unfold listPass
  dsimp only
  rw [hows]
  cases hs : dropOws s with
  | nil => exact .inr ⟨services, .inr rfl, if_pos rfl⟩
  | cons c rest =>
    rw [hs] at hclosed'
    rw [List.cons_append]
    dsimp only
    by_cases hcomma : c = ','.toUInt8
    · -- an empty element
      left
      rw [if_pos hcomma, if_pos hcomma]
      refine ⟨services, rest, rfl, ?_, rfl⟩
      rw [hcomma] at hclosed'
      exact hclosed'
    · rw [if_neg hcomma, if_neg hcomma]
      have hadvance := elementwise_parseAltValue.advance (c :: rest)
      have happart := elementwise_parseAltValue.apart (c :: rest) t hclosed'
      rw [← List.cons_append, happart]
      rcases hvalue : parseAltValue.run (c :: rest) with ⟨_ | service, u⟩
      · rw [hvalue] at hadvance
        rcases skipElement_apart (hadvance.closed hclosed') t with ⟨hnil, hskip⟩ | ⟨hrest, hskip⟩
        · right
          refine ⟨services, .inl ?_, ?_⟩
          · dsimp only
            rw [hnil]
          · dsimp only
            rw [hskip]
        · left
          refine ⟨services, skipElement false u, rfl, hrest, ?_⟩
          dsimp only
          rw [hskip]
      · rw [hvalue] at hadvance
        have hu : quoting.Closed (dropOws u) :=
          (elementwise_skipOws.advance u).closed (hadvance.closed hclosed')
        have howsu : dropOws (u ++ quoting.separator :: t) = dropOws u ++ quoting.separator :: t :=
          dropWhile_append_of_not (by decide) u t
        dsimp only
        rw [howsu]
        cases hv : dropOws u with
        | nil => exact .inr ⟨services ++ [service], .inl rfl, if_pos rfl⟩
        | cons d rest' =>
          rw [hv] at hu
          rw [List.cons_append]
          dsimp only
          by_cases hcomma' : d = ','.toUInt8
          · left
            rw [if_pos hcomma', if_pos hcomma']
            refine ⟨services ++ [service], rest', rfl, ?_, rfl⟩
            rw [hcomma'] at hu
            exact hu
          · rw [if_neg hcomma', if_neg hcomma', ← List.cons_append]
            rcases skipElement_apart hu t with ⟨hnil, hskip⟩ | ⟨hrest, hskip⟩
            · right
              rw [hnil, hskip]
              exact ⟨services ++ [service], .inl rfl, rfl⟩
            · left
              rw [hskip]
              exact ⟨services ++ [service], _, rfl, hrest, rfl⟩

/-! ### The field value as a whole -/

/-- The loop over both parts is the loop over the one, and then over the other. -/
theorem loop_append (services : List AltService) {s : List UInt8} (hclosed : quoting.Closed s)
    (t : List UInt8) :
    loop listPass_variant (services, s ++ quoting.separator :: t) =
      loop listPass_variant (loop listPass_variant (services, s), t) := by
  refine loop_induction listPass_variant (P := fun x r => quoting.Closed x.2 →
    loop listPass_variant (x.1, x.2 ++ quoting.separator :: t) = loop listPass_variant (r, t))
    ?_ ?_ (services, s) hclosed
  · rintro ⟨services, s⟩ ⟨services', s'⟩ hpass hrest hclosed
    rcases listPass_apart services hclosed t with ⟨found, u, hs, hu, hst⟩ | ⟨found, hs, hst⟩
    · rw [hs] at hpass
      obtain ⟨rfl, rfl⟩ := Prod.mk.inj (Sum.inl.inj hpass)
      rw [loop_of_inl _ hst]
      exact hrest hu
    · rcases hs with hs | hs
      · rw [hs] at hpass
        obtain ⟨rfl, rfl⟩ := Prod.mk.inj (Sum.inl.inj hpass)
        rw [loop_of_inl _ hst, loop_nil]
      · rw [hs] at hpass
        exact nomatch hpass
  · rintro ⟨services, s⟩ r hpass hclosed
    rcases listPass_apart services hclosed t with ⟨found, u, hs, _, _⟩ | ⟨found, hs, hst⟩
    · rw [hs] at hpass
      exact nomatch hpass
    · rcases hs with hs | hs
      · rw [hs] at hpass
        exact nomatch hpass
      · rw [hs] at hpass
        rw [← Sum.inr.inj hpass, loop_of_inl _ hst]

/-- Whitespace alone is skipped to the end. -/
theorem skipElement_ows {s : List UInt8} (h : ∀ c ∈ s, isOws c = true) :
    skipElement false s = [] := by
  rw [skipElement_eq]
  apply Quoting.Unsplit.skip
  intro x y hs
  have hcomma := h quoting.separator (by simp [hs])
  exact absurd hcomma (by decide)

/-- "clear", byte by byte. -/
def word : List UInt8 := [0x63, 0x6c, 0x65, 0x61, 0x72]

/-- Read as an alternative, "clear" has no alt-authority. -/
theorem parseAltValue_word {tail : List UInt8} (h : ∀ c ∈ tail, isOws c = true) :
    parseAltValue.run (word ++ tail) = (none, tail) := by
  have hows : ∀ c, isOws c = true → isTchar c = false ∧ c ≠ '='.toUInt8 := by
    intro c hc
    have : c = ' '.toUInt8 ∨ c = '\t'.toUInt8 := by simpa [isOws] using hc
    rcases this with rfl | rfl <;> decide
  have hspan : (word ++ tail).takeWhile isTchar = word ∧
      (word ++ tail).dropWhile isTchar = tail := by
    have hall : word.takeWhile isTchar = word ∧ word.dropWhile isTchar = [] := by decide
    cases tail with
    | nil => rwa [List.append_nil]
    | cons d tail =>
      have hd := (hows d (h d List.mem_cons_self)).1
      rw [takeWhile_append_of_not hd, dropWhile_append_of_not hd, hall.2]
      exact ⟨hall.1, rfl⟩
  have htoken : someToken.run (word ++ tail) = (some word, tail) := by
    have hrun : token.run (word ++ tail) = (some word, tail) := by
      show (some _, _) = _
      rw [hspan.1, hspan.2]
    refine (Scanner.bind_of_some hrun).trans ?_
    rw [if_neg (by decide)]
    rfl
  refine (Scanner.bind_of_some htoken).trans (Scanner.bind_of_none ?_)
  cases tail with
  | nil => rfl
  | cons d tail => exact if_neg (hows d (h d List.mem_cons_self)).2

/-- As a list, "clear" is an alternative with a missing alt-authority. -/
theorem loop_clear {value : List UInt8}
    (h : ((dropOws value).reverse.dropWhile isOws).reverse = text "clear") :
    loop listPass_variant ([], value) = [] := by
  have hword : text "clear" = word := by decide
  have htail : ∀ c ∈ ((dropOws value).reverse.takeWhile isOws).reverse, isOws c = true := by
    intro c hc
    exact List.mem_takeWhile_imp (List.mem_reverse.mp hc)
  have hvalue : dropOws value = word ++ ((dropOws value).reverse.takeWhile isOws).reverse := by
    rw [← hword, ← h, ← List.reverse_append, List.takeWhile_append_dropWhile, List.reverse_reverse]
  have hpass : listPass ([], value) = .inl ([], []) := by
    unfold listPass
    dsimp only
    rw [hvalue]
    have hparse := parseAltValue_word htail
    rw [word, List.cons_append] at hparse ⊢
    dsimp only
    rw [if_neg (by decide), hparse]
    dsimp only
    rw [skipElement_ows htail]
  rw [loop_of_inl _ hpass, loop_nil]

/-- Whether it says "clear" or not, the alternatives are what the loop finds. -/
theorem services_parseAltSvc (value : List UInt8) :
    (parseAltSvc value).services = loop listPass_variant ([], value) := by
  unfold parseAltSvc
  dsimp only
  split
  · rename_i hclear
    exact (loop_clear hclear).symm
  · rfl

theorem services_append (a b : List UInt8) (hclosed : quoting.Closed a) :
    (parseAltSvc (a ++ ','.toUInt8 :: b)).services =
      (parseAltSvc a).services ++ (parseAltSvc b).services := by
  have hfound := loop_found (loop listPass_variant ([], a)) [] b
  rw [List.append_nil] at hfound
  rw [services_parseAltSvc, services_parseAltSvc, services_parseAltSvc, ← hfound]
  exact loop_append [] hclosed b

/-- Any number of elements, each of which ends outside of quotes, except perhaps for the last. -/
theorem services_elements (elements : List (List UInt8)) (last : List UInt8)
    (hclosed : ∀ e ∈ elements, quoting.Closed e) :
    (parseAltSvc (elements.foldr (fun e rest => e ++ ','.toUInt8 :: rest) last)).services =
      elements.flatMap (fun e => (parseAltSvc e).services) ++ (parseAltSvc last).services := by
  induction elements with
  | nil => rfl
  | cons e elements ih =>
    rw [List.foldr_cons, services_append e _ (hclosed e List.mem_cons_self),
      ih fun d hd => hclosed d (List.mem_cons_of_mem e hd), List.flatMap_cons, List.append_assoc]

/-! ### A single element -/

/-- A single element contributes one alternative, at most. -/
theorem length_services (e : List UInt8) (h : quoting.Unsplit .outside e) :
    (parseAltSvc e).services.length ≤ 1 := by
  have hskip : ∀ s, quoting.Unsplit .outside s → skipElement false s = [] := by
    intro s hs
    rw [skipElement_eq]
    exact hs.skip
  have hne : ∀ c s, quoting.Unsplit .outside (c :: s) → c ≠ ','.toUInt8 := by
    rintro _ s hs rfl
    exact hs [] s rfl rfl
  have hows := (elementwise_skipOws.advance e).unsplit h
  -- whatever the first pass does, it leaves nothing to read
  have hpass : listPass ([], e) = .inr [] ∨
      ∃ services : List AltService, services.length ≤ 1 ∧
        listPass ([], e) = .inl (services, []) := by
    unfold listPass
    dsimp only
    split
    · exact .inl rfl
    · rename_i c rest hc
      have hrest : quoting.Unsplit .outside (c :: rest) := hc ▸ hows
      right
      rw [if_neg (hne c rest hrest)]
      have hvalue := (elementwise_parseAltValue.advance (c :: rest)).unsplit hrest
      split
      · rename_i t ht
        rw [ht] at hvalue
        exact ⟨[], by decide, by rw [hskip t hvalue]⟩
      · rename_i service t ht
        rw [ht] at hvalue
        have hows' := (elementwise_skipOws.advance t).unsplit hvalue
        refine ⟨[service], Nat.le_refl 1, ?_⟩
        split
        · rfl
        · rename_i d rest' hd
          have hrest' : quoting.Unsplit .outside (d :: rest') := hd ▸ hows'
          rw [if_neg (hne d rest' hrest'), hskip _ hrest']
          rfl
  rw [services_parseAltSvc]
  rcases hpass with hpass | ⟨services, hlen, hpass⟩
  · rw [loop_of_inr _ hpass]
    exact Nat.zero_le 1
  · rw [loop_of_inl _ hpass, loop_nil]
    exact hlen

/-- **`parse_alt_svc()` is element-wise**: a comma outside of quotes takes the list apart; a single
element contributes one alternative at most; and the loops of the parser end. -/
theorem parseAltSvc_append (a b : List UInt8) (hclosed : quoting.Closed a) :
    (parseAltSvc (a ++ ','.toUInt8 :: b)).services =
        (parseAltSvc a).services ++ (parseAltSvc b).services ∧
      (∀ e, quoting.Unsplit .outside e → (parseAltSvc e).services.length ≤ 1) ∧
      (∀ services s, ∃ n, (iterate listPass n (services, s)).isSome = true) ∧
      ∀ p s, ∃ n, (iterate parametersPass n (p, s)).isSome = true := by
  refine ⟨services_append a b hclosed, length_services, ?_, ?_⟩
  · intro services s
    exact ⟨s.length + 1, iterate_isSome listPass_variant _ _ (Nat.lt_succ_self _)⟩
  · intro p s
    exact ⟨s.length + 1, iterate_isSome parametersPass_variant _ _ (Nat.lt_succ_self _)⟩

/-- A parameter whose value is a quoted string with a comma in it, behind which the element is over
sooner than it should be. -/
def garbledElement : List UInt8 :=
  text "h3=\":443\";ma=\"\\\",\"=x"

theorem parseAltSvc_append_garbled :
    quoting.Closed garbledElement ∧
      (parseAltSvc (garbledElement ++ ','.toUInt8 :: text "h2=\"a:1\"")).services =
        [⟨text "h3", [], text "443", 86400, false⟩,
          ⟨text "h2", text "a", text "1", 86400, false⟩] := by
  have hclosed : quoting.Closed garbledElement := by decide
  have hfirst : (parseAltSvc garbledElement).services =
      [⟨text "h3", [], text "443", 86400, false⟩] := by
    rw [show garbledElement = [104, 51, 61, 34, 58, 52, 52, 51, 34, 59, 109, 97, 61, 34, 92, 34, 44,
      34, 61, 120] by decide]
    decide
  have hsecond : (parseAltSvc (text "h2=\"a:1\"")).services =
      [⟨text "h2", text "a", text "1", 86400, false⟩] := by
    rw [show text "h2=\"a:1\"" = [104, 50, 61, 34, 97, 58, 49, 34] by decide]
    decide
  refine ⟨hclosed, ?_⟩
  rw [(parseAltSvc_append garbledElement _ hclosed).1, hfirst, hsecond]
  rfl

end AnyHttp.AltSvc
