import AnyHttp.AltSvc

/-!
# The grammar of an alt-authority

`Authority` is the grammar that `split_authority()` is there for: a host, which is either a name or
a literal in brackets, and a port behind a colon.  What the function takes besides is a literal with
something between its closing bracket and the colon (`Garbled`): the host it returns for that still
has the bracket, and has lost its last character instead.

* `splitAuthority_iff`: it is right about everything else.
-/

namespace AnyHttp

/-! ### Searching a text -/

variable {c d : UInt8} {s t u v : List UInt8}

theorem findIdx?_eq_none (h : c ∉ s) : s.findIdx? (· == c) = none := by
  rw [List.findIdx?_eq_none_iff]
  intro x hx
  exact beq_false_of_ne fun heq => h (heq ▸ hx)

theorem findIdx?_append_cons (h : c ∉ s) : (s ++ c :: t).findIdx? (· == c) = some s.length := by
  rw [List.findIdx?_append, findIdx?_eq_none h, List.findIdx?_cons, if_pos (beq_self_eq_true c)]
  simp

theorem find_eq_none (h : c ∉ t) : find c (s ++ t) s.length = none := by
  rw [find, List.drop_left, findIdx?_eq_none h]
  rfl

theorem find_append (h : c ∉ t) :
    find c (s ++ (t ++ c :: u)) s.length = some (s.length + t.length) := by
  rw [find, List.drop_left, findIdx?_append_cons h, Option.map_some, Nat.add_comm]

theorem rfind_eq_none (h : c ∉ s) : rfind c s = none := by
  rw [rfind, findIdx?_eq_none fun hmem => h (List.mem_reverse.mp hmem)]
  rfl

theorem rfind_append (h : c ∉ t) : rfind c (s ++ c :: t) = some s.length := by
  have hreverse : (s ++ c :: t).reverse = t.reverse ++ c :: s.reverse := by simp
  rw [rfind, hreverse, findIdx?_append_cons fun hmem => h (List.mem_reverse.mp hmem)]
  simp only [List.length_append, List.length_cons, List.length_reverse, Option.map_some]
  congr 1
  omega

/-- A character that is nowhere before itself splits a text in one way ... -/
theorem append_cons_inj (hs : c ∉ s) (hu : c ∉ u) (h : s ++ c :: t = u ++ c :: v) :
    s = u ∧ t = v := by
  have hlength : s.length = u.length := by
    have hfind := findIdx?_append_cons (t := t) hs
    rw [h, findIdx?_append_cons hu] at hfind
    exact (Option.some.inj hfind).symm
  obtain ⟨hsu, htv⟩ := List.append_inj h hlength
  exact ⟨hsu, (List.cons.inj htv).2⟩

/-- ... and so does one that is nowhere behind itself. -/
theorem append_cons_inj' (ht : c ∉ t) (hv : c ∉ v) (h : s ++ c :: t = u ++ c :: v) :
    s = u ∧ t = v := by
  have hreverse : t.reverse ++ c :: s.reverse = v.reverse ++ c :: u.reverse := by
    simpa using congrArg List.reverse h
  obtain ⟨htv, hsu⟩ := append_cons_inj (fun hmem => ht (List.mem_reverse.mp hmem))
    (fun hmem => hv (List.mem_reverse.mp hmem)) hreverse
  exact ⟨List.reverse_inj.mp hsu, List.reverse_inj.mp htv⟩

/-! ### The grammar -/

namespace AltSvc

abbrev colon : UInt8 := ':'.toUInt8
abbrev opening : UInt8 := '['.toUInt8
abbrev closing : UInt8 := ']'.toUInt8

/-- Digits, and at least one of them. -/
def IsPort (port : List UInt8) : Prop := port ≠ [] ∧ ∀ c ∈ port, isDigit c = true

/-- A text that is a host and a port; the brackets of a literal are not part of the host. -/
inductive Authority : List UInt8 → List UInt8 → List UInt8 → Prop
  | name {host port : List UInt8} (hhost : host.head? ≠ some opening) (hport : IsPort port) :
      Authority (host ++ colon :: port) host port
  | literal {host port : List UInt8} (hhost : closing ∉ host) (hport : IsPort port) :
      Authority (opening :: (host ++ closing :: colon :: port)) host port

/-- A literal with something between the closing bracket and the colon. -/
def Garbled (s : List UInt8) : Prop :=
  ∃ host junk port, s = opening :: (host ++ closing :: (junk ++ colon :: port)) ∧
    closing ∉ host ∧ junk ≠ [] ∧ colon ∉ junk ∧ IsPort port

variable {host junk port tail : List UInt8}

instance : DecidablePred IsPort := fun _ => inferInstanceAs (Decidable (_ ∧ _))

theorem not_isPort_iff : ¬IsPort port ↔ port = [] ∨ port.all isDigit = false := by
  rw [IsPort, not_and_or, not_not, ← Bool.not_eq_true, List.all_eq_true]

theorem IsPort.not_mem (h : IsPort port) : colon ∉ port := by
  intro hmem
  exact absurd (h.2 colon hmem) (by decide)

/-! ### What the function makes of a text -/

/-- What is in front of the colon that has been found, and what is behind it. -/
def cut (authority : List UInt8) (literal : Prop) [Decidable literal] (i : Nat) :
    Option (List UInt8 × List UInt8) :=
  let digits := authority.drop (i + 1)
  if digits = [] ∨ digits.all isDigit = false then none
  else
    let uriHost := authority.take i
    some (if literal then (uriHost.drop 1).take (uriHost.length - 2) else uriHost, digits)

theorem cut_append (literal : Prop) [Decidable literal] :
    cut (host ++ colon :: port) literal host.length =
      if IsPort port then
        some (if literal then (host.drop 1).take (host.length - 2) else host, port)
      else none := by
  have hdrop : (host ++ colon :: port).drop (host.length + 1) = port := by
    rw [← List.drop_drop, List.drop_left]
    rfl
  unfold cut
  rw [hdrop, List.take_left]
  by_cases hport : IsPort port
  · rw [if_pos hport, if_neg fun h => not_isPort_iff.mpr h hport]
  · rw [if_neg hport, if_pos (not_isPort_iff.mp hport)]

theorem splitAuthority_of_name (h : s.head? ≠ some opening) :
    splitAuthority s = (rfind colon s).bind (cut s False) := by
  unfold splitAuthority
  simp only [h, false_and, if_false]
  rfl

theorem splitAuthority_of_literal (hhost : closing ∉ host) :
    splitAuthority (opening :: (host ++ closing :: tail)) =
      (find colon (opening :: (host ++ closing :: tail)) (host.length + 1)).bind
        (cut (opening :: (host ++ closing :: tail)) True) := by
  have hfind : find closing (opening :: (host ++ closing :: tail)) 0 = some (host.length + 1) := by
    have hnot : closing ∉ opening :: host := by
      intro hmem
      exact (List.mem_cons.mp hmem).elim (fun heq => absurd heq (by decide)) hhost
    exact (find_append (s := []) hnot).trans (by simp)
  unfold splitAuthority
  simp only [hfind, List.head?_cons, Option.isSome_some, Option.bind_some, and_self, if_true]
  rfl

/-- A name, and what follows its last colon. -/
theorem splitAuthority_name (hhost : host.head? ≠ some opening) (hport : colon ∉ port) :
    splitAuthority (host ++ colon :: port) = if IsPort port then some (host, port) else none := by
  have hhead : (host ++ colon :: port).head? ≠ some opening := by
    cases host with
    | nil => exact fun heq => absurd (Option.some.inj heq) (by decide)
    | cons c host => exact hhost
  rw [splitAuthority_of_name hhead, rfind_append hport, Option.bind_some, cut_append,
    if_neg not_false]

/-- A literal, and what follows the first colon behind it. -/
theorem splitAuthority_literal (hhost : closing ∉ host) (hjunk : colon ∉ junk) :
    splitAuthority (opening :: (host ++ closing :: (junk ++ colon :: port))) =
      if IsPort port then some ((host ++ closing :: junk).dropLast, port) else none := by
  have hsearch : colon ∉ closing :: junk := by
    intro hmem
    exact (List.mem_cons.mp hmem).elim (fun heq => absurd heq (by decide)) hjunk
  have hfind := find_append (s := opening :: host) (u := port) hsearch
  have hsplit : opening :: (host ++ closing :: (junk ++ colon :: port)) =
      (opening :: (host ++ closing :: junk)) ++ colon :: port := by simp
  have hlength : (opening :: host).length + (closing :: junk).length =
      (opening :: (host ++ closing :: junk)).length := by
    simp only [List.length_cons, List.length_append]
    omega
  rw [splitAuthority_of_literal hhost]
  show (find colon ((opening :: host) ++ ((closing :: junk) ++ colon :: port))
    (opening :: host).length).bind _ = _
  rw [hfind, Option.bind_some, hlength, hsplit, cut_append, if_pos trivial]
  -- both brackets are taken off, or what stands in place of the second one
  have hbrackets : ((opening :: (host ++ closing :: junk)).drop 1).take
      ((opening :: (host ++ closing :: junk)).length - 2) = (host ++ closing :: junk).dropLast := by
    rw [List.dropLast_eq_take]
    rfl
  rw [hbrackets]

theorem splitAuthority_unterminated (h : closing ∉ tail) :
    splitAuthority (opening :: tail) = none := by
  have hnot : closing ∉ opening :: tail := by
    intro hmem
    exact (List.mem_cons.mp hmem).elim (fun heq => absurd heq (by decide)) h
  have hfind : find closing (opening :: tail) 0 = none := find_eq_none (s := []) hnot
  unfold splitAuthority
  simp only [hfind, List.head?_cons, if_true, Option.bind_none]

theorem splitAuthority_of_not_mem (h : colon ∉ s) : splitAuthority s = none := by
  -- without a colon, a bracket makes no difference
  by_cases hhead : s.head? = some opening
  · obtain ⟨rest, rfl⟩ : ∃ rest, s = opening :: rest := List.head?_eq_some_iff.mp hhead
    by_cases hclosing : closing ∈ rest
    · obtain ⟨host, tail, rfl, hhost⟩ := List.eq_append_cons_of_mem hclosing
      have htail : colon ∉ closing :: tail :=
        fun hmem => h (List.mem_cons_of_mem _ (List.mem_append_right host hmem))
      have hfind := find_eq_none (s := opening :: host) htail
      rw [splitAuthority_of_literal hhost]
      exact (congrArg (Option.bind · _) hfind).trans rfl
    · exact splitAuthority_unterminated hclosing
  · rw [splitAuthority_of_name hhead, rfind_eq_none h]
    rfl

/-! ### What the grammar makes of it -/

theorem authority_iff : Authority s host port ↔ IsPort port ∧
    (host.head? ≠ some opening ∧ s = host ++ colon :: port ∨
      closing ∉ host ∧ s = opening :: (host ++ closing :: colon :: port)) := by
  constructor
  · intro h
    cases h with
    | name hhost hport => exact ⟨hport, .inl ⟨hhost, rfl⟩⟩
    | literal hhost hport => exact ⟨hport, .inr ⟨hhost, rfl⟩⟩
  · rintro ⟨hport, ⟨hhost, rfl⟩ | ⟨hhost, rfl⟩⟩
    · exact .name hhost hport
    · exact .literal hhost hport

theorem Authority.mem_colon (h : Authority s host port) : colon ∈ s := by
  cases h with
  | name hhost hport => simp
  | literal hhost hport => simp

theorem authority_name {host' port' : List UInt8} (hhost : host.head? ≠ some opening)
    (hport : colon ∉ port) : Authority (host ++ colon :: port) host' port' ↔
      IsPort port ∧ host = host' ∧ port = port' := by
  rw [authority_iff]
  constructor
  · rintro ⟨hport', ⟨_, heq⟩ | ⟨_, heq⟩⟩
    · obtain ⟨rfl, rfl⟩ := append_cons_inj' hport hport'.not_mem heq
      exact ⟨hport', rfl, rfl⟩
    · cases host with
      | nil => exact absurd (List.cons.inj heq).1 (by decide)
      | cons c host => exact absurd (congrArg some (List.cons.inj heq).1) hhost
  · rintro ⟨hport', rfl, rfl⟩
    exact ⟨hport', .inl ⟨hhost, rfl⟩⟩

theorem authority_literal {host' port' : List UInt8} (hhost : closing ∉ host) :
    Authority (opening :: (host ++ closing :: tail)) host' port' ↔
      IsPort port' ∧ host = host' ∧ tail = colon :: port' := by
  rw [authority_iff]
  constructor
  · rintro ⟨hport, ⟨hhost', heq⟩ | ⟨hhost', heq⟩⟩
    · cases host' with
      | nil => exact absurd (List.cons.inj heq).1 (by decide)
      | cons c host' => exact absurd (congrArg some (List.cons.inj heq).1.symm) hhost'
    · obtain ⟨rfl, rfl⟩ := append_cons_inj hhost hhost' (List.cons.inj heq).2
      exact ⟨hport, rfl, rfl⟩
  · rintro ⟨hport, rfl, rfl⟩
    exact ⟨hport, .inr ⟨hhost, rfl⟩⟩

/-- What is garbled, of the texts with a literal. -/
theorem garbled_literal (hhost : closing ∉ host) (hjunk : colon ∉ junk) :
    Garbled (opening :: (host ++ closing :: (junk ++ colon :: port))) ↔
      junk ≠ [] ∧ IsPort port := by
  constructor
  · rintro ⟨host', junk', port', heq, hhost', hne, hjunk', hport'⟩
    obtain ⟨_, htail⟩ := append_cons_inj hhost hhost' (List.cons.inj heq).2
    obtain ⟨rfl, rfl⟩ := append_cons_inj hjunk hjunk' htail
    exact ⟨hne, hport'⟩
  · rintro ⟨hne, hport⟩
    exact ⟨host, junk, port, rfl, hhost, hne, hjunk, hport⟩

theorem Garbled.mem (h : Garbled s) : s.head? = some opening ∧ closing ∈ s.tail ∧ colon ∈ s := by
  obtain ⟨host, junk, port, rfl, _⟩ := h
  simp

/-- The function and the grammar agree about a text. -/
def Agrees (s : List UInt8) : Prop :=
  ∀ host port, splitAuthority s = some (host, port) ↔ Authority s host port

theorem agrees_of_none (hnone : splitAuthority s = none)
    (hauthority : ∀ host port, ¬Authority s host port) : Agrees s := by
  intro host port
  rw [hnone]
  exact iff_of_false nofun (hauthority host port)

theorem agrees_name (hhost : host.head? ≠ some opening) (hport : colon ∉ port) :
    Agrees (host ++ colon :: port) := by
  intro host' port'
  rw [splitAuthority_name hhost hport, authority_name hhost hport]
  by_cases hdigits : IsPort port
  · rw [if_pos hdigits, Option.some.injEq, Prod.mk.injEq, and_iff_right hdigits]
  · rw [if_neg hdigits]
    exact iff_of_false nofun fun h => hdigits h.1

/-- There is nothing behind a literal but a colon and a port, or it is garbled. -/
theorem agrees_literal (hhost : closing ∉ host) (hjunk : colon ∉ junk) :
    Agrees (opening :: (host ++ closing :: (junk ++ colon :: port))) ↔
      ¬(junk ≠ [] ∧ IsPort port) := by
  have htail {port' : List UInt8} :
      junk ++ colon :: port = colon :: port' ↔ junk = [] ∧ port = port' := by
    constructor
    · intro heq
      obtain ⟨rfl, rfl⟩ := append_cons_inj hjunk List.not_mem_nil heq
      exact ⟨rfl, rfl⟩
    · rintro ⟨rfl, rfl⟩
      rfl
  unfold Agrees
  simp only [splitAuthority_literal hhost hjunk, authority_literal hhost, htail]
  -- only with a port is there anything to tell apart
  by_cases hport : IsPort port
  · by_cases hempty : junk = []
    · subst hempty
      refine iff_of_true (fun host' port' => ?_) fun h => h.1 rfl
      rw [if_pos hport, Option.some.injEq, Prod.mk.injEq, List.dropLast_concat]
      constructor
      · rintro ⟨rfl, rfl⟩
        exact ⟨hport, rfl, rfl, rfl⟩
      · rintro ⟨_, rfl, _, rfl⟩
        exact ⟨rfl, rfl⟩
    · refine iff_of_false (fun hall => ?_) (not_not_intro ⟨hempty, hport⟩)
      have hgrammar := (hall _ _).mp (if_pos hport)
      exact hempty hgrammar.2.2.1
  · refine iff_of_true (fun host' port' => ?_) fun h => hport h.2
    rw [if_neg hport]
    refine iff_of_false nofun ?_
    rintro ⟨hport', _, _, rfl⟩
    exact hport hport'

/-- **`split_authority()` follows the grammar**, unless there is something between the bracket that
closes a literal and the colon. -/
theorem splitAuthority_iff (s : List UInt8) :
    (∀ host port, splitAuthority s = some (host, port) ↔ Authority s host port) ↔ ¬Garbled s := by
  show Agrees s ↔ ¬Garbled s
  -- the shape of the text: a name, or a literal that is closed or not
  by_cases hcolon : colon ∈ s
  · by_cases hhead : s.head? = some opening
    · obtain ⟨rest, rfl⟩ : ∃ rest, s = opening :: rest := List.head?_eq_some_iff.mp hhead
      by_cases hclosing : closing ∈ rest
      · obtain ⟨host, tail, rfl, hhost⟩ := List.eq_append_cons_of_mem hclosing
        by_cases htail : colon ∈ tail
        · obtain ⟨junk, port, rfl, hjunk⟩ := List.eq_append_cons_of_mem htail
          rw [agrees_literal hhost hjunk, garbled_literal hhost hjunk]
        · -- the only colons are part of the literal
          have hfind := find_eq_none (s := opening :: host) (c := colon) (t := closing :: tail)
            fun hmem => (List.mem_cons.mp hmem).elim (fun heq => absurd heq (by decide)) htail
          refine iff_of_true (agrees_of_none ?_ fun host' port' h => ?_) fun hgarbled => ?_
          · rw [splitAuthority_of_literal hhost]
            exact (congrArg (Option.bind · _) hfind).trans rfl
          · obtain ⟨_, _, rfl⟩ := (authority_literal hhost).mp h
            exact htail List.mem_cons_self
          · obtain ⟨host', junk, port, heq, hhost', _⟩ := hgarbled
            obtain ⟨_, rfl⟩ := append_cons_inj hhost hhost' (List.cons.inj heq).2
            simp at htail
      · refine iff_of_true (agrees_of_none (splitAuthority_unterminated hclosing) ?_)
          fun hgarbled => hclosing hgarbled.mem.2.1
        intro host port h
        obtain ⟨_, ⟨hhost, heq⟩ | ⟨_, heq⟩⟩ := authority_iff.mp h
        · cases host with
          | nil => exact absurd (List.cons.inj heq).1 (by decide)
          | cons c host => exact hhost (congrArg some (List.cons.inj heq).1.symm)
        · rw [(List.cons.inj heq).2] at hclosing
          simp at hclosing
    · obtain ⟨port, host, hreverse, hport⟩ :=
        List.eq_append_cons_of_mem (List.mem_reverse.mpr hcolon)
      obtain rfl : s = host.reverse ++ colon :: port.reverse := by
        rw [← List.reverse_reverse s, hreverse]
        simp
      have hhost : host.reverse.head? ≠ some opening := by
        intro heq
        obtain ⟨rest, hrest⟩ := List.head?_eq_some_iff.mp heq
        rw [hrest] at hhead
        exact hhead rfl
      refine iff_of_true (agrees_name hhost fun hmem => hport (List.mem_reverse.mp hmem)) ?_
      exact fun hgarbled => hhead hgarbled.mem.1
  · exact iff_of_true (agrees_of_none (splitAuthority_of_not_mem hcolon) fun _ _ h =>
      hcolon h.mem_colon) fun hgarbled => hcolon hgarbled.mem.2.2

/-- The bracket is handed out as part of the host, which has lost its last character. -/
theorem splitAuthority_garbled :
    splitAuthority (text "[::1]xy:443") = some (text "::1]x", text "443") ∧
      ¬∀ host port, splitAuthority (text "[::1]xy:443") = some (host, port) ↔
        Authority (text "[::1]xy:443") host port := by
  have hsplit : splitAuthority (text "[::1]xy:443") = some (text "::1]x", text "443") := by decide
  refine ⟨hsplit, fun hall => ?_⟩
  obtain ⟨_, ⟨_, heq⟩ | ⟨_, heq⟩⟩ := authority_iff.mp ((hall _ _).mp hsplit)
  · exact absurd heq (by decide)
  · exact absurd heq (by decide)

end AltSvc

end AnyHttp
