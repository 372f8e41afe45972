import AnyHttp.Quic.Alpn
import Mathlib.Data.List.Induction

/-!
# The server's preference decides

A client's list is what `encode` makes of names, as far as it is well-formed: up to the first entry
that is not all there (`Entries`).  The names of the longest such part are the ones that the client
offers.

* `findEntry_of_entries`: the loop over the client's list.
* `choose_eq`: the loop over the applications.
* `addApplications_find?`: the first application of a kind is the one that has been registered
  first, with the factory it has got last.
* `alpnSelectCb_picks`: the callback.
-/

namespace AnyHttp.Quic.Alpn

open Lib

variable {Factory : Type}

/-! ### What a client offers -/

/-- A list of names, each of them behind its length. -/
def encode (names : List (List UInt8)) : List UInt8 :=
  names.flatMap fun name => UInt8.ofNat name.length :: name

/-- The names in the longest part of a list that is well-formed, from its beginning on. -/
structure Offers (list : List UInt8) (names : List (List UInt8)) : Prop where
  length_lt : ∀ name ∈ names, name.length < 256
  encoded : encode names <+: list
  longest : ∀ others : List (List UInt8), (∀ name ∈ others, name.length < 256) →
    encode others <+: list → (encode others).length ≤ (encode names).length

/-- The same, entry by entry. -/
inductive Entries : List UInt8 → List (List UInt8) → Prop
  | nil : Entries [] []
  | truncated {n : UInt8} {rest : List UInt8} : rest.length < n.toNat → Entries (n :: rest) []
  | cons {n : UInt8} {name rest : List UInt8} {names : List (List UInt8)} :
    name.length = n.toNat → Entries rest names → Entries (n :: (name ++ rest)) (name :: names)

theorem encode_cons (name : List UInt8) (names : List (List UInt8)) :
    encode (name :: names) = UInt8.ofNat name.length :: (name ++ encode names) := by
  rw [encode, List.flatMap_cons, List.cons_append, encode]

theorem toNat_ofNat_length {name : List UInt8} (h : name.length < 256) :
    (UInt8.ofNat name.length).toNat = name.length := by
  rw [UInt8.toNat_ofNat', Nat.mod_eq_of_lt h]

/-- Every list has entries. -/
theorem exists_entries (list : List UInt8) : ∃ names, Entries list names := by
  induction h : list.length using Nat.strong_induction_on generalizing list with
  | _ k ih =>
    cases list with
    | nil => exact ⟨[], .nil⟩
    | cons n rest =>
      by_cases hn : rest.length < n.toNat
      · exact ⟨[], .truncated hn⟩
      · rw [List.length_cons] at h
        obtain ⟨names, hnames⟩ := ih (rest.drop n.toNat).length
          (by rw [List.length_drop]; omega) (rest.drop n.toNat) rfl
        refine ⟨rest.take n.toNat :: names, ?_⟩
        have hlen : (rest.take n.toNat).length = n.toNat := by
          rw [List.length_take]
          omega
        have hcons := Entries.cons hlen hnames
        rw [List.take_append_drop] at hcons
        exact hcons

/-- A part that is well-formed and not empty begins with the first entry. -/
theorem prefix_entry {n : UInt8} {rest name : List UInt8} {names : List (List UInt8)}
    (h : encode (name :: names) <+: n :: rest) :
    n = UInt8.ofNat name.length ∧ ∃ tail, rest = name ++ tail ∧ encode names <+: tail := by
  rw [encode_cons] at h
  obtain ⟨hn, tail, htail⟩ := List.cons_prefix_cons.mp h
  refine ⟨hn.symm, encode names ++ tail, ?_, List.prefix_append _ _⟩
  rw [← htail, List.append_assoc]

theorem Entries.offers {list : List UInt8} {names : List (List UInt8)} (h : Entries list names) :
    Offers list names := by
  have hlen : ∀ {n : UInt8} {rest name : List UInt8} {others : List (List UInt8)},
      name.length < 256 → encode (name :: others) <+: n :: rest → name.length = n.toNat := by
    intro n rest name others hname hp
    rw [(prefix_entry hp).1, toNat_ofNat_length hname]
  induction h with
  | nil =>
    refine ⟨fun name h => (List.not_mem_nil h).elim, List.nil_prefix, ?_⟩
    intro others _ hp
    exact hp.length_le
  | @truncated n rest hn =>
    refine ⟨fun name h => (List.not_mem_nil h).elim, List.nil_prefix, ?_⟩
    intro others hothers hp
    cases others with
    | nil => exact Nat.le_refl _
    | cons name others =>
      have hname := hothers name List.mem_cons_self
      obtain ⟨_, tail, hrest, _⟩ := prefix_entry hp
      have hn' := hlen hname hp
      have hlength := congrArg List.length hrest
      rw [List.length_append] at hlength
      omega
  | @cons n name rest names hn _ ih =>
    have hname : name.length < 256 := hn ▸ n.toNat_lt
    have hfirst : UInt8.ofNat name.length = n := by rw [hn, UInt8.ofNat_toNat]
    refine ⟨?_, ?_, ?_⟩
    · intro other hother
      rcases List.mem_cons.mp hother with rfl | hother
      · exact hname
      · exact ih.length_lt other hother
    · rw [encode_cons, hfirst, List.cons_prefix_cons, List.prefix_append_right_inj]
      exact ⟨rfl, ih.encoded⟩
    · intro others hothers hp
      cases others with
      | nil => exact Nat.zero_le _
      | cons other others =>
        have hother := hothers other List.mem_cons_self
        have hsame : other.length = name.length := (hlen hother hp).trans hn.symm
        obtain ⟨_, tail, htail, hp'⟩ := prefix_entry hp
        obtain ⟨_, rfl⟩ := List.append_inj htail hsame.symm
        have hrest := ih.longest others (fun a ha => hothers a (List.mem_cons_of_mem other ha)) hp'
        rw [encode_cons, encode_cons, List.length_cons, List.length_append, List.length_cons,
          List.length_append]
        omega

theorem Offers.entries {list : List UInt8} {names : List (List UInt8)} (h : Offers list names) :
    Entries list names := by
  induction names generalizing list with
  | nil =>
    -- there is not even a first entry
    cases list with
    | nil => exact .nil
    | cons n rest =>
      apply Entries.truncated
      by_contra hn
      have hlen : (rest.take n.toNat).length = n.toNat := by
        rw [List.length_take]
        omega
      have hone := h.longest [rest.take n.toNat]
        (by
          intro name hname
          rw [List.mem_singleton.mp hname, hlen]
          exact n.toNat_lt)
        (by
          rw [encode_cons, hlen, UInt8.ofNat_toNat, List.cons_prefix_cons]
          refine ⟨rfl, rest.drop n.toNat, ?_⟩
          rw [encode, List.flatMap_nil, List.append_nil, List.take_append_drop])
      rw [encode_cons, List.length_cons] at hone
      exact absurd hone (Nat.not_succ_le_zero _)
  | cons name names ih =>
    have hname := h.length_lt name List.mem_cons_self
    cases list with
    | nil =>
      have hnil := h.encoded
      rw [encode_cons, List.prefix_nil] at hnil
      exact nomatch hnil
    | cons n rest =>
      obtain ⟨hn, tail, rfl, htail⟩ := prefix_entry h.encoded
      have hlen : name.length = n.toNat := by rw [hn, toNat_ofNat_length hname]
      apply Entries.cons hlen
      apply ih
      refine ⟨fun a ha => h.length_lt a (List.mem_cons_of_mem name ha), htail, ?_⟩
      intro others hothers hp
      have hall := h.longest (name :: others)
        (by
          intro a ha
          rcases List.mem_cons.mp ha with rfl | ha
          · exact hname
          · exact hothers a ha)
        (by
          rw [encode_cons, ← hn, List.cons_prefix_cons, List.prefix_append_right_inj]
          exact ⟨rfl, hp⟩)
      rw [encode_cons, encode_cons, List.length_cons, List.length_append, List.length_cons,
        List.length_append] at hall
      omega

/-! ### The two loops -/

/-- The entry of the name of an application, if there is one. -/
theorem findEntry_of_entries {list : List UInt8} {names : List (List UInt8)}
    (h : Entries list names) (alpn : Name) :
    findEntry alpn list = some (if alpn.bytes ∈ names then some alpn.bytes else none) := by
  unfold findEntry
  induction h with
  | nil => exact loop_of_inr _ rfl
  | truncated hn => exact loop_of_inr _ (entriesPass_truncated alpn hn)
  | @cons n name rest names hn _ ih =>
    have hlen : n.toNat ≤ (name ++ rest).length := by
      rw [List.length_append]
      omega
    have hpass := entriesPass_cons alpn hlen
    rw [← hn, List.take_left, List.drop_left] at hpass
    by_cases hname : name = alpn.bytes
    · rw [if_pos hname] at hpass
      rw [loop_of_inr _ hpass, if_pos (hname ▸ List.mem_cons_self), hname]
    · rw [if_neg hname] at hpass
      rw [loop_of_inl _ hpass, ih]
      have hmem : alpn.bytes ∈ name :: names ↔ alpn.bytes ∈ names := by
        rw [List.mem_cons]
        exact or_iff_right (Ne.symm hname)
      simp only [hmem]

/-- The first application that has been offered. -/
theorem choose_eq {list : List UInt8} {names : List (List UInt8)} (h : Entries list names)
    (applications : List (Name × Factory)) (factory : Option Factory) :
    choose list applications ([], factory) =
      match applications.find? (fun a => decide (a.1.bytes ∈ names)) with
      | some (alpn, registered) => some (alpn.bytes, some registered)
      | none => some ([], factory) := by
  induction applications with
  | nil => rfl
  | cons a applications ih =>
    obtain ⟨alpn, registered⟩ := a
    rw [choose, findEntry_of_entries h, Option.bind_eq_bind, Option.bind_some]
    by_cases hmem : alpn.bytes ∈ names
    · have hfind : ((alpn, registered) :: applications).find?
          (fun a => decide (a.1.bytes ∈ names)) = some (alpn, registered) := by
        rw [List.find?_cons, decide_eq_true hmem]
      rw [if_pos hmem, hfind]
      exact if_pos alpn.bytes_ne_nil
    · have hfind : ((alpn, registered) :: applications).find?
          (fun a => decide (a.1.bytes ∈ names)) =
            applications.find? (fun a => decide (a.1.bytes ∈ names)) := by
        rw [List.find?_cons, decide_eq_false hmem]
      rw [if_neg hmem, hfind, ← ih]
      exact if_neg (fun hne => hne rfl)

/-! ### The applications that have been registered -/

theorem addApplication_keys (alpn : Name) (factory : Factory)
    (applications : List (Name × Factory)) :
    (addApplication alpn factory applications).map Prod.fst =
      if alpn ∈ applications.map Prod.fst then applications.map Prod.fst
      else applications.map Prod.fst ++ [alpn] := by
  induction applications with
  | nil => rfl
  | cons a applications ih =>
    obtain ⟨registered, registeredFactory⟩ := a
    rw [addApplication, List.map_cons]
    by_cases heq : registered = alpn
    · rw [if_pos heq, heq, if_pos List.mem_cons_self, List.map_cons]
    · have hmem : alpn ∈ registered :: applications.map Prod.fst ↔
          alpn ∈ applications.map Prod.fst := by
        rw [List.mem_cons]
        exact or_iff_right (Ne.symm heq)
      rw [if_neg heq, List.map_cons, ih]
      simp only [hmem]
      split <;> rfl

/-- No name is registered twice. -/
theorem addApplications_nodup (calls : List (Name × Factory)) :
    ((addApplications calls).map Prod.fst).Nodup := by
  unfold addApplications
  induction calls using List.reverseRecOn with
  | nil => exact List.nodup_nil
  | append_singleton calls call ih =>
    rw [List.foldl_append, List.foldl_cons, List.foldl_nil, addApplication_keys]
    split
    · exact ih
    · rename_i hmem
      rw [List.nodup_append]
      refine ⟨ih, List.pairwise_singleton _ _, ?_⟩
      rintro a ha b hb rfl
      exact hmem (List.mem_singleton.mp hb ▸ ha)

theorem addApplication_find? (alpn : Name) (factory : Factory)
    (applications : List (Name × Factory)) (wanted : Name → Bool) :
    (addApplication alpn factory applications).find? (fun a => wanted a.1) =
      match applications.find? (fun a => wanted a.1) with
      | some (name, registered) => some (name, if name = alpn then factory else registered)
      | none => if wanted alpn then some (alpn, factory) else none := by
  induction applications with
  | nil =>
    rw [addApplication, List.find?_singleton, List.find?_nil]
  | cons a applications ih =>
    obtain ⟨registered, registeredFactory⟩ := a
    rw [addApplication]
    by_cases hwanted : wanted registered = true
    · have hfirst : ((registered, registeredFactory) :: applications).find?
          (fun a => wanted a.1) = some (registered, registeredFactory) :=
        List.find?_cons_of_pos hwanted
      rw [hfirst]
      by_cases heq : registered = alpn
      · rw [if_pos heq]
        dsimp only
        rw [if_pos heq]
        exact List.find?_cons_of_pos hwanted
      · rw [if_neg heq]
        dsimp only
        rw [if_neg heq]
        exact List.find?_cons_of_pos hwanted
    · have hskip : ∀ f, ((registered, f) :: applications).find? (fun a => wanted a.1) =
          applications.find? (fun a => wanted a.1) :=
        fun f => List.find?_cons_of_neg hwanted
      rw [hskip]
      by_cases heq : registered = alpn
      · rw [if_pos heq, hskip]
        -- the application that is replaced is not wanted, before or after
        subst heq
        rcases hfind : applications.find? (fun a => wanted a.1) with _ | ⟨name, f⟩
        · rw [hfind]
          exact (if_neg hwanted).symm
        · have hname : wanted name = true :=
            List.find?_some (p := fun a : Name × Factory => wanted a.1) hfind
          have hne : name ≠ registered := by
            rintro rfl
            exact hwanted hname
          rw [hfind]
          dsimp only
          rw [if_neg hne]
      · rw [if_neg heq, ← ih]
        exact List.find?_cons_of_neg hwanted

/-- What has been registered first of the names that are wanted, with the factory that it has been
registered with last. -/
def firstRegistered (calls : List (Name × Factory)) (wanted : Name → Bool) :
    Option (Name × Factory) :=
  ((calls.map Prod.fst).find? wanted).bind fun alpn =>
    calls.reverse.find? fun call => call.1 = alpn

theorem addApplications_find? (calls : List (Name × Factory)) (wanted : Name → Bool) :
    (addApplications calls).find? (fun a => wanted a.1) = firstRegistered calls wanted := by
  unfold addApplications
  induction calls using List.reverseRecOn with
  | nil => rfl
  | append_singleton calls call ih =>
    obtain ⟨alpn, factory⟩ := call
    rw [List.foldl_append, List.foldl_cons, List.foldl_nil, addApplication_find?, ih,
      firstRegistered, firstRegistered, List.map_append, List.find?_append, List.reverse_append]
    cases hfirst : (calls.map Prod.fst).find? wanted with
    | none =>
      rw [Option.bind_none, Option.none_or, List.map_singleton, List.find?_singleton]
      dsimp only
      by_cases hwanted : wanted alpn = true
      · rw [if_pos hwanted, if_pos hwanted, Option.bind_some, List.reverse_singleton,
          List.singleton_append, List.find?_cons, decide_eq_true rfl]
      · rw [if_neg hwanted, if_neg hwanted]
        rfl
    | some name =>
      rw [Option.some_or, Option.bind_some, Option.bind_some]
      have hmem : name ∈ calls.map Prod.fst := List.mem_of_find?_eq_some hfirst
      have hlast : ∃ f, calls.reverse.find? (fun call => call.1 = name) = some (name, f) := by
        obtain ⟨call, hcall, rfl⟩ := List.mem_map.mp hmem
        cases hfind : calls.reverse.find? (fun c => c.1 = call.1) with
        | none =>
          have hnone := List.find?_eq_none.mp hfind call (List.mem_reverse.mpr hcall)
          exact absurd (decide_eq_true rfl) hnone
        | some c =>
          have hname : c.1 = call.1 := by
            have hsome := List.find?_some hfind
            exact of_decide_eq_true hsome
          exact ⟨c.2, by rw [← hname]⟩
      obtain ⟨f, hf⟩ := hlast
      rw [hf]
      dsimp only
      rw [List.reverse_singleton, List.singleton_append, List.find?_cons]
      by_cases heq : name = alpn
      · rw [if_pos heq, heq, decide_eq_true rfl]
      · rw [if_neg heq, decide_eq_false (Ne.symm heq), hf]

/-! ### The callback -/

/-- **ALPN selection**: among the applications a client offers, the one that has been registered
first is selected, with its latest factory, unless another one has been selected for the session
before.  No name is registered twice; every list offers some names, if only none; and the loop over
it ends, without having gone beyond the end of the list, since there always is a result. -/
theorem alpnSelectCb_picks (calls : List (Name × Factory)) (list : List UInt8)
    (session : Session Factory) :
    ((addApplications calls).map Prod.fst).Nodup ∧
      (∃ names, Offers list names) ∧
      (∀ names, Offers list names →
        alpnSelectCb (addApplications calls) (some session) list =
          match firstRegistered calls (fun alpn => alpn.bytes ∈ names) with
          | none => some (.alertFatal, some session)
          | some (alpn, factory) =>
            if session.application = none then
              some (.ok alpn.bytes, some ⟨some factory, alpn.bytes⟩)
            else if alpn.bytes = session.alpn then some (.ok alpn.bytes, some session)
            else some (.alertFatal, some session)) ∧
      ∀ alpn s, ∃ n, (iterate (entriesPass alpn) n s).isSome = true := by
  refine ⟨addApplications_nodup calls, ?_, ?_, ?_⟩
  · obtain ⟨names, hnames⟩ := exists_entries list
    exact ⟨names, hnames.offers⟩
  · intro names hnames
    have hchoose := choose_eq hnames.entries (addApplications calls) none
    rw [addApplications_find? calls fun alpn => decide (alpn.bytes ∈ names)] at hchoose
    unfold alpnSelectCb
    dsimp only
    rw [hchoose]
    rcases firstRegistered calls (fun alpn => decide (alpn.bytes ∈ names)) with _ | ⟨alpn, factory⟩
    · rfl
    · dsimp only
      rw [Option.bind_eq_bind, Option.bind_some]
      dsimp only
      rw [if_neg alpn.bytes_ne_nil]
      unfold Session.selectApplication
      rcases happlication : session.application with _ | application
      · rfl
      · dsimp only
        rw [if_neg (show ¬ some application = none from nofun)]
        by_cases hsame : alpn.bytes = session.alpn
        · rw [if_pos hsame, beq_iff_eq.mpr hsame]
          rfl
        · rw [if_neg hsame, beq_eq_false_iff_ne.mpr hsame]
          rfl
  · intro alpn s
    exact ⟨s.length + 1, iterate_isSome (entriesPass_variant alpn) _ _ (Nat.lt_succ_self _)⟩

/-- The server's preference, and not the client's; with an empty entry, and one cut off. -/
example : alpnSelectCb (addApplications [(⟨[0x61], by decide, by decide⟩, 1),
    (⟨[0x62, 0x63], by decide, by decide⟩, 2), (⟨[0x61], by decide, by decide⟩, 3)])
    (some {}) [2, 0x62, 0x63, 0, 1, 0x61, 7, 0x61] =
      some (.ok [0x61], some ⟨some 3, [0x61]⟩) := by
  decide

end AnyHttp.Quic.Alpn
