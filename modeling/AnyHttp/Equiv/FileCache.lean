import AnyHttp.Equiv.FileHandler
import AnyHttp.FileCache

/-!
# The file cache keeps what has been used last

`FileCache.insert` comes down to keeping the first keys of the list, as many as there is room for
(`insert_eq_keep`), and the list is in the order of use (`Recent`).  The containers of the source do
the same with their iterators (`Linked.insert`, `Linked.lookup`), which never dangle.

* `lru_invariants`: what holds after any sequence of operations.
-/

namespace AnyHttp

open Lib

namespace FileCache

variable {c c' : FileCache} {key : List UInt8} {entry : CachedFile} {used : List (List UInt8)}

/-! ### How much is kept -/

/-- The cache before the loop of `insert()`. -/
def put (c : FileCache) (key : List UInt8) (entry : CachedFile) : FileCache where
  entries := (key, entry) :: (c.erase key).entries
  lru := key :: (c.erase key).lru
  bytes := (c.erase key).bytes + entry.file.size

/-- The cache with the first keys of the list only. -/
def keep (c : FileCache) (n : Nat) : FileCache where
  entries := c.entries.filter (·.1 ∈ c.lru.take n)
  lru := c.lru.take n
  bytes := ((c.entries.filter (·.1 ∈ c.lru.take n)).map (·.2.file.size)).sum

/-- No key is in the list twice, ... -/
theorem WellFormed.nodup (h : c.WellFormed) : c.lru.Nodup := h.lru.nodup_iff.mpr h.keys

/-- ... and there are as many as there are slots. -/
theorem WellFormed.length (h : c.WellFormed) : c.lru.length = c.entries.length := by
  rw [h.lru.length_eq, List.length_map]

theorem WellFormed.mem (h : c.WellFormed) {x : List UInt8 × CachedFile} (hx : x ∈ c.entries) :
    x.1 ∈ c.lru := h.lru.mem_iff.mpr (List.mem_map_of_mem hx)

theorem WellFormed.keep_length (h : c.WellFormed) : c.keep c.lru.length = c := by
  have hall : c.entries.filter (·.1 ∈ c.lru.take c.lru.length) = c.entries := by
    apply List.filter_eq_self.mpr
    intro x hx
    rw [List.take_length]
    exact decide_eq_true (h.mem hx)
  unfold keep
  rw [hall, List.take_length, ← h.bytes]

/-- To keep `m` keys and then `n` of them is to keep `n`. -/
theorem keep_keep {n m : Nat} (hnm : n ≤ m) : (c.keep m).keep n = c.keep n := by
  have htake : (c.lru.take m).take n = c.lru.take n := by rw [List.take_take, Nat.min_eq_left hnm]
  have hentries : (c.entries.filter (·.1 ∈ c.lru.take m)).filter (·.1 ∈ c.lru.take n) =
      c.entries.filter (·.1 ∈ c.lru.take n) := by
    rw [List.filter_filter]
    apply List.filter_congr
    intro x _
    -- an entry that is kept by the smaller number is kept by the other one, too
    by_cases hx : x.1 ∈ c.lru.take n
    · simp [hx, List.take_subset_take_left c.lru hnm hx]
    · simp [hx]
  show (⟨_, _, _⟩ : FileCache) = ⟨_, _, _⟩
  unfold keep
  dsimp only
  rw [htake, hentries]

/-- A pass that goes on gives up the last key, with which there is no room. -/
theorem WellFormed.evictPass_keep (h : c.WellFormed) (hpass : FileCache.evictPass c = .inl c') :
    c' = c.keep (c.lru.length - 1) ∧ 1 < c.lru.length ∧ ¬c.InBounds := by
  have hwf := h.evictPass hpass
  unfold FileCache.evictPass at hpass
  split at hpass
  · rename_i hmore
    obtain ⟨victim, entry, hlru, hlookup⟩ := h.victim hmore.1
    rw [hlru, List.getLast?_concat, List.dropLast_concat] at hpass
    dsimp only at hpass
    obtain rfl := Sum.inl.inj hpass
    have hentries : c.entries.filter (·.1 ≠ victim) =
        c.entries.filter (·.1 ∈ c.lru.take (c.lru.length - 1)) := by
      apply List.filter_congr
      intro x hx
      have hmem := h.mem hx
      have hnodup := h.nodup
      rw [← List.dropLast_eq_take, decide_eq_decide]
      rw [hlru] at hmem hnodup
      have hnot : victim ∉ c.lru.dropLast := fun hmem =>
        (List.nodup_append.mp hnodup).2.2 victim hmem victim List.mem_cons_self rfl
      constructor
      · intro hne
        exact (List.mem_append.mp hmem).resolve_right fun hx => hne (List.mem_singleton.mp hx)
      · intro hmem heq
        exact hnot (heq ▸ hmem)
    refine ⟨?_, ?_, ?_⟩
    · unfold keep
      rw [← hentries, ← List.dropLast_eq_take]
      exact congrArg _ hwf.bytes
    · rw [h.length]
      exact hmore.1
    · rintro ⟨hentries, hbytes⟩
      omega
  · exact nomatch hpass

/-- **Eviction**: the loop keeps as much as there is room for, and at least one key. -/
theorem WellFormed.loop_keep (h : c.WellFormed) (hne : c.lru ≠ []) :
    ∃ n, 0 < n ∧ n ≤ c.lru.length ∧ loop evictPass_variant c = c.keep n ∧
      ∀ m, n < m → m ≤ c.lru.length → ¬(c.keep m).InBounds := by
  refine loop_induction evictPass_variant
    (P := fun c c' => c.WellFormed → c.lru ≠ [] → ∃ n, 0 < n ∧ n ≤ c.lru.length ∧ c' = c.keep n ∧
      ∀ m, n < m → m ≤ c.lru.length → ¬(c.keep m).InBounds) ?_ ?_ c h hne
  · intro c c₁ hpass ih h hne
    obtain ⟨rfl, hmore, hfull⟩ := h.evictPass_keep hpass
    have hlength : (c.keep (c.lru.length - 1)).lru.length = c.lru.length - 1 := by
      show (c.lru.take (c.lru.length - 1)).length = c.lru.length - 1
      rw [List.length_take]
      omega
    have hne₁ : (c.keep (c.lru.length - 1)).lru ≠ [] := by
      apply List.ne_nil_of_length_pos
      omega
    obtain ⟨n, hpos, hle, hloop, hmax⟩ := ih (h.evictPass hpass) hne₁
    rw [hlength] at hle hmax
    refine ⟨n, hpos, by omega, ?_, ?_⟩
    · rw [hloop, keep_keep hle]
    · intro m hm hm'
      -- the cache as it is, or one that a pass has left
      by_cases hlast : m = c.lru.length
      · rw [hlast, h.keep_length]
        exact hfull
      · have hle' : m ≤ c.lru.length - 1 := by omega
        have hroom := hmax m hm hle'
        rw [keep_keep hle'] at hroom
        exact hroom
  · intro c c' hpass h hne
    refine ⟨c.lru.length, List.length_pos_of_ne_nil hne, Nat.le_refl _, ?_, ?_⟩
    · rw [h.keep_length, evictPass_leave hpass]
    · intro m hm hm'
      omega

/-- A key that is put in front has its slot, and no other one. -/
theorem WellFormed.put (h : c.WellFormed) (key : List UInt8) (entry : CachedFile) :
    (c.put key entry).WellFormed := by
  have herase := h.erase key
  refine ⟨?_, ?_, ?_⟩
  · exact List.nodup_cons.mpr ⟨erase_not_mem key, herase.keys⟩
  · exact herase.lru.cons key
  · show (c.erase key).bytes + entry.file.size = _
    rw [herase.bytes]
    show _ = (List.map _ ((key, entry) :: (c.erase key).entries)).sum
    rw [List.map_cons, List.sum_cons]
    exact Nat.add_comm _ _

/-- **The eviction** keeps the most recent keys, as many as fit and one at least. -/
theorem WellFormed.insert_eq_keep (h : c.WellFormed) (key : List UInt8) (entry : CachedFile) :
    ∃ n, 0 < n ∧ n ≤ (c.put key entry).lru.length ∧
      c.insert key entry = (c.put key entry).keep n ∧
      ∀ m, n < m → m ≤ (c.put key entry).lru.length → ¬((c.put key entry).keep m).InBounds :=
  (h.put key entry).loop_keep (List.cons_ne_nil _ _)

/-- What is inserted is kept. -/
theorem keep_lookup {n : Nat} (hpos : 0 < n) :
    ((c.put key entry).keep n).entries.lookup key = some entry := by
  have hfront : key ∈ (c.put key entry).lru.take n := by
    obtain ⟨k, rfl⟩ : ∃ k, n = k + 1 := ⟨n - 1, by omega⟩
    exact List.mem_cons_self
  have hentries : (c.put key entry).entries = (key, entry) :: (c.erase key).entries := rfl
  unfold keep
  dsimp only
  rw [hentries, List.filter_cons_of_pos (by simpa using hfront), List.lookup_cons_self]

/-! ### In the order of use -/

/-- The list is in the order of use: `used` has the keys that have been asked for or inserted, the
last one first. -/
def Recent (used : List (List UInt8)) (c : FileCache) : Prop :=
  c.lru.Pairwise fun a b => used.idxOf a < used.idxOf b

/-- A use of a key that is not there changes nothing. -/
theorem Recent.other (h : c.Recent used) (hkey : key ∉ c.lru) : c.Recent (key :: used) := by
  refine List.Pairwise.imp_of_mem ?_ h
  intro a b ha hb hab
  have hne (x : List UInt8) (hx : x ∈ c.lru) : key ≠ x := fun heq => hkey (heq ▸ hx)
  rw [List.idxOf_cons_ne _ (hne a ha), List.idxOf_cons_ne _ (hne b hb)]
  exact Nat.succ_lt_succ hab

/-- The key that is used now goes to the front. -/
theorem Recent.front (h : c.Recent used) {rest : List (List UInt8)} (hrest : rest.Sublist c.lru)
    (hkey : key ∉ rest) (hlru : c'.lru = key :: rest) : c'.Recent (key :: used) := by
  have hold : Recent (key :: used) { c' with lru := rest } :=
    Recent.other (c := { c' with lru := rest }) (List.Pairwise.sublist hrest h) hkey
  unfold Recent
  rw [hlru]
  refine List.pairwise_cons.mpr ⟨fun b hb => ?_, hold⟩
  have hne : key ≠ b := fun heq => hkey (heq ▸ hb)
  rw [List.idxOf_cons_self, List.idxOf_cons_ne _ hne]
  exact Nat.succ_pos _

/-- **Step lemma** for `lookup()`: the key that has been used last is in front. -/
theorem Recent.lookup (h : c.Recent used) (hwf : c.WellFormed) (key : List UInt8) :
    (c.lookup key).1.Recent (key :: used) := by
  unfold FileCache.lookup
  cases hlookup : c.entries.lookup key with
  | none =>
    apply h.other
    intro hmem
    obtain ⟨entry, hentry⟩ := hwf.lookup_isSome.mp hmem
    rw [hlookup] at hentry
    cases hentry
  | some entry =>
    exact h.front List.erase_sublist (fun hmem => hwf.nodup.not_mem_erase hmem) rfl

theorem lru_erase (hwf : c.WellFormed) (key : List UInt8) :
    (c.erase key).lru = c.lru.erase key := by
  unfold FileCache.erase
  cases hlookup : c.entries.lookup key with
  | none =>
    have hnot : key ∉ c.lru := by
      intro hmem
      obtain ⟨entry, hentry⟩ := hwf.lookup_isSome.mp hmem
      rw [hlookup] at hentry
      cases hentry
    exact (List.erase_of_not_mem hnot).symm
  | some entry => rfl

/-- **Step lemma** for `insert()`. -/
theorem Recent.insert (h : c.Recent used) (hwf : c.WellFormed) (key : List UInt8)
    (entry : CachedFile) : (c.insert key entry).Recent (key :: used) := by
  have hput : (c.put key entry).Recent (key :: used) := by
    refine h.front List.erase_sublist (fun hmem => hwf.nodup.not_mem_erase hmem) ?_
    rw [← lru_erase hwf key]
    rfl
  obtain ⟨n, _, _, hinsert, _⟩ := hwf.insert_eq_keep key entry
  rw [hinsert]
  exact List.Pairwise.sublist (List.take_sublist _ _) hput

theorem InBounds.lookup (h : c.InBounds) (key : List UInt8) : (c.lookup key).1.InBounds := by
  unfold FileCache.lookup
  cases c.entries.lookup key with
  | none => exact h
  | some entry => exact h

theorem WellFormed.size_le (h : c.WellFormed) (hlookup : c.entries.lookup key = some entry) :
    entry.file.size ≤ c.bytes := by
  have hsum := ((h.perm hlookup).map (·.2.file.size)).sum_eq
  rw [List.map_cons, List.sum_cons] at hsum
  rw [h.bytes, hsum]
  exact Nat.le_add_right _ _

end FileCache

/-! ### The iterators -/

namespace LinkedCache

variable {c c' : LinkedCache} {key : List UInt8} {entry : CachedFile}

/-- The cache without addresses. -/
def plain (c : LinkedCache) : FileCache where
  entries := c.entries.map fun x => (x.1, x.2.entry)
  lru := c.lru.map Prod.snd
  bytes := c.bytes.toNat

/-- No two nodes are in one place, and every slot points at the node of its own key. -/
structure Linked (c : LinkedCache) : Prop where
  nodes : (c.lru.map Prod.fst).Nodup
  points : ∀ x ∈ c.entries, (x.2.lru, x.1) ∈ c.lru
  bytes : c.bytes = c.plain.bytes
  wellFormed : c.plain.WellFormed

/-- The slot that is found is the same without its address. -/
theorem plain_lookup (c : LinkedCache) (key : List UInt8) :
    c.plain.entries.lookup key = (c.entries.lookup key).map Slot.entry := by
  show (c.entries.map fun x => (x.1, x.2.entry)).lookup key = _
  induction c.entries with
  | nil => rfl
  | cons x xs ih =>
    rw [List.map_cons, List.lookup_cons, List.lookup_cons]
    cases hx : key == x.1 with
    | true => rfl
    | false => exact ih

theorem mem_of_lookup {slot : Slot} (hlookup : c.entries.lookup key = some slot) :
    (key, slot) ∈ c.entries := by
  obtain ⟨front, back, hentries, _⟩ := List.lookup_eq_some_iff.mp hlookup
  rw [hentries]
  exact List.mem_append_right _ List.mem_cons_self

/-- An iterator of the list is dereferenced, and erased, at the place of its node. -/
theorem takeNode_of_mem {nodes : List (Nat × List UInt8)} {it : Nat}
    (hnodes : (nodes.map Prod.fst).Nodup) (h : (it, key) ∈ nodes) :
    ∃ front back, nodes = front ++ (it, key) :: back ∧
      takeNode nodes it = some ((it, key), front ++ back) := by
  obtain ⟨front, back, rfl⟩ := List.append_of_mem h
  refine ⟨front, back, rfl, ?_⟩
  have hit : (fun x : Nat × List UInt8 => x.1 == it) (it, key) = true := beq_self_eq_true it
  have hfront : ∀ x ∈ front, ¬(x.1 == it) = true := by
    intro x hx heq
    rw [List.map_append, List.map_cons, List.nodup_append] at hnodes
    exact hnodes.2.2 x.1 (List.mem_map_of_mem hx) it List.mem_cons_self (eq_of_beq heq)
  have hfind : (front ++ (it, key) :: back).find? (·.1 == it) = some (it, key) := by
    rw [List.find?_append, List.find?_eq_none.mpr hfront, Option.none_or]
    exact List.find?_cons_of_pos hit
  have herase : (front ++ (it, key) :: back).eraseP (·.1 == it) = front ++ back := by
    rw [List.eraseP_append_right _ hfront]
    exact congrArg (front ++ ·) (List.eraseP_cons_of_pos hit)
  rw [takeNode, hfind, herase]
  rfl

/-- The node that a slot points at, and the others. -/
theorem Linked.node (h : c.Linked) {slot : Slot} (hlookup : c.entries.lookup key = some slot) :
    ∃ rest, takeNode c.lru slot.lru = some ((slot.lru, key), rest) ∧
      c.lru.Perm ((slot.lru, key) :: rest) ∧
      rest.map Prod.snd = c.plain.lru.erase key := by
  have hmem : (slot.lru, key) ∈ c.lru := h.points _ (mem_of_lookup hlookup)
  obtain ⟨front, back, hlru, htake⟩ := takeNode_of_mem h.nodes hmem
  refine ⟨front ++ back, htake, ?_, ?_⟩
  · rw [hlru]
    exact List.perm_middle
  · have hnodup := h.wellFormed.nodup
    unfold plain at hnodup ⊢
    dsimp only at hnodup ⊢
    rw [hlru, List.map_append, List.map_cons] at hnodup
    rw [hlru, List.map_append, List.map_append, List.map_cons]
    have hnot : key ∉ front.map Prod.snd := fun hmem =>
      (List.nodup_append.mp hnodup).2.2 key hmem key List.mem_cons_self rfl
    rw [List.erase_append_right _ hnot, List.erase_cons_head]

/-- A slot and its node go. -/
theorem Linked.without (h : c.Linked) {slot : Slot} {rest : List (Nat × List UInt8)}
    (hlookup : c.entries.lookup key = some slot)
    (hperm : c.lru.Perm ((slot.lru, key) :: rest)) :
    plain ⟨c.entries.filter (·.1 ≠ key), rest, c.bytes - slot.entry.file.size⟩ =
        ⟨c.plain.entries.filter (·.1 ≠ key), rest.map Prod.snd,
          c.plain.bytes - slot.entry.file.size⟩ ∧
      Linked ⟨c.entries.filter (·.1 ≠ key), rest, c.bytes - slot.entry.file.size⟩ := by
  have hplain : c.plain.entries.lookup key = some slot.entry := by rw [plain_lookup, hlookup]; rfl
  have hsize := h.wellFormed.size_le hplain
  have hbytes := h.bytes
  have heq : plain ⟨c.entries.filter (·.1 ≠ key), rest, c.bytes - slot.entry.file.size⟩ =
      ⟨c.plain.entries.filter (·.1 ≠ key), rest.map Prod.snd,
        c.plain.bytes - slot.entry.file.size⟩ := by
    have hentries : (c.entries.filter (·.1 ≠ key)).map (fun x => (x.1, x.2.entry)) =
        c.plain.entries.filter (·.1 ≠ key) := by
      show _ = (c.entries.map _).filter _
      rw [List.filter_map]
      rfl
    have htoNat : (c.bytes - slot.entry.file.size).toNat =
        c.plain.bytes - slot.entry.file.size := by omega
    unfold plain at hentries htoNat ⊢
    dsimp only at hentries htoNat ⊢
    rw [hentries, htoNat]
  have hkeys : c.plain.lru.Perm (key :: rest.map Prod.snd) := hperm.map Prod.snd
  refine ⟨heq, ⟨?_, ?_, ?_, ?_⟩⟩
  · exact (List.nodup_cons.mp ((hperm.map Prod.fst).nodup_iff.mp h.nodes)).2
  · intro x hx
    obtain ⟨hx, hne⟩ := List.mem_filter.mp hx
    -- the entries that stay point at the other nodes
    rcases List.mem_cons.mp (hperm.mem_iff.mp (h.points x hx)) with hnode | hnode
    · exact absurd (congrArg Prod.snd hnode) (of_decide_eq_true hne)
    · exact hnode
  · rw [heq]
    dsimp only
    omega
  · rw [heq]
    exact h.wellFormed.without hplain hkeys

/-- **With iterators, `lookup()`** does the same, and dereferences none that is gone, ... -/
theorem Linked.lookup (h : c.Linked) (key : List UInt8) :
    ∃ c', c.lookup key = some (c', (c.plain.lookup key).2) ∧
      c'.plain = (c.plain.lookup key).1 ∧ c'.Linked := by
  unfold LinkedCache.lookup FileCache.lookup
  rw [plain_lookup]
  cases hlookup : c.entries.lookup key with
  | none => exact ⟨c, rfl, rfl, h⟩
  | some slot =>
    obtain ⟨rest, htake, hperm, hrest⟩ := h.node hlookup
    dsimp only
    rw [htake]
    have hplain : plain { c with lru := (slot.lru, key) :: rest } =
        { c.plain with lru := key :: c.plain.lru.erase key } := by
      rw [← hrest]
      rfl
    have hlru : (key :: c.plain.lru.erase key).Perm c.plain.lru := by
      rw [← hrest]
      exact (hperm.map Prod.snd).symm
    refine ⟨{ c with lru := (slot.lru, key) :: rest }, rfl, hplain, ?_, ?_, h.bytes, ?_⟩
    · exact (hperm.map Prod.fst).nodup_iff.mp h.nodes
    · exact fun x hx => hperm.mem_iff.mp (h.points x hx)
    · rw [hplain]
      exact ⟨h.wellFormed.keys, hlru.trans h.wellFormed.lru, h.wellFormed.bytes⟩

/-- ... `erase()` does, ... -/
theorem Linked.erase (h : c.Linked) (key : List UInt8) :
    ∃ c', c.erase key = some c' ∧ c'.plain = c.plain.erase key ∧ c'.Linked ∧
      ∀ x ∈ c'.lru, x ∈ c.lru := by
  unfold LinkedCache.erase FileCache.erase
  rw [plain_lookup]
  cases hlookup : c.entries.lookup key with
  | none => exact ⟨c, rfl, rfl, h, fun x hx => hx⟩
  | some slot =>
    obtain ⟨rest, htake, hperm, hrest⟩ := h.node hlookup
    obtain ⟨hplain, hlinked⟩ := h.without hlookup hperm
    rw [hrest] at hplain
    dsimp only
    rw [htake]
    exact ⟨_, rfl, hplain, hlinked, fun x hx => hperm.mem_iff.mpr (List.mem_cons_of_mem _ hx)⟩

/-- A pass with iterators is one without. -/
theorem Linked.evictPass_inl (h : c.Linked) (hpass : c.evictPass = .inl c') :
    c.plain.evictPass = .inl c'.plain ∧ c'.Linked := by
  unfold LinkedCache.evictPass at hpass
  split at hpass
  · rename_i hmore
    split at hpass
    · exact nomatch hpass
    · rename_i node key hlast
      split at hpass
      · exact nomatch hpass
      · rename_i slot hlookup
        obtain rfl := Sum.inl.inj hpass
        obtain ⟨front, hlru⟩ := List.getLast?_eq_some_iff.mp hlast
        -- the last node has the key of the victim, so that it is the one its slot points at
        have hnode : node = slot.lru := by
          have hpoints := h.points _ (mem_of_lookup hlookup)
          have hnodup : (c.lru.map Prod.snd).Nodup := h.wellFormed.nodup
          rw [hlru] at hpoints hnodup
          rw [List.map_append, List.nodup_append] at hnodup
          rcases List.mem_append.mp hpoints with hfront | hback
          · exact absurd rfl
              (hnodup.2.2 key (List.mem_map_of_mem hfront) key List.mem_cons_self)
          · exact (Prod.mk.inj (List.mem_singleton.mp hback)).1.symm
        have hperm : c.lru.Perm ((slot.lru, key) :: c.lru.dropLast) := by
          rw [hlru, hnode, List.dropLast_concat]
          exact List.perm_append_singleton _ _
        obtain ⟨hplain, hlinked⟩ := h.without hlookup hperm
        refine ⟨?_, hlinked⟩
        rw [hplain]
        have hmore' : 1 < c.plain.entries.length ∧
            (FileCache.maxEntries < c.plain.entries.length ∨
              FileCache.maxBytes < c.plain.bytes) := by
          have hlength : c.plain.entries.length = c.entries.length := List.length_map _
          have hbytes := h.bytes
          omega
        have hlast' : c.plain.lru.getLast? = some key := by
          show (c.lru.map Prod.snd).getLast? = some key
          rw [List.getLast?_map, hlast]
          rfl
        unfold FileCache.evictPass
        rw [if_pos hmore', hlast']
        dsimp only
        rw [plain_lookup, hlookup, List.map_dropLast]
        rfl
  · exact nomatch hpass

theorem Linked.evictPass_inr (h : c.Linked) {r : Option LinkedCache}
    (hpass : c.evictPass = .inr r) : r = some c ∧ c.plain.evictPass = .inr c.plain := by
  have hlength : c.plain.entries.length = c.entries.length := List.length_map _
  unfold LinkedCache.evictPass at hpass
  split at hpass
  · rename_i hmore
    obtain ⟨victim, entry, hlru, hlookup⟩ :=
      h.wellFormed.victim (hlength ▸ hmore.1)
    have hlast : (c.lru.map Prod.snd).getLast? = some victim := by
      show c.plain.lru.getLast? = some victim
      rw [hlru, List.getLast?_concat]
    rw [List.getLast?_map] at hlast
    obtain ⟨node, hnode, rfl⟩ := Option.map_eq_some_iff.mp hlast
    rw [plain_lookup] at hlookup
    obtain ⟨slot, hslot, _⟩ := Option.map_eq_some_iff.mp hlookup
    rw [hnode] at hpass
    dsimp only at hpass
    rw [hslot] at hpass
    exact nomatch hpass
  · rename_i hless
    refine ⟨(Sum.inr.inj hpass).symm, ?_⟩
    have hbytes := h.bytes
    unfold FileCache.evictPass
    rw [if_neg (by omega)]

/-- ... and so does the eviction, which ends. -/
theorem Linked.loop (h : c.Linked) :
    ∃ c', Lib.loop evictPass_variant c = some c' ∧
      c'.plain = Lib.loop FileCache.evictPass_variant c.plain ∧ c'.Linked := by
  refine loop_induction evictPass_variant
    (P := fun c r => c.Linked → ∃ c', r = some c' ∧
      c'.plain = Lib.loop FileCache.evictPass_variant c.plain ∧ c'.Linked) ?_ ?_ c h
  · intro c c₁ hpass ih h
    obtain ⟨hplain, hlinked⟩ := h.evictPass_inl hpass
    rw [loop_of_inl _ hplain]
    exact ih hlinked
  · intro c r hpass h
    obtain ⟨rfl, hplain⟩ := h.evictPass_inr hpass
    rw [loop_of_inr _ hplain]
    exact ⟨c, rfl, rfl, h⟩

/-- `insert()` finds every node it looks for. -/
theorem Linked.insert (h : c.Linked) {node : Nat}
    (hnode : c.Allocates (.insert key entry node)) :
    ∃ c', c.insert key entry node = some c' ∧ c'.plain = c.plain.insert key entry ∧ c'.Linked := by
  obtain ⟨c₁, herase, hplain, hlinked, hsub⟩ := h.erase key
  rw [LinkedCache.insert, herase, Option.bind_some, FileCache.insert, ← hplain]
  have hbytes := hlinked.bytes
  have hput : plain
      { entries := (key, ⟨entry, node⟩) :: c₁.entries
        lru := (node, key) :: c₁.lru
        bytes := c₁.bytes + entry.file.size } = c.plain.put key entry := by
    have htoNat : (c₁.bytes + entry.file.size).toNat = c₁.plain.bytes + entry.file.size := by
      omega
    unfold FileCache.put
    rw [← hplain, ← htoNat]
    rfl
  have hfresh : node ∉ c₁.lru.map Prod.fst := by
    intro hmem
    obtain ⟨x, hx, hxnode⟩ := List.mem_map.mp hmem
    -- the node of the key itself has been taken out
    have hkey := hnode x (hsub x hx) hxnode
    apply FileCache.erase_not_mem (c := c.plain) key
    rw [← hplain]
    apply hlinked.wellFormed.lru.mem_iff.mp
    rw [← hkey]
    exact List.mem_map_of_mem hx
  have hlinked' : Linked
      { entries := (key, ⟨entry, node⟩) :: c₁.entries
        lru := (node, key) :: c₁.lru
        bytes := c₁.bytes + entry.file.size } := by
    refine ⟨List.nodup_cons.mpr ⟨hfresh, hlinked.nodes⟩, ?_, ?_, ?_⟩
    · intro x hx
      -- the new node, or one that was there
      rcases List.mem_cons.mp hx with rfl | hx
      · exact List.mem_cons_self
      · exact List.mem_cons_of_mem _ (hlinked.points x hx)
    · show c₁.bytes + entry.file.size = ((c₁.bytes + entry.file.size).toNat : Int)
      omega
    · rw [hput]
      exact h.wellFormed.put key entry
  have hloop := hlinked'.loop
  rw [hput] at hloop
  unfold FileCache.put at hloop
  rw [← hplain] at hloop
  exact hloop

/-! ### Runs -/

/-- What every operation keeps; `past` are those so far, the last one first. -/
structure Ordered (past : List CacheOp) (c : LinkedCache) : Prop where
  linked : c.Linked
  inBounds : c.plain.InBounds
  recent : c.plain.Recent (past.map CacheOp.key)

theorem ordered_init : Ordered [] {} where
  linked := ⟨List.nodup_nil, nofun, rfl, ⟨List.nodup_nil, List.Perm.nil, rfl⟩⟩
  inBounds := ⟨Nat.zero_le _, .inl (Nat.zero_le _)⟩
  recent := List.Pairwise.nil

/-- **Step lemma**: no operation uses an iterator that is gone, and the list stays in the order of
use. -/
theorem Ordered.step {past : List CacheOp} {op : CacheOp} (h : Ordered past c)
    (hop : c.Allocates op) : ∃ c', LinkedCache.step c op = some c' ∧ Ordered (op :: past) c' := by
  cases op with
  | lookup key =>
    obtain ⟨c', hlookup, hplain, hlinked⟩ := h.linked.lookup key
    refine ⟨c', ?_, hlinked, ?_, ?_⟩
    · rw [LinkedCache.step, hlookup]
      rfl
    · rw [hplain]
      exact h.inBounds.lookup key
    · rw [hplain]
      exact h.recent.lookup h.linked.wellFormed key
  | insert key entry node =>
    obtain ⟨c', hinsert, hplain, hlinked⟩ := h.linked.insert hop
    refine ⟨c', hinsert, hlinked, ?_, ?_⟩
    · rw [hplain]
      exact (h.linked.wellFormed.insert key entry).2
    · rw [hplain]
      exact h.recent.insert h.linked.wellFormed key entry

/-- **The cache is always in order**, whatever is asked for or inserted, and no iterator dangles.
An insertion keeps as many of the keys used last as there is room for, and at least its own. -/
theorem lru_invariants {ops : List CacheOp}
    (h : Meets LinkedCache.step LinkedCache.Allocates {} ops) :
    ∃ c, run LinkedCache.step {} ops = some c ∧
      (c.entries.map Prod.fst).Nodup ∧
      (c.lru.map Prod.snd).Perm (c.entries.map Prod.fst) ∧
      (c.lru.map Prod.fst).Nodup ∧
      (∀ x ∈ c.entries, (x.2.lru, x.1) ∈ c.lru) ∧
      ((c.lru.map Prod.snd).Pairwise fun a b =>
        (ops.reverse.map CacheOp.key).idxOf a < (ops.reverse.map CacheOp.key).idxOf b) ∧
      c.bytes = ((c.entries.map (·.2.entry.file.size)).sum : Nat) ∧
      c.entries.length ≤ FileCache.maxEntries ∧
      (c.bytes ≤ FileCache.maxBytes ∨ c.entries.length ≤ 1) ∧
      ∀ key entry node, c.Allocates (.insert key entry node) → ∃ c' n,
        c.insert key entry node = some c' ∧
        c'.plain = (c.plain.put key entry).keep n ∧
        (∃ slot, c'.entries.lookup key = some slot ∧ slot.entry = entry) ∧
        ∀ m, n < m → m ≤ (c.plain.put key entry).lru.length →
          ¬((c.plain.put key entry).keep m).InBounds := by
  obtain ⟨c, hrun, hordered⟩ :=
    exists_run_of_meets (P := Ordered) (fun _ _ _ hc hop => hc.step hop) ordered_init h
  rw [List.append_nil] at hordered
  obtain ⟨hlinked, ⟨hlength, hbytes⟩, hrecent⟩ := hordered
  have hwf := hlinked.wellFormed
  have hkeys : c.plain.entries.map Prod.fst = c.entries.map Prod.fst := by
    show (c.entries.map _).map _ = _
    rw [List.map_map]
    rfl
  have hsizes : (c.plain.entries.map (·.2.file.size)).sum =
      (c.entries.map (·.2.entry.file.size)).sum := by
    show ((c.entries.map _).map _).sum = _
    rw [List.map_map]
    rfl
  have hentries : c.plain.entries.length = c.entries.length := List.length_map _
  have hbudget := hlinked.bytes
  refine ⟨c, hrun, ?_, ?_, hlinked.nodes, hlinked.points, hrecent, ?_, ?_, ?_, ?_⟩
  · rw [← hkeys]
    exact hwf.keys
  · rw [← hkeys]
    exact hwf.lru
  · rw [hbudget, hwf.bytes, hsizes]
  · rw [← hentries]
    exact hlength
  · omega
  · intro key entry node hnode
    obtain ⟨c', hinsert, hplain, _⟩ := hlinked.insert hnode
    obtain ⟨n, hpos, _, hkeep, hmax⟩ := hwf.insert_eq_keep key entry
    refine ⟨c', n, hinsert, hplain.trans hkeep, ?_, hmax⟩
    have hlookup : c'.plain.entries.lookup key = some entry := by
      rw [hplain, hkeep]
      exact FileCache.keep_lookup hpos
    rw [plain_lookup] at hlookup
    exact Option.map_eq_some_iff.mp hlookup

def sized (size : Nat) : CachedFile := ⟨⟨true, []⟩, ⟨[], size, 0, ⟨0, 0, size, 0, 0⟩⟩, [], []⟩

/-- Three files, of which the second is larger than the budget: where it is inserted, the first one
goes, and it goes itself where the third one comes. -/
def largeOps : List CacheOp :=
  [.insert (text "/a") (sized 10) 0, .lookup (text "/a"), .insert (text "/b") (sized (2 ^ 27)) 1,
    .insert (text "/c") (sized 10) 0]

/-- A cache that evicts, as its files are too large together. -/
theorem lru_invariants_large :
    ∃ c, run LinkedCache.step {} largeOps = some c ∧ c.bytes = 10 ∧
      (c.lru.map Prod.snd).Perm (c.entries.map Prod.fst) := by
  obtain ⟨c, hrun, _, hperm, _⟩ := lru_invariants
    (h := (by decide : Meets LinkedCache.step LinkedCache.Allocates {} largeOps))
  refine ⟨c, hrun, ?_, hperm⟩
  have hbytes : (run LinkedCache.step {} largeOps).map LinkedCache.bytes = some 10 := by decide
  rw [hrun] at hbytes
  exact Option.some.inj hbytes

end LinkedCache

end AnyHttp
