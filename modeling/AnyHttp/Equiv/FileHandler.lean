import AnyHttp.FileHandler
import Mathlib.Algebra.BigOperators.Group.List.Basic

/-!
# The file cache, and what it hides

`FileCache::get()` answers a hit without asking what the request says about `prefix` and `root`: the
cache knows its files by the request path alone.  While the file system does not change, an entry is
what its file looks like (`Faithful`), so that a hit is never out of date, and the answer is the one
there would be without the cache exactly if the request, resolved, stands for the file of the entry.

* `answers_right_iff`: over any sequence of calls.
* `FileCache.WellFormed.get`: the cache itself is always in order, and within its bounds.
-/

namespace AnyHttp

open Lib

variable {fs : FileSystem}

/-! ### Paths -/

namespace Path

/-- `resolve()` takes a file for one below `base`. -/
def Within (file base : Path) : Prop :=
  (file.lexicallyRelative base).elements ≠ [] ∧
    (file.lexicallyRelative base).elements.head? ≠ some dotDot

/-- The elements of `base`, but for a slash at the end, are those that `file` begins with. -/
def Below (file base : Path) : Prop :=
  ∃ dir slash, base.elements = dir ++ slash ∧ (∀ e ∈ slash, e = []) ∧ dir <+: file.elements

/-- The two paths have the same elements up to where they differ. -/
theorem mismatch_eq_append (as bs : List (List UInt8)) :
    ∃ common, as = common ++ (mismatch as bs).1 ∧ bs = common ++ (mismatch as bs).2 := by
  fun_induction mismatch as bs with
  | case1 as b bs ih =>
    obtain ⟨common, has, hbs⟩ := ih
    refine ⟨b :: common, ?_, ?_⟩
    · rw [List.cons_append, ← has]
    · rw [List.cons_append, ← hbs]
  | case2 a as b bs hne => exact ⟨[], rfl, rfl⟩
  | case3 as bs _ => exact ⟨[], rfl, rfl⟩

/-- Without dots, every element has to be left again, but for empty ones. -/
theorem steps_of_plain {elements : List (List UInt8)}
    (h : ∀ e ∈ elements, e ≠ dot ∧ e ≠ dotDot) :
    steps elements = (elements.countP (· ≠ []) : Nat) := by
  have hcount : elements.count dotDot = 0 := List.count_eq_zero.mpr fun hmem => (h _ hmem).2 rfl
  have hsame : elements.countP (fun e => e ≠ [] ∧ e ≠ dot ∧ e ≠ dotDot) =
      elements.countP (· ≠ []) := by
    apply List.countP_congr
    intro e he
    obtain ⟨hdot, hdotDot⟩ := h e he
    simp [hdot, hdotDot]
  rw [steps, hcount, hsame]
  simp

/-- If something is left of the base, the relative path goes up or is empty. -/
theorem lexicallyRelative_of_left {p base : Path} (habs : p.absolute = base.absolute)
    (h : (mismatch p.elements base.elements).2 ≠ []) :
    p.lexicallyRelative base =
      if steps (mismatch p.elements base.elements).2 < 0 then ⟨false, []⟩
      else if steps (mismatch p.elements base.elements).2 = 0 ∧
          ((mismatch p.elements base.elements).1 = [] ∨
            (mismatch p.elements base.elements).1.head? = some []) then ⟨false, [dot]⟩
      else ⟨false, List.replicate (steps (mismatch p.elements base.elements).2).toNat dotDot ++
        (mismatch p.elements base.elements).1⟩ := by
  rw [lexicallyRelative, if_neg (not_not_intro habs)]
  rcases hm : mismatch p.elements base.elements with ⟨a, _ | ⟨b, bs⟩⟩
  · rw [hm] at h
    exact absurd rfl h
  · cases a <;> rfl

/-- What the check of `resolve()` means where `base` is in canonical form. -/
theorem Within.below {file base : Path} (h : file.Within base)
    (hplain : ∀ e ∈ base.elements, e ≠ dot ∧ e ≠ dotDot) : file.Below base := by
  obtain ⟨hne, hhead⟩ := h
  obtain ⟨common, hfile, hbase⟩ := mismatch_eq_append file.elements base.elements
  refine ⟨common, (mismatch file.elements base.elements).2, hbase, ?_, ⟨_, hfile.symm⟩⟩
  intro e he
  by_contra hnonempty
  -- an element of `base` that has to be left makes the relative path begin with dots
  have hsteps : steps (mismatch file.elements base.elements).2 =
      ((mismatch file.elements base.elements).2.countP (· ≠ []) : Nat) := by
    apply steps_of_plain
    intro e he
    apply hplain
    rw [hbase]
    exact List.mem_append_right common he
  have hpos : 0 < (mismatch file.elements base.elements).2.countP (· ≠ []) :=
    List.countP_pos_iff.mpr ⟨e, he, decide_eq_true hnonempty⟩
  obtain ⟨n, hn⟩ : ∃ n, (mismatch file.elements base.elements).2.countP (· ≠ []) = n + 1 :=
    ⟨(mismatch file.elements base.elements).2.countP (· ≠ []) - 1, by omega⟩
  -- the relative path of a path of another kind is empty
  by_cases habs : file.absolute = base.absolute
  · rw [lexicallyRelative_of_left habs (List.ne_nil_of_mem he), hsteps, hn, if_neg (by omega),
      if_neg (by omega)] at hhead
    exact hhead rfl
  · rw [lexicallyRelative, if_pos habs] at hne
    exact hne rfl

end Path

/-! ### Resolving, and loading -/

theorem bind_eq_ok {ε α β : Type} {x : Except ε α} {f : α → Except ε β} {b : β} :
    x >>= f = .ok b ↔ ∃ a, x = .ok a ∧ f a = .ok b := by
  cases x with
  | error e =>
    show Except.error e = Except.ok b ↔ _
    simp
  | ok a =>
    show f a = .ok b ↔ _
    simp

/-- The prefix `mount` of a handler covers this path: it ends with a segment of it. -/
def Covers (mount path : List UInt8) : Prop :=
  ∃ rest, path = mount ++ rest ∧ (rest = [] ∨ rest.head? = some '/'.toUInt8)

/-- This file is below the root directory, if that is an absolute path. -/
def InRoot (fs : FileSystem) (root file : Path) : Prop :=
  ∃ base, fs.weaklyCanonical root = .ok base ∧ file.Within base ∧
    (base.absolute → file.Below base)

/-- What has been checked, where a path is resolved. -/
theorem resolve_cases {path mount : List UInt8} {root file : Path}
    (h : resolve fs path mount root = .ok file) :
    ∃ rest base p, path = mount ++ rest ∧ (rest = [] ∨ rest.head? = some '/'.toUInt8) ∧
      fs.weaklyCanonical root = .ok base ∧ fs.weaklyCanonical p = .ok file ∧
      file.Within base := by
  unfold resolve at h
  -- the checks of `resolve()`, one after the other
  by_cases hmount : mount <+: path
  · obtain ⟨rest, rfl⟩ := hmount
    rw [List.drop_left] at h
    by_cases hslash : rest ≠ [] ∧ rest.head? ≠ some '/'.toUInt8
    · rw [if_neg (not_not_intro (List.prefix_append mount rest)), if_pos hslash] at h
      exact nomatch h
    · rw [if_neg (not_not_intro (List.prefix_append mount rest)), if_neg hslash] at h
      obtain ⟨base, hbase, h⟩ := bind_eq_ok.mp h
      obtain ⟨file', hfile, h⟩ := bind_eq_ok.mp h
      dsimp only at h
      split at h
      · exact nomatch h
      · rename_i hrelative
        obtain rfl : file' = file := Except.ok.inj h
        refine ⟨rest, base, _, rfl, ?_, hbase, hfile, not_or.mp hrelative⟩
        by_cases hrest : rest = []
        · exact .inl hrest
        · exact .inr (not_not.mp fun hne => hslash ⟨hrest, hne⟩)
  · rw [if_pos hmount] at h
    exact nomatch h

/-- **Containment**, of a path that has been resolved. -/
theorem resolve_ok {path mount : List UInt8} {root file : Path}
    (h : resolve fs path mount root = .ok file) : Covers mount path ∧ InRoot fs root file := by
  obtain ⟨rest, base, _, hpath, hrest, hbase, _, hwithin⟩ := resolve_cases h
  refine ⟨⟨rest, hpath, hrest⟩, base, hbase, hwithin, fun habs => ?_⟩
  exact hwithin.below (fs.canonical root base hbase habs)

/-- The elements of a path in normal form, but for a slash at the end. -/
def Path.components (p : Path) : List (List UInt8) := p.elements.filter (· ≠ [])

/-- A file below a directory has the components of the directory in front. -/
theorem Path.Below.components {file base : Path} (h : file.Below base) :
    base.components <+: file.components := by
  obtain ⟨dir, slash, hbase, hslash, hfile⟩ := h
  have hnothing : slash.filter (· ≠ []) = [] := by
    apply List.filter_eq_nil_iff.mpr
    intro e he
    simp [hslash e he]
  show base.elements.filter _ <+: file.elements.filter _
  rw [hbase, List.filter_append, hnothing, List.append_nil]
  exact hfile.filter _

/-- **What `resolve()` returns is below the root**, as a canonical path: the path of the request is
the prefix, or goes on with a segment of its own, and the file has the components of the root.  If
`weakly_canonical()` returns absolute paths, that is so for every request. -/
theorem resolve_contained {path mount : List UInt8} {root file : Path}
    (habsolute : ∀ p q, fs.weaklyCanonical p = .ok q → q.absolute = true)
    (h : resolve fs path mount root = .ok file) :
    (path = mount ∨ mount ++ text "/" <+: path) ∧
      ∃ base, fs.weaklyCanonical root = .ok base ∧ base.components <+: file.components ∧
        (∃ p, fs.weaklyCanonical p = .ok file) ∧ file.absolute = true ∧
        ∀ e ∈ file.elements, e ≠ Path.dot ∧ e ≠ Path.dotDot := by
  obtain ⟨rest, base, p, hpath, hrest, hbase, hfile, hwithin⟩ := resolve_cases h
  have hcovers : path = mount ∨ mount ++ text "/" <+: path := by
    rcases hrest with rfl | hslash
    · rw [List.append_nil] at hpath
      exact .inl hpath
    · obtain ⟨rest', rfl⟩ := List.head?_eq_some_iff.mp hslash
      refine .inr ⟨rest', ?_⟩
      rw [hpath, List.append_assoc]
      rfl
  have habs := habsolute p file hfile
  refine ⟨hcovers, base, hbase, ?_, ⟨p, hfile⟩, habs, fs.canonical p file hfile habs⟩
  have hplain := fs.canonical root base hbase (habsolute root base hbase)
  exact (hwithin.below hplain).components

/-- Without symbolic links: a directory that is left again is taken out. -/
def normalNames (names : List (List UInt8)) : List (List UInt8) :=
  names.foldl (fun dirs e =>
    if e = Path.dot then dirs else if e = Path.dotDot then dirs.dropLast else dirs ++ [e]) []

/-- No dot is left among the elements of a path that is normal. -/
theorem normalNames_plain (names : List (List UInt8)) :
    ∀ e ∈ normalNames names, e ≠ Path.dot ∧ e ≠ Path.dotDot := by
  refine List.foldlRecOn (motive := fun dirs => ∀ e ∈ dirs, e ≠ Path.dot ∧ e ≠ Path.dotDot) names _
    ?_ ?_
  · exact fun e he => nomatch he
  · intro dirs hdirs e _ x hx
    split_ifs at hx with hdot hdotDot
    · exact hdirs x hx
    · exact hdirs x (List.dropLast_subset dirs hx)
    · rcases List.mem_append.mp hx with hx | hx
      · exact hdirs x hx
      · obtain rfl := List.mem_singleton.mp hx
        exact ⟨hdot, hdotDot⟩

/-- A file system that everything is in. -/
def noLinks : FileSystem where
  weaklyCanonical path :=
    if path.absolute then .ok ⟨true, normalNames path.names⟩ else .error enoent
  openFile _ := .error enoent
  stat _ := .error enoent
  canonical := by
    intro path file h _ e he
    split at h
    · obtain rfl := Except.ok.inj h
      rcases List.mem_cons.mp he with rfl | he
      · decide
      · exact normalNames_plain _ e he
    · exact nomatch h
  stat_eq := fun _ _ _ hopen => nomatch hopen

/-- A file of a directory, with a way to it that leads through other directories. -/
theorem resolve_contained_noLinks :
    ∃ file, resolve noLinks (text "/t//x/./../f") (text "/t") ⟨true, [text "www", text "t"]⟩ =
        .ok file ∧ file.names = [text "www", text "t", text "f"] ∧
      ∃ base, noLinks.weaklyCanonical ⟨true, [text "www", text "t"]⟩ = .ok base ∧
        base.components <+: file.components := by
  have hfile : resolve noLinks (text "/t//x/./../f") (text "/t") ⟨true, [text "www", text "t"]⟩ =
      .ok ⟨true, [text "www", text "t", text "f"]⟩ := by decide
  have habsolute : ∀ p q, noLinks.weaklyCanonical p = .ok q → q.absolute = true := by
    intro p q h
    unfold noLinks at h
    dsimp only at h
    split at h
    · exact Except.ok.inj h ▸ rfl
    · exact nomatch h
  obtain ⟨_, base, hbase, hcomponents, _⟩ := resolve_contained habsolute hfile
  exact ⟨_, hfile, rfl, base, hbase, hcomponents⟩

/-- What is loaded is the file as it is now. -/
theorem CachedFile.load_ok {path : Path} {entry : CachedFile}
    (h : CachedFile.load fs path = .ok entry) :
    entry.resolved = path ∧ FileCache.unchanged fs entry = true := by
  obtain ⟨mapped, hmapped, h⟩ := bind_eq_ok.mp h
  obtain rfl := Except.ok.inj h
  obtain ⟨fd, hopen, hmapped⟩ := bind_eq_ok.mp hmapped
  obtain ⟨st, hstat, hmapped⟩ := bind_eq_ok.mp hmapped
  refine ⟨rfl, ?_⟩
  have hid : mapped.id = st.identity := by
    dsimp only at hmapped
    split at hmapped
    · exact nomatch hmapped
    · split at hmapped
      · exact (Except.ok.inj hmapped) ▸ rfl
      · obtain ⟨bytes, _, hmapped⟩ := bind_eq_ok.mp hmapped
        exact (Except.ok.inj hmapped) ▸ rfl
  show FileCache.unchanged fs ⟨path, mapped, _, _⟩ = true
  rw [FileCache.unchanged]
  dsimp only
  rw [fs.stat_eq path fd st hopen hstat, hid]
  exact beq_self_eq_true _

/-- A request is served exactly if its path is resolved, and what it is resolved to can
be loaded. -/
theorem FileRequest.serve_eq_ok {r : FileRequest} {entry : CachedFile} :
    r.serve fs = .ok entry ↔
      resolve fs r.path r.mount r.root = .ok entry.resolved ∧
        CachedFile.load fs entry.resolved = .ok entry := by
  rw [FileRequest.serve, bind_eq_ok]
  constructor
  · rintro ⟨resolved, hresolve, hload⟩
    rw [(CachedFile.load_ok hload).1]
    exact ⟨hresolve, hload⟩
  · rintro ⟨hresolve, hload⟩
    exact ⟨entry.resolved, hresolve, hload⟩

/-! ### The cache is in order -/

namespace FileCache

/-- Every key has one slot, and one place in the order of use; the budget is what the slots use. -/
structure WellFormed (c : FileCache) : Prop where
  keys : (c.entries.map (·.1)).Nodup
  lru : c.lru.Perm (c.entries.map (·.1))
  bytes : c.bytes = (c.entries.map (·.2.file.size)).sum

/-- At most so many entries, which take at most so many bytes, unless there is just one. -/
def InBounds (c : FileCache) : Prop :=
  c.entries.length ≤ maxEntries ∧ (c.bytes ≤ maxBytes ∨ c.entries.length ≤ 1)

/-- The slots are the one with this key, and those with other keys. -/
theorem WellFormed.perm {c : FileCache} (h : c.WellFormed) {key : List UInt8} {entry : CachedFile}
    (hlookup : c.entries.lookup key = some entry) :
    c.entries.Perm ((key, entry) :: c.entries.filter (·.1 ≠ key)) := by
  obtain ⟨front, back, hentries, hfront⟩ := List.lookup_eq_some_iff.mp hlookup
  have hnodup := h.keys
  have hfilter : c.entries.filter (·.1 ≠ key) = front ++ back := by
    rw [hentries, List.map_append, List.map_cons, List.nodup_append] at hnodup
    rw [hentries, List.filter_append, List.filter_cons_of_neg (by simp)]
    congr 1
    · rw [List.filter_eq_self]
      intro x hx
      have hne := hfront x hx
      exact decide_eq_true fun heq => by simp [heq] at hne
    · rw [List.filter_eq_self]
      intro x hx
      have hnot := (List.nodup_cons.mp hnodup.2.1).1
      exact decide_eq_true fun heq => hnot (List.mem_map.mpr ⟨x, hx, heq⟩)
  rw [hfilter, hentries]
  exact List.perm_middle

/-- Taking a slot out keeps the cache in order, as long as the key leaves the order of use too. -/
theorem WellFormed.without {c : FileCache} (h : c.WellFormed) {key : List UInt8}
    {entry : CachedFile} (hlookup : c.entries.lookup key = some entry) {lru : List (List UInt8)}
    (hlru : c.lru.Perm (key :: lru)) :
    WellFormed ⟨c.entries.filter (·.1 ≠ key), lru, c.bytes - entry.file.size⟩ where
  keys := h.keys.sublist (List.filter_sublist.map _)
  lru := by
    have hkeys := (h.perm hlookup).map (·.1)
    rw [List.map_cons] at hkeys
    exact List.Perm.cons_inv (hlru.symm.trans (h.lru.trans hkeys))
  bytes := by
    have hsum := ((h.perm hlookup).map (·.2.file.size)).sum_eq
    rw [List.map_cons, List.sum_cons] at hsum
    show c.bytes - entry.file.size = _
    rw [h.bytes, hsum]
    exact Nat.add_sub_cancel_left _ _

/-- A key is in the list exactly if it has a slot. -/
theorem WellFormed.lookup_isSome {c : FileCache} (h : c.WellFormed) {key : List UInt8} :
    key ∈ c.lru ↔ ∃ entry, c.entries.lookup key = some entry := by
  rw [h.lru.mem_iff, List.mem_map, ← Option.isSome_iff_exists, List.lookup_isSome_iff]
  constructor
  · rintro ⟨x, hx, rfl⟩
    exact ⟨x, hx, beq_self_eq_true _⟩
  · rintro ⟨x, hx, heq⟩
    exact ⟨x, hx, (eq_of_beq heq).symm⟩

/-- A key that is erased goes from both, ... -/
theorem WellFormed.erase {c : FileCache} (h : c.WellFormed) (key : List UInt8) :
    (c.erase key).WellFormed := by
  unfold FileCache.erase
  cases hlookup : c.entries.lookup key with
  | none => exact h
  | some entry =>
    exact h.without hlookup (List.perm_cons_erase (h.lookup_isSome.mpr ⟨entry, hlookup⟩))

/-- ... so that it has no slot. -/
theorem erase_not_mem {c : FileCache} (key : List UInt8) :
    key ∉ (c.erase key).entries.map (·.1) := by
  unfold FileCache.erase
  cases hlookup : c.entries.lookup key with
  | none =>
    intro hmem
    obtain ⟨x, hx, rfl⟩ := List.mem_map.mp hmem
    have hne := List.lookup_eq_none_iff.mp hlookup x hx
    simp at hne
  | some entry =>
    intro hmem
    obtain ⟨x, hx, hkey⟩ := List.mem_map.mp hmem
    exact of_decide_eq_true (List.mem_filter.mp hx).2 hkey

/-- The least recently used key, which there is, has a slot. -/
theorem WellFormed.victim {c : FileCache} (h : c.WellFormed) (hmore : 1 < c.entries.length) :
    ∃ key entry, c.lru = c.lru.dropLast ++ [key] ∧ c.entries.lookup key = some entry := by
  have hlength : c.lru.length = c.entries.length := by rw [h.lru.length_eq, List.length_map]
  have hne : c.lru ≠ [] := List.ne_nil_of_length_pos (by omega)
  obtain ⟨entry, hentry⟩ := h.lookup_isSome.mp (List.getLast_mem hne)
  exact ⟨c.lru.getLast hne, entry, (List.dropLast_append_getLast hne).symm, hentry⟩

/-- A pass of the eviction erases the key that has not been used for longest. -/
theorem WellFormed.evictPass {c c' : FileCache} (h : c.WellFormed)
    (hpass : FileCache.evictPass c = .inl c') : c'.WellFormed := by
  unfold FileCache.evictPass at hpass
  -- there is something to evict, or the pass is the last one
  split at hpass
  · rename_i hmore
    obtain ⟨key, entry, hlru, hlookup⟩ := h.victim hmore.1
    rw [hlru, List.getLast?_concat] at hpass
    dsimp only at hpass
    rw [hlookup, List.dropLast_concat] at hpass
    obtain rfl := Sum.inl.inj hpass
    apply h.without hlookup
    rw [hlru, List.dropLast_concat]
    exact List.perm_append_singleton key _
  · exact nomatch hpass

theorem evictPass_leave {c c' : FileCache} (h : evictPass c = .inr c') : c' = c := by
  unfold evictPass at h
  split at h
  · split at h
    · exact (Sum.inr.inj h).symm
    · exact nomatch h
  · exact (Sum.inr.inj h).symm

/-- Where the loop of `insert()` is left, there is room. -/
theorem WellFormed.inBounds {c c' : FileCache} (h : c.WellFormed)
    (hpass : FileCache.evictPass c = .inr c') : c.InBounds := by
  unfold FileCache.evictPass at hpass
  split at hpass
  · rename_i hmore
    obtain ⟨key, entry, hlru, hlookup⟩ := h.victim hmore.1
    rw [hlru, List.getLast?_concat] at hpass
    exact nomatch hpass
  · rename_i hfew
    have hpos : 1 ≤ maxEntries := by decide
    rw [InBounds]
    omega

/-- **An insertion** puts the key in front, and evicts until the cache is within its bounds. -/
theorem WellFormed.insert {c : FileCache} (h : c.WellFormed) (key : List UInt8)
    (entry : CachedFile) : (c.insert key entry).WellFormed ∧ (c.insert key entry).InBounds := by
  have hput : WellFormed
      { entries := (key, entry) :: (c.erase key).entries
        lru := key :: (c.erase key).lru
        bytes := (c.erase key).bytes + entry.file.size } := by
    have herase := h.erase key
    refine ⟨?_, ?_, ?_⟩
    · exact List.nodup_cons.mpr ⟨erase_not_mem key, herase.keys⟩
    · exact herase.lru.cons key
    · show (c.erase key).bytes + entry.file.size = _
      rw [herase.bytes, List.map_cons, List.sum_cons]
      exact Nat.add_comm _ _
  -- the loop keeps what is in order, and is left when there is room
  refine loop_induction evictPass_variant
    (P := fun c c' => c.WellFormed → c'.WellFormed ∧ c'.InBounds) ?_ ?_ _ hput
  · intro s t hpass ih hs
    exact ih (hs.evictPass hpass)
  · intro s t hpass hs
    rw [evictPass_leave hpass]
    exact ⟨hs, hs.inBounds hpass⟩

/-- A key that is found moves to the front of the list. -/
theorem WellFormed.lookup {c : FileCache} (h : c.WellFormed) (key : List UInt8) :
    (c.lookup key).1.WellFormed := by
  unfold FileCache.lookup
  cases hlookup : c.entries.lookup key with
  | none => exact h
  | some entry =>
    refine ⟨h.keys, ?_, h.bytes⟩
    have hmem := h.lookup_isSome.mpr ⟨entry, hlookup⟩
    exact (List.perm_cons_erase hmem).symm.trans h.lru

/-- What a call can do to the cache. -/
theorem get_cases (fs : FileSystem) (c : FileCache) (r : FileRequest) :
    (c.get fs r).1 = (c.lookup r.path).1 ∨
      ∃ entry, r.serve fs = .ok entry ∧ (c.get fs r).1 =
        (c.lookup r.path).1.insert r.path entry := by
  have hmiss : ∀ c' : FileCache, (c'.miss fs r).1 = c' ∨
      ∃ entry, r.serve fs = .ok entry ∧ (c'.miss fs r).1 = c'.insert r.path entry := by
    intro c'
    unfold FileCache.miss
    cases r.serve fs with
    | error e => exact .inl rfl
    | ok entry => exact .inr ⟨entry, rfl, rfl⟩
  unfold FileCache.get
  -- a miss, or a hit whose file may have changed
  rcases c.lookup r.path with ⟨c', _ | hit⟩
  · exact hmiss c'
  · dsimp only
    split
    · exact .inl rfl
    · exact hmiss c'

/-- The cache is in order, and within its bounds, after every call. -/
theorem WellFormed.get {c : FileCache} (h : c.WellFormed) (hroom : c.InBounds) (r : FileRequest) :
    (c.get fs r).1.WellFormed ∧ (c.get fs r).1.InBounds := by
  have hlookup := h.lookup r.path
  rcases get_cases fs c r with hget | ⟨entry, _, hget⟩
  · rw [hget]
    refine ⟨hlookup, ?_⟩
    unfold FileCache.lookup
    cases c.entries.lookup r.path with
    | none => exact hroom
    | some entry => exact hroom
  · rw [hget]
    exact hlookup.insert r.path entry

/-! ### What the entries are -/

/-- Every entry is what loading its file gives. -/
def Faithful (fs : FileSystem) (c : FileCache) : Prop :=
  ∀ x ∈ c.entries, CachedFile.load fs x.2.resolved = .ok x.2

/-- Erasing adds no entry, ... -/
theorem erase_subset (c : FileCache) (key : List UInt8) : (c.erase key).entries ⊆ c.entries := by
  unfold FileCache.erase
  cases c.entries.lookup key with
  | none => exact List.Subset.refl _
  | some entry => exact List.filter_subset_self _

/-- ... nor does evicting, ... -/
theorem evictPass_subset {c c' : FileCache} (h : evictPass c = .inl c') :
    c'.entries ⊆ c.entries := by
  unfold evictPass at h
  split at h
  · split at h
    · exact nomatch h
    · rw [← Sum.inl.inj h]
      exact List.filter_subset_self _
  · exact nomatch h

/-- ... and inserting adds the one. -/
theorem insert_subset (c : FileCache) (key : List UInt8) (entry : CachedFile) :
    (c.insert key entry).entries ⊆ (key, entry) :: c.entries := by
  have hloop := loop_induction evictPass_variant
    (P := fun c c' => c'.entries ⊆ c.entries)
    (fun s t hpass ih => List.Subset.trans ih (evictPass_subset hpass))
    (fun s r hpass => evictPass_leave hpass ▸ List.Subset.refl _)
  exact List.Subset.trans (hloop _) (List.cons_subset_cons _ (erase_subset c key))

theorem lookup_entries (c : FileCache) (key : List UInt8) :
    (c.lookup key).1.entries = c.entries := by
  unfold FileCache.lookup
  cases c.entries.lookup key with
  | none => rfl
  | some entry => rfl

/-- **Step lemma**: a call of `get()` keeps every slot faithful to its file. -/
theorem Faithful.get {c : FileCache} (h : c.Faithful fs) (r : FileRequest) :
    (c.get fs r).1.Faithful fs := by
  intro x hx
  rcases get_cases fs c r with hget | ⟨entry, hserve, hget⟩
  · rw [hget, lookup_entries] at hx
    exact h x hx
  · rw [hget] at hx
    rcases List.mem_cons.mp (insert_subset _ r.path entry hx) with rfl | hold
    · exact (FileRequest.serve_eq_ok.mp hserve).2
    · rw [lookup_entries] at hold
      exact h x hold

theorem Faithful.load_of_lookup {c : FileCache} (h : c.Faithful fs) {key : List UInt8}
    {hit : CachedFile} (hlookup : c.entries.lookup key = some hit) :
    CachedFile.load fs hit.resolved = .ok hit := by
  obtain ⟨front, back, hentries, _⟩ := List.lookup_eq_some_iff.mp hlookup
  apply h (key, hit)
  rw [hentries]
  exact List.mem_append_right front List.mem_cons_self

/-- A hit is never out of date, as the file system does not change: this is what is answered. -/
theorem Faithful.get_answer {c : FileCache} (h : c.Faithful fs) (r : FileRequest) :
    (c.get fs r).2 = (c.entries.lookup r.path).elim (r.serve fs) .ok := by
  unfold FileCache.get FileCache.lookup
  -- a miss is served from the file system, a hit from the cache
  cases hlookup : c.entries.lookup r.path with
  | none =>
    show (c.miss fs r).2 = r.serve fs
    unfold FileCache.miss
    cases r.serve fs with
    | error e => rfl
    | ok entry => rfl
  | some hit =>
    dsimp only
    rw [if_pos (CachedFile.load_ok (h.load_of_lookup hlookup)).2]
    rfl

end FileCache

/-! ### Calls -/

/-- Whatever is asked for, the cache of a process is in order. -/
theorem FileServer.inOrder {rs : List FileRequest} {s : FileServer}
    (hrun : run (FileServer.step fs) {} rs = some s) : s.cache.WellFormed ∧ s.cache.InBounds := by
  refine run_inv (P := fun s : FileServer => s.cache.WellFormed ∧ s.cache.InBounds) ?_ ?_ hrun
  · intro s r t hs hstep
    rw [← Option.some.inj hstep]
    exact hs.1.get hs.2 r
  · exact ⟨⟨List.nodup_nil, List.Perm.refl _, rfl⟩, by decide, .inl (by decide)⟩

/-- This call has been answered as it would be without the cache: by a file that the request path
stands for, below the root and under the prefix of the call, or by the error. -/
def Right (fs : FileSystem) (a : FileRequest × Except Errno CachedFile) : Prop :=
  a.2 = a.1.serve fs ∧
    ∀ entry, a.2 = .ok entry → Covers a.1.mount a.1.path ∧ InRoot fs a.1.root entry.resolved

/-- An answer is right exactly if it is what the request is served without a cache. -/
theorem right_iff {a : FileRequest × Except Errno CachedFile} :
    Right fs a ↔ a.2 = a.1.serve fs := by
  constructor
  · exact fun h => h.1
  · intro h
    refine ⟨h, fun entry hentry => ?_⟩
    exact resolve_ok (FileRequest.serve_eq_ok.mp (h.symm.trans hentry)).1

/-- If there is an entry for the request path, it is one for the file that the call stands for. -/
def SameFile (fs : FileSystem) (s : FileServer) (r : FileRequest) : Prop :=
  ∀ entry, s.cache.entries.lookup r.path = some entry →
    resolve fs r.path r.mount r.root = .ok entry.resolved

instance SameFile.decidable (s : FileServer) (r : FileRequest) : Decidable (SameFile fs s r) :=
  match hlookup : s.cache.entries.lookup r.path with
  | none => isTrue fun _ hentry => nomatch hlookup.symm.trans hentry
  | some hit =>
    decidable_of_iff (resolve fs r.path r.mount r.root = .ok hit.resolved)
      ⟨fun h _ hentry => Option.some.inj (hlookup.symm.trans hentry) ▸ h, fun h => h hit hlookup⟩

/-- The answer of a single call is right exactly if the slot that it finds is of the same file. -/
theorem right_get_iff {c : FileCache} (h : c.Faithful fs) {answers} (r : FileRequest) :
    Right fs (r, (c.get fs r).2) ↔ SameFile fs ⟨c, answers⟩ r := by
  rw [right_iff, h.get_answer r, SameFile]
  dsimp only
  cases hlookup : c.entries.lookup r.path with
  | none => simp
  | some hit =>
    show Except.ok hit = r.serve fs ↔ _
    rw [eq_comm, FileRequest.serve_eq_ok]
    constructor
    · rintro ⟨hresolve, _⟩ entry hentry
      obtain rfl := Option.some.inj hentry
      exact hresolve
    · intro hall
      exact ⟨hall hit rfl, h.load_of_lookup hlookup⟩

/-- **Transparency and containment**: all calls have been answered as without the cache exactly if
no call has found an entry of another file. -/
theorem answers_right_iff {rs : List FileRequest} {s : FileServer}
    (hrun : run (FileServer.step fs) {} rs = some s) :
    (∀ a ∈ s.answers, Right fs a) ↔ Meets (FileServer.step fs) (SameFile fs) {} rs := by
  have hfaithful : ∀ (s : FileServer) (r : FileRequest) (t : FileServer), s.cache.Faithful fs →
      FileServer.step fs s r = some t → t.cache.Faithful fs := by
    intro s r t hs hstep
    rw [← Option.some.inj hstep]
    exact hs.get r
  have hanswer : ∀ (s : FileServer) (r : FileRequest) (t : FileServer), s.cache.Faithful fs →
      FileServer.step fs s r = some t →
        ((∀ a ∈ t.answers, Right fs a) ↔ (∀ a ∈ s.answers, Right fs a) ∧ SameFile fs s r) := by
    intro s r t hs hstep
    rw [← Option.some.inj hstep]
    show (∀ a ∈ s.answers ++ [(r, (s.cache.get fs r).2)], Right fs a) ↔ _
    rw [List.forall_mem_append, List.forall_mem_singleton, right_get_iff hs]
  have hempty : FileCache.Faithful fs {} := fun x hx => by simp at hx
  rw [run_iff_meets hfaithful hanswer hempty hrun]
  exact and_iff_right fun a ha => by simp at ha

/-- Two directories, with a file of the same name in each. -/
def twoRoots : FileSystem :=
  let openFile (path : Path) : Except Errno OpenFile :=
    if path = ⟨true, [text "a", text "f"]⟩ then
      .ok ⟨.ok ⟨.regular, 1, 1, 1, 0, 0⟩, fun _ => .ok (text "A")⟩
    else if path = ⟨true, [text "b", text "f"]⟩ then
      .ok ⟨.ok ⟨.regular, 1, 2, 1, 0, 0⟩, fun _ => .ok (text "B")⟩
    else .error enoent
  { weaklyCanonical := fun path =>
      if ∀ e ∈ path.elements, e ≠ Path.dot ∧ e ≠ Path.dotDot then .ok path else .error enoent
    openFile := openFile
    stat := fun path => openFile path >>= OpenFile.fstat
    stat_eq := by
      intro path file st hopen hstat
      rw [hopen]
      exact hstat
    canonical := by
      intro path file h _
      split at h
      · rename_i hplain
        exact Except.ok.inj h ▸ hplain
      · exact nomatch h }

/-- A file of a handler that serves one of the directories. -/
def requestFile (root : String) : FileRequest :=
  { path := text "/t/f", mount := text "/t", root := ⟨true, [text root]⟩ }

/-- As long as there is one handler, everything is as it would be without the cache. -/
theorem answers_right_iff_one_root :
    ∃ s, run (FileServer.step twoRoots) {} [requestFile "a", requestFile "a"] = some s ∧
      ∀ a ∈ s.answers, Right twoRoots a := by
  obtain ⟨s, hrun⟩ : ∃ s,
      run (FileServer.step twoRoots) {} [requestFile "a", requestFile "a"] = some s :=
    Option.isSome_iff_exists.mp (by decide)
  exact ⟨s, hrun, (answers_right_iff hrun).mpr (by decide)⟩

/-- With two handlers that serve the same path from different directories, the second one answers
with the file of the first, which is not below its root. -/
theorem answers_outside_root :
    ¬ ∀ (fs : FileSystem) (rs : List FileRequest) (s : FileServer),
      run (FileServer.step fs) {} rs = some s → ∀ a ∈ s.answers, Right fs a := by
  intro hall
  obtain ⟨s, hrun, hanswers⟩ : ∃ s,
      run (FileServer.step twoRoots) {} [requestFile "a", requestFile "b"] = some s ∧
        (s.answers.map fun a => (a.1, a.2.toOption.map (·.resolved))) =
          [(requestFile "a", some ⟨true, [text "a", text "f"]⟩),
            (requestFile "b", some ⟨true, [text "a", text "f"]⟩)] :=
    Option.map_eq_some_iff.mp (by decide)
  have hmem : (requestFile "b", some (⟨true, [text "a", text "f"]⟩ : Path)) ∈
      s.answers.map fun a => (a.1, a.2.toOption.map (·.resolved)) := by
    rw [hanswers]
    exact List.mem_cons_of_mem _ List.mem_cons_self
  obtain ⟨⟨r, answer⟩, ha, heq⟩ := List.mem_map.mp hmem
  obtain ⟨rfl, hresolved⟩ := Prod.mk.inj heq
  obtain ⟨entry, hentry, hfile⟩ := Option.map_eq_some_iff.mp hresolved
  cases answer with
  | error e => exact nomatch hentry
  | ok entry' =>
    obtain ⟨base, hbase, hwithin, _⟩ := ((hall _ _ s hrun _ ha).2 entry' rfl).2
    obtain rfl : entry' = entry := Option.some.inj hentry
    rw [hfile] at hwithin
    have hroot : twoRoots.weaklyCanonical (requestFile "b").root = .ok ⟨true, [text "b"]⟩ := by
      decide
    obtain rfl := Except.ok.inj (hroot.symm.trans hbase)
    exact absurd hwithin.2 (by decide)

end AnyHttp
