import AnyHttp.FileHandler

/-!
# The cache, with the iterators of its slots

`FileCache` of `file_handler.cpp` once more, on the level of its containers: `lru_` is a list of
nodes, which have an address, and the slots of `entries_` point at them.  Where the source relies on
an iterator to be one of the list, or on a key to be in the map, there is `none` if it is not.

The sizes of mapped files add up to less than there is address space, so that `bytes_` does not
overflow; it is an integer here so that one can see whether it gets below zero.
-/

namespace AnyHttp

open Lib

structure Slot where
  entry : CachedFile
  /-- The node of the list that the iterator points at. -/
  lru : Nat
deriving DecidableEq, Repr

structure LinkedCache where
  entries : List (List UInt8 × Slot) := []
  /-- The nodes of the list: their addresses, and the keys. -/
  lru : List (Nat × List UInt8) := []
  bytes : Int := 0
deriving DecidableEq, Repr

namespace LinkedCache

/-- The node that an iterator points at, and the list without it. -/
def takeNode (nodes : List (Nat × List UInt8)) (it : Nat) :
    Option ((Nat × List UInt8) × List (Nat × List UInt8)) :=
  (nodes.find? (·.1 == it)).map fun node => (node, nodes.eraseP (·.1 == it))

def lookup (c : LinkedCache) (key : List UInt8) : Option (LinkedCache × Option CachedFile) :=
  match c.entries.lookup key with
  | none => some (c, none)
  | some slot =>
    -- `splice()` moves the node to the front
    (takeNode c.lru slot.lru).map fun (node, rest) =>
      ({ c with lru := node :: rest }, some slot.entry)

/-- The slot that `insert()` finds for the key goes. -/
def erase (c : LinkedCache) (key : List UInt8) : Option LinkedCache :=
  match c.entries.lookup key with
  | none => some c
  | some slot =>
    (takeNode c.lru slot.lru).map fun (_, rest) =>
      { entries := c.entries.filter (·.1 ≠ key)
        lru := rest
        bytes := c.bytes - slot.entry.file.size }

/-- One pass of the loop of `insert()`. -/
def evictPass (c : LinkedCache) : LinkedCache ⊕ Option LinkedCache :=
  if 1 < c.entries.length ∧
      (FileCache.maxEntries < c.entries.length ∨ (FileCache.maxBytes : Int) < c.bytes) then
    match c.lru.getLast? with
    | none => .inr none
    | some (_, key) =>
      match c.entries.lookup key with
      | none => .inr none
      | some victim =>
        .inl
          { entries := c.entries.filter (·.1 ≠ key)
            lru := c.lru.dropLast
            bytes := c.bytes - victim.entry.file.size }
  else .inr (some c)

theorem evictPass_variant : Variant evictPass (fun c => c.lru.length) := by
  intro c c' h
  unfold evictPass at h
  split at h
  · split at h
    · exact nomatch h
    · rename_i node key hlast
      split at h
      · exact nomatch h
      · have hpos := List.length_pos_of_mem (List.mem_of_getLast? hlast)
        rw [← Sum.inl.inj h]
        show c.lru.dropLast.length < c.lru.length
        rw [List.length_dropLast]
        omega
  · exact nomatch h

/-- `node` is where the list allocates the node of the key. -/
def insert (c : LinkedCache) (key : List UInt8) (entry : CachedFile) (node : Nat) :
    Option LinkedCache :=
  (c.erase key).bind fun c =>
    loop evictPass_variant
      { entries := (key, ⟨entry, node⟩) :: c.entries
        lru := (node, key) :: c.lru
        bytes := c.bytes + entry.file.size }

end LinkedCache

/-! ### Runs -/

inductive CacheOp
  | lookup (key : List UInt8)
  | insert (key : List UInt8) (entry : CachedFile) (node : Nat)
deriving DecidableEq, Repr

def CacheOp.key : CacheOp → List UInt8
  | .lookup key => key
  | .insert key _ _ => key

def LinkedCache.step (c : LinkedCache) : CacheOp → Option LinkedCache
  | .lookup key => (c.lookup key).map Prod.fst
  | .insert key entry node => c.insert key entry node

/-- A node is not allocated where another one is; it may be where that of the same key has been. -/
def LinkedCache.Allocates (c : LinkedCache) : CacheOp → Prop
  | .lookup _ => True
  | .insert key _ node => ∀ x ∈ c.lru, x.1 = node → x.2 = key

instance (c : LinkedCache) (op : CacheOp) : Decidable (c.Allocates op) :=
  match op with
  | .lookup _ => isTrue trivial
  | .insert key _ node => inferInstanceAs (Decidable (∀ x ∈ c.lru, x.1 = node → x.2 = key))

end AnyHttp
