import AnyHttp.Common
import AnyHttp.Lib.Loop

/-!
# The application of a connection

`QuicServerImpl` (`quic/server.cpp`) has a list of applications, by name, in the order of its
preference.  When a client says which ones it can speak, `alpn_select_cb()` picks one of them, and
the session of the connection gets what the factory makes.

The client's list is a span of bytes, of which the source takes smaller and smaller ones; one that
reached beyond its end would have no value (`subspan`).  Of `&s[1]`, only the address is taken: an
empty entry may be the last one.  Applications are told apart by the factory that made them.
-/

namespace AnyHttp.Quic.Alpn

open Lib

/-- A name, with what `add_application()` asserts of it. -/
structure Name where
  bytes : List UInt8
  bytes_ne_nil : bytes ≠ []
  length_lt : bytes.length < 256
deriving DecidableEq, Repr

section

variable {Factory : Type}

/-- `add_application()`: replaces what has been registered before, in its place. -/
def addApplication (alpn : Name) (factory : Factory) :
    List (Name × Factory) → List (Name × Factory)
  | [] => [(alpn, factory)]
  | (registered, registeredFactory) :: applications =>
    if registered = alpn then (registered, factory) :: applications
    else (registered, registeredFactory) :: addApplication alpn factory applications

/-- The calls that have been made, one after the other. -/
def addApplications (calls : List (Name × Factory)) : List (Name × Factory) :=
  calls.foldl (fun applications call => addApplication call.1 call.2 applications) []

/-! ### The client's list -/

/-- `subspan()`, of the bytes that there are. -/
def subspan (s : List UInt8) (offset count : Nat) : Option (List UInt8) :=
  if offset + count ≤ s.length then some ((s.drop offset).take count) else none

/-- One pass of the loop over the client's list: what is left of it, or the entry that has been
found, if any; no result at all if it has been left by way of its end. -/
def entriesPass (alpn : Name) : List UInt8 → List UInt8 ⊕ Option (Option (List UInt8))
  | [] => .inr (some none)
  | n :: rest =>
    let s := n :: rest
    if n.toNat < s.length then
      match subspan s 1 n.toNat with
      | none => .inr none
      | some entry =>
        if entry = alpn.bytes then .inr (some (some entry))
        else
          match subspan s (n.toNat + 1) (s.length - (n.toNat + 1)) with
          | none => .inr none
          | some s => .inl s
    else .inr (some none)

/-- What there is behind an entry. -/
theorem entriesPass_cons (alpn : Name) {n : UInt8} {rest : List UInt8}
    (h : n.toNat ≤ rest.length) :
    entriesPass alpn (n :: rest) =
      if rest.take n.toNat = alpn.bytes then .inr (some (some (rest.take n.toNat)))
      else .inl (rest.drop n.toNat) := by
  have hentry : subspan (n :: rest) 1 n.toNat = some (rest.take n.toNat) := by
    rw [subspan, List.length_cons, if_pos (by omega), List.drop_one, List.tail_cons]
  have hnext : subspan (n :: rest) (n.toNat + 1) ((n :: rest).length - (n.toNat + 1)) =
      some (rest.drop n.toNat) := by
    rw [subspan, List.length_cons, if_pos (by omega), List.drop_succ_cons]
    rw [List.take_of_length_le]
    rw [List.length_drop]
    omega
  unfold entriesPass
  dsimp only
  rw [hentry, hnext, List.length_cons, if_pos (by omega)]

/-- An entry that is not all there. -/
theorem entriesPass_truncated (alpn : Name) {n : UInt8} {rest : List UInt8}
    (h : rest.length < n.toNat) : entriesPass alpn (n :: rest) = .inr (some none) := by
  unfold entriesPass
  dsimp only
  rw [List.length_cons, if_neg (by omega)]

theorem entriesPass_variant (alpn : Name) : Variant (entriesPass alpn) List.length := by
  intro s t h
  cases s with
  | nil => exact nomatch h
  | cons n rest =>
    by_cases hn : n.toNat ≤ rest.length
    · rw [entriesPass_cons alpn hn] at h
      split at h
      · exact nomatch h
      · obtain rfl := Sum.inl.inj h
        rw [List.length_drop, List.length_cons]
        omega
    · rw [entriesPass_truncated alpn (by omega)] at h
      exact nomatch h

/-- The entry that has the name of an application. -/
def findEntry (alpn : Name) (list : List UInt8) : Option (Option (List UInt8)) :=
  loop (entriesPass_variant alpn) list

/-- The loop over the applications, with what is chosen so far: until that is not empty. -/
def choose (list : List UInt8) :
    List (Name × Factory) → List UInt8 × Option Factory → Option (List UInt8 × Option Factory)
  | [], found => some found
  | (alpn, registeredFactory) :: applications, found => do
    let entry ← findEntry alpn list
    let (chosen, factory) :=
      match entry with
      | some entry => (entry, some registeredFactory)
      | none => found
    if chosen ≠ [] then return (chosen, factory)
    else choose list applications (chosen, factory)

/-! ### The session -/

/-- What a `QuicServerSession` knows of its application. -/
structure Session (Factory : Type) where
  application : Option Factory := none
  alpn : List UInt8 := []
deriving DecidableEq, Repr

/-- `select_application()`: there is nothing to select any more after a second `ClientHello`. -/
def Session.selectApplication (session : Session Factory) (alpn : List UInt8)
    (factory : Option Factory) : Bool × Session Factory :=
  match session.application with
  | some _ => (alpn == session.alpn, session)
  | none => (true, { session with alpn := alpn, application := factory })

/-- What the callback returns to TLS. -/
inductive Result
  | ok (out : List UInt8)
  | alertFatal
deriving DecidableEq, Repr

/-- `alpn_select_cb()`. -/
def alpnSelectCb (applications : List (Name × Factory)) (session : Option (Session Factory))
    (list : List UInt8) : Option (Result × Option (Session Factory)) :=
  match session with
  | none => some (.alertFatal, none)
  | some session => do
    let (chosen, factory) ← choose list applications ([], none)
    if chosen = [] then return (.alertFatal, some session)
    else
      let (selected, session) := session.selectApplication chosen factory
      return (if selected then .ok chosen else .alertFatal, some session)

end

end AnyHttp.Quic.Alpn
