import AnyHttp.HttpDate
import AnyHttp.Lib.Loop
import AnyHttp.Lib.Run

/-!
# Serving files

`file_handler.cpp`: which file a request path stands for (`resolve`), what is sent of it, and the
cache of mapped files (`FileCache`), of which there is one for all servers and handlers.

The file system is a parameter, and does not change.  Of the operating system and of
`std::filesystem::weakly_canonical()`, which follows symbolic links, the model has what they answer;
what `fs::path` does by itself is defined here, as it is on POSIX.
-/

namespace AnyHttp

open Lib

/-! ### `fs::path` -/

/-- A path, as its elements: the root directory, and the names. An empty last name stands for the
slash at the end of the path. -/
structure Path where
  absolute : Bool
  names : List (List UInt8)
deriving DecidableEq, Repr

namespace Path

def dot : List UInt8 := text "."

def dotDot : List UInt8 := text ".."

/-- The elements from `begin()` to `end()`. -/
def elements (p : Path) : List (List UInt8) :=
  if p.absolute then text "/" :: p.names else p.names

def ofText (s : List UInt8) : Path :=
  -- slashes in a row count as one
  let names := (s.splitOn '/'.toUInt8).filter (· ≠ [])
  { absolute := s.head? = some '/'.toUInt8
    -- a path that ends with a slash has an empty filename
    names := if names ≠ [] ∧ s.getLast? = some '/'.toUInt8 then names ++ [[]] else names }

def filename (p : Path) : List UInt8 := p.names.getLast?.getD []

/-- `operator/`. -/
def append (p q : Path) : Path :=
  -- an absolute path replaces what is in front of it
  if q.absolute then q
  else if q.names = [] then
    if p.filename = [] then p else { p with names := p.names ++ [[]] }
  else { p with names := (if p.filename = [] then p.names.dropLast else p.names) ++ q.names }

/-- What is left of two lists behind their longest common prefix, see `std::mismatch()`. -/
def mismatch : List (List UInt8) → List (List UInt8) → List (List UInt8) × List (List UInt8)
  | a :: as, b :: bs => if a = b then mismatch as bs else (a :: as, b :: bs)
  | as, bs => (as, bs)

/-- How many directories up these elements of a path have to be left again. -/
def steps (elements : List (List UInt8)) : Int :=
  (elements.countP fun e => e ≠ [] ∧ e ≠ dot ∧ e ≠ dotDot) - elements.count dotDot

/-- `lexically_relative()`. -/
def lexicallyRelative (p base : Path) : Path :=
  if p.absolute ≠ base.absolute then ⟨false, []⟩
  else
    match mismatch p.elements base.elements with
    | ([], []) => ⟨false, [dot]⟩
    | (a, b) =>
      let n := steps b
      -- the base has more ".." than names
      if n < 0 then ⟨false, []⟩
      -- the same directory
      else if n = 0 ∧ (a = [] ∨ a.head? = some []) then ⟨false, [dot]⟩
      else ⟨false, List.replicate n.toNat dotDot ++ a⟩

def extension (p : Path) : List UInt8 :=
  if p.filename = dot ∨ p.filename = dotDot then []
  else
    match rfind '.'.toUInt8 p.filename with
    -- a leading dot does not make an extension
    | none | some 0 => []
    | some i => p.filename.drop i

end Path

/-! ### The file system -/

/-- `errno`. -/
abbrev Errno := Nat

def enoent : Errno := 2
def eisdir : Errno := 21
def einval : Errno := 22

inductive FileType
  | regular
  | directory
  | other
deriving DecidableEq, Repr

/-- The part of `struct stat` that is looked at. -/
structure Stat where
  type : FileType
  dev : Nat
  ino : Nat
  size : Nat
  /-- `st_mtim`, in seconds and nanoseconds. -/
  mtime : Int
  mtimeNsec : Nat
deriving DecidableEq, Repr

/-- A file that has been opened for reading. -/
structure OpenFile where
  fstat : Except Errno Stat
  /-- The bytes that so much of it maps to. -/
  mmap : Nat → Except Errno (List UInt8)

/-- What the operating system answers. -/
structure FileSystem where
  weaklyCanonical : Path → Except Errno Path
  openFile : Path → Except Errno OpenFile
  stat : Path → Except Errno Stat
  /-- The path is in normal form, in which an absolute one has no dots. -/
  canonical : ∀ path file, weaklyCanonical path = .ok file → file.absolute →
    ∀ e ∈ file.elements, e ≠ Path.dot ∧ e ≠ Path.dotDot
  /-- What can be opened can be looked at, and is the same file. -/
  stat_eq : ∀ path file st, openFile path = .ok file → file.fstat = .ok st → stat path = .ok st

/-! ### A file -/

/-- What a mapping was made from. -/
structure Identity where
  dev : Nat
  ino : Nat
  size : Nat
  mtime : Int
  mtimeNsec : Nat
deriving DecidableEq, Repr

/-- The ticks of `std::chrono::system_clock` in a second. -/
def systemTicks : Nat := 10 ^ 9

/-- `system_clock::from_time_t()`. -/
def fromTimeT (t : Int) : Int := t * systemTicks

def Stat.identity (st : Stat) : Identity := ⟨st.dev, st.ino, st.size, st.mtime, st.mtimeNsec⟩

structure MappedFile where
  bytes : List UInt8
  size : Nat
  /-- A time point of the system clock. -/
  mtime : Int
  id : Identity
deriving DecidableEq, Repr

/-- `MappedFile::open()`. -/
def MappedFile.openFile (fs : FileSystem) (path : Path) : Except Errno MappedFile := do
  let fd ← fs.openFile path
  let st ← fd.fstat
  if st.type ≠ .regular then
    throw (if st.type = .directory then eisdir else einval)
  -- an empty file can't be mapped, and there is nothing to send
  let bytes ← if st.size = 0 then pure [] else fd.mmap st.size
  return { bytes := bytes, size := st.size, mtime := fromTimeT st.mtime, id := st.identity }

/-- `resolve()`: the file that a request path stands for, if it is below `mount` (the parameter
`prefix` of the source) and does not reach outside of `root`. -/
def resolve (fs : FileSystem) (path mount : List UInt8) (root : Path) : Except Errno Path := do
  -- the prefix has to match, ...
  if ¬ mount <+: path then
    throw enoent
  let path := path.drop mount.length
  -- ... and to end where an element of the path does
  if path ≠ [] ∧ path.head? ≠ some '/'.toUInt8 then
    throw enoent
  let base ← fs.weaklyCanonical root
  let file ← fs.weaklyCanonical (base.append (.ofText (path.dropWhile (· == '/'.toUInt8))))
  let relative := file.lexicallyRelative base
  -- outside of the root
  if relative.elements = [] ∨ relative.elements.head? = some Path.dotDot then
    throw enoent
  return file

/-! ### Headers -/

def toLower (c : UInt8) : UInt8 :=
  if 'A'.toUInt8 ≤ c && c ≤ 'Z'.toUInt8 then c + 32 else c

/-- What the extensions stand for. -/
def contentTypes : List (List UInt8 × List UInt8) :=
  [(text ".css", text "text/css"), (text ".gif", text "image/gif"),
    (text ".htm", text "text/html"), (text ".html", text "text/html"),
    (text ".jpeg", text "image/jpeg"), (text ".jpg", text "image/jpeg"),
    (text ".js", text "text/javascript"), (text ".json", text "application/json"),
    (text ".pdf", text "application/pdf"), (text ".png", text "image/png"),
    (text ".svg", text "image/svg+xml"), (text ".txt", text "text/plain"),
    (text ".xml", text "application/xml"), (text ".zip", text "application/zip")]

/-- `content_type()`. -/
def contentType (path : Path) : List UInt8 :=
  (contentTypes.lookup (path.extension.map toLower)).getD (text "application/octet-stream")

/-- Everything serving one request needs, computed once per file. -/
structure CachedFile where
  resolved : Path
  file : MappedFile
  lastModified : List UInt8
  contentType : List UInt8
deriving DecidableEq, Repr

/-- What is made of a file that a path has been resolved to. -/
def CachedFile.load (fs : FileSystem) (resolved : Path) : Except Errno CachedFile := do
  let mapped ← MappedFile.openFile fs resolved
  return ⟨resolved, mapped, HttpDate.formatHttpDate systemTicks mapped.mtime,
    AnyHttp.contentType resolved⟩

/-! ### The cache -/

/-- What `get()` is called with. -/
structure FileRequest where
  path : List UInt8
  /-- The parameter `prefix` of the source. -/
  mount : List UInt8
  root : Path
deriving DecidableEq, Repr

/-- A request without a cache: `resolve()` and `MappedFile::open()`. -/
def FileRequest.serve (fs : FileSystem) (r : FileRequest) : Except Errno CachedFile := do
  let resolved ← resolve fs r.path r.mount r.root
  CachedFile.load fs resolved

/-- `entries` are the slots of `entries_`, in no particular order; the keys are in `lru`, the one
that has been used last in front. -/
structure FileCache where
  entries : List (List UInt8 × CachedFile) := []
  lru : List (List UInt8) := []
  bytes : Nat := 0
deriving DecidableEq, Repr

namespace FileCache

def maxEntries : Nat := 256
def maxBytes : Nat := 64 * 2 ^ 20

def lookup (c : FileCache) (key : List UInt8) : FileCache × Option CachedFile :=
  match c.entries.lookup key with
  | none => (c, none)
  | some entry => ({ c with lru := key :: c.lru.erase key }, some entry)

/-- The slot of this key goes. -/
def erase (c : FileCache) (key : List UInt8) : FileCache :=
  match c.entries.lookup key with
  | none => c
  | some entry =>
    { entries := c.entries.filter (·.1 ≠ key)
      lru := c.lru.erase key
      bytes := c.bytes - entry.file.size }

/-- One pass of the loop of `insert()`, which makes room. -/
def evictPass (c : FileCache) : FileCache ⊕ FileCache :=
  if 1 < c.entries.length ∧ (maxEntries < c.entries.length ∨ maxBytes < c.bytes) then
    match c.lru.getLast? with
    -- there is always a victim, see `WellFormed.victim`
    | none => .inr c
    | some victim =>
      .inl
        { entries := c.entries.filter (·.1 ≠ victim)
          lru := c.lru.dropLast
          bytes := c.bytes - ((c.entries.lookup victim).elim 0 fun entry => entry.file.size) }
  else .inr c

theorem evictPass_variant : Variant evictPass (fun c => c.lru.length) := by
  intro c c' h
  unfold evictPass at h
  split at h
  · split at h
    · exact nomatch h
    · rename_i victim hlast
      have hne : c.lru ≠ [] := by
        intro hnil
        rw [hnil] at hlast
        exact nomatch hlast
      have hpos := List.length_pos_of_ne_nil hne
      rw [← Sum.inl.inj h]
      show c.lru.dropLast.length < c.lru.length
      rw [List.length_dropLast]
      omega
  · exact nomatch h

def insert (c : FileCache) (key : List UInt8) (entry : CachedFile) : FileCache :=
  let c := c.erase key
  loop evictPass_variant
    { entries := (key, entry) :: c.entries
      lru := key :: c.lru
      bytes := c.bytes + entry.file.size }

/-- A hit is good for as long as the file on disk is the one that was mapped. -/
def unchanged (fs : FileSystem) (entry : CachedFile) : Bool :=
  match fs.stat entry.resolved with
  | .ok st => st.identity == entry.file.id
  | .error _ => false

/-- A miss, or the file has changed underneath us. -/
def miss (fs : FileSystem) (c : FileCache) (r : FileRequest) :
    FileCache × Except Errno CachedFile :=
  match r.serve fs with
  | .error e => (c, .error e)
  | .ok entry => (c.insert r.path entry, .ok entry)

/-- `FileCache::get()`. -/
def get (fs : FileSystem) (c : FileCache) (r : FileRequest) : FileCache × Except Errno CachedFile :=
  match c.lookup r.path with
  | (c, some hit) => if unchanged fs hit then (c, .ok hit) else miss fs c r
  | (c, none) => miss fs c r

end FileCache

/-! ### Runs -/

/-- The cache of a process, with what the calls of `get()` have returned so far. -/
structure FileServer where
  cache : FileCache := {}
  answers : List (FileRequest × Except Errno CachedFile) := []

/-- Somebody calls `get()`. -/
def FileServer.step (fs : FileSystem) (s : FileServer) (r : FileRequest) : Option FileServer :=
  let (cache, answer) := s.cache.get fs r
  some ⟨cache, s.answers ++ [(r, answer)]⟩

end AnyHttp
