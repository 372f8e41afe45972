import Mathlib.Algebra.BigOperators.Group.List.Basic
import AnyHttp.H2.Equiv.Reading

/-!
# The incoming body

What a reader of an HTTP/2 stream gets is what has been received, in order, and the end of the body
after it (`incoming_body_intact`), however the handlers of its reads re-enter `call_read_handler()`.
The invariant has a part that holds all the time (`Intact`), and one that depends on where the
outermost call is: there is none (`Outside`), it is about to look for the next read (`Looping`), or
it has invoked a handler (`Invoked`).
-/

namespace AnyHttp.H2

open Lib

/-- `call_read_handler()` goes on here. -/
def Frame.isRead : Frame → Bool
  | .data | .eof | .truncated => true
  | _ => false

/-- A call that may go on to `close_stream()` here. -/
def Frame.isClosing : Frame → Bool
  | .closing | .failed => true
  | _ => false

namespace Stream

variable {m t : Stream} {a : Action} {after : Stream → Stream}

/-! ### What a trace says about reading -/

/-- The bytes that a call copies to the buffer of a reader. -/
def readBytes : Call → List UInt8
  | .completeRead _ _ _ _ bytes => bytes
  | _ => []

/-- The credit that a call gives back. -/
def creditOf : Call → Nat
  | .consumeStream n => n
  | _ => 0

/-- The end of the body is reported. -/
def IsEof : Call → Prop
  | .completeRead _ _ ec _ _ => ec = .eof
  | _ => False

/-- What is reported after that: the end of the body again, unless the read is cancelled, or not
meant to read anything. -/
def IsOver : Call → Prop
  | .completeRead _ size ec _ bytes => (size = 0 ∨ ec = .eof ∨ ec = .canceled) ∧ bytes = []
  | _ => True

def delivered (m : Stream) : List UInt8 := m.trace.flatMap readBytes

def credited (m : Stream) : Nat := (m.trace.map creditOf).sum

/-- What has been received, but not delivered. -/
def unread (m : Stream) : List UInt8 :=
  m.rx.readBuffer ++ m.rx.pendingReadBuffers.tail.flatten ++ m.rx.view

/-- The number of calls of `call_read_handler()` that have invoked a handler. -/
def readFrames (m : Stream) : Nat := m.frames.countP Frame.isRead

/-- One more call delivers what it copies. -/
theorem delivered_concat {c : Call} (h : t.trace = m.trace ++ [c]) :
    t.delivered = m.delivered ++ readBytes c := by
  simp [delivered, h]

/-- One more call gives the credit that it says. -/
theorem credited_concat {c : Call} (h : t.trace = m.trace ++ [c]) :
    t.credited = m.credited + creditOf c := by
  simp [credited, h]

/-! ### The invariant -/

/-- What has been received and what has become of it. -/
structure Bytes (m : Stream) : Prop where
  content : m.received = m.delivered ++ m.unread
  credit : m.credited + m.rx.consumed = m.delivered.length
  nonempty : ∀ b ∈ m.rx.pendingReadBuffers, b ≠ []
  suffix : ∀ b ∈ m.rx.pendingReadBuffers.head?, m.rx.readBuffer <:+ b
  /-- The new data waits behind what is buffered. -/
  behind : m.rx.pendingReadBuffers = [] → m.rx.view = []
  /-- What has been said about the end. -/
  told : (∃ c ∈ m.trace, IsEof c) → m.rx.eofReceived = true ∧ m.unread = [] ∧
    ∀ ec, m.readerHandle = .detached ec → ec = .eof
  latched : m.readerHandle = .detached .eof → m.rx.eofReceived = true ∧ m.unread = []
  order : m.trace.Pairwise fun c d => IsEof c → IsOver d
  bare : ∀ c ∈ m.trace, IsEof c → readBytes c = []

/-- Who there is to read. -/
structure Handles (m : Stream) : Prop where
  reader : m.reader = true ↔ m.readerHandle = .attached
  waiting : m.rx.readHandler.isSome = true → m.readerHandle = .attached
  inside : m.rx.insideCallReadHandler = true → m.readerHandle ≠ .absent
  asking : m.rs.responseHandler.isSome = true →
    m.readerHandle = .absent ∧ m.rs.responseDelivered = false
  undelivered : m.isServer = false → m.rs.responseDelivered = false → m.readerHandle = .absent
  /-- `close_stream()` does not run inside `call_read_handler()`. -/
  frames : m.frames.Pairwise fun f g => f.isClosing = true → g.isRead = false

structure Intact (m : Stream) : Prop extends Bytes m, Handles m

/-- There is no call of `call_read_handler()`. -/
structure Outside (m : Stream) : Prop where
  inside : m.rx.insideCallReadHandler = false
  frames : m.readFrames = 0
  view : m.rx.view = []
  consumed : m.rx.consumed = 0
  empty : m.rx.readBuffer = [] ↔ m.rx.pendingReadBuffers = []

/-- ... and no read waits that could be completed. -/
structure Quiet (m : Stream) : Prop extends Outside m where
  idle : m.rx.readHandler.isSome = true → m.rx.readBuffer = [] ∧ m.rx.eofReceived = false

/-- `call_read_handler()` is about to look for a read. -/
structure Looping (m : Stream) : Prop where
  inside : m.rx.insideCallReadHandler = true
  frames : m.readFrames = 0
  empty : m.rx.readBuffer = [] → m.rx.pendingReadBuffers = [] ∧ m.rx.view = []

/-- It has invoked a handler. -/
structure Invoked (m : Stream) : Prop where
  inside : m.rx.insideCallReadHandler = true
  frames : m.readFrames = 1
  ended : .eof ∈ m.frames ∨ .truncated ∈ m.frames →
    m.rx.readBuffer = [] ∧ m.rx.pendingReadBuffers = [] ∧ m.rx.view = [] ∧ m.rx.consumed = 0
  eof : .eof ∈ m.frames → m.rx.eofReceived = true
  truncated : .truncated ∈ m.frames → m.rx.eofReceived = false

/-- Between two steps. -/
def AtRest (m : Stream) : Prop := Intact m ∧ (Quiet m ∨ Invoked m)

/-- Nothing of a body has arrived at a new stream. -/
theorem atRest_fresh (hm : Fresh m) : AtRest m := by
  obtain ⟨_, _, rfl | rfl⟩ := hm
  · refine ⟨⟨⟨rfl, rfl, ?_, ?_, ?_, ?_, ?_, .nil, ?_⟩, ⟨?_, ?_, ?_, ?_, ?_, .nil⟩⟩,
      .inl ⟨⟨rfl, rfl, rfl, rfl, ?_⟩, ?_⟩⟩ <;> simp [client]
  · refine ⟨⟨⟨rfl, rfl, ?_, ?_, ?_, ?_, ?_, .nil, ?_⟩, ⟨?_, ?_, ?_, ?_, ?_, .nil⟩⟩,
      .inl ⟨⟨rfl, rfl, rfl, rfl, ?_⟩, ?_⟩⟩ <;> simp [server]

/-! ### One change at a time -/

/-- Nothing is said about reading. -/
theorem Bytes.of_trace (hm : Bytes m) (htrace : t.trace = m.trace)
    (hcontent : t.received = m.delivered ++ t.unread) (hconsumed : t.rx.consumed = m.rx.consumed)
    (hnonempty : ∀ b ∈ t.rx.pendingReadBuffers, b ≠ [])
    (hsuffix : ∀ b ∈ t.rx.pendingReadBuffers.head?, t.rx.readBuffer <:+ b)
    (hbehind : t.rx.pendingReadBuffers = [] → t.rx.view = [])
    (heof : m.rx.eofReceived = true → t.rx.eofReceived = true)
    (hunread : m.rx.eofReceived = true → m.unread = [] → t.unread = [])
    (hhandle : t.readerHandle = m.readerHandle) : Bytes t := by
  have hdelivered : t.delivered = m.delivered := by rw [delivered, htrace, delivered]
  have hcredited : t.credited = m.credited := by rw [credited, htrace, credited]
  refine ⟨?_, ?_, hnonempty, hsuffix, hbehind, ?_, ?_, ?_, ?_⟩
  · rw [hdelivered]
    exact hcontent
  · rw [hdelivered, hcredited, hconsumed]
    exact hm.credit
  · rw [htrace, hhandle]
    intro h
    obtain ⟨he, hu, hec⟩ := hm.told h
    exact ⟨heof he, hunread he hu, hec⟩
  · rw [hhandle]
    intro h
    obtain ⟨he, hu⟩ := hm.latched h
    exact ⟨heof he, hunread he hu⟩
  · rw [htrace]
    exact hm.order
  · rw [htrace]
    exact hm.bare

/-- Something is. -/
theorem Bytes.of_call (hm : Bytes m) {c : Call} (htrace : t.trace = m.trace ++ [c])
    (hcontent : t.received = m.delivered ++ readBytes c ++ t.unread)
    (hcredit : m.credited + creditOf c + t.rx.consumed = (m.delivered ++ readBytes c).length)
    (hpending : t.rx.pendingReadBuffers = m.rx.pendingReadBuffers) (hview : t.rx.view = m.rx.view)
    (hbuffer : t.rx.readBuffer <:+ m.rx.readBuffer)
    (heof : t.rx.eofReceived = m.rx.eofReceived)
    (hunread : m.unread = [] → t.unread = [])
    (hhandle : t.readerHandle = m.readerHandle)
    (hend : IsEof c → m.rx.eofReceived = true ∧ m.unread = [] ∧
      ∀ ec, m.readerHandle = .detached ec → ec = .eof)
    (hover : (∃ c' ∈ m.trace, IsEof c') → IsOver c) (hbare : IsEof c → readBytes c = []) :
    Bytes t := by
  have htold : (∃ c' ∈ t.trace, IsEof c') → t.rx.eofReceived = true ∧ t.unread = [] ∧
      ∀ ec, t.readerHandle = .detached ec → ec = .eof := by
    rw [htrace, heof, hhandle]
    rintro ⟨c', hc', heof'⟩
    have hboth : m.rx.eofReceived = true ∧ m.unread = [] ∧
        ∀ ec, m.readerHandle = .detached ec → ec = .eof := by
      -- the end has been told before, or is told by this call
      rcases List.mem_append.mp hc' with hc' | hc'
      · exact hm.told ⟨c', hc', heof'⟩
      · exact hend (List.mem_singleton.mp hc' ▸ heof')
    exact ⟨hboth.1, hunread hboth.2.1, hboth.2.2⟩
  refine ⟨?_, ?_, ?_, ?_, ?_, htold, ?_, ?_, ?_⟩
  · rw [delivered_concat htrace]
    exact hcontent
  · rw [delivered_concat htrace, credited_concat htrace]
    exact hcredit
  · rw [hpending]
    exact hm.nonempty
  · rw [hpending]
    intro b hb
    exact hbuffer.trans (hm.suffix b hb)
  · rw [hpending, hview]
    exact hm.behind
  · rw [hhandle, heof]
    intro h
    obtain ⟨he, hu⟩ := hm.latched h
    exact ⟨he, hunread hu⟩
  · rw [htrace]
    refine List.pairwise_append.mpr ⟨hm.order, List.pairwise_singleton _ _, ?_⟩
    intro c' hc' d hd heof'
    rw [List.mem_singleton.mp hd]
    exact hover ⟨c', hc', heof'⟩
  · rw [htrace]
    intro c' hc'
    rcases List.mem_append.mp hc' with hc' | hc'
    · exact hm.bare c' hc'
    · rw [List.mem_singleton.mp hc']
      exact hbare

/-- Who there is to read does not depend on the body. -/
theorem Handles.mono (hm : Handles m) (hreader : t.reader = m.reader)
    (hhandle : t.readerHandle = m.readerHandle) (hserver : t.isServer = m.isServer)
    (hresponse : t.rs.responseHandler.isSome = true → m.rs.responseHandler.isSome = true)
    (hdelivered : t.rs.responseDelivered = m.rs.responseDelivered)
    (hwaiting : t.rx.readHandler.isSome = true → m.rx.readHandler.isSome = true)
    (hinside : t.rx.insideCallReadHandler = true →
      m.rx.insideCallReadHandler = true ∨ m.rx.readHandler.isSome = true)
    (hframes : t.frames.Pairwise fun f g => f.isClosing = true → g.isRead = false) :
    Handles t := by
  refine ⟨?_, ?_, ?_, ?_, ?_, hframes⟩
  · rw [hreader, hhandle]
    exact hm.reader
  · rw [hhandle]
    exact fun h => hm.waiting (hwaiting h)
  · rw [hhandle]
    intro h
    -- who reads has been there before, or waits now
    rcases hinside h with h | h
    · exact hm.inside h
    · simp [hm.waiting h]
  · rw [hhandle, hdelivered]
    exact fun h => hm.asking (hresponse h)
  · rw [hserver, hdelivered, hhandle]
    exact hm.undelivered

/-- A call may be suspended above the others, if a close is not above a read. -/
theorem frames_push (hm : Handles m) {f : Frame}
    (hf : f.isClosing = true → m.readFrames = 0) :
    (f :: m.frames).Pairwise fun f g => f.isClosing = true → g.isRead = false := by
  refine List.pairwise_cons.mpr ⟨?_, hm.frames⟩
  intro g hg hclosing
  have := List.countP_eq_zero.mp (hf hclosing) g hg
  simpa using this

/-- If `call_read_handler()` is not suspended, it is in no frame. -/
theorem not_mem_frames (h : m.readFrames = 0) {f : Frame} (hf : f.isRead = true) :
    f ∉ m.frames := by
  intro hmem
  exact List.countP_eq_zero.mp h f hmem hf

/-! ### The pieces of `call_read_handler()` -/

/-- **The loop delivers**: the read that waits gets the first bytes of the buffer, which need credit
now. -/
theorem Intact.deliver (hm : Intact m) (hloop : Looping m) (h : Handler)
    (hb : m.rx.readBuffer ≠ []) :
    AtRest ((m.deliver h).push .data) := by
  have hnot : ¬ ∃ c ∈ m.trace, IsEof c := by
    intro htold
    have := (hm.told htold).2.1
    simp only [unread, List.append_eq_nil_iff] at this
    exact hb this.1.1
  set copied := m.rx.readBuffer.take m.rx.readHandlerBuffer with hcopied
  refine ⟨⟨?_, ?_⟩, .inr ⟨hloop.inside, ?_, ?_, ?_, ?_⟩⟩
  · refine hm.toBytes.of_call (c := .completeRead h m.rx.readHandlerBuffer .success copied.length
      copied) rfl ?_ ?_ rfl rfl (List.drop_suffix _ _) rfl ?_ rfl (fun h => nomatch h)
      (fun h => absurd h hnot) (fun h => nomatch h)
    · show m.received = m.delivered ++ copied ++ (m.rx.readBuffer.drop m.rx.readHandlerBuffer ++
        m.rx.pendingReadBuffers.tail.flatten ++ m.rx.view)
      rw [hm.content, unread, hcopied]
      simp only [List.append_assoc]
      rw [← List.append_assoc (List.take _ _), List.take_append_drop]
    · show m.credited + 0 + (m.rx.consumed + copied.length) = _
      have := hm.credit
      simp only [readBytes, List.length_append]
      omega
    · intro hu
      simp only [unread, List.append_eq_nil_iff] at hu
      exact absurd hu.1.1 hb
  · exact hm.toHandles.mono rfl rfl rfl id rfl (fun h => nomatch h) (fun h => .inl h)
      (frames_push hm.toHandles fun h => nomatch h)
  · show (Frame.data :: m.frames).countP Frame.isRead = 1
    rw [List.countP_cons_of_pos rfl]
    exact congrArg (· + 1) hloop.frames
  · intro hended
    simp only [push, List.mem_cons, reduceCtorEq, false_or] at hended
    -- the loop has delivered data, so it is not the end that it goes on from
    rcases hended with hmem | hmem
    · exact absurd hmem (not_mem_frames hloop.frames rfl)
    · exact absurd hmem (not_mem_frames hloop.frames rfl)
  · intro hmem
    simp only [push, List.mem_cons, reduceCtorEq, false_or] at hmem
    exact absurd hmem (not_mem_frames hloop.frames rfl)
  · intro hmem
    simp only [push, List.mem_cons, reduceCtorEq, false_or] at hmem
    exact absurd hmem (not_mem_frames hloop.frames rfl)

/-- Before it goes on or leaves, the credit is given back for all that it has delivered. -/
theorem Intact.credit_ok (hm : Intact m) : Intact m.credit ∧ m.credit.rx.consumed = 0 := by
  unfold Stream.credit
  split_ifs with hz
  · exact ⟨hm, hz⟩
  · refine ⟨⟨?_, ?_⟩, rfl⟩
    · refine hm.toBytes.of_call (c := .consumeStream m.rx.consumed) rfl ?_ ?_ rfl rfl
        (List.suffix_refl _) rfl id rfl (fun h => nomatch h) (fun _ => trivial)
        (fun h => nomatch h)
      · show m.received = m.delivered ++ [] ++ m.unread
        rw [List.append_nil]
        exact hm.content
      · show m.credited + m.rx.consumed = (m.delivered ++ []).length
        rw [List.append_nil]
        exact hm.credit
    · exact hm.toHandles.mono rfl rfl rfl id rfl id (fun h => .inl h) hm.frames

/-- That does not end the loop. -/
theorem Looping.credit (h : Looping m) : Looping m.credit := by
  unfold Stream.credit
  split_ifs
  · exact h
  · exact ⟨h.inside, h.frames, h.empty⟩

/-- The read that waits is told about the end, one way or the other. -/
theorem Intact.completeEnd (hm : Intact m) (hloop : Looping m) (hz : m.rx.consumed = 0)
    {h : Handler} {ec : ErrorCode} {f : Frame} (hh : m.rx.readHandler = some h)
    (hb : m.rx.readBuffer = [])
    (hkind : ec = .eof ∧ f = .eof ∧ m.rx.eofReceived = true ∨
      ec = .partialMessage ∧ f = .truncated ∧ m.rx.eofReceived = false) :
    AtRest ((m.completeRead h ec 0 []).push f) := by
  obtain ⟨hpending, hview⟩ := hloop.empty hb
  have hunread : m.unread = [] := by simp [unread, hb, hpending, hview]
  have hattached := hm.waiting (by rw [hh]; rfl)
  have hread : f.isRead = true ∧ f.isClosing = false := by
    rcases hkind with ⟨_, rfl, _⟩ | ⟨_, rfl, _⟩
    · exact ⟨rfl, rfl⟩
    · exact ⟨rfl, rfl⟩
  refine ⟨⟨?_, ?_⟩, .inr ⟨hloop.inside, ?_, ?_, ?_, ?_⟩⟩
  · refine hm.toBytes.of_call (c := .completeRead h m.rx.readHandlerBuffer ec 0 [])
      rfl ?_ ?_ rfl rfl
      (List.suffix_refl _) rfl id rfl ?_ ?_ (fun _ => rfl)
    · rw [readBytes, List.append_nil]
      exact hm.content
    · rw [readBytes, List.append_nil]
      exact hm.credit
    · intro heof
      refine ⟨?_, hunread, ?_⟩
      · -- only the end of the body is told as such
        rcases hkind with ⟨_, _, he⟩ | ⟨rfl, _, _⟩
        · exact he
        · exact nomatch heof
      · intro ec' hec'
        exact absurd (hattached.symm.trans hec') (by simp)
    · intro htold
      rcases hkind with ⟨rfl, _, _⟩ | ⟨_, _, he⟩
      · exact ⟨.inr (.inl rfl), rfl⟩
      · exact absurd ((hm.told htold).1.symm.trans he) (by decide)
  · exact hm.toHandles.mono rfl rfl rfl id rfl (fun h => nomatch h) (fun h => .inl h)
      (frames_push hm.toHandles fun h => absurd (hread.2.symm.trans h) (by decide))
  · show (f :: m.frames).countP Frame.isRead = 1
    rw [List.countP_cons_of_pos hread.1]
    exact congrArg (· + 1) hloop.frames
  · exact fun _ => ⟨hb, hpending, hview, hz⟩
  · intro hmem
    rcases hkind with ⟨_, _, he⟩ | ⟨_, rfl, _⟩
    · exact he
    · simp only [push, List.mem_cons, reduceCtorEq, false_or] at hmem
      exact absurd hmem (not_mem_frames hloop.frames rfl)
  · intro hmem
    rcases hkind with ⟨_, rfl, _⟩ | ⟨_, _, he⟩
    · simp only [push, List.mem_cons, reduceCtorEq, false_or] at hmem
      exact absurd hmem (not_mem_frames hloop.frames rfl)
    · exact he

/-- The outermost call ends, with something left that no read waits for. -/
theorem Intact.park_leave (hm : Intact m) (hloop : Looping m) (hz : m.rx.consumed = 0)
    (hh : m.rx.readHandler = none) (hb : m.rx.readBuffer ≠ []) :
    Intact m.park.leave ∧ Quiet m.park.leave := by
  have hpark : (m.park.leave).unread = m.unread ∧ (m.park.leave).rx.pendingReadBuffers ≠ [] ∧
      (∀ b ∈ m.park.leave.rx.pendingReadBuffers, b ≠ []) ∧
      ∀ b ∈ m.park.leave.rx.pendingReadBuffers.head?, m.rx.readBuffer <:+ b := by
    -- the loop has come to an end of its buffers, or stops inside of one
    by_cases hp : m.rx.pendingReadBuffers = []
    · have hv := hm.behind hp
      refine ⟨?_, ?_, ?_, ?_⟩
      · simp [unread, leave, park, hp, hv]
      · simp [leave, park, hp]
      · simp [leave, park, hp, hb]
      · simp [leave, park, hp]
    · -- a buffer that has been read as a whole is dropped
      by_cases hv : m.rx.view = []
      · refine ⟨?_, ?_, ?_, ?_⟩
        · simp [unread, leave, park, hp, hv]
        · simp [leave, park, hp, hv]
        · simpa [leave, park, hp, hv] using hm.nonempty
        · simpa [leave, park, hp, hv] using hm.suffix
      · refine ⟨?_, ?_, ?_, ?_⟩
        · simp [unread, leave, park, hp, hv, List.tail_append_of_ne_nil]
        · simp [leave, park, hp, hv]
        · simp only [leave, park, hp, hv, if_false, ne_eq, not_false_eq_true, if_true,
            List.mem_append, List.mem_singleton]
          rintro b (hb' | rfl)
          · exact hm.nonempty b hb'
          · exact hv
        · have hpending : m.park.leave.rx.pendingReadBuffers =
              m.rx.pendingReadBuffers ++ [m.rx.view] := by simp [leave, park, hp, hv]
          rw [hpending, List.head?_append_of_ne_nil _ hp]
          exact hm.suffix
  obtain ⟨hunread, hpending, hnonempty, hsuffix⟩ := hpark
  refine ⟨⟨?_, ?_⟩, ⟨⟨rfl, hloop.frames, rfl, hz, ?_⟩, ?_⟩⟩
  · refine hm.toBytes.of_trace rfl ?_ rfl hnonempty hsuffix (fun _ => rfl) id ?_ rfl
    · rw [hunread]
      exact hm.content
    · intro _ h
      rw [hunread]
      exact h
  · exact hm.toHandles.mono rfl rfl rfl id rfl id (fun h => nomatch h) hm.frames
  · exact iff_of_false hb hpending
  · intro h
    rw [leave, park, hh] at h
    exact nomatch h

/-- The outermost call ends, with nothing left. -/
theorem Intact.leave_ok (hm : Intact m) (hframes : m.readFrames = 0) (hz : m.rx.consumed = 0)
    (hb : m.rx.readBuffer = []) (hp : m.rx.pendingReadBuffers = []) (hv : m.rx.view = [])
    (hidle : m.rx.readHandler.isSome = true → m.rx.eofReceived = false) :
    Intact m.leave ∧ Quiet m.leave := by
  have hunread : m.leave.unread = m.unread := by simp [unread, leave, hv]
  refine ⟨⟨?_, ?_⟩, ⟨⟨rfl, hframes, rfl, hz, iff_of_true hb hp⟩, fun h => ⟨hb, hidle h⟩⟩⟩
  · refine hm.toBytes.of_trace rfl ?_ rfl hm.nonempty hm.suffix (fun _ => rfl) id ?_ rfl
    · rw [hunread]
      exact hm.content
    · intro _ h
      rw [hunread]
      exact h
  · exact hm.toHandles.mono rfl rfl rfl id rfl id (fun h => nomatch h) hm.frames

/-- What the loop of `call_read_handler()` does next is in order, another pass as well as
its end. -/
theorem Intact.readStep (hm : Intact m) (hloop : Looping m)
    (hafter : ∀ u, Intact u → Quiet u → AtRest (after u)) (h : ReadStep after m t) : AtRest t := by
  obtain ⟨hcredit, hz⟩ := hm.credit_ok
  have hloop' := hloop.credit
  cases h with
  | deliver _ hb => exact hm.deliver hloop _ hb
  | park hh hb =>
    obtain ⟨hp, hq⟩ := hcredit.park_leave hloop' hz (by rw [credit_readHandler, hh])
      (by rw [credit_readBuffer]; exact hb)
    exact hafter _ hp hq
  | eof hh hb he =>
    exact hcredit.completeEnd hloop' hz (by rw [credit_readHandler, hh])
      (by rw [credit_readBuffer, hb]) (.inl ⟨rfl, rfl, by rw [credit_eofReceived, he]⟩)
  | truncated hh hb he =>
    exact hcredit.completeEnd hloop' hz (by rw [credit_readHandler, hh])
      (by rw [credit_readBuffer, hb]) (.inr ⟨rfl, rfl, by rw [credit_eofReceived, he]⟩)
  | wait hb hidle _ =>
    have hb' : m.credit.rx.readBuffer = [] := by rw [credit_readBuffer, hb]
    obtain ⟨hp, hv⟩ := hloop'.empty hb'
    obtain ⟨hi, hq⟩ := hcredit.leave_ok hloop'.frames hz hb' hp hv
      (by rw [credit_readHandler, credit_eofReceived]; exact hidle)
    exact hafter _ hi hq

/-- What has just been received is buffered. -/
theorem Intact.buffer_ok (hm : Intact m) (hout : Outside m) (hh : m.rx.readHandler = none)
    {data : List UInt8} (hdata : data ≠ [] → m.rx.eofReceived = false)
    (hreceived : t = { m with received := m.received ++ data }) :
    Intact (t.buffer data) ∧ Quiet (t.buffer data) := by
  subst hreceived
  -- the end of the body comes without data
  by_cases hd : data = []
  · rw [Stream.buffer, if_pos hd]
    refine ⟨⟨?_, ?_⟩, ⟨⟨hout.inside, hout.frames, hout.view, hout.consumed, hout.empty⟩, ?_⟩⟩
    · refine hm.toBytes.of_trace rfl ?_ rfl hm.nonempty hm.suffix hm.behind id (fun _ h => h) rfl
      rw [hd, List.append_nil]
      exact hm.content
    · exact hm.toHandles.mono rfl rfl rfl id rfl id (fun h => .inl h) hm.frames
    · intro h
      rw [hh] at h
      exact nomatch h
  · rw [Stream.buffer, if_neg hd]
    set first := if m.rx.pendingReadBuffers = [] then data else m.rx.readBuffer with hfirst
    have hne : first ≠ [] := by
      rw [hfirst]
      split_ifs with hp
      · exact hd
      · exact fun h => hp (hout.empty.mp h)
    refine ⟨⟨?_, ?_⟩, ⟨⟨hout.inside, hout.frames, hout.view, hout.consumed, ?_⟩, ?_⟩⟩
    · refine hm.toBytes.of_trace rfl ?_ rfl ?_ ?_ (by simp) id ?_ rfl
      · show m.received ++ data =
          m.delivered ++ (first ++ (m.rx.pendingReadBuffers ++ [data]).tail.flatten ++ m.rx.view)
        rw [hm.content, unread, hfirst, hout.view]
        -- while the loop runs, its buffer stays the first one
        by_cases hp : m.rx.pendingReadBuffers = []
        · simp [hp, hout.empty.mpr hp]
        · simp [hp, List.tail_append_of_ne_nil]
      · intro b hb
        rcases List.mem_append.mp hb with hb | hb
        · exact hm.nonempty b hb
        · rw [List.mem_singleton.mp hb]
          exact hd
      · show ∀ b ∈ (m.rx.pendingReadBuffers ++ [data]).head?, first <:+ b
        by_cases hp : m.rx.pendingReadBuffers = []
        · simp [hfirst, hp]
        · rw [hfirst, if_neg hp, List.head?_append_of_ne_nil _ hp]
          exact hm.suffix
      · intro he
        exact absurd (he.symm.trans (hdata hd)) (by decide)
    · exact hm.toHandles.mono rfl rfl rfl id rfl id (fun h => .inl h) hm.frames
    · exact iff_of_false hne (by simp)
    · intro h
      rw [hh] at h
      exact nomatch h

/-- `call_read_handler()` enters its loop. -/
theorem Intact.enter_ok (hm : Intact m) (hout : Outside m) (hh : m.rx.readHandler.isSome = true)
    {data : List UInt8} (hdata : data ≠ [] → m.rx.eofReceived = false)
    (hreceived : t = { m with received := m.received ++ data }) :
    Intact (t.enter data) ∧ Looping (t.enter data) := by
  subst hreceived
  have hunread : ({ m with received := m.received ++ data }.enter data).unread =
      m.unread ++ data := by
    -- the loop begins where the last one has left the first buffer
    by_cases hp : m.rx.pendingReadBuffers = []
    · simp [unread, enter, hp, hout.view, hout.empty.mpr hp]
    · simp [unread, enter, hp, hout.view]
  refine ⟨⟨?_, ?_⟩, ⟨rfl, hout.frames, ?_⟩⟩
  · refine hm.toBytes.of_trace rfl ?_ rfl hm.nonempty ?_ ?_ id ?_ rfl
    · rw [hunread, ← List.append_assoc, ← hm.content]
      rfl
    · intro b hb
      have hp : m.rx.pendingReadBuffers ≠ [] := by
        rintro hp
        rw [enter, hp] at hb
        exact nomatch hb
      simp only [enter, hp, if_false]
      exact hm.suffix b hb
    · intro hp
      have hp' : m.rx.pendingReadBuffers = [] := hp
      simp only [enter, hp', if_true]
      exact hout.empty.mpr hp'
    · intro he hu
      rw [hunread, hu, List.nil_append]
      by_contra hd
      exact absurd (he.symm.trans (hdata hd)) (by decide)
  · exact hm.toHandles.mono rfl rfl rfl id rfl id (fun _ => .inr hh) hm.frames
  · intro hb
    by_cases hp : m.rx.pendingReadBuffers = []
    · refine ⟨hp, ?_⟩
      simp only [enter, hp, if_true]
      exact hout.empty.mpr hp
    · simp only [enter, hp, if_false] at hb
      exact absurd (hout.empty.mp hb) hp

/-- **`call_read_handler()`**, with what its caller does next: the bytes are buffered, and the loop
is entered unless it is running already. -/
theorem Intact.callReadHandlerThen (hm : Intact m) (hout : Outside m)
    (hafter : ∀ u, Intact u → Quiet u → AtRest (after u)) {data : List UInt8}
    (hdata : data ≠ [] → m.rx.eofReceived = false)
    (hreceived : t = { m with received := m.received ++ data }) :
    AtRest (t.callReadHandlerThen data after) := by
  have hrx : t.rx = m.rx := by rw [hreceived]
  rcases callReadHandlerThen_cases t data after with ⟨hh, heq⟩ | ⟨hi, _⟩ | ⟨hh, _, hstep⟩
  · obtain ⟨hi, hq⟩ := hm.buffer_ok hout (hrx ▸ hh) hdata hreceived
    rw [heq]
    exact hafter _ hi hq
  · rw [hrx, hout.inside] at hi
    exact nomatch hi
  · obtain ⟨hi, hl⟩ := hm.enter_ok hout (hrx ▸ hh) hdata hreceived
    exact hi.readStep hl hafter hstep

/-- After a handler has returned, the loop goes on with the next buffer of the body. -/
theorem Intact.advance_ok (hm : Intact m) (hinside : m.rx.insideCallReadHandler = true)
    (hframes : m.readFrames = 0) : Intact m.advance ∧ Looping m.advance := by
  unfold Stream.advance
  split_ifs with hb
  · exact ⟨hm, ⟨hinside, hframes, fun h => absurd h hb⟩⟩
  · simp only [ne_eq, not_not] at hb
    cases hp : m.rx.pendingReadBuffers with
    | nil =>
      have hv := hm.behind hp
      simp only [List.tail_nil, ne_eq, not_true_eq_false, if_false]
      refine ⟨⟨?_, ?_⟩, ⟨hinside, hframes, fun _ => ⟨rfl, hb⟩⟩⟩
      · refine hm.toBytes.of_trace rfl ?_ rfl (by simp) (by simp) (fun _ => hb) id ?_ rfl
        · rw [hm.content]
          simp [unread, hp, hb, hv]
        · intro _ hu
          simp [unread, hb, hv]
      · exact hm.toHandles.mono rfl rfl rfl id rfl id (fun h => .inl h) hm.frames
    | cons first rest =>
      simp only [List.tail_cons]
      -- the first buffer is done, and there may be no other one
      cases rest with
      | nil =>
        simp only [ne_eq, not_true_eq_false, if_false]
        refine ⟨⟨?_, ?_⟩, ⟨hinside, hframes, fun _ => ⟨rfl, hb⟩⟩⟩
        · refine hm.toBytes.of_trace rfl ?_ rfl (by simp) (by simp) (fun _ => hb) id ?_ rfl
          · rw [hm.content]
            simp [unread, hp, hb]
          · intro _ hu
            simpa [unread, hp, hb] using hu
        · exact hm.toHandles.mono rfl rfl rfl id rfl id (fun h => .inl h) hm.frames
      | cons second rest =>
        have hne : second ≠ [] := hm.nonempty second (by simp [hp])
        simp only [ne_eq, reduceCtorEq, not_false_eq_true, if_true, List.headD_cons]
        refine ⟨⟨?_, ?_⟩, ⟨hinside, hframes, fun h => absurd h hne⟩⟩
        · refine hm.toBytes.of_trace rfl ?_ rfl ?_ (by simp) (by simp) id ?_ rfl
          · rw [hm.content]
            simp [unread, hp, hb]
          · intro b hb'
            exact hm.nonempty b (by rw [hp]; exact List.mem_cons_of_mem _ hb')
          · intro _ hu
            simpa [unread, hp, hb] using hu
        · exact hm.toHandles.mono rfl rfl rfl id rfl id (fun h => .inl h) hm.frames

/-! ### Everything else -/

/-- A call that is not about reading. -/
def Silent : Call → Prop
  | .completeRead _ _ _ _ _ | .consumeStream _ => False
  | _ => True

/-- A step that has nothing to do with reading. -/
structure Aside (m t : Stream) : Prop where
  rx : t.rx = m.rx
  received : t.received = m.received
  reader : t.reader = m.reader
  readerHandle : t.readerHandle = m.readerHandle
  isServer : t.isServer = m.isServer
  responseHandler : t.rs.responseHandler.isSome = true → m.rs.responseHandler.isSome = true
  responseDelivered : t.rs.responseDelivered = m.rs.responseDelivered
  trace : ∃ cs, t.trace = m.trace ++ cs ∧ ∀ c ∈ cs, Silent c

/-- What changes nothing of the incoming body and makes no call is aside of it, ... -/
theorem aside_of_trace (rx : t.rx = m.rx) (received : t.received = m.received)
    (reader : t.reader = m.reader) (readerHandle : t.readerHandle = m.readerHandle)
    (isServer : t.isServer = m.isServer) (rs : t.rs = m.rs) (trace : t.trace = m.trace) :
    Aside m t :=
  ⟨rx, received, reader, readerHandle, isServer, by rw [rs]; exact id, by rw [rs], [],
    by simp [trace],
    by simp⟩

/-- ... and so is what makes a call that is not about reading. -/
theorem aside_of_call {c : Call} (hc : Silent c) (rx : t.rx = m.rx)
    (received : t.received = m.received)
    (reader : t.reader = m.reader) (readerHandle : t.readerHandle = m.readerHandle)
    (isServer : t.isServer = m.isServer)
    (responseHandler : t.rs.responseHandler.isSome = true → m.rs.responseHandler.isSome = true)
    (responseDelivered : t.rs.responseDelivered = m.rs.responseDelivered)
    (trace : t.trace = m.trace ++ [c]) : Aside m t :=
  ⟨rx, received, reader, readerHandle, isServer, responseHandler, responseDelivered, [c], trace, by
    intro c' hc'
    rw [List.mem_singleton.mp hc']
    exact hc⟩

/-- Such a call copies nothing, gives no credit, and does not report the end. -/
theorem silent_spec {c : Call} (hc : Silent c) :
    readBytes c = [] ∧ creditOf c = 0 ∧ ¬ IsEof c ∧ IsOver c := by
  cases c with
  | completeRead | consumeStream => exact nomatch hc
  | completeWrite | completeResponse | resumeData | resetStream | postReset =>
    exact ⟨rfl, rfl, id, trivial⟩

/-- Calls that report nothing of the body leave the account of it as it is. -/
theorem Bytes.mute (hm : Bytes m) (cs : List Call) (htrace : t.trace = m.trace ++ cs)
    (hcs : ∀ c ∈ cs, readBytes c = [] ∧ creditOf c = 0 ∧ ¬ IsEof c ∧
      ((∃ c' ∈ m.trace, IsEof c') → IsOver c))
    (hreceived : t.received = m.received)
    (hrx : t.rx.readBuffer = m.rx.readBuffer ∧
      t.rx.pendingReadBuffers = m.rx.pendingReadBuffers ∧ t.rx.view = m.rx.view ∧
      t.rx.consumed = m.rx.consumed ∧ t.rx.eofReceived = m.rx.eofReceived)
    (hhandle : (∃ c ∈ m.trace, IsEof c) → ∀ ec, t.readerHandle = .detached ec → ec = .eof)
    (hlatched : t.readerHandle = .detached .eof → m.rx.eofReceived = true ∧ m.unread = []) :
    Bytes t := by
  obtain ⟨hbuffer, hpending, hview, hconsumed, heof⟩ := hrx
  have hdelivered : t.delivered = m.delivered := by
    have : cs.flatMap readBytes = [] := List.flatMap_eq_nil_iff.mpr fun c hc => (hcs c hc).1
    rw [delivered, htrace, List.flatMap_append, this, List.append_nil, delivered]
  have hcredited : t.credited = m.credited := by
    have : (cs.map creditOf).sum = 0 := by
      apply List.sum_eq_zero
      intro x hx
      obtain ⟨c, hc, rfl⟩ := List.mem_map.mp hx
      exact (hcs c hc).2.1
    rw [credited, htrace, List.map_append, List.sum_append, this, Nat.add_zero, credited]
  have hunread : t.unread = m.unread := by rw [unread, hbuffer, hpending, hview, unread]
  have htold : (∃ c ∈ t.trace, IsEof c) → ∃ c ∈ m.trace, IsEof c := by
    rintro ⟨c, hc, hc'⟩
    rw [htrace] at hc
    rcases List.mem_append.mp hc with hc | hc
    · exact ⟨c, hc, hc'⟩
    · exact absurd hc' (hcs c hc).2.2.1
  refine ⟨?_, ?_, ?_, ?_, ?_, ?_, ?_, ?_, ?_⟩
  · rw [hdelivered, hunread, hreceived]
    exact hm.content
  · rw [hdelivered, hcredited, hconsumed]
    exact hm.credit
  · rw [hpending]
    exact hm.nonempty
  · rw [hpending, hbuffer]
    exact hm.suffix
  · rw [hpending, hview]
    exact hm.behind
  · rw [hunread, heof]
    intro h
    obtain ⟨he, hu, _⟩ := hm.told (htold h)
    exact ⟨he, hu, hhandle (htold h)⟩
  · rw [hunread, heof]
    exact hlatched
  · rw [htrace]
    refine List.pairwise_append.mpr ⟨hm.order, ?_, ?_⟩
    · refine List.pairwise_of_forall_mem_list fun c hc d _ hc' => ?_
      exact absurd hc' (hcs c hc).2.2.1
    · intro c hc d hd hc'
      exact (hcs d hd).2.2.2 ⟨c, hc, hc'⟩
  · intro c hc hc'
    rw [htrace] at hc
    rcases List.mem_append.mp hc with hc | hc
    · exact hm.bare c hc hc'
    · exact absurd hc' (hcs c hc).2.2.1

/-- What is aside of the body leaves the account of it as it is, ... -/
theorem Bytes.aside (hm : Bytes m) (h : Aside m t) : Bytes t := by
  obtain ⟨cs, htrace, hcs⟩ := h.trace
  refine hm.mute _ htrace ?_ h.received (by simp [h.rx]) ?_ ?_
  · intro c hc
    obtain ⟨hbytes, hcredit, hneof, hover⟩ := silent_spec (hcs c hc)
    exact ⟨hbytes, hcredit, hneof, fun _ => hover⟩
  · rw [h.readerHandle]
    exact fun htold => (hm.told htold).2.2
  · rw [h.readerHandle]
    exact hm.latched

/-- ... and the rest of the invariant. -/
theorem Intact.aside (hm : Intact m) (h : Aside m t)
    (hframes : t.frames.Pairwise fun f g => f.isClosing = true → g.isRead = false) : Intact t :=
  ⟨hm.toBytes.aside h, hm.toHandles.mono h.reader h.readerHandle h.isServer h.responseHandler
    h.responseDelivered (by rw [h.rx]; exact id) (by rw [h.rx]; exact .inl) hframes⟩

/-- Whether the loop is running is told from the incoming body and the frames, ... -/
theorem Outside.of_rx (h : Outside m) (hrx : t.rx = m.rx) (hframes : t.readFrames = m.readFrames) :
    Outside t := by
  refine ⟨?_, ?_, ?_, ?_, ?_⟩
  · rw [hrx, h.inside]
  · rw [hframes, h.frames]
  · rw [hrx, h.view]
  · rw [hrx, h.consumed]
  · rw [hrx]
    exact h.empty

/-- ... and so is whether everything that has been delivered is credited, ... -/
theorem Quiet.of_rx (h : Quiet m) (hrx : t.rx = m.rx) (hframes : t.readFrames = m.readFrames) :
    Quiet t := by
  refine ⟨h.toOutside.of_rx hrx hframes, ?_⟩
  rw [hrx]
  exact h.idle

/-- ... or a handler is running. -/
theorem Invoked.of_rx (h : Invoked m) (hrx : t.rx = m.rx) (hframes : t.readFrames = m.readFrames)
    (hmem : ∀ f : Frame, f.isRead = true → f ∈ t.frames → f ∈ m.frames) : Invoked t := by
  refine ⟨?_, ?_, ?_, ?_, ?_⟩
  · rw [hrx, h.inside]
  · rw [hframes, h.frames]
  · rw [hrx]
    exact fun hf => h.ended (hf.imp (hmem _ rfl) (hmem _ rfl))
  · rw [hrx]
    exact fun hf => h.eof (hmem _ rfl hf)
  · rw [hrx]
    exact fun hf => h.truncated (hmem _ rfl hf)

/-- A frame is pushed that has nothing to do with reading, or none. -/
theorem AtRest.aside (hm : AtRest m) (h : Aside m t)
    (hframes : t.frames = m.frames ∨
      ∃ f : Frame, f.isRead = false ∧ f.isClosing = false ∧ t.frames = f :: m.frames) :
    AtRest t := by
  have hcount : t.readFrames = m.readFrames ∧
      (∀ f : Frame, f.isRead = true → f ∈ t.frames → f ∈ m.frames) ∧
      t.frames.Pairwise fun f g => f.isClosing = true → g.isRead = false := by
    rcases hframes with hframes | ⟨f, hread, hclosing, hframes⟩
    · rw [readFrames, hframes]
      exact ⟨rfl, fun _ _ h => h, hm.1.frames⟩
    · rw [readFrames, hframes]
      refine ⟨List.countP_cons_of_neg (by simp [hread]), ?_, ?_⟩
      · intro g hg hmem
        rcases List.mem_cons.mp hmem with rfl | hmem
        · exact absurd (hg.symm.trans hread) (by decide)
        · exact hmem
      · exact frames_push hm.1.toHandles fun h => absurd (hclosing.symm.trans h) (by decide)
  refine ⟨hm.1.aside h hcount.2.2, ?_⟩
  rcases hm.2 with hq | hi
  · exact .inl (hq.of_rx h.rx hcount.1)
  · exact .inr (hi.of_rx h.rx hcount.1 hcount.2.1)

/-- A read completes without anything being read, but not with the end of the body. -/
theorem Intact.completeRead_ok (hm : Intact m) {h : Handler} {ec : ErrorCode}
    (hec : ec = .canceled ∨ ec ≠ .eof ∧ m.rx.eofReceived = false) {f : Option Frame}
    (hf : ∀ g ∈ f, g.isClosing = false)
    (ht : t = { m.completeRead h ec 0 [] with frames := f.toList ++ m.frames }) : Intact t := by
  subst ht
  have hneof : ec ≠ .eof := by
    rcases hec with rfl | ⟨h, _⟩
    · decide
    · exact h
  refine ⟨?_, ?_⟩
  · refine hm.toBytes.of_call (c := .completeRead h m.rx.readHandlerBuffer ec 0 [])
      rfl ?_ ?_ rfl rfl
      (List.suffix_refl _) rfl id rfl (fun h => absurd h hneof) ?_ (fun _ => rfl)
    · show m.received = m.delivered ++ [] ++ m.unread
      rw [List.append_nil]
      exact hm.content
    · show m.credited + m.rx.consumed = (m.delivered ++ []).length
      rw [List.append_nil]
      exact hm.credit
    · intro htold
      rcases hec with rfl | ⟨_, he⟩
      · exact ⟨.inr (.inr rfl), rfl⟩
      · exact absurd ((hm.told htold).1.symm.trans he) (by decide)
  · refine hm.toHandles.mono rfl rfl rfl id rfl (fun h => nomatch h) (fun h => .inl h) ?_
    -- a handler runs inside of this call, or later
    cases f with
    | none => exact hm.frames
    | some g =>
      exact frames_push hm.toHandles fun h => absurd ((hf g rfl).symm.trans h) (by decide)

/-- A read that is completed without bytes changes nothing of that. -/
theorem Quiet.completeRead_ok (hq : Quiet m) {h : Handler} {ec : ErrorCode} {f : Option Frame}
    (hf : ∀ g ∈ f, g.isRead = false)
    (ht : t = { m.completeRead h ec 0 [] with frames := f.toList ++ m.frames }) : Quiet t := by
  subst ht
  refine ⟨⟨hq.inside, ?_, hq.view, hq.consumed, hq.empty⟩, fun h => nomatch h⟩
  cases f with
  | none => exact hq.frames
  | some g =>
    show (g :: m.frames).countP Frame.isRead = 0
    rw [List.countP_cons_of_neg (by simp [hf g rfl])]
    exact hq.frames

/-! ### `close_stream()` -/

/-- Failing the response is aside of the body. -/
theorem AtRest.failResponse (hm : AtRest m) : AtRest m.failResponse := by
  unfold Stream.failResponse
  split
  · exact hm.aside (aside_of_call (c := .completeResponse _ _ _) trivial rfl rfl rfl rfl rfl
      (fun h => nomatch h) rfl rfl) (.inr ⟨.erased, rfl, rfl, rfl⟩)
  · exact hm.aside (aside_of_trace rfl rfl rfl rfl rfl rfl rfl) (.inl rfl)

/-- A stream that is erased tells its reader that the body has been cut off, if it has not ended. -/
theorem Intact.erase_ok (hm : Intact m) (hq : Quiet m) : AtRest m.erase := by
  set u : Stream := { m.useIterator with registered := false } with hu
  have hu' : Intact u := hm.aside (aside_of_trace rfl rfl rfl rfl rfl rfl rfl) hm.frames
  have hqu : Quiet u := hq.of_rx rfl rfl
  unfold Stream.erase
  dsimp only
  rw [← hu]
  split
  · rename_i h hh
    have heof := (hqu.idle (by rw [hh]; rfl)).2
    refine ⟨hu'.completeRead_ok (.inr ⟨by decide, heof⟩) (f := some .erasing)
      (by simp [Frame.isClosing])
      rfl, .inl (hqu.completeRead_ok (f := some .erasing) (by simp [Frame.isRead]) rfl)⟩
  · exact AtRest.failResponse ⟨hu', .inl hqu⟩

/-- A stream that is kept calls `call_read_handler()` once more. -/
theorem Intact.keepOrErase_ok (hm : Intact m) (hq : Quiet m) : AtRest m.keepOrErase := by
  unfold Stream.keepOrErase
  split_ifs
  · have hused : Intact m.useIterator :=
      hm.aside (aside_of_trace rfl rfl rfl rfl rfl rfl rfl) hm.frames
    have hquiet : Quiet m.useIterator := hq.of_rx rfl rfl
    refine hused.callReadHandlerThen hquiet.toOutside (fun _ hi hq => ⟨hi, .inl hq⟩) (by simp) ?_
    rw [List.append_nil]
  · exact AtRest.aside ⟨hm, .inl hq⟩ (aside_of_trace rfl rfl rfl rfl rfl rfl rfl) (.inl rfl)
  · exact hm.erase_ok hq

/-- So `close_stream()` leaves the stream at rest, ... -/
theorem Intact.closeStream_ok (hm : Intact m) (hq : Quiet m) : AtRest m.closeStream := by
  set u : Stream := { m with closed := true } with hu
  have hu' : Intact u := hm.aside (aside_of_trace rfl rfl rfl rfl rfl rfl rfl) hm.frames
  have hqu : Quiet u := hq.of_rx rfl rfl
  unfold Stream.closeStream
  split_ifs
  · exact ⟨hm, .inl hq⟩
  · dsimp only
    rw [← hu]
    split
    · refine ⟨hu'.aside (aside_of_call (c := .completeWrite _ _)
        trivial rfl rfl rfl rfl rfl id rfl rfl)
        (frames_push hu'.toHandles fun _ => hqu.frames), .inl (hqu.of_rx rfl ?_)⟩
      exact List.countP_cons_of_neg (by simp [Frame.isRead])
    · exact hu'.keepOrErase_ok hqu

/-- ... and so it does when it has been deferred. -/
theorem Intact.finishDeferredClose_ok (hm : Intact m) (hq : Quiet m) :
    AtRest m.finishDeferredClose := by
  unfold Stream.finishDeferredClose
  split_ifs
  · apply Intact.closeStream_ok
    · exact hm.aside (aside_of_trace rfl rfl rfl rfl rfl rfl rfl) hm.frames
    · exact hq.of_rx rfl rfl
  · exact ⟨hm, .inl hq⟩

/-- A call goes on. -/
theorem AtRest.ret (hm : AtRest m) {f : Frame} {frames : List Frame} (hf : m.frames = f :: frames) :
    AtRest ({ m with frames := frames }.ret f) := by
  set u : Stream := { m with frames := frames } with hu
  have hpairwise := hm.1.frames
  rw [hf, List.pairwise_cons] at hpairwise
  have hu' : Intact u := hm.1.aside (aside_of_trace rfl rfl rfl rfl rfl rfl rfl) hpairwise.2
  have hcount : m.readFrames = u.readFrames + if f.isRead then 1 else 0 := by
    rw [readFrames, hf, List.countP_cons]
    rfl
  have hmem : ∀ g : Frame, g ∈ u.frames → g ∈ m.frames := by
    intro g hg
    rw [hf]
    exact List.mem_cons_of_mem _ hg
  -- a frame of reading is the only one, and one of closing not inside of it
  have hread : f.isRead = true → Invoked m ∧ u.readFrames = 0 := by
    intro hr
    rw [hr, if_pos rfl] at hcount
    rcases hm.2 with hq | hi
    · have := hq.frames
      omega
    · have := hi.frames
      exact ⟨hi, by omega⟩
  have hother : f.isRead = false → AtRest u := by
    intro hr
    rw [hr, if_neg (by simp), Nat.add_zero] at hcount
    -- if the loop has been running, it is the loop that goes on
    rcases hm.2 with hq | hi
    · exact ⟨hu', .inl (hq.of_rx rfl hcount.symm)⟩
    · exact ⟨hu', .inr (hi.of_rx rfl hcount.symm fun g _ => hmem g)⟩
  have hclosing : f.isClosing = true → f.isRead = false → Quiet u := by
    intro hc hr
    have hnone : u.readFrames = 0 := by
      refine List.countP_eq_zero.mpr fun g hg => ?_
      simp [hpairwise.1 g hg hc]
    rcases (hother hr).2 with hq | hi
    · exact hq
    · have := hi.frames
      omega
  cases f with
  | data =>
    obtain ⟨hi, hz⟩ := hread rfl
    obtain ⟨hadvance, hloop⟩ := hu'.advance_ok hi.inside hz
    exact hadvance.readStep hloop (fun _ hi hq => hi.finishDeferredClose_ok hq)
      (readLoopThen_step _ _)
  | eof =>
    obtain ⟨hi, hz⟩ := hread rfl
    have htop : Frame.eof ∈ m.frames := by
      rw [hf]
      exact List.mem_cons_self
    obtain ⟨hb, hp, hv, hc⟩ := hi.ended (.inl htop)
    show AtRest (u.eofLoopThen finishDeferredClose)
    unfold eofLoopThen
    split
    · rename_i h hh
      refine hu'.completeEnd ⟨hi.inside, hz, fun _ => ⟨hp, hv⟩⟩ hc hh hb
        (.inl ⟨rfl, rfl, hi.eof htop⟩)
    · rename_i hh
      obtain ⟨hleave, hq⟩ := hu'.leave_ok hz hc hb hp hv (by rw [hh]; exact fun h => nomatch h)
      exact hleave.finishDeferredClose_ok hq
  | truncated =>
    obtain ⟨hi, hz⟩ := hread rfl
    have htop : Frame.truncated ∈ m.frames := by
      rw [hf]
      exact List.mem_cons_self
    obtain ⟨hb, hp, hv, hc⟩ := hi.ended (.inr htop)
    obtain ⟨hleave, hq⟩ := hu'.leave_ok hz hc hb hp hv fun _ => hi.truncated htop
    exact hleave.finishDeferredClose_ok hq
  | closing => exact hu'.keepOrErase_ok (hclosing rfl rfl)
  | erasing => exact (hother rfl).failResponse
  | erased => exact (hother rfl).aside (aside_of_trace rfl rfl rfl rfl rfl rfl rfl) (.inl rfl)
  | failed =>
    show AtRest (if u.closed then u.closeStream else u)
    split_ifs
    · exact hu'.closeStream_ok (hclosing rfl rfl)
    · exact hother rfl
  | done => exact hother rfl

/-! ### Steps -/

/-- In the meantime, a handler may have left the stream at rest. -/
theorem AtRest.finishDeferredClose (hm : AtRest m) : AtRest m.finishDeferredClose := by
  rcases hm.2 with hq | hi
  · exact hm.1.finishDeferredClose_ok hq
  · have : m.finishDeferredClose = m := by
      rw [Stream.finishDeferredClose, if_neg (by simp [hi.inside])]
    rw [this]
    exact hm

/-- A read is answered without being started. -/
theorem AtRest.answerRead (hm : AtRest m) {h : Handler} {size : Nat} {ec : ErrorCode}
    (hec : size = 0 ∧ ec = .success ∨ m.readerHandle = .detached ec) :
    AtRest (m.call (.completeRead h size ec 0 [])) := by
  refine ⟨⟨?_, ?_⟩, ?_⟩
  · refine hm.1.toBytes.of_call (c := .completeRead h size ec 0 []) rfl ?_ ?_ rfl rfl
      (List.suffix_refl _) rfl id rfl ?_ ?_ (fun _ => rfl)
    · show m.received = m.delivered ++ [] ++ m.unread
      rw [List.append_nil]
      exact hm.1.content
    · show m.credited + m.rx.consumed = (m.delivered ++ []).length
      rw [List.append_nil]
      exact hm.1.credit
    · intro heof
      rcases hec with ⟨_, rfl⟩ | hd
      · exact nomatch heof
      · have heof' : ec = .eof := heof
        rw [heof'] at hd
        obtain ⟨he, hu⟩ := hm.1.latched hd
        refine ⟨he, hu, fun ec' hec' => ?_⟩
        rw [hd] at hec'
        exact (ReaderHandle.detached.inj hec').symm
    · intro htold
      refine ⟨?_, rfl⟩
      -- there was no room for bytes, or the reader is detached
      rcases hec with ⟨hz, _⟩ | hd
      · exact .inl hz
      · exact .inr (.inl ((hm.1.told htold).2.2 ec hd))
  · exact hm.1.toHandles.mono rfl rfl rfl id rfl id (fun h => .inl h) hm.1.frames
  · rcases hm.2 with hq | hi
    · exact .inl (hq.of_rx rfl rfl)
    · exact .inr (hi.of_rx rfl rfl fun _ _ h => h)

/-- **A read begins**: it gets what there is, is told of the end, or waits. -/
theorem AtRest.asyncReadSome (hm : AtRest m) (hheld : m.readerHandle.held = true) (h : Handler)
    (size : Nat) : AtRest (m.asyncReadSome h size) := by
  unfold Stream.asyncReadSome
  split_ifs with hz
  · exact hm.answerRead (.inl ⟨rfl, rfl⟩)
  · split
    · exact hm.answerRead (.inr ‹_›)
    · rename_i hd
      have hattached : m.readerHandle = .attached := by
        revert hheld
        cases hr : m.readerHandle with
        | absent => exact fun h => nomatch h
        | attached => exact fun _ => rfl
        | detached ec => exact absurd hr (hd ec)
        | released => exact fun h => nomatch h
      set u : Stream :=
        { m with rx := { m.rx with readHandler := some h, readHandlerBuffer := size } } with hu
      have hu' : Intact u := by
        refine ⟨?_, ?_⟩
        · exact hm.1.toBytes.of_trace rfl hm.1.content rfl hm.1.nonempty hm.1.suffix hm.1.behind id
            (fun _ h => h) rfl
        · exact ⟨hm.1.reader, fun _ => hattached, hm.1.inside, hm.1.asking, hm.1.undelivered,
            hm.1.frames⟩
      rcases hm.2 with hq | hi
      · refine hu'.callReadHandlerThen ⟨hq.inside, hq.frames, hq.view, hq.consumed, hq.empty⟩
          (fun _ hi hq => hi.finishDeferredClose_ok hq) (by simp) ?_
        rw [List.append_nil]
      · -- the call that has invoked this handler takes care of the new read
        have heq : u.callReadHandler [] = u.finishDeferredClose := by
          unfold callReadHandler callReadHandlerThen
          rw [if_neg (by simp [hu]), if_pos hi.inside]
        rw [heq]
        apply AtRest.finishDeferredClose
        exact ⟨hu', .inr ⟨hi.inside, hi.frames, hi.ended, hi.eof, hi.truncated⟩⟩

/-- With the response, the reader is made. -/
theorem AtRest.deliverResponse (hm : AtRest m) : AtRest m.deliverResponse := by
  unfold Stream.deliverResponse
  split
  · exact hm
  · split
    · exact hm
    · rename_i h hh
      obtain ⟨habsent, _⟩ := hm.1.asking (by rw [hh]; rfl)
      have hq : Quiet m := by
        -- before the response, nobody can be reading
        rcases hm.2 with hq | hi
        · exact hq
        · exact absurd habsent (hm.1.inside hi.inside)
      have hidle : m.rx.readHandler = none := by
        by_contra hsome
        have := hm.1.waiting (Option.isSome_iff_ne_none.mpr hsome)
        exact absurd (this.symm.trans habsent) (by decide)
      dsimp only
      split
      · refine ⟨⟨?_, ?_⟩, .inl (hq.of_rx rfl ?_)⟩
        · exact hm.1.toBytes.of_call (c := .completeResponse _ _ _) rfl
            (by rw [show readBytes (.completeResponse h _ none) = [] from rfl, List.append_nil]
                exact hm.1.content)
            (by rw [show readBytes (.completeResponse h _ none) = [] from rfl, List.append_nil]
                exact hm.1.credit) rfl rfl (List.suffix_refl _) rfl id rfl
            (fun h => nomatch h) (fun _ => trivial) (fun _ => rfl)
        · refine ⟨hm.1.reader, hm.1.waiting, hm.1.inside, (fun h => nomatch h),
            (fun _ h => nomatch h),
            ?_⟩
          exact frames_push hm.1.toHandles fun _ => hq.frames
        · exact List.countP_cons_of_neg (by simp [Frame.isRead])
      · refine ⟨⟨?_, ?_⟩, .inl (hq.of_rx rfl ?_)⟩
        · refine hm.1.toBytes.mute [.completeResponse h .success _] rfl ?_ rfl
            ⟨rfl, rfl, rfl, rfl, rfl⟩ (fun _ ec h => nomatch h) (fun h => nomatch h)
          intro c hc
          rw [List.mem_singleton.mp hc]
          exact ⟨rfl, rfl, id, fun _ => trivial⟩
        · refine ⟨iff_of_true rfl rfl, (fun _ => rfl), (fun _ h => nomatch h), (fun h => nomatch h),
            (fun _ h => nomatch h), ?_⟩
          exact frames_push hm.1.toHandles fun h => nomatch h
        · exact List.countP_cons_of_neg (by simp [Frame.isRead])

/-- Header fields do not change who asks for the response. -/
theorem onHeader_asking (fields : Fields) (size : Nat) (e : Exchange) :
    (fields.foldl (fun e f => onHeader e size f) e).responseHandler = e.responseHandler ∧
      (fields.foldl (fun e f => onHeader e size f) e).responseDelivered = e.responseDelivered := by
  induction fields generalizing e with
  | nil => exact ⟨rfl, rfl⟩
  | cons f fields ih =>
    rw [List.foldl_cons]
    have hone : (onHeader e size f).responseHandler = e.responseHandler ∧
        (onHeader e size f).responseDelivered = e.responseDelivered := by
      unfold onHeader
      split
      · exact ⟨rfl, rfl⟩
      · dsimp only
        split
        · exact ⟨rfl, rfl⟩
        · exact ⟨rfl, rfl⟩
    exact ⟨(ih _).1.trans hone.1, (ih _).2.trans hone.2⟩

/-- A header section is aside of the body. -/
theorem aside_onHeaderSection (m : Stream) (fields : Fields) :
    Aside m (m.onHeaderSection fields) := by
  obtain ⟨hhandler, hdelivered⟩ := onHeader_asking fields m.maxHeaderSize m.rs
  refine ⟨rfl, rfl, rfl, rfl, rfl, ?_, hdelivered, [], by simp [onHeaderSection], by simp⟩
  rw [onHeaderSection, hhandler]
  exact id

/-- So is a response that arrives. -/
theorem AtRest.onHeaders (hm : AtRest m) (fields : Fields) : AtRest (m.onHeaders fields) := by
  have hsection := hm.aside (aside_onHeaderSection m fields) (.inl rfl)
  unfold Stream.onHeaders
  dsimp only
  split_ifs
  · exact hsection.aside ⟨rfl, rfl, rfl, rfl, rfl, id, rfl, [], by simp, by simp⟩ (.inl rfl)
  · unfold onResponse
    apply AtRest.deliverResponse
    split_ifs
    · exact hsection.aside (aside_of_call (c := .resetStream)
        trivial rfl rfl rfl rfl rfl id rfl rfl)
        (.inl rfl)
    · exact hsection.aside ⟨rfl, rfl, rfl, rfl, rfl, id, rfl, [], by simp, by simp⟩ (.inl rfl)

/-- Nothing that has to do with the outgoing body. -/
theorem AtRest.outward (hm : AtRest m) (h : Outward m t) : AtRest t := by
  obtain ⟨_, _, _, _, _, frames, cs, rfl, hframes, hcs⟩ := h
  refine hm.aside ⟨rfl, rfl, rfl, rfl, rfl, id, rfl, cs, rfl, fun c hc => ?_⟩
    (hframes.imp_right fun h => ⟨.done, rfl, rfl, h⟩)
  have hc := hcs c hc
  cases c with
  | completeRead | consumeStream | completeResponse => exact hc.elim
  | completeWrite | resumeData | resetStream | postReset => trivial

/-- A reset is not the end of the body. -/
theorem AtRest.maybeCloseStream (hm : AtRest m) : AtRest m.maybeCloseStream := by
  unfold Stream.maybeCloseStream
  split_ifs
  · exact hm
  · exact hm
  · rcases m.backend.reset_cases with hreset | hreset
    · rw [hreset]
      exact hm.aside (aside_of_call (c := .resetStream) trivial rfl rfl rfl rfl rfl id rfl rfl)
        (.inl rfl)
    · rw [hreset]
      exact hm.aside (aside_of_call (c := .postReset) trivial rfl rfl rfl rfl rfl id rfl rfl)
        (.inl rfl)
  · exact hm

/-- The reading adapter is released. -/
theorem AtRest.releasedReader (hm : AtRest m) (hheld : m.readerHandle.held = true)
    (hh : m.rx.readHandler = none) :
    AtRest { m with reader := false, readerHandle := .released } := by
  have hne : m.readerHandle ≠ .absent := by
    intro h
    rw [h] at hheld
    exact nomatch hheld
  refine ⟨⟨?_, ?_⟩, ?_⟩
  · exact hm.1.toBytes.mute [] (by simp) (by simp) rfl ⟨rfl, rfl, rfl, rfl, rfl⟩
      (fun _ ec h => nomatch h) (fun h => nomatch h)
  · refine ⟨iff_of_false (by simp) (by simp), ?_, (fun _ h => nomatch h), ?_, ?_, hm.1.frames⟩
    · intro h
      rw [hh] at h
      exact nomatch h
    · intro h
      exact absurd (hm.1.asking h).1 hne
    · intro hserver hdelivered
      exact absurd (hm.1.undelivered hserver hdelivered) hne
  · rcases hm.2 with hq | hi
    · exact .inl (hq.of_rx rfl rfl)
    · exact .inr (hi.of_rx rfl rfl fun _ _ h => h)

/-- The destructor of the reading adapter drops what is unread, and gives credit for it. -/
theorem AtRest.dropReader (hm : AtRest m) (hheld : m.readerHandle.held = true)
    (hh : m.rx.readHandler = none) : AtRest m.dropReader := by
  have hreleased := hm.releasedReader hheld hh
  unfold Stream.dropReader
  split
  · apply AtRest.finishDeferredClose
    apply AtRest.maybeCloseStream
    -- without a reader, there is nothing to discard
    dsimp only
    rw [if_neg (by simp [readingFinished])]
    exact hreleased
  · rename_i hne
    have hreader : m.reader = false := by
      by_contra h
      exact hne (hm.1.reader.mp (by simpa using h))
    convert hreleased using 1
    rw [hreader]

/-- What the destructor of the stream says. -/
def lastCalls (m : Stream) : List Call :=
  (m.rs.responseHandler.map fun h => .completeResponse h .canceled none).toList ++
    (m.rx.readHandler.map fun h =>
      .completeRead h m.rx.readHandlerBuffer .partialMessage m.rx.bytesRead []).toList ++
    (m.tx.writeHandler.map fun h => .completeWrite h .canceled).toList

/-- The destructor of the stream completes what waits, and detaches the handles. -/
theorem destroy_spec (m : Stream) :
    m.destroy.trace = m.trace ++ m.lastCalls ∧ m.destroy.received = m.received ∧
      m.destroy.rx = { m.rx with readHandler := none } ∧ m.destroy.reader = false ∧
      m.destroy.readerHandle = m.detach.readerHandle ∧ m.destroy.rs.responseHandler = none ∧
      m.destroy.rs.responseDelivered = m.rs.responseDelivered ∧
      m.destroy.isServer = m.isServer ∧ m.destroy.frames = m.frames := by
  cases hh : m.rx.readHandler with
  | none =>
    have hrx : m.rx = { m.rx with readHandler := none } := by rw [← hh]
    cases hr : m.rs.responseHandler <;> cases hw : m.tx.writeHandler <;>
      simp [destroy, lastCalls, detach, completeResponse, completeWrite, call, hr, hh, hw] <;>
      exact hrx
  | some h =>
    cases hr : m.rs.responseHandler <;> cases hw : m.tx.writeHandler <;>
      simp [destroy, lastCalls, detach, completeResponse, completeRead, completeWrite,
        call, hr, hh, hw]

/-- The destructor of the stream tells everybody that waits. -/
theorem AtRest.destroy (hm : AtRest m) (hq : Quiet m) : AtRest m.destroy := by
  obtain ⟨htrace, hreceived, hrx, hreader, hhandle, hresponse, hdelivered, hserver, hframes⟩ :=
    destroy_spec m
  have hbuffer : m.rx.readBuffer = [] → m.unread = [] := by
    intro hb
    simp [unread, hb, hq.empty.mp hb, hq.view]
  have hdetached : ∀ ec, m.detach.readerHandle = .detached ec →
      (m.reader = true ∧ ec = if m.readingFinished then .eof else .partialMessage) ∨
        m.readerHandle = .detached ec := by
    intro ec h
    simp only [detach] at h
    split_ifs at h with hr hf
    · exact .inl ⟨hr, by rw [if_pos hf]; exact (ReaderHandle.detached.inj h).symm⟩
    · exact .inl ⟨hr, by rw [if_neg hf]; exact (ReaderHandle.detached.inj h).symm⟩
    · exact .inr h
  have hfinished : m.reader = true →
      (m.readingFinished = true ↔ m.rx.eofReceived = true ∧ m.rx.readBuffer = []) := by
    intro hr
    simp [readingFinished, hr]
  refine ⟨⟨?_, ?_⟩, .inl ⟨⟨?_, ?_, ?_, ?_, ?_⟩, ?_⟩⟩
  · refine hm.1.toBytes.mute _ htrace ?_ hreceived (by simp [hrx]) ?_ ?_
    · intro c hc
      simp only [lastCalls, List.mem_append, Option.mem_toList, Option.map_eq_some_iff] at hc
      -- the response, the read, and then the write
      rcases hc with (⟨h, _, rfl⟩ | ⟨h, hh, rfl⟩) | ⟨h, _, rfl⟩
      · exact ⟨rfl, rfl, id, fun _ => trivial⟩
      · refine ⟨rfl, rfl, (fun h => nomatch h), fun htold => ?_⟩
        have := (hq.idle (by rw [hh]; rfl)).2
        exact absurd ((hm.1.told htold).1.symm.trans this) (by decide)
      · exact ⟨rfl, rfl, id, fun _ => trivial⟩
    · intro htold ec hec
      rw [hhandle] at hec
      obtain ⟨heof, hunread, hec'⟩ := hm.1.told htold
      rcases hdetached ec hec with ⟨hr, rfl⟩ | h
      · rw [if_pos]
        refine (hfinished hr).mpr ⟨heof, ?_⟩
        simp only [unread, List.append_eq_nil_iff] at hunread
        exact hunread.1.1
      · exact hec' ec h
    · intro hec
      rw [hhandle] at hec
      rcases hdetached .eof hec with ⟨hr, heq⟩ | h
      · have hf : m.readingFinished = true := by
          by_contra hne
          rw [if_neg hne] at heq
          exact nomatch heq
        obtain ⟨heof, hb⟩ := (hfinished hr).mp hf
        exact ⟨heof, hbuffer hb⟩
      · exact hm.1.latched h
  · refine ⟨?_, ?_, ?_, ?_, ?_, ?_⟩
    · rw [hreader, hhandle]
      refine iff_of_false (by simp) ?_
      intro h
      simp only [detach] at h
      split_ifs at h with hr
      exact hr (hm.1.reader.mpr h)
    · rw [hrx]
      exact fun h => nomatch h
    · rw [hrx]
      intro h
      exact absurd (hq.inside.symm.trans h) (by decide)
    · rw [hresponse]
      exact fun h => nomatch h
    · rw [hserver, hdelivered, hhandle]
      intro hs hd
      have habsent := hm.1.undelivered hs hd
      have hr : m.reader = false := by
        by_contra h
        exact absurd ((hm.1.reader.mp (by simpa using h)).symm.trans habsent) (by decide)
      simp [detach, hr, habsent]
    · rw [hframes]
      exact hm.1.frames
  · rw [hrx]
    exact hq.inside
  · rw [readFrames, hframes]
    exact hq.frames
  · rw [hrx]
    exact hq.view
  · rw [hrx]
    exact hq.consumed
  · rw [hrx]
    exact hq.empty
  · rw [hrx]
    exact fun h => nomatch h

/-- Between two steps, with nothing suspended, all that has been delivered is credited. -/
theorem AtRest.quiet (hm : AtRest m) (h : m.frames = []) : Quiet m := by
  rcases hm.2 with hq | hi
  · exact hq
  · have := hi.frames
    rw [readFrames, h] at this
    exact nomatch this

/-- **Step lemma**: every step leaves the stream at rest. -/
theorem AtRest.step (hm : AtRest m) (h : step m a = some t) : AtRest t := by
  cases a with
  | asyncReadSome h' size =>
    obtain ⟨hc, h⟩ := Option.ite_none_right_eq_some.mp h
    rw [← Option.some.inj h]
    exact hm.asyncReadSome (Bool.and_eq_true_iff.mp hc).1 h' size
  | cancelRead =>
    obtain ⟨_, h⟩ := Option.ite_none_right_eq_some.mp h
    rw [← Option.some.inj h, cancelRead]
    split
    · refine ⟨hm.1.completeRead_ok (.inl rfl) (f := none) (by simp) rfl, ?_⟩
      rcases hm.2 with hq | hi
      · exact .inl (hq.completeRead_ok (f := none) (by simp) rfl)
      · exact .inr ⟨hi.inside, hi.frames, hi.ended, hi.eof, hi.truncated⟩
    · exact hm
  | asyncWrite _ _ _ | cancelWrite | producer _ | dataReader _ | writeOffset _ =>
    exact hm.outward (outward_step rfl h)
  | asyncGetResponse h' =>
    obtain ⟨⟨hserver, _⟩, h⟩ := Option.ite_none_right_eq_some.mp h
    rw [← Option.some.inj h, asyncGetResponse]
    split
    · exact hm.aside (aside_of_call (c := .completeResponse _ _ _)
        trivial rfl rfl rfl rfl rfl id rfl rfl)
        (.inl rfl)
    · split_ifs with hdelivered
      · exact hm.aside
          (aside_of_call (c := .completeResponse _ _ _) trivial rfl rfl rfl rfl rfl id rfl rfl)
          (.inl rfl)
      · apply AtRest.deliverResponse
        have hundelivered : m.rs.responseDelivered = false := by simpa using hdelivered
        refine ⟨⟨?_, ?_⟩, ?_⟩
        · exact hm.1.toBytes.of_trace rfl hm.1.content rfl hm.1.nonempty hm.1.suffix hm.1.behind id
            (fun _ h => h) rfl
        · exact ⟨hm.1.reader, hm.1.waiting, hm.1.inside,
            (fun _ => ⟨hm.1.undelivered hserver hundelivered, hundelivered⟩), hm.1.undelivered,
            hm.1.frames⟩
        · rcases hm.2 with hq | hi
          · exact .inl (hq.of_rx rfl rfl)
          · exact .inr (hi.of_rx rfl rfl fun _ _ h => h)
  | cancelResponse =>
    obtain ⟨_, h⟩ := Option.ite_none_left_eq_some.mp h
    rw [← Option.some.inj h, cancelResponse]
    split
    · exact hm.aside (aside_of_call (c := .completeResponse _ _ _) trivial rfl rfl rfl rfl rfl
        (fun h => by cases h) rfl rfl) (.inl rfl)
    · exact hm
  | dropReader =>
    obtain ⟨hc, h⟩ := Option.ite_none_right_eq_some.mp h
    obtain ⟨hheld, hh⟩ := Bool.and_eq_true_iff.mp hc
    rw [← Option.some.inj h]
    exact hm.dropReader hheld (Option.isNone_iff_eq_none.mp hh)
  | dropWriter =>
    obtain ⟨_, h⟩ := Option.ite_none_right_eq_some.mp h
    rw [← Option.some.inj h, dropWriter]
    split
    · apply AtRest.maybeCloseStream
      exact hm.aside (aside_of_trace rfl rfl rfl rfl rfl rfl rfl) (.inl rfl)
    · exact hm.aside (aside_of_trace rfl rfl rfl rfl rfl rfl rfl) (.inl rfl)
  | ret =>
    rw [Stream.step] at h
    split at h
    · cases h
    · rename_i f frames hf
      rw [← Option.some.inj h]
      exact hm.ret hf
  | onHeaders fields =>
    obtain ⟨_, h⟩ := Option.ite_none_right_eq_some.mp h
    rw [← Option.some.inj h]
    exact hm.onHeaders fields
  | onTrailers fields =>
    obtain ⟨_, h⟩ := Option.ite_none_right_eq_some.mp h
    rw [← Option.some.inj h]
    exact hm.aside (aside_onHeaderSection m fields) (.inl rfl)
  | onData data =>
    obtain ⟨hc, h⟩ := Option.ite_none_right_eq_some.mp h
    simp only [open_, Bool.and_eq_true, List.isEmpty_iff, Bool.not_eq_true'] at hc
    obtain ⟨⟨⟨⟨⟨hframes, _⟩, _⟩, _⟩, heof⟩, _⟩ := hc
    rw [← Option.some.inj h]
    exact hm.1.callReadHandlerThen (hm.quiet hframes).toOutside
      (fun _ hi hq => hi.finishDeferredClose_ok hq) (fun _ => heof) rfl
  | onEof =>
    obtain ⟨hc, h⟩ := Option.ite_none_right_eq_some.mp h
    simp only [open_, Bool.and_eq_true, List.isEmpty_iff, Bool.not_eq_true'] at hc
    obtain ⟨⟨⟨⟨hframes, _⟩, _⟩, _⟩, heof⟩ := hc
    have hq := hm.quiet hframes
    rw [← Option.some.inj h, onEof, callReadHandler]
    refine Intact.callReadHandlerThen (m := { m with rx := { m.rx with eofReceived := true } })
      ⟨?_, ?_⟩ ⟨hq.inside, hq.frames, hq.view, hq.consumed, hq.empty⟩
      (fun _ hi hq => hi.finishDeferredClose_ok hq) (by simp) (by simp)
    · exact hm.1.toBytes.of_trace rfl hm.1.content rfl hm.1.nonempty hm.1.suffix hm.1.behind
        (fun _ => rfl) (fun _ h => h) rfl
    · exact hm.1.toHandles.mono rfl rfl rfl id rfl id (fun h => .inl h) hm.1.frames
  | streamClose =>
    obtain ⟨hc, h⟩ := Option.ite_none_right_eq_some.mp h
    simp only [closable, Bool.and_eq_true, List.isEmpty_iff] at hc
    rw [← Option.some.inj h]
    exact hm.1.closeStream_ok (hm.quiet hc.1.1.1)
  | destroy =>
    obtain ⟨hc, h⟩ := Option.ite_none_right_eq_some.mp h
    simp only [Bool.and_eq_true, List.isEmpty_iff] at hc
    rw [← Option.some.inj h]
    exact hm.destroy (hm.quiet hc.1)

/-! ### What a reader gets -/

/-- What a reader gets, and what there is left for it. -/
structure BodyIntact (m : Stream) : Prop where
  /-- What has been delivered and what is kept is what has been received, in order. -/
  bytes : m.received = m.delivered ++ m.unread
  /-- Whenever `call_read_handler()` has returned, `read_buffer_` is a view of what is left of the
  first buffer, if there is one. -/
  view : m.rx.insideCallReadHandler = false →
    (m.rx.pendingReadBuffers ≠ [] ↔
      m.rx.readBuffer ≠ [] ∧ ∃ b ∈ m.rx.pendingReadBuffers.head?, m.rx.readBuffer <:+ b)
  /-- A read does not wait when there is something to deliver, be it the end. -/
  prompt : m.rx.insideCallReadHandler = false → m.rx.readHandler.isSome = true →
    m.unread = [] ∧ m.rx.eofReceived = false
  /-- The end is reported after everything else, and then for every read. -/
  ended : ∀ before c later, m.trace = before ++ c :: later → IsEof c →
    m.rx.eofReceived = true ∧ before.flatMap readBytes = m.received ∧ ∀ d ∈ later, IsOver d
  /-- Credit is given back for what has been delivered. -/
  credit : m.rx.insideCallReadHandler = false → m.credited = m.delivered.length

/-- What is told after the end comes without bytes. -/
theorem readBytes_of_isOver {d : Call} (h : IsOver d) : readBytes d = [] := by
  cases d with
  | completeRead => exact h.2
  | completeWrite | completeResponse | consumeStream | resumeData | resetStream | postReset => rfl

/-- **What a stream at rest has delivered** is a prefix of what it has received, and the end comes
after all of it. -/
theorem AtRest.bodyIntact (hm : AtRest m) : BodyIntact m := by
  have hquiet : m.rx.insideCallReadHandler = false → Quiet m := by
    intro h
    -- credit is outstanding only while a handler runs
    rcases hm.2 with hq | hi
    · exact hq
    · exact absurd (h.symm.trans hi.inside) (by decide)
  refine ⟨hm.1.content, ?_, ?_, ?_, ?_⟩
  · intro h
    have hempty := (hquiet h).empty
    constructor
    · intro hp
      refine ⟨fun hb => hp (hempty.mp hb), ?_⟩
      obtain ⟨b, bs, hbs⟩ := List.exists_cons_of_ne_nil hp
      exact ⟨b, by simp [hbs], hm.1.suffix b (by simp [hbs])⟩
    · rintro ⟨hb, _⟩ hp
      exact hb (hempty.mpr hp)
  · intro h hwaiting
    have hq := hquiet h
    obtain ⟨hb, heof⟩ := hq.idle hwaiting
    refine ⟨?_, heof⟩
    simp [unread, hb, hq.empty.mp hb, hq.view]
  · intro before c later htrace hc
    obtain ⟨heof, hunread, _⟩ := hm.1.told ⟨c, by simp [htrace], hc⟩
    have hlater : ∀ d ∈ later, IsOver d := by
      intro d hd
      have horder := hm.1.order
      rw [htrace] at horder
      exact (List.pairwise_cons.mp (List.pairwise_append.mp horder).2.1).1 d hd hc
    refine ⟨heof, ?_, hlater⟩
    have hnone : later.flatMap readBytes = [] :=
      List.flatMap_eq_nil_iff.mpr fun d hd => readBytes_of_isOver (hlater d hd)
    rw [hm.1.content, hunread, List.append_nil, delivered, htrace, List.flatMap_append,
      List.flatMap_cons, hm.1.bare c (by simp [htrace]) hc, hnone]
    simp
  · intro h
    have := hm.1.credit
    have := (hquiet h).consumed
    omega

/-- **The body arrives**: at every point of every run, a reader has got what has been received, up
to what is kept for it, and the end of it only after all of it. -/
theorem incoming_body_intact {as : List Action} (hm : Fresh m) (hrun : run step m as = some t) :
    BodyIntact t := by
  have : AtRest t := run_inv (P := AtRest) (fun s a u hs h => hs.step h) (atRest_fresh hm) hrun
  exact this.bodyIntact

/-- Two pieces and the end, for a reader that asks again from its handlers. -/
def readToEnd (h : Handler) : List Action :=
  [.onData [1, 2, 3], .onData [4], .onEof, .asyncReadSome h 2, .asyncReadSome h 2, .ret,
    .asyncReadSome h 2, .ret, .asyncReadSome h 2, .ret, .ret]

/-- A body of four bytes, read to its end. -/
theorem incoming_body_intact_readToEnd :
    ∃ t, run step (server (.v2 .zeroCopy) 1000) (readToEnd ⟨0, none⟩) = some t ∧
      t.delivered = [1, 2, 3, 4] ∧ t.rx.eofReceived = true ∧ BodyIntact t := by
  have hstate : (run step (server (.v2 .zeroCopy) 1000) (readToEnd ⟨0, none⟩)).map
      (fun t => (t.delivered, t.rx.eofReceived)) = some ([1, 2, 3, 4], true) := by
    decide +kernel
  obtain ⟨t, hrun, hstate⟩ := Option.map_eq_some_iff.mp hstate
  obtain ⟨hdelivered, heof⟩ := Prod.mk.inj hstate
  exact ⟨t, hrun, hdelivered, heof, incoming_body_intact ⟨_, _, .inr rfl⟩ hrun⟩

end Stream

end AnyHttp.H2
