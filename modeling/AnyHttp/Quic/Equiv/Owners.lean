import AnyHttp.Quic.Driver

/-!
# Who has hold of a stream

A stream lets the session erase it in `maybe_close()`, when it is closed and neither of its adapters
is there.  What each action does to these is said here, once for all of them: `Stream.step_keeps`.
-/

namespace AnyHttp.Quic

/-- What `maybe_close()` looks at, and whether it has called `erase_stream()`. -/
structure Owners where
  kind : Kind
  reader : Bool
  writer : Bool
  closed : Bool
  erased : Bool
deriving DecidableEq, Repr

/-- A stream that has been erased is closed, and neither of its adapters is there. -/
def Owners.Sound (o : Owners) : Prop :=
  o.erased = true → o.reader = false ∧ o.writer = false ∧ o.closed = true

def QuicStream.owners (q : QuicStream) : Owners :=
  ⟨q.kind, q.reader, q.writer, q.closed, decide (Call.eraseStream ∈ q.calls)⟩

namespace QuicStream

variable {q : QuicStream}

@[simp] theorem owners_setTx (q : QuicStream) (t : Outgoing) :
    { q with tx := t }.owners = q.owners :=
  rfl

@[simp] theorem owners_setRx (q : QuicStream) (r : Incoming) :
    { q with rx := r }.owners = q.owners :=
  rfl

/-- A call changes no owner, unless it is the one that erases the stream. -/
theorem owners_call (q : QuicStream) {c : Call} (h : c ≠ .eraseStream) :
    (q.call c).owners = q.owners := by
  simp [owners, call, Ne.symm h]

@[simp] theorem owners_completeWrite (q : QuicStream) (h : Option Handler) (ec : ErrorCode) :
    (q.completeWrite h ec).owners = q.owners := by
  cases h with
  | none => rfl
  | some h => exact q.owners_call nofun

@[simp] theorem owners_bindWriteCancellation (q : QuicStream) (h : Option Handler) (token : Nat) :
    (q.bindWriteCancellation h token).owners = q.owners := by
  cases h with
  | none => rfl
  | some h => exact q.owners_call nofun

/-- Resetting the sending side of a plain stream does not close it. -/
theorem owners_resetWriting (hk : q.kind ≠ .http3) : q.resetWriting.owners = q.owners := by
  unfold resetWriting
  cases hkind : q.kind with
  | plain config => exact q.owners_call nofun
  | http3 => exact absurd hkind hk

@[simp] theorem owners_startWrite (q : QuicStream) (h : Option Handler) (buffer : List UInt8)
    (eof : Bool) : (q.startWrite h buffer eof).owners = q.owners := by
  unfold startWrite
  split_ifs
  · exact owners_completeWrite ..
  · exact owners_completeWrite ..
  · exact owners_bindWriteCancellation ..
  · exact owners_completeWrite ..
  · exact owners_completeWrite ..
  · exact owners_completeWrite ..
  · dsimp only
    rw [owners_call (c := .onWritable) _ nofun]
    exact owners_bindWriteCancellation ..

/-- Neither does the cancellation of a write. -/
theorem owners_cancelWrite (hk : q.kind ≠ .http3) (token : Nat) :
    (q.cancelWrite token).owners = q.owners := by
  unfold cancelWrite letGo
  split_ifs
  · rfl
  · exact owners_completeWrite ..
  · rw [owners_completeWrite]
    exact owners_resetWriting hk
  · exact owners_completeWrite ..

/-- Asking for bytes changes nothing about who owns the stream. -/
theorem owners_pendingData (q : QuicStream) (start room : Nat) :
    (q.pendingData start room).1.owners = q.owners := by
  unfold pendingData
  split_ifs
  · rfl
  · rfl

@[simp] theorem owners_finishActiveWrite (q : QuicStream) : q.finishActiveWrite.owners = q.owners :=
  owners_completeWrite ..

@[simp] theorem owners_onOffered (q : QuicStream) (stop : Nat) (fin : Bool) :
    (q.onOffered stop fin).owners = q.owners := by
  unfold onOffered
  dsimp only
  split_ifs
  · exact owners_finishActiveWrite _
  · rfl

@[simp] theorem owners_onSent (q : QuicStream) (stop : Nat) :
    (q.onSent stop).owners = q.owners := by
  unfold onSent
  dsimp only
  split_ifs
  · rfl
  · rfl
  · rfl
  · exact owners_finishActiveWrite _
  · exact owners_call _ nofun

@[simp] theorem owners_onAcked (q : QuicStream) (stop : Nat) :
    (q.onAcked stop).owners = q.owners := by
  unfold onAcked
  dsimp only
  split_ifs
  · rfl
  · exact owners_finishActiveWrite _
  · rfl

@[simp] theorem owners_abortWriting (q : QuicStream) (ec : ErrorCode) :
    (q.abortWriting ec).owners = q.owners := by
  unfold abortWriting
  dsimp only
  split_ifs
  · rfl
  · exact owners_completeWrite ..

@[simp] theorem owners_userReset (q : QuicStream) (code : Nat) :
    (q.userReset code).owners = q.owners := by
  unfold userReset
  split_ifs
  · rfl
  · exact (owners_abortWriting ..).trans (q.owners_call nofun)

@[simp] theorem owners_leaveReadLoop (q : QuicStream) (n : Nat) :
    (q.leaveReadLoop n).owners = q.owners :=
  owners_call _ nofun

@[simp] theorem owners_parkIncoming (q : QuicStream) : q.parkIncoming.owners = q.owners := by
  unfold parkIncoming
  split_ifs
  · rfl
  · rfl
  · rfl

/-- Nor does a pass of the loop of `call_read_handler()`. -/
theorem owners_readPass {q' : QuicStream} {n : Nat} (h : q.readPass = some (q', n)) :
    q'.owners = q.owners := by
  unfold readPass at h
  cases hh : q.rx.readHandler with
  | none =>
    rw [hh] at h
    exact nomatch h
  | some handler =>
    simp only [hh] at h
    split_ifs at h
    all_goals
      obtain ⟨rfl, _⟩ := Prod.mk.inj (Option.some.inj h)
      exact owners_call _ nofun

/-! ### Letting go -/

/-- `maybe_close()` drops the stream from the map of the session exactly if it is closed and neither
adapter is left. -/
theorem owners_maybeClose (q : QuicStream) :
    q.maybeClose.owners =
      { q.owners with erased := q.owners.erased || (!q.reader && !q.writer && q.closed) } := by
  unfold maybeClose owners call
  cases hr : q.reader
  all_goals
    cases hw : q.writer
    all_goals cases hc : q.closed
  all_goals simp [hr, hw, hc]

/-- What `maybe_close()` does depends on the owners only. -/
theorem owners_maybeClose_congr {q q' : QuicStream} (h : q'.owners = q.owners) :
    q'.maybeClose.owners = q.maybeClose.owners := by
  obtain ⟨_, hreader, hwriter, hclosed, _⟩ := Owners.mk.inj h
  rw [owners_maybeClose, owners_maybeClose, h, hreader, hwriter, hclosed]

/-- The first half of `fail()` closes the stream, ... -/
theorem owners_failReading (q : QuicStream) (ec : ErrorCode) :
    (q.failReading ec).owners = { q.owners with closed := true } := by
  unfold failReading
  dsimp only
  cases q.rx.readHandler with
  | none => rfl
  | some h =>
    dsimp only
    split_ifs
    · exact owners_call _ nofun
    · exact owners_call _ nofun

/-- ... and the second half ends with `maybe_close()`, ... -/
theorem owners_failWriting (q : QuicStream) (ec : ErrorCode) :
    (q.failWriting ec).owners = q.maybeClose.owners := by
  unfold failWriting
  dsimp only
  split_ifs
  · exact owners_maybeClose_congr (owners_completeWrite ..)
  · exact owners_maybeClose_congr (owners_completeWrite ..)
  · rfl

/-- ... as `delete_reader()` does, ... -/
theorem owners_deleteReader (q : QuicStream) : q.deleteReader.owners = q.maybeClose.owners := by
  unfold deleteReader
  dsimp only
  split_ifs
  · exact owners_maybeClose_congr (owners_call _ nofun)
  · exact owners_maybeClose_congr rfl

/-- ... and `delete_writer()`. -/
theorem owners_deleteWriter (hk : q.kind ≠ .http3) :
    q.deleteWriter.owners = q.maybeClose.owners := by
  unfold deleteWriter
  dsimp only
  split_ifs
  · rfl
  · rfl
  · exact owners_maybeClose_congr ((owners_abortWriting ..).trans (owners_resetWriting hk))

/-- `detach()` tells what waits, and takes no adapter away. -/
theorem owners_detach (q : QuicStream) : q.detachReading.detachWriting.owners = q.owners := by
  have hread : q.detachReading.owners = q.owners := by
    unfold detachReading
    cases q.rx.readHandler with
    | none => rfl
    | some h => exact owners_call _ nofun
  rw [← hread]
  unfold detachWriting
  split_ifs
  · exact owners_completeWrite ..
  · rfl

end QuicStream

/-! ### Streams -/

namespace Stream

variable {m m' : Stream} {a : Act}

/-- Who has hold of a stream, whether it is still there, and what its reader knows of that. -/
def holds (m : Stream) : Owners × Bool × ReaderHandle := (m.q.owners, m.destroyed, m.reader)

/-- Who has hold of a stream does not depend on anything else of it than its owners. -/
theorem holds_of_owners {q : QuicStream} (h : q.owners = m.q.owners) :
    { m with q := q }.holds = m.holds := Prod.ext h rfl

/-- Who holds the stream is the same after the loop of `call_read_handler()`, ... -/
theorem holds_readLoop (m : Stream) (consumed : Nat) (k : Cont) {after : Stream → Stream}
    (hafter : ∀ m, (after m).holds = m.holds) : (m.readLoop consumed k after).holds = m.holds := by
  unfold readLoop
  cases hpass : m.q.readPass with
  | none => exact (hafter _).trans (holds_of_owners (m.q.owners_leaveReadLoop consumed))
  | some x => exact Prod.ext (QuicStream.owners_readPass hpass) rfl

/-- ... after the whole of it, ... -/
theorem holds_callReadHandlerThen (m : Stream) (k : Cont) {after : Stream → Stream}
    (hafter : ∀ m, (after m).holds = m.holds) :
    (m.callReadHandlerThen k after).holds = m.holds := by
  unfold callReadHandlerThen
  split_ifs
  · exact hafter m
  · exact holds_readLoop _ 0 k hafter

/-- ... after the end of the body has been told, ... -/
theorem holds_onEof (m : Stream) : m.onEof.holds = m.holds :=
  holds_callReadHandlerThen _ .caller fun _ => rfl

/-- ... and after a read handler has returned. -/
theorem holds_resume (m : Stream) (k : Cont) : (m.resume k).holds = m.holds := by
  cases k with
  | caller => rfl
  | chunk fin =>
    cases fin with
    | false => exact holds_of_owners m.q.owners_parkIncoming
    | true => exact (holds_onEof _).trans (holds_of_owners m.q.owners_parkIncoming)

theorem holds_callReadHandler (m : Stream) (k : Cont) : (m.callReadHandler k).holds = m.holds :=
  holds_callReadHandlerThen m k fun m => m.holds_resume k

/-- Data that arrives leaves the owners as they are. -/
theorem holds_onDataChunk (m : Stream) (data : List UInt8) (fin : Bool) :
    (m.onDataChunk data fin).holds = m.holds := by
  unfold onDataChunk
  split_ifs
  · exact m.holds_onEof
  · rfl
  · exact holds_callReadHandler ..

/-- So does a receiving side that is aborted. -/
theorem holds_abortReading (m : Stream) : m.abortReading.holds = m.holds := by
  unfold abortReading
  split_ifs
  · rfl
  · exact holds_callReadHandler ..

/-- A read is begun through an adapter, which stays. -/
theorem holds_asyncReadSome (m : Stream) (h : Handler) (size : Nat) :
    (m.asyncReadSome h size).holds = m.holds := by
  have hcall : (m.q.call (.onCancel h .read)).owners = m.q.owners := m.q.owners_call nofun
  unfold asyncReadSome
  split_ifs
  · exact holds_of_owners (m.q.owners_call nofun)
  · split
    · exact holds_of_owners (m.q.owners_call nofun)
    · exact (holds_callReadHandler _ .caller).trans (holds_of_owners hcall)

/-- A read is cancelled without the adapter. -/
theorem holds_cancelRead (m : Stream) : m.cancelRead.holds = m.holds := by
  unfold cancelRead
  cases m.q.rx.readHandler with
  | none => rfl
  | some h => exact holds_of_owners (QuicStream.owners_call _ nofun)

/-- A packet takes bytes of the body, and that is all. -/
theorem holds_writePkt {r : PktResult} (h : m.writePkt r = some m') : m'.holds = m.holds := by
  have hnext : m.q.nextStreamData.1.owners = m.q.owners := m.q.owners_pendingData _ _
  unfold writePkt at h
  generalize m.q.nextStreamData = x at h hnext
  obtain ⟨q, vecs, fin⟩ := x
  dsimp only at h hnext
  split_ifs at h
  · cases r with
    | written n =>
      obtain ⟨_, ht⟩ := Option.ite_none_right_eq_some.mp h
      obtain rfl := Option.some.inj ht
      have hwritten : (q.onStreamDataWritten n (fin && n == vecLen vecs)).owners = q.owners :=
        (QuicStream.owners_onSent ..).trans (QuicStream.owners_onOffered ..)
      exact Prod.ext (hwritten.trans hnext) rfl
    | notWritten =>
      obtain rfl := Option.some.inj h
      exact Prod.ext hnext rfl
    | shutWr =>
      -- the peer does not want any more of the body
      obtain rfl := Option.some.inj h
      exact Prod.ext ((QuicStream.owners_abortWriting ..).trans hnext) rfl
  · obtain rfl := Option.some.inj h
    exact Prod.ext hnext rfl

/-- What an action leaves as it is. -/
structure Keeps (m : Stream) (a : Act) (m' : Stream) : Prop where
  kind : m'.q.kind = m.q.kind
  sound : m'.q.owners.Sound
  closed : (∀ ec, a ≠ .fail ec) → m'.q.closed = m.q.closed
  reader : a ≠ .dropReader → a ≠ .destroy → m'.q.reader = m.q.reader
  writer : a ≠ .dropWriter → a ≠ .destroy → m'.q.writer = m.q.writer
  destroyed : a ≠ .destroy → m'.destroyed = m.destroyed
  handle : a ≠ .dropReader → a ≠ .destroy → m'.reader = m.reader

/-- An action after which the same have hold of the stream leaves as it is what it should. -/
theorem keeps_of_holds (h : m'.holds = m.fresh.holds) : m.Keeps a m' := by
  obtain ⟨howners, hrest⟩ := Prod.ext_iff.mp h
  obtain ⟨hdestroyed, hhandle⟩ := Prod.ext_iff.mp hrest
  obtain ⟨hkind, hreader, hwriter, hclosed, herased⟩ := Owners.mk.inj howners
  exact
    { kind := hkind
      sound := fun he => by
        have hmem : Call.eraseStream ∈ m.fresh.q.calls := of_decide_eq_true (herased.symm.trans he)
        exact absurd hmem List.not_mem_nil
      closed := fun _ => hclosed
      reader := fun _ _ => hreader
      writer := fun _ _ => hwriter
      destroyed := fun _ => hdestroyed
      handle := fun _ _ => hhandle }

/-- The same, of an action that changes nothing but the two directions of the stream. -/
theorem keeps_of_owners {q : QuicStream} (h : q.owners = m.fresh.q.owners) :
    m.Keeps a { m.fresh with q := q } := keeps_of_holds (holds_of_owners h)

/-- What `maybe_close()` leaves of a stream that has not been erased. -/
theorem sound_maybeClose {q : QuicStream} (h : q.owners.erased = false) :
    q.maybeClose.owners.Sound := by
  rw [QuicStream.owners_maybeClose, h, Bool.false_or]
  intro he
  obtain ⟨hrw, hclosed⟩ := Bool.and_eq_true_iff.mp he
  obtain ⟨hreader, hwriter⟩ := Bool.and_eq_true_iff.mp hrw
  exact ⟨Bool.not_eq_true' _ ▸ hreader, Bool.not_eq_true' _ ▸ hwriter, hclosed⟩

/-- An action that ends with `maybe_close()` leaves as it is what it has not changed before that. -/
theorem keeps_of_maybeClose {q : QuicStream} (h : m'.q.owners = q.maybeClose.owners)
    (herased : q.owners.erased = false) (hkind : q.kind = m.q.kind)
    (hclosed : (∀ ec, a ≠ .fail ec) → q.closed = m.q.closed)
    (hreader : a ≠ .dropReader → a ≠ .destroy → q.reader = m.q.reader)
    (hwriter : a ≠ .dropWriter → a ≠ .destroy → q.writer = m.q.writer)
    (hdestroyed : m'.destroyed = m.destroyed)
    (hhandle : a ≠ .dropReader → m'.reader = m.reader) : m.Keeps a m' := by
  have hsound := sound_maybeClose herased
  rw [← h] at hsound
  rw [QuicStream.owners_maybeClose] at h
  obtain ⟨hk, hr, hw, hc, _⟩ := Owners.mk.inj h
  exact
    { kind := hk.trans hkind
      sound := hsound
      closed := fun ha => hc.trans (hclosed ha)
      reader := fun ha ha' => hr.trans (hreader ha ha')
      writer := fun ha ha' => hw.trans (hwriter ha ha')
      destroyed := fun _ => hdestroyed
      handle := fun ha _ => hhandle ha }

/-- The steps of a plain stream that is there. -/
theorem act_keeps (hk : m.q.kind ≠ .http3) (h : m.fresh.act a = some m') : m.Keeps a m' := by
  cases a with
  | startWrite x buffer eof =>
    obtain ⟨_, ht⟩ := Option.ite_none_right_eq_some.mp h
    obtain rfl := Option.some.inj ht
    exact keeps_of_holds (Prod.ext (QuicStream.owners_startWrite ..) rfl)
  | cancelWrite token =>
    obtain rfl := Option.some.inj h
    exact keeps_of_holds (Prod.ext (QuicStream.owners_cancelWrite (q := m.fresh.q) hk token) rfl)
  | asyncReadSome x size =>
    obtain ⟨_, ht⟩ := Option.ite_none_right_eq_some.mp h
    obtain rfl := Option.some.inj ht
    exact keeps_of_holds (holds_asyncReadSome ..)
  | cancelRead =>
    obtain ⟨_, ht⟩ := Option.ite_none_right_eq_some.mp h
    obtain rfl := Option.some.inj ht
    exact keeps_of_holds (holds_cancelRead _)
  | resetStream code =>
    obtain ⟨_, ht⟩ := Option.ite_none_right_eq_some.mp h
    obtain rfl := Option.some.inj ht
    exact keeps_of_owners (QuicStream.owners_userReset ..)
  | stopSending code =>
    obtain ⟨_, ht⟩ := Option.ite_none_right_eq_some.mp h
    split_ifs at ht
    · obtain rfl := Option.some.inj ht
      exact keeps_of_holds rfl
    · obtain rfl := Option.some.inj ht
      exact keeps_of_holds ((holds_abortReading _).trans
        (holds_of_owners (m.fresh.q.owners_call (c := .stopReading code) nofun)))
  | submitHeaders =>
    obtain ⟨hguard, _⟩ := Option.ite_none_right_eq_some.mp h
    exact absurd hguard.1 hk
  | dropReader =>
    -- the adapter goes, and `maybe_close()` is called
    obtain ⟨_, ht⟩ := Option.ite_none_right_eq_some.mp h
    obtain rfl := Option.some.inj ht
    exact keeps_of_maybeClose (q := { m.fresh.q with reader := false })
      (QuicStream.owners_deleteReader _) rfl rfl (fun _ => rfl)
      (fun hne => absurd rfl hne) (fun _ _ => rfl) rfl fun hne => absurd rfl hne
  | dropWriter =>
    -- the same for the other adapter, after a reset if the body has not ended
    obtain ⟨_, ht⟩ := Option.ite_none_right_eq_some.mp h
    obtain rfl := Option.some.inj ht
    have hdrop : m.fresh.dropWriter.q = { m.fresh.q with writer := false }.deleteWriter ∧
        m.fresh.dropWriter.destroyed = m.destroyed ∧ m.fresh.dropWriter.reader = m.reader := by
      unfold dropWriter
      cases hkind : m.q.kind with
      | plain config => simp only [fresh, hkind, and_self]
      | http3 => exact absurd hkind hk
    refine keeps_of_maybeClose (q := { m.fresh.q with writer := false }) ?_ rfl rfl
      (fun _ => rfl) (fun _ _ => rfl) (fun hne => absurd rfl hne) hdrop.2.1
      fun _ => hdrop.2.2
    rw [hdrop.1]
    exact QuicStream.owners_deleteWriter hk
  | ret =>
    unfold act at h
    cases hframes : m.fresh.frames with
    | nil =>
      simp only [hframes] at h
      exact nomatch h
    | cons f frames =>
      simp only [hframes] at h
      cases f with
      | loop consumed k =>
        obtain rfl := Option.some.inj h
        exact keeps_of_holds (holds_readLoop _ consumed k fun m => m.holds_resume k)
      | failing ec =>
        obtain rfl := Option.some.inj h
        exact keeps_of_maybeClose (QuicStream.owners_failWriting m.fresh.q ec) rfl rfl
          (fun _ => rfl) (fun _ _ => rfl) (fun _ _ => rfl) rfl fun _ => rfl
  | recvStreamData data fin =>
    obtain ⟨_, ht⟩ := Option.ite_none_right_eq_some.mp h
    split_ifs at ht
    · obtain rfl := Option.some.inj ht
      exact keeps_of_holds rfl
    · obtain rfl := Option.some.inj ht
      exact keeps_of_holds (holds_onDataChunk ..)
  | recvData data =>
    obtain ⟨hguard, _⟩ := Option.ite_none_right_eq_some.mp h
    exact absurd hguard.1 hk
  | endStream =>
    obtain ⟨hguard, _⟩ := Option.ite_none_right_eq_some.mp h
    exact absurd hguard.1 hk
  | streamReset =>
    obtain ⟨_, ht⟩ := Option.ite_none_right_eq_some.mp h
    split_ifs at ht
    · obtain rfl := Option.some.inj ht
      exact keeps_of_holds (holds_abortReading _)
    · obtain rfl := Option.some.inj ht
      exact keeps_of_holds rfl
  | streamStopSending =>
    obtain ⟨_, ht⟩ := Option.ite_none_right_eq_some.mp h
    obtain rfl := Option.some.inj ht
    exact keeps_of_holds (holds_abortReading _)
  | recvStopSending =>
    obtain ⟨_, ht⟩ := Option.ite_none_right_eq_some.mp h
    obtain rfl := Option.some.inj ht
    exact keeps_of_owners (QuicStream.owners_abortWriting ..)
  | writePkt r =>
    obtain ⟨_, ht⟩ := Option.ite_none_right_eq_some.mp h
    exact keeps_of_holds (holds_writePkt ht)
  | acked stop =>
    obtain ⟨_, ht⟩ := Option.ite_none_right_eq_some.mp h
    obtain rfl := Option.some.inj ht
    exact keeps_of_owners (QuicStream.owners_onAcked ..)
  | frame n =>
    obtain ⟨hguard, _⟩ := Option.ite_none_right_eq_some.mp h
    exact absurd hguard hk
  | dataReader veccnt header =>
    obtain ⟨hguard, _⟩ := Option.ite_none_right_eq_some.mp h
    exact absurd hguard.1 hk
  | packet n =>
    obtain ⟨hguard, _⟩ := Option.ite_none_right_eq_some.mp h
    exact absurd hguard.1 hk
  | writeAcked n =>
    obtain ⟨hguard, _⟩ := Option.ite_none_right_eq_some.mp h
    exact absurd hguard.1 hk
  | fail ec =>
    obtain rfl := Option.some.inj h
    have hfail := m.fresh.q.owners_failReading ec
    obtain ⟨hkind, hreader, hwriter, _, herased⟩ := Owners.mk.inj hfail
    unfold fail
    dsimp only
    split_ifs
    · exact
        { kind := hkind
          sound := fun he => absurd (herased.symm.trans he) Bool.false_ne_true
          closed := fun ha => absurd rfl (ha ec)
          reader := fun _ _ => hreader
          writer := fun _ _ => hwriter
          destroyed := fun _ => rfl
          handle := fun _ _ => rfl }
    · exact keeps_of_maybeClose (QuicStream.owners_failWriting _ ec) herased hkind
        (fun ha => absurd rfl (ha ec)) (fun _ _ => hreader) (fun _ _ => hwriter) rfl
        fun _ => rfl
  | destroy =>
    obtain ⟨_, ht⟩ := Option.ite_none_right_eq_some.mp h
    obtain rfl := Option.some.inj ht
    obtain ⟨hkind, _, _, hclosed, herased⟩ :=
      Owners.mk.inj (QuicStream.owners_detach { m.fresh.q with reader := false, writer := false })
    exact
      { kind := hkind
        sound := fun he => absurd (herased.symm.trans he) Bool.false_ne_true
        closed := fun _ => hclosed
        reader := fun _ ha => absurd rfl ha
        writer := fun _ ha => absurd rfl ha
        destroyed := fun ha => absurd rfl ha
        handle := fun _ ha => absurd rfl ha }

/-- **What every step of a plain stream leaves as it is.** -/
theorem step_keeps (hk : m.q.kind ≠ .http3) (h : m.step a = some m') : m.Keeps a m' := by
  obtain ⟨m₁, h₁, rfl⟩ := Option.map_eq_some_iff.mp h
  have hkeeps : m.Keeps a m₁ := by
    split_ifs at h₁
    · cases a with
      | asyncReadSome x size =>
        obtain ⟨_, ht⟩ := Option.ite_none_right_eq_some.mp h₁
        obtain rfl := Option.some.inj ht
        exact keeps_of_holds (holds_asyncReadSome ..)
      | dropReader =>
        obtain rfl := Option.some.inj h₁
        have hsame : m.Keeps .dropReader m.fresh := keeps_of_holds rfl
        exact
          { hsame with
            destroyed := hsame.destroyed
            handle := fun ha => absurd rfl ha }
      | _ => exact nomatch h₁
    · exact act_keeps hk h₁
  exact ⟨hkeeps.kind, hkeeps.sound, hkeeps.closed, hkeeps.reader, hkeeps.writer, hkeeps.destroyed,
    hkeeps.handle⟩

end Stream

end AnyHttp.Quic
