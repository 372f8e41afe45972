import AnyHttp.Quic.Demux

/-!
# What the demultiplexing of QUIC connections keeps

No session must be given a packet that has no connection to give it to.  `fed_iff`: every packet
goes to a session that has been initialized and is not closed, and every session is initialized
once, by the first batch that is processed for it, with the Initial that it was made for -- as long
as no batch is processed for a session whose `init()` has failed before it had a connection with
TLS.

What a job does to its session and to the table is said once (`Job.Frame`), function by function.
-/

namespace AnyHttp.Quic.Demux

open Lib

/-! ### What a job leaves as it is -/

namespace QuicServerSession

/-- `on_read()` has been called on a session that was not usable. -/
def Misfed (session : QuicServerSession) : Prop := .onRead false ∈ session.log

/-- A session in the closing or the draining period has come there by having been fed. -/
def Sound (session : QuicServerSession) : Prop :=
  session.ending = true →
    session.closed = true ∨ session.initialized = true ∨ session.Misfed

end QuicServerSession

namespace Job

/-- What a job of session `i` leaves as it is, once `init()` is over; `reads` tells which calls of
`on_read()` it makes. -/
structure Frame (i : Nat) (reads : List Bool) (w w' : Job) : Prop where
  sessions : ∀ e ∈ w'.sessions, e.2 = i ∨ e ∈ w.sessions
  created : w'.session.created = w.session.created
  collecting : w'.session.collecting = w.session.collecting
  queue : w'.session.queue = w.session.queue
  initialized : w.session.initialized = true → w'.session.initialized = true
  closed : w.session.closed = true → w'.session.closed = true
  sound : w.session.Sound → w'.session.Sound
  log : w'.session.log = w.session.log ++ reads.map .onRead

variable {i : Nat} {reads reads' : List Bool} {w w' : Job}

theorem Frame.refl (w : Job) : Frame i [] w w where
  sessions _ he := .inr he
  created := rfl
  collecting := rfl
  queue := rfl
  initialized := id
  closed := id
  sound := id
  log := (List.append_nil _).symm

/-- One job after another makes the calls of both. -/
theorem Frame.trans {w₁ w₂ w₃ : Job} (h : Frame i reads w₁ w₂) (h' : Frame i reads' w₂ w₃) :
    Frame i (reads ++ reads') w₁ w₃ where
  sessions e he := (h'.sessions e he).elim .inl (h.sessions e)
  created := h'.created.trans h.created
  collecting := h'.collecting.trans h.collecting
  queue := h'.queue.trans h.queue
  initialized := h'.initialized ∘ h.initialized
  closed := h'.closed ∘ h.closed
  sound := h'.sound ∘ h.sound
  log := by rw [h'.log, h.log, List.append_assoc, List.map_append]

/-- What makes no calls of `on_read()` can be left out of them. -/
theorem Frame.trans_nil {w₁ w₂ w₃ : Job} (h : Frame i reads w₁ w₂) (h' : Frame i [] w₂ w₃) :
    Frame i reads w₁ w₃ := by
  have := h.trans h'
  rwa [List.append_nil] at this

/-- A session is misfed by what reads from it when it is not usable. -/
theorem Frame.misfed_iff (h : Frame i reads w w') :
    w'.session.Misfed ↔ w.session.Misfed ∨ false ∈ reads := by
  rw [QuicServerSession.Misfed, h.log, List.mem_append]
  simp [QuicServerSession.Misfed]

/-- A job that is done for every element of a list reads nothing if it does not for one. -/
theorem Frame.foldl {α : Type} {f : Job → α → Job} (hf : ∀ w a, Frame i [] w (f w a))
    (as : List α) (w : Job) : Frame i [] w (as.foldl f w) := by
  induction as generalizing w with
  | nil => exact .refl w
  | cons a as ih => exact (hf w a).trans (ih (f w a))

/-- A job that only touches the table, and only its own entries. -/
theorem frame_sessions {table : Table} (h : ∀ e ∈ table, e.2 = i ∨ e ∈ w.sessions) :
    Frame i [] w { w with sessions := table } :=
  { Frame.refl (i := i) w with sessions := h }

/-- A connection id is associated with this session, ... -/
theorem associateQuicCid_frame (w : Job) (cid : Key) : Frame i [] w (w.associateQuicCid i cid) := by
  apply frame_sessions
  intro e he
  rw [Table.emplace] at he
  split at he
  · exact .inr he
  · exact (List.mem_cons.mp he).imp (fun h => by rw [h]) id

/-- ... or with none any more. -/
theorem dissociateQuicCid_frame (w : Job) (cid : Key) : Frame i [] w (w.dissociateQuicCid cid) :=
  frame_sessions fun _ he => .inr (List.mem_of_mem_filter he)

/-- A session that is erased leaves the other ones alone. -/
theorem eraseQuicSession_frame (w : Job) : Frame i [] w (w.eraseQuicSession i) :=
  frame_sessions fun _ he => .inr (List.mem_of_mem_filter he)

/-- What ngtcp2 reports about connection ids concerns the table only. -/
theorem onCid_frame (w : Job) (e : CidEvent) : Frame i [] w (w.onCid i e) := by
  cases e with
  | new cid => exact associateQuicCid_frame w cid
  | removed cid => exact dissociateQuicCid_frame w cid

theorem setTimer_frame (w : Job) (timer : Timer) : Frame i [] w (w.setTimer timer) :=
  { Frame.refl w with }

/-- `close()` closes the session, and it stays closed. -/
theorem close_frame (w : Job) : Frame i [] w w.close :=
  { Frame.refl w with
    closed := fun _ => rfl
    sound := fun _ _ => .inl rfl }

/-- The period changes only when the session is closed. -/
theorem close_setConn_frame (w : Job) {p : Period} (h : w.session.conn = some .active) :
    Frame i [] w (w.close.setConn (some p)) :=
  { Frame.refl w with
    initialized := fun hw => by
      rw [QuicServerSession.initialized, h] at hw
      exact hw
    closed := fun _ => rfl
    sound := fun _ _ => .inl rfl }

/-- An error is handled without another read. -/
theorem handleError_frame (w : Job) (f : Failure) : Frame i [] w (w.handleError i f) := by
  rw [handleError]
  split_ifs with hclosed hsilent hconn hempty
  · exact .refl w
  · exact ((close_frame w).trans (setTimer_frame _ _)).trans (eraseQuicSession_frame _)
  · exact close_setConn_frame w hconn
  · exact (close_setConn_frame w hconn).trans (setTimer_frame _ _)
  · exact (close_frame w).trans (setTimer_frame _ _)

/-- The connection ids are not kept in the session. -/
theorem foldl_onCid_session (cids : List CidEvent) (w : Job) :
    (cids.foldl (onCid i) w).session = w.session := by
  induction cids generalizing w with
  | nil => rfl
  | cons e cids ih =>
    rw [List.foldl_cons, ih]
    cases e <;> rfl

/-- A call of `on_read()` is recorded with whether the session was usable. -/
theorem note_onRead_frame (w : Job) :
    Frame i [w.session.usable] w (w.note (.onRead w.session.usable)) :=
  { Frame.refl (i := i) w with
    sound := fun hw hending =>
      (hw hending).imp_right (Or.imp_right (List.mem_append_left _))
    log := rfl }

/-- The period changes only for a session that is initialized, or has been misfed. -/
theorem setPeriod_frame (w : Job) (p : Period)
    (h : w.session.initialized = true ∨ w.session.Misfed) :
    Frame i [] w (w.setConn (w.session.conn.map fun _ => p)) := by
  have hinit : w.session.initialized = true →
      (w.setConn (w.session.conn.map fun _ => p)).session.initialized = true := by
    intro hw
    show ((w.session.conn.map fun _ => p).isSome && w.session.tls) = true
    rw [Option.isSome_map]
    exact hw
  exact { Frame.refl w with
    initialized := hinit
    sound := fun _ _ => .inr (h.imp_left hinit) }

/-- What `on_read()` has done before it looks for an error. -/
theorem read_frame (w : Job) (r : ReadResult) :
    Frame i [w.session.usable] w
      ((r.cids.foldl (onCid i) (w.note (.onRead w.session.usable))).setConn
      ((r.cids.foldl (onCid i) (w.note (.onRead w.session.usable))).session.conn.map
        fun _ => r.period)) := by
  refine ((note_onRead_frame w).trans (Frame.foldl onCid_frame r.cids _)).trans ?_
  apply setPeriod_frame
  rw [foldl_onCid_session]
  by_cases hinit : w.session.initialized = true
  · exact .inl hinit
  · -- it has been misfed right now
    refine .inr (List.mem_append_right _ (List.mem_singleton.mpr ?_))
    rw [QuicServerSession.usable, Bool.eq_false_iff.mpr hinit, Bool.false_and]

/-- `on_read()` makes one such call, and changes no more than an error does. -/
theorem onRead_frame (w : Job) (r : ReadResult) :
    Frame i [w.session.usable] w (w.onRead i r).1 := by
  rw [onRead]
  cases r.error with
  | none => exact read_frame w r
  | some f => exact (read_frame w r).trans (handleError_frame _ f)

theorem updateTimer_frame (w : Job) (pending : Bool) : Frame i [] w (w.updateTimer pending) := by
  rw [updateTimer]
  split_ifs
  · exact .refl w
  · exact { Frame.refl w with }
  · exact setTimer_frame w .idle

/-- Writing reads nothing, whatever comes of it, ... -/
theorem writeStreams_frame (w : Job) (r : WriteResult) : Frame i [] w (w.writeStreams i r).1 := by
  rw [writeStreams]
  split_ifs
  · exact .refl w
  · exact .refl w
  · have hcids := Frame.foldl (i := i) onCid_frame r.cids w
    cases r.written with
    | sent => exact hcids
    | notSent => exact hcids
    | error f => exact hcids.trans (handleError_frame _ f)

/-- ... and neither does it with the timer behind it, ... -/
theorem flushWrite_frame (w : Job) (r : WriteResult) : Frame i [] w (w.flushWrite i r).1 := by
  rw [flushWrite]
  split_ifs
  · exact .refl w
  · have h := writeStreams_frame (i := i) w r
    generalize w.writeStreams i r = x at h ⊢
    obtain ⟨w', ok⟩ := x
    cases ok with
    | false => exact h
    | true => exact h.trans (updateTimer_frame w' r.pending)

/-- ... nor from `wake_write()`. -/
theorem wakeWrite_frame (w : Job) (r : WriteResult) : Frame i [] w (w.wakeWrite i r) := by
  rw [wakeWrite]
  split_ifs
  · exact .refl w
  · exact flushWrite_frame w r

/-- A timer that expires reads nothing, ... -/
theorem handleExpiry_frame (w : Job) (r : ExpiryResult) : Frame i [] w (w.handleExpiry i r) := by
  rw [handleExpiry]
  cases r.error with
  | some f => exact handleError_frame w f
  | none => exact flushWrite_frame w r.write

/-- ... and neither does the end of the closing period, ... -/
theorem closeTimer_frame (w : Job) : Frame i [] w (w.closeTimer i) :=
  (setTimer_frame w .idle).trans (eraseQuicSession_frame _)

/-- ... a session that is closed by its user, ... -/
theorem closeConnection_frame (w : Job) (f : Failure) : Frame i [] w (w.closeConnection i f) := by
  rw [closeConnection]
  split_ifs
  · exact .refl w
  · exact handleError_frame w _

/-- ... one that is destroyed, ... -/
theorem doDestroy_frame (w : Job) : Frame i [] w w.doDestroy :=
  (close_frame w).trans (setTimer_frame _ .idle)

/-- ... or one that is taken out of the table. -/
theorem forget_frame (w : Job) : Frame i [] w (w.forget i) := by
  rw [forget]
  split_ifs
  · exact eraseQuicSession_frame w
  · exact .refl w

/-- While the session is neither ending nor closed, a datagram is read. -/
theorem feed_frame_of_open {x : Job × Bool} (hending : x.1.session.ending = false)
    (hclosed : x.1.session.closed = false) (d : Datagram × ReadResult) :
    Frame i [x.1.session.usable] x.1 (feed i x d).1 := by
  rw [feed, hending, hclosed, if_neg Bool.false_ne_true, if_neg Bool.false_ne_true]
  have h := onRead_frame (i := i) x.1 d.2
  generalize x.1.onRead i d.2 = y at h ⊢
  obtain ⟨w', ok⟩ := y
  cases ok with
  | true => exact h
  | false => exact h.trans (forget_frame w')

/-- A datagram of a batch is read at most once, and only if the session is not closed. -/
theorem feed_frame (x : Job × Bool) (d : Datagram × ReadResult) :
    ∃ reads, Frame i reads x.1 (feed i x d).1 ∧
      (x.1.session.closed = true ∨ x.1.session.initialized = true → ∀ u ∈ reads, u = true) := by
  by_cases hending : x.1.session.ending = true
  · rw [feed, if_pos hending]
    exact ⟨[], .refl _, nofun⟩
  by_cases hclosed : x.1.session.closed = true
  · rw [feed, if_neg hending, if_pos hclosed]
    exact ⟨[], .refl _, nofun⟩
  rw [Bool.not_eq_true] at hending hclosed
  refine ⟨_, feed_frame_of_open hending hclosed d, fun h u hu => ?_⟩
  rw [hclosed] at h
  rw [List.mem_singleton.mp hu, QuicServerSession.usable, h.resolve_left Bool.false_ne_true,
    hclosed]
  rfl

/-- The datagrams of a batch are read up to the end of the session; if that has been initialized,
each finds it usable. -/
theorem foldl_feed_frame (ds : List (Datagram × ReadResult)) (x : Job × Bool) :
    ∃ reads, Frame i reads x.1 (ds.foldl (feed i) x).1 ∧
      (x.1.session.closed = true ∨ x.1.session.initialized = true → ∀ u ∈ reads, u = true) := by
  induction ds generalizing x with
  | nil => exact ⟨[], .refl _, nofun⟩
  | cons d ds ih =>
    obtain ⟨reads, h, hreads⟩ := feed_frame (i := i) x d
    obtain ⟨reads', h', hreads'⟩ := ih (feed i x d)
    refine ⟨reads ++ reads', h.trans h', fun hx u hu => ?_⟩
    rcases List.mem_append.mp hu with hu | hu
    · exact hreads hx u hu
    · exact hreads' (hx.imp h.closed h.initialized) u hu

/-- After the reads, what there is to send is sent. -/
theorem writePass_frame (x : Job × Bool) (write : WriteResult) :
    Frame i [] x.1 (writePass i write x) := by
  obtain ⟨w, readOk⟩ := x
  cases readOk with
  | false => exact .refl w
  | true =>
    rw [writePass]
    have h := flushWrite_frame (i := i) w write
    generalize w.flushWrite i write = y at h ⊢
    obtain ⟨w', ok⟩ := y
    cases ok with
    | true => exact h
    | false => exact h.trans (forget_frame w')

/-- A batch as a whole. -/
theorem feedAll_frame (w : Job) (readOk : Bool) (ds : List (Datagram × ReadResult))
    (write : WriteResult) :
    ∃ reads, Frame i reads w (w.feedAll i readOk ds write) ∧
      (w.session.closed = true ∨ w.session.initialized = true → ∀ u ∈ reads, u = true) := by
  obtain ⟨reads, h, hreads⟩ := foldl_feed_frame (i := i) ds (w, readOk)
  exact ⟨reads, h.trans_nil (writePass_frame _ write), hreads⟩

/-- **Where it goes wrong**: a session that `init()` has not initialized, and that is open all the
same, is fed. -/
theorem feedAll_misfed {w : Job} {d : Datagram × ReadResult} {ds : List (Datagram × ReadResult)}
    {readOk : Bool} {write : WriteResult} (hinit : w.session.initialized = false)
    (hclosed : w.session.closed = false) (hending : w.session.ending = false) :
    (w.feedAll i readOk (d :: ds) write).session.Misfed := by
  have hfeed := feed_frame_of_open (i := i) (x := (w, readOk)) hending hclosed d
  rw [QuicServerSession.usable, hinit, Bool.false_and] at hfeed
  obtain ⟨reads, hrest, _⟩ := foldl_feed_frame (i := i) ds (feed i (w, readOk) d)
  have hpass := writePass_frame (i := i) (ds.foldl (feed i) (feed i (w, readOk) d)) write
  exact (hrest.trans hpass).misfed_iff.mpr (.inl (hfeed.misfed_iff.mpr (.inr List.mem_cons_self)))

/-- What `init()` has made by the time that it calls `on_read()`, or fails. -/
def enter (w : Job) (first : Datagram) (conn : Option Period) (tls : Bool) : Job :=
  { w with session := { w.session with
      log := w.session.log ++ [.init first], conn := conn, tls := tls } }

/-- `init()` reads the first datagram itself. -/
theorem init_read_frame (w : Job) (first : Datagram) (r : ReadResult) :
    Frame i [!w.session.closed] (w.enter first (some .active) true) (w.init i first (.read r)).1 :=
  onRead_frame (w.enter first (some .active) true) r

/-- Until `on_read()`, a session is not in the closing or the draining period. -/
theorem init_frame (w : Job) (first : Datagram) (r : InitResult)
    (hclosed : w.session.closed = false) :
    ∃ conn tls reads, Frame i reads (w.enter first conn tls) (w.init i first r).1 ∧
      (conn = w.session.conn ∨ conn = some .active) ∧ ∀ u ∈ reads, u = true := by
  cases r with
  | randBytesFails => exact ⟨w.session.conn, w.session.tls, [], .refl _, .inl rfl, nofun⟩
  | connServerNewFails => exact ⟨w.session.conn, w.session.tls, [], .refl _, .inl rfl, nofun⟩
  | setupTlsFails => exact ⟨some .active, w.session.tls, [], .refl _, .inr rfl, nofun⟩
  | read r =>
    refine ⟨some .active, true, _, init_read_frame w first r, .inr rfl, fun u hu => ?_⟩
    rw [List.mem_singleton.mp hu, hclosed]
    rfl

/-- A datagram that is read without an error closes nothing. -/
theorem onRead_ok {w w' : Job} {r : ReadResult} (h : w.onRead i r = (w', true)) :
    w'.session.closed = w.session.closed := by
  rw [onRead] at h
  cases hr : r.error with
  | some f =>
    rw [hr] at h
    exact absurd h nofun
  | none =>
    rw [hr] at h
    obtain ⟨rfl, _⟩ := Prod.ext_iff.mp h
    show (r.cids.foldl (onCid i) (w.note (.onRead w.session.usable))).session.closed = _
    rw [foldl_onCid_session]
    rfl

/-- What `init()` leaves if it succeeds. -/
theorem init_ok {w w' : Job} {first : Datagram} {r : InitResult}
    (h : w.init i first r = (w', true)) :
    w'.session.closed = w.session.closed ∧ w'.session.initialized = true := by
  cases r with
  | randBytesFails => exact absurd h nofun
  | connServerNewFails => exact absurd h nofun
  | setupTlsFails => exact absurd h nofun
  | read r =>
    have hframe := (init_read_frame (i := i) w first r).initialized rfl
    rw [h] at hframe
    exact ⟨onRead_ok (i := i) (w := w.enter first (some .active) true) (r := r) h, hframe⟩

/-- After the `init()` of a session, its datagrams are read one by one, as long as they can be. -/
theorem processQuicBatch_frame_of_isNew {w : Job} (destroyed : Bool) {batch : QuicBatch}
    {r : BatchResult} {first : Datagram} {rest : List Datagram} (hnew : batch.isNew = true)
    (hds : batch.datagrams = first :: rest) :
    ∃ reads, Frame i reads ((w.note .processQuicBatch).init i first r.init).1
      (w.processQuicBatch i destroyed batch r) ∧ ∀ u ∈ reads, u = true := by
  rw [processQuicBatch, hnew, hds]
  dsimp only
  generalize hx : (w.note .processQuicBatch).init i first r.init = x
  obtain ⟨w', ok⟩ := x
  cases ok with
  | false => exact ⟨[], eraseQuicSession_frame w', nofun⟩
  | true =>
    have hscids : Frame i [] w'
        (if r.scids.length ≤ 8 then r.scids.foldl (associateQuicCid i) w' else w') := by
      split_ifs
      · exact Frame.foldl associateQuicCid_frame r.scids w'
      · exact .refl w'
    dsimp only
    generalize (if r.scids.length ≤ 8 then r.scids.foldl (associateQuicCid i) w' else w') = w''
      at hscids ⊢
    split_ifs
    · exact ⟨[], (hscids.trans (eraseQuicSession_frame w'')).trans (doDestroy_frame _), nofun⟩
    · obtain ⟨reads, h, hreads⟩ := feedAll_frame (i := i)
        { w'' with session := { w''.session with registered := true } } true
        (rest.zip r.reads) r.write
      have hreg : Frame i [] w'' { w'' with session := { w''.session with registered := true } } :=
        { Frame.refl w'' with }
      exact ⟨reads, (hscids.trans hreg).trans h,
        hreads (.inr (hscids.initialized (init_ok hx).2))⟩

/-- A batch that is not the first one is fed to the session as it is. -/
theorem processQuicBatch_frame {w : Job} (destroyed : Bool) {batch : QuicBatch} {r : BatchResult}
    (hnew : batch.isNew = false) :
    ∃ reads, Frame i reads (w.note .processQuicBatch) (w.processQuicBatch i destroyed batch r) ∧
      (w.session.closed = true ∨ w.session.initialized = true → ∀ u ∈ reads, u = true) := by
  rw [processQuicBatch, hnew]
  exact feedAll_frame (w.note .processQuicBatch) false (batch.datagrams.zip r.reads) r.write

end Job

/-! ### The batches of a session -/

namespace QuicServerSession

/-- The batches that have not been processed. -/
def pending (session : QuicServerSession) : List QuicBatch :=
  session.queue ++ session.collecting.toList

/-- For each of them, if it is the first one, and its first datagram. -/
def heads (session : QuicServerSession) : List (Bool × Option Datagram) :=
  session.pending.map fun b => (b.isNew, b.datagrams.head?)

/-- No batch has been processed, and the first one has the Initial. -/
structure Fresh (session : QuicServerSession) : Prop where
  conn : session.conn = none
  closed : session.closed = false
  armed : session.armed = false
  registered : session.registered = false
  log : session.log = []
  heads : ∃ rest, session.heads = (true, some session.created) :: rest ∧ ∀ x ∈ rest, x.1 = false

/-- `init()` has been called, once and before anything else. -/
def Initiated (session : QuicServerSession) : Prop :=
  ∃ rest, session.log = .processQuicBatch :: .init session.created :: rest ∧ ∀ d, .init d ∉ rest

/-- The first batch has been processed. -/
structure Started (session : QuicServerSession) : Prop where
  initiated : session.Initiated
  sound : session.Sound
  heads : ∀ x ∈ session.heads, x.1 = false

structure WellFormed (session : QuicServerSession) : Prop where
  nonempty : ∀ x ∈ session.heads, x.2.isSome = true
  phase : session.Fresh ∨ session.Started

/-- A datagram is added to a batch that is there, or to a new one. -/
theorem heads_collect {session : QuicServerSession}
    (h : ∀ x ∈ session.heads, x.2.isSome = true) (d : Datagram) :
    (session.collect d).heads = session.heads ∨
      (session.collect d).heads = session.heads ++ [(false, some d)] := by
  unfold heads pending at h ⊢
  rw [collect]
  cases hc : session.collecting with
  | none =>
    right
    rw [Option.toList_none, List.append_nil]
    exact List.map_append
  | some b =>
    left
    have hb : b.datagrams.head?.isSome = true := by
      apply h (b.isNew, b.datagrams.head?)
      rw [hc]
      exact List.mem_map_of_mem (f := fun b : QuicBatch => (b.isNew, b.datagrams.head?))
        (List.mem_append_right _ (List.mem_singleton.mpr rfl))
    obtain ⟨first, hfirst⟩ := Option.isSome_iff_exists.mp hb
    simp [List.head?_append, hfirst]

/-- A datagram that is collected keeps the queue well formed. -/
theorem WellFormed.collect {session : QuicServerSession} (h : session.WellFormed) (d : Datagram) :
    (session.collect d).WellFormed := by
  rcases heads_collect h.nonempty d with hd | hd
  · refine ⟨fun x hx => h.nonempty x (hd ▸ hx), h.phase.imp (fun hf => ?_) (fun hs => ?_)⟩
    · exact { hf with heads := hd ▸ hf.heads }
    · exact { hs with heads := fun x hx => hs.heads x (hd ▸ hx) }
  · have hmem : ∀ x ∈ (session.collect d).heads, x ∈ session.heads ∨ x = (false, some d) := by
      intro x hx
      rw [hd] at hx
      exact (List.mem_append.mp hx).imp_right List.mem_singleton.mp
    refine ⟨fun x hx => ?_, h.phase.imp (fun hf => ?_) (fun hs => ?_)⟩
    · rcases hmem x hx with hx | rfl
      · exact h.nonempty x hx
      · rfl
    · obtain ⟨rest, hrest, hall⟩ := hf.heads
      refine { hf with heads := ⟨rest ++ [(false, some d)], ?_, fun x hx => ?_⟩ }
      · rw [hd, hrest]
        rfl
      · rcases List.mem_append.mp hx with hx | hx
        · exact hall x hx
        · rw [List.mem_singleton.mp hx]
    · refine { hs with heads := fun x hx => ?_ }
      rcases hmem x hx with hx | rfl
      · exact hs.heads x hx
      · rfl

/-- What is posted has the batches of the session in the same order. -/
theorem heads_post (session : QuicServerSession) : session.post.heads = session.heads := by
  unfold heads pending
  rw [post, Option.toList_none, List.append_nil]

/-- So posting keeps it as well. -/
theorem WellFormed.post {session : QuicServerSession} (h : session.WellFormed) :
    session.post.WellFormed := by
  have hheads := heads_post session
  refine ⟨fun x hx => h.nonempty x (hheads ▸ hx), h.phase.imp (fun hf => ?_) (fun hs => ?_)⟩
  · exact { hf with heads := hheads ▸ hf.heads }
  · exact { hs with heads := fun x hx => hs.heads x (hheads ▸ hx) }

/-- A session that has just been made. -/
theorem wellFormed_new (d : Datagram) :
    WellFormed { created := d, collecting := some { isNew := true, datagrams := [d] } } where
  nonempty x hx := by
    rw [List.mem_singleton.mp hx]
    rfl
  phase := .inl ⟨rfl, rfl, rfl, rfl, rfl, [], rfl, nofun⟩

end QuicServerSession

namespace Job

variable {i : Nat} {reads : List Bool} {w w' : Job}

/-- A job does not touch the queue, ... -/
theorem Frame.heads (h : Frame i reads w w') : w'.session.heads = w.session.heads := by
  rw [QuicServerSession.heads, QuicServerSession.pending, h.queue, h.collecting]
  rfl

/-- ... and a session that has started has started. -/
theorem Frame.started (h : Frame i reads w w') (hw : w.session.Started) : w'.session.Started where
  initiated := by
    obtain ⟨rest, hlog, hrest⟩ := hw.initiated
    refine ⟨rest ++ reads.map .onRead, ?_, fun d hd => ?_⟩
    · rw [h.log, hlog, h.created]
      rfl
    · rcases List.mem_append.mp hd with hd | hd
      · exact hrest d hd
      · obtain ⟨u, _, hu⟩ := List.mem_map.mp hd
        exact nomatch hu
  sound := h.sound hw.sound
  heads := h.heads ▸ hw.heads

/-- What keeps a fresh session fresh keeps it well-formed. -/
theorem Frame.wellFormed (h : Frame i reads w w') (hfresh : w.session.Fresh → w'.session.Fresh)
    (hw : w.session.WellFormed) : w'.session.WellFormed where
  nonempty := h.heads ▸ hw.nonempty
  phase := hw.phase.imp hfresh h.started

/-- A job that is recorded does not start a session anew. -/
theorem note_processQuicBatch_started (h : w.session.Started) :
    (w.note .processQuicBatch).session.Started where
  initiated := by
    obtain ⟨rest, hlog, hrest⟩ := h.initiated
    refine ⟨rest ++ [.processQuicBatch], ?_, fun d hd => ?_⟩
    · show w.session.log ++ [.processQuicBatch] = _
      rw [hlog]
      rfl
    · rcases List.mem_append.mp hd with hd | hd
      · exact hrest d hd
      · exact nomatch List.mem_singleton.mp hd
  sound hending := (h.sound hending).imp_right (Or.imp_right (List.mem_append_left _))
  heads := h.heads

/-- The job that is about to process the next batch. -/
theorem next_eq_some {destroyed : Bool} {r : BatchResult} (h : w.next i destroyed r = some w') :
    ∃ batch queue, w.session.queue = batch :: queue ∧ r.reads.length = batch.toRead ∧
      w' = { w with session := { w.session with queue := queue } }.processQuicBatch i destroyed
        batch r := by
  rw [next] at h
  cases hq : w.session.queue with
  | nil =>
    rw [hq] at h
    exact nomatch h
  | cons batch queue =>
    rw [hq] at h
    obtain ⟨hlen, h⟩ := Option.ite_none_right_eq_some.mp h
    exact ⟨batch, queue, rfl, hlen, (Option.some.inj h).symm⟩

/-- The batch at the front is the one whose head comes first. -/
theorem heads_of_queue {session : QuicServerSession} {batch : QuicBatch} {queue : List QuicBatch}
    (h : session.queue = batch :: queue) :
    session.heads =
      (batch.isNew, batch.datagrams.head?) :: { session with queue := queue }.heads := by
  rw [QuicServerSession.heads, QuicServerSession.pending, h]
  rfl

/-- The first batch of a session is the one that its `init()` is called for. -/
theorem next_of_fresh (destroyed : Bool) {r : BatchResult} (hw : w.session.WellFormed)
    (hfresh : w.session.Fresh) {batch : QuicBatch} {queue : List QuicBatch}
    (hqueue : w.session.queue = batch :: queue) :
    ∃ w₁ reads, batch.isNew = true ∧
      Frame i reads w₁ ({ w with session := { w.session with queue := queue } }.processQuicBatch i
        destroyed batch r) ∧ w₁.sessions = w.sessions ∧
      w₁.session.Started ∧ (∀ x ∈ w₁.session.heads, x.2.isSome = true) ∧ ¬ w₁.session.Misfed ∧
      ∀ u ∈ reads, u = true := by
  obtain ⟨rest, hheads, hrest⟩ := hfresh.heads
  have hnonempty := hw.nonempty
  rw [heads_of_queue hqueue] at hheads hnonempty
  obtain ⟨hbatch, hheads⟩ := List.cons.inj hheads
  obtain ⟨hnew, hfirst⟩ := Prod.mk.inj hbatch
  obtain ⟨ds, hds⟩ : ∃ ds, batch.datagrams = w.session.created :: ds := by
    cases hd : batch.datagrams with
    | nil =>
      rw [hd] at hfirst
      exact nomatch hfirst
    | cons d ds =>
      rw [hd] at hfirst
      exact ⟨ds, by rw [Option.some.inj hfirst]⟩
  let w₀ : Job := { w with session := { w.session with queue := queue } }
  obtain ⟨reads', h', hreads'⟩ := processQuicBatch_frame_of_isNew (i := i) (w := w₀)
    (r := r) destroyed hnew hds
  obtain ⟨conn, tls, reads, h, hconn, hreads⟩ :=
    init_frame (i := i) (w₀.note .processQuicBatch) w.session.created r.init hfresh.closed
  refine ⟨_, reads ++ reads', hnew, h.trans h', rfl, ?_, ?_, ?_, fun u hu => ?_⟩
  · refine ⟨⟨[], ?_, nofun⟩, fun hending => ?_, ?_⟩
    · show w.session.log ++ [.processQuicBatch] ++ [.init w.session.created] = _
      rw [hfresh.log]
      rfl
    · -- neither having no connection nor having a new one is the end of it
      have hactive : conn = none ∨ conn = some .active :=
        hconn.imp_left fun hc => hc.trans hfresh.conn
      rcases hactive with rfl | rfl <;> exact nomatch hending
    · exact hheads ▸ hrest
  · exact fun x hx => hnonempty x (List.mem_cons_of_mem _ hx)
  · show Call.onRead false ∉ w.session.log ++ [.processQuicBatch] ++ [.init w.session.created]
    rw [hfresh.log]
    simp
  · exact (List.mem_append.mp hu).elim (hreads u) (hreads' u)

/-- A batch of a session that has been started. -/
theorem next_of_started (destroyed : Bool) {r : BatchResult} (hw : w.session.WellFormed)
    (hstarted : w.session.Started) {batch : QuicBatch} {queue : List QuicBatch}
    (hqueue : w.session.queue = batch :: queue) (hlen : r.reads.length = batch.toRead) :
    ∃ w₁ reads, batch.isNew = false ∧
      Frame i reads w₁ ({ w with session := { w.session with queue := queue } }.processQuicBatch i
        destroyed batch r) ∧ w₁.sessions = w.sessions ∧
      w₁.session.Started ∧ (∀ x ∈ w₁.session.heads, x.2.isSome = true) ∧
      (w₁.session.Misfed ∨ false ∈ reads ↔
        w.session.Misfed ∨ ¬(w.session.closed = true ∨ w.session.initialized = true)) := by
  have hheads := hstarted.heads
  have hnonempty := hw.nonempty
  rw [heads_of_queue hqueue] at hheads hnonempty
  have hnew : batch.isNew = false := hheads _ List.mem_cons_self
  let w₀ : Job := { w with session := { w.session with queue := queue } }
  have hstarted₀ : w₀.session.Started :=
    { hstarted with heads := fun x hx => hheads x (List.mem_cons_of_mem _ hx) }
  obtain ⟨reads, h, hreads⟩ := processQuicBatch_frame (i := i) (w := w₀) destroyed
    (r := r) hnew
  have hnote : (w₀.note .processQuicBatch).session.Misfed ↔ w.session.Misfed := by
    show Call.onRead false ∈ w.session.log ++ [.processQuicBatch] ↔ _
    simp [QuicServerSession.Misfed]
  refine ⟨_, reads, hnew, h, rfl, note_processQuicBatch_started hstarted₀,
    fun x hx => hnonempty x (List.mem_cons_of_mem _ hx), ?_⟩
  rw [hnote]
  constructor
  · apply Or.imp_right
    intro hfalse hready
    cases hreads hready false hfalse
  · rintro (hmisfed | hnot)
    · exact .inl hmisfed
    · rw [not_or, Bool.not_eq_true, Bool.not_eq_true] at hnot
      by_cases hending : w.session.ending = true
      · -- it has come into this period by having been misfed
        rcases hstarted.sound hending with hc | hi | hm
        · rw [hnot.1] at hc
          contradiction
        · rw [hnot.2] at hi
          contradiction
        · exact .inl hm
      · -- its first datagram misfeeds it
        rw [Bool.not_eq_true] at hending
        rw [← hnote, ← h.misfed_iff]
        obtain ⟨d, hd⟩ := Option.isSome_iff_exists.mp (hnonempty _ List.mem_cons_self)
        obtain ⟨ds, hds⟩ := List.head?_eq_some_iff.mp hd
        rw [QuicBatch.toRead, hnew, if_neg Bool.false_ne_true, hds] at hlen
        obtain ⟨read, rest, hread⟩ := List.exists_cons_of_length_eq_add_one hlen
        rw [processQuicBatch, hnew, hds, hread]
        exact feedAll_misfed hnot.2 hnot.1 hending

end Job

/-! ### Every step -/

/-- A session that is initialized, or that has nothing to be given to any more. -/
def QuicServerSession.Ready (session : QuicServerSession) : Prop :=
  session.closed = true ∨ session.initialized = true

namespace Job

variable {i : Nat} {w w' : Job}

/-- A job that reads nothing. -/
structure Quiet (i : Nat) (w w' : Job) : Prop where
  frame : Frame i [] w w'
  fresh : w.session.Fresh → w'.session.Fresh

/-- `wake_write()` reads nothing, and a fresh session stays fresh. -/
theorem wakeWrite_quiet (w : Job) (r : WriteResult) : Quiet i w (w.wakeWrite i r) where
  frame := wakeWrite_frame w r
  fresh h := by
    rw [wakeWrite, flushWrite, h.closed, h.conn]
    exact h

/-- So it does when the user closes it, ... -/
theorem closeConnection_quiet (w : Job) (f : Failure) : Quiet i w (w.closeConnection i f) where
  frame := closeConnection_frame w f
  fresh h := by
    rw [closeConnection, h.closed, h.conn]
    exact h

/-- ... when the closing timer expires, ... -/
theorem closeTimer_quiet (w : Job) : Quiet i w (w.closeTimer i) where
  frame := closeTimer_frame w
  fresh h := { h with }

/-- The timer is not armed before there is a connection. -/
theorem expiry_quiet {r : ExpiryResult} (h : w.session.armed = true) :
    Quiet i w ((if w.session.timer = .expiry then w.setTimer .idle else w).handleExpiry i r) where
  frame := by
    split_ifs
    · exact (setTimer_frame w .idle).trans (handleExpiry_frame _ r)
    · exact handleExpiry_frame w r
  fresh hf := by
    rw [hf.armed] at h
    contradiction

/-- ... and when it is destroyed, if it has been registered. -/
theorem doDestroy_quiet (h : w.session.registered = true) : Quiet i w w.doDestroy where
  frame := doDestroy_frame w
  fresh hf := by
    rw [hf.registered] at h
    contradiction

end Job

namespace QuicServerImpl

variable {s t : QuicServerImpl} {i : Nat}

/-- A job changes the table, and its own session. -/
theorem job_eq_some {f : Job → Option Job} (h : s.job i f = some t) :
    ∃ session w', s.made[i]? = some session ∧ f ⟨s.sessions, session⟩ = some w' ∧
      t = s.put i w' := by
  rw [job, Option.bind_eq_some_iff] at h
  obtain ⟨session, hi, h⟩ := h
  obtain ⟨w', hw', ht⟩ := Option.map_eq_some_iff.mp h
  exact ⟨session, w', hi, hw', ht.symm⟩

/-- Every session is well-formed. -/
def WellFormed (s : QuicServerImpl) : Prop :=
  ∀ (j : Nat) (session : QuicServerSession), s.made[j]? = some session → session.WellFormed

/-- No session has been misfed. -/
def Fed (s : QuicServerImpl) : Prop :=
  ∀ (j : Nat) (session : QuicServerSession), s.made[j]? = some session → ¬ session.Misfed

/-- One session is replaced, which has been misfed as the old one has, unless `q` does not hold. -/
theorem wellFormed_set {session session' : QuicServerSession} {q : Prop}
    (hi : s.made[i]? = some session) (ht : t.made = s.made.set i session') (hs : s.WellFormed)
    (hsession : session'.WellFormed) (hq : session'.Misfed ↔ session.Misfed ∨ ¬q) :
    t.WellFormed ∧ (t.Fed ↔ s.Fed ∧ q) := by
  unfold WellFormed Fed
  rw [ht]
  refine ⟨fun j x hx => ?_, fun h => ⟨fun j x hx => ?_, ?_⟩, fun h j x hx => ?_⟩
  · rcases (getElem?_set_eq_some hi).mp hx with ⟨_, rfl⟩ | ⟨_, hx⟩
    · exact hsession
    · exact hs j x hx
  · by_cases hj : j = i
    · rw [hj, hi] at hx
      have := h i session' ((getElem?_set_eq_some hi).mpr (.inl ⟨rfl, rfl⟩))
      rw [hq, not_or, Option.some.inj hx] at this
      exact this.1
    · exact h j x ((getElem?_set_eq_some hi).mpr (.inr ⟨hj, hx⟩))
  · have := h i session' ((getElem?_set_eq_some hi).mpr (.inl ⟨rfl, rfl⟩))
    rw [hq, not_or, not_not] at this
    exact this.2
  · rcases (getElem?_set_eq_some hi).mp hx with ⟨_, rfl⟩ | ⟨_, hx⟩
    · rw [hq, not_or, not_not]
      exact ⟨h.1 i session hi, h.2⟩
    · exact h.1 j x hx

/-- **Step lemma** for jobs that read nothing. -/
theorem wellFormed_of_quiet {f : Job → Option Job} (h : s.job i f = some t)
    (hquiet : ∀ w w', f w = some w' → Job.Quiet i w w') (hs : s.WellFormed) :
    t.WellFormed ∧ (t.Fed ↔ s.Fed ∧ True) := by
  obtain ⟨session, w', hi, hw', rfl⟩ := job_eq_some h
  have hq := hquiet _ _ hw'
  refine wellFormed_set hi rfl hs (hq.frame.wellFormed hq.fresh (hs i session hi)) ?_
  rw [hq.frame.misfed_iff]
  simp

end QuicServerImpl

/-- A batch that is not the first one is processed only if its session is initialized, or closed. -/
def Feeds (s : QuicServerImpl) : Action → Prop
  | .processQuicBatch i _ =>
    ∀ session ∈ s.made[i]?, ∀ batch ∈ session.queue.head?, batch.isNew = true ∨ session.Ready
  | _ => True

instance : ∀ s a, Decidable (Feeds s a)
  | s, .processQuicBatch i _ =>
    inferInstanceAs (Decidable (∀ session ∈ s.made[i]?, ∀ batch ∈ session.queue.head?,
      batch.isNew = true ∨ session.closed = true ∨ session.initialized = true))
  | _, .datagram _ => inferInstanceAs (Decidable True)
  | _, .emplace => inferInstanceAs (Decidable True)
  | _, .post => inferInstanceAs (Decidable True)
  | _, .wakeWrite .. => inferInstanceAs (Decidable True)
  | _, .expiry .. => inferInstanceAs (Decidable True)
  | _, .closeTimer _ => inferInstanceAs (Decidable True)
  | _, .closeConnection .. => inferInstanceAs (Decidable True)
  | _, .destroy => inferInstanceAs (Decidable True)
  | _, .doDestroy _ => inferInstanceAs (Decidable True)

/-- **Step lemma** for batches: nothing is fed wrongly exactly if the condition of the
step holds. -/
theorem processQuicBatch_fed {s t : QuicServerImpl} {i : Nat} {r : BatchResult}
    (hs : s.WellFormed) (h : s.job i (Job.next i s.destroyed r) = some t) :
    t.WellFormed ∧ (t.Fed ↔ s.Fed ∧ Feeds s (.processQuicBatch i r)) := by
  obtain ⟨session, w', hi, hw', rfl⟩ := QuicServerImpl.job_eq_some h
  obtain ⟨batch, queue, hqueue, hlen, rfl⟩ := Job.next_eq_some hw'
  have hfeeds : Feeds s (.processQuicBatch i r) ↔ (batch.isNew = true ∨ session.Ready) := by
    show (∀ session ∈ s.made[i]?, ∀ batch ∈ session.queue.head?, _) ↔ _
    rw [hi]
    simp only [Option.mem_some_iff, forall_eq', show session.queue = batch :: queue from hqueue,
      List.head?_cons]
  rw [hfeeds]
  rcases (hs i session hi).phase with hfresh | hstarted
  · obtain ⟨w₁, reads, hnew, hframe, _, hstarted₁, hheads, hmisfed, hreads⟩ :=
      Job.next_of_fresh (i := i) (w := ⟨s.sessions, session⟩) (r := r) s.destroyed
        (hs i session hi) hfresh hqueue
    refine QuicServerImpl.wellFormed_set hi rfl hs
      ⟨hframe.heads ▸ hheads, .inr (hframe.started hstarted₁)⟩ ?_
    rw [hframe.misfed_iff]
    have hlog : ¬ session.Misfed := by
      rw [QuicServerSession.Misfed, hfresh.log]
      exact List.not_mem_nil
    have hfalse : false ∉ reads := fun hu => by cases hreads false hu
    simp [hmisfed, hlog, hfalse, hnew]
  · obtain ⟨w₁, reads, hnew, hframe, _, hstarted₁, hheads, hmisfed⟩ :=
      Job.next_of_started (i := i) (w := ⟨s.sessions, session⟩) s.destroyed
        (hs i session hi) hstarted hqueue hlen
    refine QuicServerImpl.wellFormed_set hi rfl hs
      ⟨hframe.heads ▸ hheads, .inr (hframe.started hstarted₁)⟩ ?_
    rw [hframe.misfed_iff, hmisfed, hnew]
    simp only [Bool.false_eq_true, false_or]
    rfl

/-- What becomes of a datagram: nothing that the sessions know of, or one of them gets it. -/
theorem datagram_cases {s t : QuicServerImpl} {d : Datagram} (h : step s (.datagram d) = some t) :
    t.made = s.made ∧ t.sessions = s.sessions ∧ t.destroyed = s.destroyed ∨
      ∃ i session, s.made[i]? = some session ∧ t.made = s.made.set i (session.collect d) ∧
        t.sessions = s.sessions ∧ t.destroyed = s.destroyed := by
  obtain ⟨_, ht⟩ := Option.ite_none_left_eq_some.mp h
  cases hd : d.dcid with
  | none =>
    rw [hd] at ht
    obtain rfl := Option.some.inj ht
    exact .inl ⟨rfl, rfl, rfl⟩
  | some key =>
    simp only [hd] at ht
    cases hl : s.sessions.lookup key with
    | none =>
      rw [hl] at ht
      obtain rfl := Option.some.inj ht
      left
      split_ifs
      · exact ⟨rfl, rfl, rfl⟩
      · exact ⟨rfl, rfl, rfl⟩
    | some i =>
      rw [hl] at ht
      obtain ⟨session, hi, rfl⟩ := Option.map_eq_some_iff.mp ht
      exact .inr ⟨i, session, hi, rfl, rfl, rfl⟩

/-- **Step lemma**: a step misfeeds a session exactly when it does not meet the condition. -/
theorem step_fed {s t : QuicServerImpl} {a : Action} (hs : s.WellFormed)
    (h : step s a = some t) : t.WellFormed ∧ (t.Fed ↔ s.Fed ∧ Feeds s a) := by
  cases a with
  | datagram d =>
    rcases datagram_cases h with ⟨hmade, _⟩ | ⟨i, session, hi, hmade, _⟩
    · unfold QuicServerImpl.WellFormed QuicServerImpl.Fed
      rw [hmade]
      exact ⟨hs, (and_iff_left trivial).symm⟩
    · refine QuicServerImpl.wellFormed_set hi hmade hs ((hs i session hi).collect d) ?_
      exact (or_iff_left (not_not_intro trivial)).symm
  | emplace =>
    obtain ⟨⟨key, d⟩, _, rfl⟩ := Option.map_eq_some_iff.mp h
    constructor
    · intro j x hx
      rcases getElem?_concat_eq_some hx with hx | ⟨_, rfl⟩
      · exact hs j x hx
      · exact QuicServerSession.wellFormed_new d
    · constructor
      · intro ht
        refine ⟨fun j x hx => ht j x ?_, trivial⟩
        exact getElem?_eq_some_mono (List.prefix_append _ _) hx
      · rintro ⟨hfed, _⟩ j x hx
        rcases getElem?_concat_eq_some hx with hx | ⟨_, rfl⟩
        · exact hfed j x hx
        · exact List.not_mem_nil
  | post =>
    obtain ⟨_, ht⟩ := Option.ite_none_left_eq_some.mp h
    obtain rfl := Option.some.inj ht
    constructor
    · intro j x hx
      obtain ⟨session, hj, rfl⟩ := Option.map_eq_some_iff.mp (List.getElem?_map ▸ hx)
      exact (hs j session hj).post
    · constructor
      · intro ht
        refine ⟨fun j x hx => ht j x.post ?_, trivial⟩
        show (s.made.map QuicServerSession.post)[j]? = some x.post
        rw [List.getElem?_map, hx]
        rfl
      · rintro ⟨hfed, _⟩ j x hx
        obtain ⟨session, hj, rfl⟩ := Option.map_eq_some_iff.mp (List.getElem?_map ▸ hx)
        exact hfed j session hj
  | processQuicBatch i r => exact processQuicBatch_fed hs h
  | wakeWrite i r =>
    rw [step] at h
    refine QuicServerImpl.wellFormed_of_quiet h (fun w w' hw => ?_) hs
    rw [← Option.some.inj hw]
    exact Job.wakeWrite_quiet w r
  | expiry i r =>
    rw [step] at h
    refine QuicServerImpl.wellFormed_of_quiet h (fun w w' hw => ?_) hs
    obtain ⟨harmed, hw⟩ := Option.ite_none_right_eq_some.mp hw
    rw [← Option.some.inj hw]
    exact Job.expiry_quiet harmed
  | closeTimer i =>
    rw [step] at h
    refine QuicServerImpl.wellFormed_of_quiet h (fun w w' hw => ?_) hs
    obtain ⟨_, hw⟩ := Option.ite_none_right_eq_some.mp hw
    rw [← Option.some.inj hw]
    exact Job.closeTimer_quiet w
  | closeConnection i f =>
    rw [step] at h
    refine QuicServerImpl.wellFormed_of_quiet h (fun w w' hw => ?_) hs
    rw [← Option.some.inj hw]
    exact Job.closeConnection_quiet w f
  | destroy =>
    obtain rfl := Option.some.inj h
    exact ⟨hs, (and_iff_left trivial).symm⟩
  | doDestroy i =>
    rw [step] at h
    refine QuicServerImpl.wellFormed_of_quiet h (fun w w' hw => ?_) hs
    obtain ⟨hreg, hw⟩ := Option.ite_none_right_eq_some.mp hw
    rw [← Option.some.inj hw]
    exact Job.doDestroy_quiet (Bool.and_eq_true_iff.mp hreg).2

/-- Every call of `on_read()` has been for a session with a connection and TLS that is not closed,
and the first batch has initialized it, with the Initial that it was made for, and no other one
has. -/
def QuicServerSession.WellFed (session : QuicServerSession) : Prop :=
  (∀ u, .onRead u ∈ session.log → u = true) ∧ (session.log = [] ∨ session.Initiated)

/-- **Main theorem**: in a run, every session is well fed exactly when no batch is processed for a
session whose `init()` has failed before it came to `on_read()`. -/
theorem fed_iff {t : QuicServerImpl} {as : List Action} (h : run step {} as = some t) :
    (∀ session ∈ t.made, session.WellFed) ↔ Meets step Feeds {} as := by
  have h₀ : QuicServerImpl.WellFormed {} := fun _ _ hx => by cases hx
  have hfed₀ : QuicServerImpl.Fed {} := fun _ _ hx => by cases hx
  have hiff := run_iff_meets (I := QuicServerImpl.WellFormed) (P := QuicServerImpl.Fed)
    (Q := Feeds) (fun _ _ _ hs ht => (step_fed hs ht).1) (fun _ _ _ hs ht => (step_fed hs ht).2)
    h₀ h
  have ht : t.WellFormed := run_inv (fun _ _ _ hs ht => (step_fed hs ht).1) h₀ h
  rw [and_iff_right hfed₀] at hiff
  rw [← hiff]
  constructor
  · intro hall j session hj hmisfed
    cases (hall session (List.mem_of_getElem? hj)).1 false hmisfed
  · intro hfed session hsession
    obtain ⟨j, hj⟩ := List.mem_iff_getElem?.mp hsession
    refine ⟨fun u hu => ?_, ?_⟩
    · cases u with
      | true => rfl
      | false => exact absurd hu (hfed j session hj)
    · exact (ht j session hj).phase.imp (fun hf => hf.log) fun hst => hst.initiated

/-- Two passes have datagrams for a new session, whose `init()` succeeds. -/
theorem fed_iff_two_passes :
    ∃ t, run step {} [.datagram ⟨some [1], true, [0]⟩, .emplace, .post,
        .datagram ⟨some [1], false, [0]⟩, .post, .processQuicBatch 0 { reads := [] },
        .processQuicBatch 0 { reads := [{}] }] = some t ∧ ∀ session ∈ t.made, session.WellFed := by
  obtain ⟨t, hrun⟩ : ∃ t, run step {} [.datagram ⟨some [1], true, [0]⟩, .emplace, .post,
      .datagram ⟨some [1], false, [0]⟩, .post, .processQuicBatch 0 { reads := [] },
      .processQuicBatch 0 { reads := [{}] }] = some t := ⟨_, rfl⟩
  exact ⟨t, hrun, (fed_iff hrun).mpr (by decide)⟩

/-- Two passes have datagrams for a new session, whose `init()` fails with the batch of the first
one: the second batch is given to it nevertheless. -/
theorem fed_after_init_fails :
    ¬ ∀ (as : List Action) (t : QuicServerImpl), run step {} as = some t →
      ∀ session ∈ t.made, session.WellFed := by
  intro hall
  have hfed := hall [.datagram ⟨some [1], true, [0]⟩, .emplace, .post,
    .datagram ⟨some [1], false, [0]⟩, .post,
    .processQuicBatch 0 { init := .randBytesFails, reads := [] },
    .processQuicBatch 0 { reads := [{}] }] _ rfl _ List.mem_cons_self
  exact absurd (hfed.1 false) (by decide)

end AnyHttp.Quic.Demux
