import AnyHttp.Quic.Equiv.Demux

/-!
# The table of QUIC connections

A session that is over must not stay in the table: nothing else lets go of it.  `handle_error()`
arms the close timer for this, or erases the session right away -- except where
`write_connection_close()` has no packet, which it leaves to its caller.  `process_quic_batch()`
erases the session then, and no other caller does.

`accounted_of_meets` is about whole runs: what is closed and in the table has its close timer armed,
if the callers other than `process_quic_batch()` always get a packet.
-/

namespace AnyHttp.Quic.Demux

open Lib

/-! ### One session -/

/-- The session is not in the table. -/
def Gone (i : Nat) (table : Table) : Prop := ∀ e ∈ table, e.2 ≠ i

/-- If it is closed, the session is not in the table, or waits for its close timer. -/
def Accounted (i : Nat) (table : Table) (session : QuicServerSession) : Prop :=
  session.closed = true → session.timer = .close ∨ Gone i table

/-- What `write_connection_close()` has to do for a failure that is not silent: it has a packet. -/
def Failure.Reported (f : Failure) : Prop := f.silent = true ∨ f.packet ≠ []

/-- Or it leaves the connection in neither the closing nor the draining period. -/
def Failure.Forgettable (f : Failure) : Prop := f.Reported ∨ f.period = .active

/-- `handle_error()` does not get as far as `write_connection_close()`, or has a packet. -/
def QuicServerSession.Reports (session : QuicServerSession) (f : Failure) : Prop :=
  session.closed = true ∨ session.conn ≠ some .active ∨ f.Reported

namespace Job

variable {i : Nat} {w w' : Job}

theorem gone_eraseQuicSession (w : Job) : Gone i (w.eraseQuicSession i).sessions := by
  intro e he
  have hfilter : e ∈ w.sessions.filter (·.2 ≠ i) := he
  exact of_decide_eq_true (List.mem_filter.mp hfilter).2

theorem Frame.gone {reads : List Bool} {j : Nat} (h : Frame i reads w w') (hj : j ≠ i)
    (hw : Gone j w.sessions) : Gone j w'.sessions := by
  intro e he
  rcases h.sessions e he with hi | he
  · rw [hi]
    exact Ne.symm hj
  · exact hw e he

/-- The one case in which `handle_error()` neither arms the close timer nor erases the session. -/
theorem handleError_cases {f : Failure} (hclosed : w.session.closed = false) :
    Gone i (w.handleError i f).sessions ∨ (w.handleError i f).session.timer = .close ∨
      w.session.conn = some .active ∧ ¬ f.Reported ∧
        (w.handleError i f).session.conn = some f.period := by
  rw [handleError, if_neg (by rw [hclosed]; exact Bool.false_ne_true)]
  split_ifs with hsilent hconn hempty
  · exact .inl (gone_eraseQuicSession _)
  · refine .inr (.inr ⟨hconn, ?_, rfl⟩)
    rintro (h | h)
    · exact hsilent h
    · exact h (List.isEmpty_iff.mp hempty)
  · exact .inr (.inl rfl)
  · exact .inr (.inl rfl)

theorem handleError_accounted {f : Failure} (hw : Accounted i w.sessions w.session)
    (hf : w.session.Reports f) :
    Accounted i (w.handleError i f).sessions (w.handleError i f).session := by
  cases hclosed : w.session.closed with
  | true =>
    rw [handleError, if_pos hclosed]
    exact hw
  | false =>
    intro _
    rcases handleError_cases (i := i) (f := f) hclosed with h | h | ⟨hconn, hnot, _⟩
    · exact .inr h
    · exact .inl h
    · rcases hf with h | h | h
      · rw [hclosed] at h
        contradiction
      · exact absurd hconn h
      · exact absurd h hnot

/-- What `process_quic_batch()` does after an error. -/
theorem handleError_forget_accounted {f : Failure} (hclosed : w.session.closed = false)
    (hf : w.session.conn = some .active → f.Forgettable) :
    Accounted i ((w.handleError i f).forget i).sessions ((w.handleError i f).forget i).session := by
  rw [forget]
  split_ifs with hforget
  · exact fun _ => .inr (gone_eraseQuicSession _)
  · intro hclosed'
    rcases handleError_cases (i := i) (f := f) hclosed with h | h | ⟨hconn, hnot, hperiod⟩
    · exact .inr h
    · exact .inl h
    · refine absurd ?_ hforget
      rw [hclosed', QuicServerSession.ending, hperiod, (hf hconn).resolve_left hnot]
      rfl

theorem forget_session (w : Job) : (w.forget i).session = w.session := by
  rw [forget]
  split_ifs
  · rfl
  · rfl

theorem accounted_of_open (h : w.session.closed = false) : Accounted i w.sessions w.session := by
  intro hclosed
  rw [h] at hclosed
  contradiction

/-- A write pass leaves the session open, unless it fails. -/
theorem flushWrite_cases (r : WriteResult) (hclosed : w.session.closed = false) :
    (w.flushWrite i r).1.session.closed = false ∨
      ∃ (w₁ : Job) (f : Failure), r.written = .error f ∧ w₁.session = w.session ∧
        w.flushWrite i r = (w₁.handleError i f, false) := by
  rw [flushWrite, hclosed, Bool.false_or]
  split_ifs with hconn
  · exact .inl hclosed
  · have htimer : ∀ w' : Job, w'.session.closed = false →
        (w'.updateTimer r.pending).session.closed = false := by
      intro w' hw'
      rw [updateTimer]
      split_ifs
      · exact hw'
      · exact hw'
      · exact hw'
    have hcids := foldl_onCid_session (i := i) r.cids w
    have hopen : (r.cids.foldl (onCid i) w).session.closed = false := by
      rw [hcids]
      exact hclosed
    rw [writeStreams, if_neg hconn]
    split_ifs
    · exact .inl (htimer w hclosed)
    · cases hwritten : r.written with
      | sent => exact .inl (htimer _ hopen)
      | notSent => exact .inl hopen
      | error f => exact .inr ⟨_, f, rfl, hcids, rfl⟩

theorem flushWrite_accounted {r : WriteResult} (hw : Accounted i w.sessions w.session)
    (hr : ∀ f, r.written = .error f → w.session.Reports f) :
    Accounted i (w.flushWrite i r).1.sessions (w.flushWrite i r).1.session := by
  cases hclosed : w.session.closed with
  | true =>
    rw [flushWrite, hclosed]
    exact hw
  | false =>
    rcases flushWrite_cases (i := i) r hclosed with hopen | ⟨w₁, f, hf, hsession, heq⟩
    · exact accounted_of_open hopen
    · rw [heq]
      apply handleError_accounted
      · apply accounted_of_open
        rw [hsession]
        exact hclosed
      · rw [hsession]
        exact hr f hf

theorem writePass_accounted {x : Job × Bool} {write : WriteResult}
    (hx : Accounted i x.1.sessions x.1.session)
    (hwrite : ∀ f, write.written = .error f → f.Forgettable) :
    Accounted i (writePass i write x).sessions (writePass i write x).session := by
  obtain ⟨w, readOk⟩ := x
  cases readOk with
  | false => exact hx
  | true =>
    rw [writePass]
    cases hclosed : w.session.closed with
    | true =>
      rw [flushWrite, hclosed]
      exact hx
    | false =>
      rcases flushWrite_cases (i := i) write hclosed with hopen | ⟨w₁, f, hf, hsession, heq⟩
      · generalize w.flushWrite i write = y at hopen ⊢
        obtain ⟨w', ok⟩ := y
        cases ok with
        | true => exact accounted_of_open hopen
        | false => exact accounted_of_open ((forget_session w').symm ▸ hopen)
      · rw [heq]
        have hw₁ : w₁.session.closed = false := by
          rw [hsession]
          exact hclosed
        exact handleError_forget_accounted hw₁ fun _ => hwrite f hf

/-- Reading a packet leaves the session open, unless it fails. -/
theorem onRead_cases (r : ReadResult) (hclosed : w.session.closed = false) :
    (w.onRead i r).1.session.closed = false ∨
      ∃ (w₁ : Job) (f : Failure), r.error = some f ∧ w₁.session.closed = false ∧
        (w₁.session.conn = some .active → r.period = .active) ∧
        w.onRead i r = (w₁.handleError i f, false) := by
  rw [onRead]
  generalize hw₁ : r.cids.foldl (onCid i) (w.note (.onRead w.session.usable)) = w₁
  have hopen : w₁.session.closed = false := by
    rw [← hw₁, foldl_onCid_session]
    exact hclosed
  cases hr : r.error with
  | none => exact .inl hopen
  | some f =>
    refine .inr ⟨w₁.setConn (w₁.session.conn.map fun _ => r.period), f, rfl, hopen, fun hconn => ?_,
      rfl⟩
    obtain ⟨_, _, hperiod⟩ := Option.map_eq_some_iff.mp hconn
    exact hperiod

theorem feed_accounted {x : Job × Bool} {d : Datagram × ReadResult}
    (hx : Accounted i x.1.sessions x.1.session)
    (hd : ∀ f, d.2.error = some f → d.2.period = .active → f.Forgettable) :
    Accounted i (feed i x d).1.sessions (feed i x d).1.session := by
  rw [feed]
  split_ifs with hending hclosed
  · exact hx
  · exact hx
  · rw [Bool.not_eq_true] at hclosed
    rcases onRead_cases (i := i) d.2 hclosed with hopen | ⟨w₁, f, hf, hw₁, hperiod, heq⟩
    · generalize x.1.onRead i d.2 = y at hopen ⊢
      obtain ⟨w', ok⟩ := y
      cases ok with
      | true => exact accounted_of_open hopen
      | false => exact accounted_of_open ((forget_session w').symm ▸ hopen)
    · rw [heq]
      exact handleError_forget_accounted hw₁ fun hconn => hd f hf (hperiod hconn)

theorem feedAll_accounted {readOk : Bool} {ds : List (Datagram × ReadResult)} {write : WriteResult}
    (hw : Accounted i w.sessions w.session)
    (hds : ∀ d ∈ ds, ∀ f, d.2.error = some f → d.2.period = .active → f.Forgettable)
    (hwrite : ∀ f, write.written = .error f → f.Forgettable) :
    Accounted i (w.feedAll i readOk ds write).sessions (w.feedAll i readOk ds write).session := by
  refine writePass_accounted ?_ hwrite
  suffices ∀ x : Job × Bool, Accounted i x.1.sessions x.1.session →
      Accounted i (ds.foldl (feed i) x).1.sessions (ds.foldl (feed i) x).1.session from
    this (w, readOk) hw
  induction ds with
  | nil => exact fun _ hx => hx
  | cons d ds ih =>
    intro x hx
    apply ih (fun e he => hds e (List.mem_cons_of_mem _ he))
    exact feed_accounted hx (hds d List.mem_cons_self)

theorem foldl_associate_session (cids : List Key) (w : Job) :
    (cids.foldl (associateQuicCid i) w).session = w.session := by
  induction cids generalizing w with
  | nil => rfl
  | cons cid cids ih => exact ih (w.associateQuicCid i cid)

/-- A batch leaves nothing behind if no failure in it does. -/
theorem processQuicBatch_accounted {batch : QuicBatch} {r : BatchResult}
    (hw : Accounted i w.sessions w.session)
    (hnew : batch.isNew = true → w.session.closed = false)
    (hreads : ∀ read ∈ r.reads, ∀ f, read.error = some f → read.period = .active → f.Forgettable)
    (hwrite : ∀ f, r.write.written = .error f → f.Forgettable) :
    Accounted i (w.processQuicBatch i false batch r).sessions
      (w.processQuicBatch i false batch r).session := by
  have hzip : ∀ ds : List Datagram, ∀ d ∈ ds.zip r.reads, ∀ f, d.2.error = some f →
      d.2.period = .active → f.Forgettable :=
    fun ds d hd => hreads d.2 (List.of_mem_zip hd).2
  rw [processQuicBatch]
  cases hisNew : batch.isNew with
  | false => exact feedAll_accounted hw (hzip _) hwrite
  | true =>
    cases batch.datagrams with
    | nil => exact feedAll_accounted hw (List.forall_mem_nil _) hwrite
    | cons first rest =>
      dsimp only
      generalize hx : (w.note .processQuicBatch).init i first r.init = x
      obtain ⟨w', ok⟩ := x
      cases ok with
      | false => exact fun _ => .inr (gone_eraseQuicSession w')
      | true =>
        have hopen : w'.session.closed = false := (init_ok hx).1.trans (hnew hisNew)
        refine feedAll_accounted (accounted_of_open ?_) (hzip rest) hwrite
        show (if r.scids.length ≤ 8 then r.scids.foldl (associateQuicCid i) w'
          else w').session.closed = false
        split_ifs
        · rw [foldl_associate_session]
          exact hopen
        · exact hopen

/-- The first batch finds its session open, and no batch touches the entries of other sessions. -/
theorem next_sessions (destroyed : Bool) {batch : QuicBatch} {queue : List QuicBatch}
    {r : BatchResult} (hw : w.session.WellFormed) (hqueue : w.session.queue = batch :: queue)
    (hlen : r.reads.length = batch.toRead) :
    (batch.isNew = true → w.session.closed = false) ∧
      ∀ e ∈ ({ w with session := { w.session with queue := queue } }.processQuicBatch i destroyed
        batch r).sessions, e.2 = i ∨ e ∈ w.sessions := by
  rcases hw.phase with hfresh | hstarted
  · obtain ⟨w₁, _, _, hframe, hsessions, _⟩ :=
      next_of_fresh (i := i) (r := r) destroyed hw hfresh hqueue
    exact ⟨fun _ => hfresh.closed, hsessions ▸ hframe.sessions⟩
  · obtain ⟨w₁, _, hnew, hframe, hsessions, _⟩ :=
      next_of_started (i := i) destroyed hw hstarted hqueue hlen
    refine ⟨fun hnew' => ?_, hsessions ▸ hframe.sessions⟩
    rw [hnew] at hnew'
    contradiction

theorem wakeWrite_accounted {r : WriteResult} (hw : Accounted i w.sessions w.session)
    (hr : ∀ f, r.written = .error f → w.session.Reports f) :
    Accounted i (w.wakeWrite i r).sessions (w.wakeWrite i r).session := by
  rw [wakeWrite]
  split_ifs
  · exact hw
  · exact flushWrite_accounted hw hr

theorem handleExpiry_accounted {r : ExpiryResult} (hw : Accounted i w.sessions w.session)
    (hr : ∀ f, r.error = some f ∨ r.error = none ∧ r.write.written = .error f →
      w.session.Reports f) :
    Accounted i (w.handleExpiry i r).sessions (w.handleExpiry i r).session := by
  rw [handleExpiry]
  cases herror : r.error with
  | some f => exact handleError_accounted hw (hr f (.inl herror))
  | none => exact flushWrite_accounted hw fun f hf => hr f (.inr ⟨herror, hf⟩)

theorem closeConnection_accounted {f : Failure} (hw : Accounted i w.sessions w.session)
    (hf : w.session.Reports { f with silent := false }) :
    Accounted i (w.closeConnection i f).sessions (w.closeConnection i f).session := by
  rw [closeConnection]
  split_ifs
  · exact hw
  · exact handleError_accounted hw hf

end Job

/-! ### Every step -/

/-- What `handle_error()` is called with by a write pass. -/
def WriteResult.error? (r : WriteResult) : Option Failure :=
  match r.written with
  | .error f => some f
  | _ => none

theorem WriteResult.mem_error? {r : WriteResult} {f : Failure} (h : r.written = .error f) :
    f ∈ r.error? := by
  rw [error?, h]
  exact rfl

/-- Whatever goes wrong, `write_connection_close()` has a packet if it is asked for one; in
`process_quic_batch()`, it may leave the connection as it is instead. -/
def Settles (s : QuicServerImpl) : Action → Prop
  | .processQuicBatch _ r =>
    (∀ read ∈ r.reads, ∀ f ∈ read.error, read.period = .active → f.Forgettable) ∧
      ∀ f ∈ r.write.error?, f.Forgettable
  | .wakeWrite i r => ∀ session ∈ s.made[i]?, ∀ f ∈ r.error?, session.Reports f
  | .expiry i r => ∀ session ∈ s.made[i]?, ∀ f ∈ r.error <|> r.write.error?, session.Reports f
  | .closeConnection i f => ∀ session ∈ s.made[i]?, session.Reports { f with silent := false }
  | _ => True

instance (f : Failure) : Decidable f.Reported :=
  inferInstanceAs (Decidable (f.silent = true ∨ f.packet ≠ []))

instance (f : Failure) : Decidable f.Forgettable :=
  inferInstanceAs (Decidable (f.Reported ∨ f.period = .active))

instance (session : QuicServerSession) (f : Failure) : Decidable (session.Reports f) :=
  inferInstanceAs (Decidable (session.closed = true ∨ session.conn ≠ some .active ∨ f.Reported))

instance : ∀ s a, Decidable (Settles s a)
  | _, .processQuicBatch _ r =>
    inferInstanceAs (Decidable ((∀ read ∈ r.reads, ∀ f ∈ read.error, read.period = .active →
      f.Forgettable) ∧ ∀ f ∈ r.write.error?, f.Forgettable))
  | s, .wakeWrite i r =>
    inferInstanceAs (Decidable (∀ session ∈ s.made[i]?, ∀ f ∈ r.error?, session.Reports f))
  | s, .expiry i r =>
    inferInstanceAs (Decidable (∀ session ∈ s.made[i]?, ∀ f ∈ r.error <|> r.write.error?,
      session.Reports f))
  | s, .closeConnection i f =>
    inferInstanceAs (Decidable (∀ session ∈ s.made[i]?, session.Reports { f with silent := false }))
  | _, .datagram _ => inferInstanceAs (Decidable True)
  | _, .emplace => inferInstanceAs (Decidable True)
  | _, .post => inferInstanceAs (Decidable True)
  | _, .closeTimer _ => inferInstanceAs (Decidable True)
  | _, .destroy => inferInstanceAs (Decidable True)
  | _, .doDestroy _ => inferInstanceAs (Decidable True)

namespace QuicServerImpl

variable {s t : QuicServerImpl} {i : Nat}

/-- While the server is not being destroyed, a session that is closed and in the table has its close
timer armed. -/
def AllAccounted (s : QuicServerImpl) : Prop :=
  s.destroyed = false →
    ∀ (j : Nat) (session : QuicServerSession), s.made[j]? = some session →
      Accounted j s.sessions session

/-- A job that keeps its own session accounted for keeps the others accounted for as well. -/
theorem accounted_job {f : Job → Option Job} (h : s.job i f = some t) (hs : s.AllAccounted)
    (hf : s.destroyed = false → ∀ session w', s.made[i]? = some session →
      f ⟨s.sessions, session⟩ = some w' → Accounted i s.sessions session →
      Accounted i w'.sessions w'.session ∧ ∀ e ∈ w'.sessions, e.2 = i ∨ e ∈ s.sessions) :
    t.AllAccounted := by
  obtain ⟨session, w', hi, hw', rfl⟩ := job_eq_some h
  intro hdestroyed j x hx
  obtain ⟨hacc, hsessions⟩ := hf hdestroyed session w' hi hw' (hs hdestroyed i session hi)
  rcases (getElem?_set_eq_some hi).mp hx with ⟨rfl, rfl⟩ | ⟨hj, hx⟩
  · exact hacc
  · intro hclosed
    refine (hs hdestroyed j x hx hclosed).imp_right fun hgone e he => ?_
    rcases hsessions e he with hei | he
    · rw [hei]
      exact Ne.symm hj
    · exact hgone e he

end QuicServerImpl

/-- **Step lemma**: every session stays accounted for. -/
theorem step_accounted {s t : QuicServerImpl} {a : Action} (hwf : s.WellFormed)
    (hs : s.AllAccounted) (ha : Settles s a) (h : step s a = some t) : t.AllAccounted := by
  cases a with
  | datagram d =>
    intro hdestroyed j x hx
    rcases datagram_cases h with ⟨hmade, hsessions, hd⟩ | ⟨i, session, hi, hmade, hsessions, hd⟩
    · rw [hmade] at hx
      rw [hsessions]
      exact hs (hd ▸ hdestroyed) j x hx
    · rw [hmade] at hx
      rw [hsessions]
      rcases (getElem?_set_eq_some hi).mp hx with ⟨rfl, rfl⟩ | ⟨_, hx⟩
      · exact hs (hd ▸ hdestroyed) j session hi
      · exact hs (hd ▸ hdestroyed) j x hx
  | emplace =>
    obtain ⟨⟨key, d⟩, _, rfl⟩ := Option.map_eq_some_iff.mp h
    intro hdestroyed j x hx hclosed
    change (s.made ++ [_])[j]? = some x at hx
    rw [List.getElem?_append] at hx
    split at hx
    next hj =>
      -- the entry that has been added is another session's
      refine (hs hdestroyed j x hx hclosed).imp_right fun hgone e he => ?_
      change e ∈ s.sessions.emplace key s.made.length at he
      rw [Table.emplace] at he
      split at he
      · exact hgone e he
      · rcases List.mem_cons.mp he with rfl | he
        · exact Ne.symm (Nat.ne_of_lt hj)
        · exact hgone e he
    next =>
      obtain rfl := List.mem_singleton.mp (List.mem_of_getElem? hx)
      cases hclosed
  | post =>
    obtain ⟨_, ht⟩ := Option.ite_none_left_eq_some.mp h
    obtain rfl := Option.some.inj ht
    intro hdestroyed j x hx
    obtain ⟨session, hj, rfl⟩ := Option.map_eq_some_iff.mp (List.getElem?_map ▸ hx)
    exact hs hdestroyed j session hj
  | processQuicBatch i r =>
    rw [step] at h
    refine QuicServerImpl.accounted_job h hs fun hdestroyed session w' hi hw' hacc => ?_
    obtain ⟨batch, queue, hqueue, hlen, rfl⟩ := Job.next_eq_some hw'
    obtain ⟨hnew, hsessions⟩ := Job.next_sessions (i := i) (w := ⟨s.sessions, session⟩)
      s.destroyed (hwf i session hi) hqueue hlen
    refine ⟨?_, hsessions⟩
    rw [hdestroyed]
    exact Job.processQuicBatch_accounted hacc hnew (fun read hread f hf => ha.1 read hread f hf)
      fun f hf => ha.2 f (WriteResult.mem_error? hf)
  | wakeWrite i r =>
    rw [step] at h
    refine QuicServerImpl.accounted_job h hs fun _ session w' hi hw' hacc => ?_
    obtain rfl := Option.some.inj hw'
    refine ⟨?_, (Job.wakeWrite_frame _ r).sessions⟩
    exact Job.wakeWrite_accounted hacc fun f hf => ha session hi f (WriteResult.mem_error? hf)
  | expiry i r =>
    rw [step] at h
    refine QuicServerImpl.accounted_job h hs fun _ session w' hi hw' hacc => ?_
    obtain ⟨harmed, hw'⟩ := Option.ite_none_right_eq_some.mp hw'
    obtain rfl := Option.some.inj hw'
    refine ⟨?_, (Job.expiry_quiet harmed).frame.sessions⟩
    have hreports : ∀ f, r.error = some f ∨ r.error = none ∧ r.write.written = .error f →
        session.Reports f := by
      intro f hf
      apply ha session hi f
      rcases hf with hf | ⟨hnone, hf⟩
      · rw [hf]
        exact rfl
      · rw [hnone]
        exact WriteResult.mem_error? hf
    split_ifs with htimer
    · -- the close timer is not the one that has expired
      refine Job.handleExpiry_accounted (fun hclosed => .inr ?_) hreports
      refine (hacc hclosed).resolve_left fun htimer' => ?_
      rw [show session.timer = .expiry from htimer] at htimer'
      cases htimer'
    · exact Job.handleExpiry_accounted hacc hreports
  | closeTimer i =>
    rw [step] at h
    refine QuicServerImpl.accounted_job h hs fun _ session w' hi hw' hacc => ?_
    obtain ⟨_, hw'⟩ := Option.ite_none_right_eq_some.mp hw'
    obtain rfl := Option.some.inj hw'
    exact ⟨fun _ => .inr (Job.gone_eraseQuicSession _), (Job.closeTimer_frame _).sessions⟩
  | closeConnection i f =>
    rw [step] at h
    refine QuicServerImpl.accounted_job h hs fun _ session w' hi hw' hacc => ?_
    obtain rfl := Option.some.inj hw'
    exact ⟨Job.closeConnection_accounted hacc (ha session hi),
      (Job.closeConnection_frame _ f).sessions⟩
  | destroy =>
    obtain rfl := Option.some.inj h
    exact fun hdestroyed => by cases hdestroyed
  | doDestroy i =>
    rw [step] at h
    refine QuicServerImpl.accounted_job h hs fun hdestroyed session w' hi hw' hacc => ?_
    rw [hdestroyed] at hw'
    cases hw'

/-- **Main theorem**: in a run in which `write_connection_close()` has a packet for every error that
it is asked to report outside of `process_quic_batch()`, and inside of it at least does not start
the closing period without one, every state has the close timer armed for whatever is closed and in
the table. -/
theorem accounted_of_meets {t : QuicServerImpl} {as : List Action} (h : run step {} as = some t)
    (hmeets : Meets step Settles {} as) :
    t.destroyed = false → ∀ (i : Nat) (session : QuicServerSession), t.made[i]? = some session →
      session.closed = true → session.timer = .close ∨ ∀ e ∈ t.sessions, e.2 ≠ i := by
  have hinv : t.WellFormed ∧ t.AllAccounted := by
    have h₀ : QuicServerImpl.WellFormed {} := fun _ _ hx => nomatch hx
    have hacc₀ : QuicServerImpl.AllAccounted {} := fun _ _ _ hx => nomatch hx
    refine run_inv_of_meets (P := fun s : QuicServerImpl => s.WellFormed ∧ s.AllAccounted)
      (fun s a u hs ha hu => ?_) ⟨h₀, hacc₀⟩ hmeets h
    exact ⟨(step_fed hs.1 hu).1, step_accounted hs.1 hs.2 ha hu⟩
  exact hinv.2

/-- A write pass fails, and the peer is told so. -/
theorem accounted_of_meets_reported :
    ∃ t, run step {} [.datagram ⟨some [1], true, [0]⟩, .emplace, .post,
        .processQuicBatch 0 { scids := [[2]], reads := [] },
        .wakeWrite 0 { written := .error { packet := [0] } }] = some t ∧
      ∀ session, t.made[0]? = some session → session.closed = true →
        session.timer = .close ∨ ∀ e ∈ t.sessions, e.2 ≠ 0 := by
  obtain ⟨t, hrun⟩ : ∃ t, run step {} [.datagram ⟨some [1], true, [0]⟩, .emplace, .post,
      .processQuicBatch 0 { scids := [[2]], reads := [] },
      .wakeWrite 0 { written := .error { packet := [0] } }] = some t := ⟨_, rfl⟩
  have hdestroyed : t.destroyed = false := by
    obtain rfl := Option.some.inj hrun
    rfl
  exact ⟨t, hrun, accounted_of_meets hrun (by decide) hdestroyed 0⟩

/-- A write pass from `wake_write()` fails, and there is no packet to tell the peer: the session
stays in the table, without a timer that would erase it. -/
theorem closed_session_stays :
    ¬ ∀ (as : List Action) (t : QuicServerImpl), run step {} as = some t → t.destroyed = false →
      ∀ (i : Nat) (session : QuicServerSession), t.made[i]? = some session →
        session.closed = true → session.timer = .close ∨ ∀ e ∈ t.sessions, e.2 ≠ i := by
  intro hall
  have hstays := hall [.datagram ⟨some [1], true, [0]⟩, .emplace, .post,
    .processQuicBatch 0 { scids := [[2]], reads := [] },
    .wakeWrite 0 { written := .error { packet := [] } }] _ rfl rfl 0 _ rfl rfl
  exact absurd hstays (by decide)

end AnyHttp.Quic.Demux
