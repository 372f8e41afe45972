import AnyHttp.Quic.Equiv.Scheduling

/-!
# A FIN waits for no credit

A stream that is `blocked` is not scheduled until it gets credit.  The end of the body needs none,
so there had better be bytes as well that are not sent (`Unparked`).  ngtcp2 only ever blocks a
stream that has some; but in zero-copy, cancellation can take them back, and leaves `blocked` set.

* `unparked_iff`: that is the only way to park a FIN.
-/

namespace AnyHttp.Quic.Packing

open Lib StreamApplication

variable {κ : Type} {api : Ngtcp2 κ}

/-! ### Streams that wait for credit -/

/-- If the stream is blocked, there are bytes that it waits to send. -/
def PlainStream.Waits (stream : PlainStream) : Prop :=
  stream.q.sendingOver = false → stream.blocked = true → stream.q.tx.txSent < stream.q.tx.txQueued

namespace StreamApplication

variable {app app' : StreamApplication} {id : Nat} {stream : PlainStream}

theorem waits_of_not_blocked (h : stream.blocked = false) : stream.Waits :=
  fun _ hblocked => by cases h.symm.trans hblocked

theorem waits_of_over (h : stream.q.sendingOver = true) : stream.Waits :=
  fun hover => by cases hover.symm.trans h

theorem le_txQueued_carve (t : Outgoing) (mode : WriteMode) :
    t.txQueued ≤ (t.carve mode).txQueued := by
  unfold Outgoing.carve
  split
  · exact Nat.le_add_right _ _
  · exact Nat.le_refl _

theorem waits_asked (h : stream.Waits) :
    PlainStream.Waits { stream with q := stream.q.nextStreamData.1 } := by
  rcases stream.q.nextStreamData_eq with ⟨heq, _⟩ | ⟨heq, _⟩
  · rw [heq]
    exact h
  · rw [heq]
    intro hover hblocked
    have hsent : (stream.q.tx.carve stream.q.writeMode).txSent = stream.q.tx.txSent :=
      (Outgoing.sameWrite_carve _ _).2.2
    show (stream.q.tx.carve _).txSent < (stream.q.tx.carve _).txQueued
    rw [hsent]
    exact Nat.lt_of_lt_of_le (h hover hblocked) (le_txQueued_carve _ _)

theorem All.nextStreamData {P : PlainStream → Prop} (h : app.All P)
    (hasked : ∀ stream, P stream → P { stream with q := stream.q.nextStreamData.1 })
    (hflag : ∀ stream b, P stream → P { stream with scheduled := b }) :
    app.nextStreamData.1.All P := by
  refine loop_induction nextPass_variant (P := fun app r => app.All P → r.1.All P) ?_ ?_ app h
  · intro app app' hpass ih h
    apply ih
    obtain ⟨id, rest, _, _, ⟨_, rfl⟩ | ⟨_, rfl⟩ | ⟨_, rfl⟩⟩ := nextPass_inl hpass
    · exact h
    · exact h.unscheduleFront hflag
    · apply All.unscheduleFront _ hflag
      exact All.modify h fun stream _ => hasked stream
  · intro app r hpass h
    obtain ⟨app', data⟩ := r
    rcases nextPass_inr hpass with ⟨_, _, rfl⟩ | ⟨id, _, _, _, _, _, _, rfl, _⟩
    · exact h
    · exact All.modify h fun stream _ => hasked stream

theorem All.eraseStream {P : PlainStream → Prop} (h : app.All P) (id : Nat) :
    (app.eraseStream id).All P := by
  intro j stream hj
  rw [findStream_eraseStream] at hj
  split at hj
  · exact nomatch hj
  · exact h j stream hj

/-- What ngtcp2 blocks has something to send. -/
theorem waits_of_unsent {vecs : List IoVec} {fin : Bool}
    (hordered : stream.q.tx.Ordered stream.q.writeMode)
    (hdata : stream.q.nextStreamData = (stream.q, vecs, fin)) (hvecs : vecs ≠ []) :
    stream.q.tx.txSent < stream.q.tx.txQueued := by
  cases hover : stream.q.sendingOver with
  | true =>
    unfold QuicStream.nextStreamData QuicStream.pendingData at hdata
    rw [if_pos (.inr hover)] at hdata
    exact absurd (Prod.mk.inj (Prod.mk.inj hdata).2).1.symm hvecs
  | false =>
    rw [QuicStream.nextStreamData_open hover] at hdata
    obtain ⟨hq, hrest⟩ := Prod.mk.inj hdata
    have hcarve : stream.q.tx.carve stream.q.writeMode = stream.q.tx :=
      congrArg QuicStream.tx hq
    have hunsent : (stream.q.tx.unsent stream.q.writeMode).1 ≠ [] := by
      rw [(Prod.mk.inj hrest).1]
      exact hvecs
    have hlt := Outgoing.lt_txQueued_of_unsent hordered hunsent
    rwa [hcarve] at hlt

end StreamApplication

/-! ### A pass of `write_pkt()` -/

namespace QuicSession

variable {p : QuicSession κ} {data : Option StreamData}

theorem waits_onStreamDataWritten {app : StreamApplication} {id : Nat} {stream : PlainStream}
    (h : app.All PlainStream.Waits) (hstream : app.findStream id = some stream)
    (hblocked : stream.blocked = false) (n : Nat) (fin : Bool) :
    (app.onStreamDataWritten id n fin).All PlainStream.Waits := by
  obtain ⟨wake, heq⟩ := onStreamDataWritten_eq hstream n fin
  rw [heq]
  refine All.schedule (All.modify (h.unscheduleFront fun _ _ h => h) ?_) (fun _ _ h => h) wake
  intro stream' hstream' _
  rw [findStream_unscheduleFront hstream, Option.some.injEq] at hstream'
  exact hstream' ▸ waits_of_not_blocked hblocked

theorem waits_onStreamShutWr {app : StreamApplication} (h : app.All PlainStream.Waits) (id : Nat) :
    (app.onStreamShutWr id).All PlainStream.Waits := by
  unfold onStreamShutWr
  split
  · exact h
  · refine All.modify (h.unscheduleFront fun _ _ h => h) fun stream _ _ => waits_of_over ?_
    rw [QuicStream.sendingOver, abortWriting_writeAborted, Bool.or_true]

theorem waits_onStreamBlocked {app : StreamApplication} {id : Nat}
    (h : app.All PlainStream.Waits)
    (hwaits : ∀ stream, app.findStream id = some stream → stream.q.sendingOver = false →
      stream.q.tx.txSent < stream.q.tx.txQueued) :
    (app.onStreamBlocked id).All PlainStream.Waits := by
  unfold onStreamBlocked
  split
  · exact h
  · refine All.unscheduleFront (All.modify h ?_) fun _ _ h => h
    exact fun stream hstream _ hover _ => hwaits stream hstream hover

/-- What is known of the stream that is offered. -/
def Offers (p : QuicSession κ) (data : Option StreamData) : Prop :=
  ∀ d, data = some d → ∃ stream, p.app.findStream d.id = some stream ∧ stream.blocked = false ∧
    (d.vecs ≠ [] → stream.q.tx.txSent < stream.q.tx.txQueued)

theorem waits_written (h : p.app.All PlainStream.Waits) (hoffers : p.Offers data)
    (ndatalen : Option Nat) : (p.written data ndatalen).app.All PlainStream.Waits := by
  cases ndatalen with
  | none => exact h
  | some n =>
    cases data with
    | none => exact h
    | some data =>
      obtain ⟨stream, hstream, hblocked, _⟩ := hoffers data rfl
      exact waits_onStreamDataWritten h hstream hblocked n _

theorem waits_handle (h : p.app.All PlainStream.Waits) (hoffers : p.Offers data) {result : Writev}
    (hcredit : ∀ d, data = some d → result = .streamDataBlocked → d.vecs ≠ []) :
    (after (p.handle data result)).app.All PlainStream.Waits := by
  -- only a result about flow control leaves a stream waiting
  cases result with
  | packet nwrite ndatalen => exact waits_written h hoffers ndatalen
  | error code => exact h
  | writeMore ndatalen => exact waits_written h hoffers ndatalen
  | streamDataBlocked =>
    cases data with
    | none => exact h
    | some data =>
      obtain ⟨stream, hstream, _, hwaits⟩ := hoffers data rfl
      refine waits_onStreamBlocked h fun stream' hstream' _ => ?_
      rw [hstream, Option.some.injEq] at hstream'
      exact hstream' ▸ hwaits (hcredit data rfl rfl)
  | streamShutWr =>
    cases data with
    | none => exact h
    | some data => exact waits_onStreamShutWr h data.id
  | streamNotFound =>
    cases data with
    | none => exact h
    | some data =>
      unfold handle
      dsimp only
      split
      · exact h
      · -- it has just been told that it can not send any more
        obtain ⟨stream, hstream, _, _⟩ := hoffers data rfl
        refine waits_onStreamBlocked (waits_onStreamShutWr h data.id)
          fun stream' hstream' hover => ?_
        rw [onStreamShutWr, hstream] at hstream'
        rw [findStream_modify_self (findStream_unscheduleFront hstream),
          Option.some.injEq] at hstream'
        subst hstream'
        rw [QuicStream.sendingOver, abortWriting_writeAborted, Bool.or_true] at hover
        cases hover

theorem waits_pass (hcredit : api.Crediting) (hordered : p.app.Ordered)
    (h : p.app.All PlainStream.Waits) : (after (p.pass api)).app.All PlainStream.Waits := by
  unfold pass
  split
  · exact h
  · rename_i conn _
    split
    · exact h
    · have hoffer : (p.offer api conn).1.All PlainStream.Waits ∧
          ∀ d, (p.offer api conn).2 = some d → ∃ stream,
            (p.offer api conn).1.findStream d.id = some stream ∧ stream.blocked = false ∧
              (d.vecs ≠ [] → stream.q.tx.txSent < stream.q.tx.txQueued) := by
        unfold offer
        split
        · obtain ⟨hkeeps, _, hfound⟩ := nextStreamData_spec hordered
          refine ⟨h.nextStreamData (fun _ => waits_asked) fun _ _ h => h, fun data hdata => ?_⟩
          obtain ⟨stream, hstream, hblocked, _, hq⟩ := (hfound data hdata).stream
          exact ⟨stream, hstream, hblocked,
            waits_of_unsent (hkeeps.ordered hordered _ stream hstream) hq⟩
        · exact ⟨h, fun _ h => nomatch h⟩
      dsimp only
      generalize p.offer api conn = offer at hoffer
      refine waits_handle
        (p := { p with app := offer.1, conn := some (api.writev conn offer.2).1 })
        hoffer.1 hoffer.2 fun data hdata hresult => ?_
      rw [hdata] at hresult
      exact hcredit conn data _ (Prod.ext rfl hresult)

end QuicSession

/-! ### What else happens to a stream -/

/-- A write is cancelled in zero-copy, and all that has been handed over is acknowledged, while the
rest waits for credit. -/
def PlainStream.Strands (stream : PlainStream) (o : Operation) : Prop :=
  match o with
  | .cancelWrite token =>
    stream.blocked = true ∧ stream.q.sendingOver = false ∧ stream.q.writeMode = .zeroCopy ∧
      stream.q.Cancels token ∧ stream.q.tx.txOffered ≤ stream.q.tx.txAcked
  | _ => False

instance (stream : PlainStream) (o : Operation) : Decidable (stream.Strands o) := by
  unfold PlainStream.Strands
  split <;> infer_instance

theorem waits_apply {stream : PlainStream} {o : Operation} (h : stream.Waits)
    (hnot : ¬stream.Strands o) :
    PlainStream.Waits { stream with q := o.apply stream.q } := by
  intro hover hblocked
  change (o.apply stream.q).sendingOver = false at hover
  show (o.apply stream.q).tx.txSent < (o.apply stream.q).tx.txQueued
  -- nothing more to send, a write that begins, or one that is cancelled
  rcases Operation.apply_cases stream.q o with hsub |
    ⟨handler, buffer, eof, _, htx, _, hopen, _⟩ | ⟨token, rfl, hcancels⟩
  · have hover' : stream.q.sendingOver = false := by
      apply eq_false_of_ne_true
      exact fun hover' => nomatch (hsub.sendingOver hover').symm.trans hover
    rw [hsub.tx.sent, hsub.tx.queued]
    exact h hover' hblocked
  · have hlt := h hopen hblocked
    rw [htx]
    cases hmode : stream.q.writeMode with
    | zeroCopy => exact Nat.lt_of_lt_of_le hlt (Nat.le_add_right _ _)
    | staged => exact hlt
  · obtain ⟨htx, _, hletGo⟩ := QuicStream.cancelWrite_of_cancels hcancels
    change (stream.q.cancelWrite token).sendingOver = false at hover
    obtain ⟨hopen, hacked⟩ := QuicStream.letGo_sendingOver (hletGo ▸ hover)
    show (stream.q.cancelWrite token).tx.txSent < (stream.q.cancelWrite token).tx.txQueued
    rw [htx]
    cases hmode : stream.q.writeMode with
    | zeroCopy => exact absurd ⟨hblocked, hopen, hmode, hcancels, hacked hmode⟩ hnot
    | staged => exact h hopen hblocked

/-- What is left is nothing, for which the stream goes on waiting. -/
theorem not_waits_of_strands {app : StreamApplication} {id : Nat} {stream : PlainStream}
    {o : Operation} (hordered : app.Ordered) (hstream : app.findStream id = some stream)
    (hstrands : stream.Strands o) : ¬(app.operate id o).All PlainStream.Waits := by
  cases o with
  | cancelWrite token =>
    obtain ⟨hblocked, hover, hmode, hcancels, hacked⟩ := hstrands
    have hletGo : stream.q.letGo = stream.q :=
      if_neg fun h => absurd h.2.1 (Nat.not_lt.mpr hacked)
    obtain ⟨htx, _, hover'⟩ := QuicStream.cancelWrite_of_cancels hcancels
    rw [hletGo] at hover'
    have hcalls : ∀ c ∈ (stream.q.cancelWrite token).calls.drop stream.q.calls.length,
        ∃ h ec, c = .completeWrite h ec := by
      intro c hc
      unfold QuicStream.cancelWrite at hc
      rw [if_neg (by simpa using ⟨hcancels.1, hcancels.2.1⟩), if_neg hcancels.2.2, hletGo] at hc
      cases hhandler : stream.q.tx.writeHandler with
      | none => exact absurd hhandler hcancels.2.1
      | some h =>
        rw [hhandler] at hc
        simp only [QuicStream.completeWrite, QuicStream.call, List.drop_left',
          List.mem_singleton] at hc
        exact ⟨h, .canceled, hc⟩
    have hsame : app.operate id (.cancelWrite token) =
        app.modify id fun stream => { stream with q := stream.q.cancelWrite token } := by
      unfold operate
      rw [hstream]
      dsimp only [Operation.apply]
      rw [if_neg fun hmem => ?_, if_neg fun hmem => ?_]
      · obtain ⟨_, _, hcall⟩ := hcalls _ hmem
        cases hcall
      · obtain ⟨_, _, hcall⟩ := hcalls _ hmem
        cases hcall
    rw [hsame]
    intro hall
    have hlt := hall id _ (findStream_modify_self hstream) (hover'.trans hover) hblocked
    dsimp only at hlt
    rw [htx, hmode] at hlt
    have hsent := (hordered id stream hstream).sent
    change stream.q.tx.txSent < stream.q.tx.txOffered at hlt
    omega
  | _ => exact absurd hstrands not_false

theorem waits_operate {app : StreamApplication} {id : Nat} {o : Operation}
    (h : app.All PlainStream.Waits)
    (hnot : ∀ stream, app.findStream id = some stream → ¬stream.Strands o) :
    (app.operate id o).All PlainStream.Waits := by
  cases hstream : app.findStream id with
  | none =>
    have hsame : app.operate id o = app := by rw [operate, hstream]
    exact hsame.symm ▸ h
  | some stream =>
    have happlied : (app.modify id fun stream => { stream with q := o.apply stream.q }).All
        PlainStream.Waits :=
      All.modify h fun stream hstream hwaits => waits_apply hwaits (hnot stream hstream)
    have hreported : (if .onWritable ∈ (o.apply stream.q).calls.drop stream.q.calls.length
        then (app.modify id fun stream => { stream with q := o.apply stream.q }).schedule id true
        else app.modify id fun stream => { stream with q := o.apply stream.q }).All
          PlainStream.Waits := by
      split
      · exact happlied.schedule (fun _ _ h => h) true
      · exact happlied
    -- with a report or without one, the streams are the same but for the queue
    rcases operate_cases hstream o with heq | heq
    · exact heq.symm ▸ hreported
    · exact heq.symm ▸ hreported.eraseStream id

/-! ### Runs -/

namespace Scheduler

variable {config : Config} {mode : WriteMode} {s t : Scheduler κ} {conn : Option κ}
  {es : List (Event κ)} {e : Event κ}

/-- The end of the body is all that the stream has left to send. -/
def OnlyFin (q : QuicStream) : Prop :=
  q.nextStreamData.2 = ([], true) ∧ q.tx.finOffered = false

instance (q : QuicStream) : Decidable (OnlyFin q) := inferInstanceAs (Decidable (_ ∧ _))

/-- A stream that is still sending is blocked only if there are bytes that it waits to send; and so
it is queued, as long as there is a queue, if the end of the body is all that it has left. -/
def Unparked (s : Scheduler κ) : Prop :=
  ∀ id stream, s.app.findStream id = some stream → stream.q.sendingOver = false →
    (stream.blocked = true → stream.q.tx.txSent < stream.q.tx.txQueued) ∧
      (s.app.closed = false → OnlyFin stream.q → id ∈ s.app.writeQueue)

/-- The event is one that leaves a stream blocked with nothing to wait for. -/
def Strands (s : Scheduler κ) : Event κ → Prop
  | .stream id o => ∃ stream ∈ s.app.findStream id, stream.Strands o
  | _ => False

instance (s : Scheduler κ) (e : Event κ) : Decidable (s.Strands e) := by
  unfold Strands
  split <;> infer_instance

/-- The end of the body is not past what is queued, so that there is nothing to wait for. -/
theorem OnlyFin.le {q : QuicStream} (hover : q.sendingOver = false) (h : OnlyFin q) :
    q.tx.txQueued ≤ q.tx.txSent := by
  have hdata := h.1
  rw [QuicStream.nextStreamData_open hover] at hdata
  obtain ⟨hvecs, hfin⟩ := Prod.mk.inj hdata
  rw [Outgoing.unsent_snd hvecs, Outgoing.endsAt_iff] at hfin
  exact Nat.le_trans (le_txQueued_carve _ _) hfin.2.2.2

theorem OnlyFin.hasMore {q : QuicStream} (hover : q.sendingOver = false) (h : OnlyFin q) :
    q.hasMore = true := by
  have hdata := h.1
  rw [QuicStream.nextStreamData_open hover] at hdata
  obtain ⟨hvecs, hfin⟩ := Prod.mk.inj hdata
  rw [Outgoing.unsent_snd hvecs] at hfin
  rw [QuicStream.hasMore_eq, hover]
  exact Outgoing.hasMore_iff.mpr (.inr ⟨hfin, h.2⟩)

theorem unparked_iff_waits (h : s.Inv) : s.Unparked ↔ s.app.All PlainStream.Waits := by
  constructor
  · exact fun hunparked id stream hstream hover => (hunparked id stream hstream hover).1
  · intro hwaits id stream hstream hover
    have hwaits' := hwaits id stream hstream hover
    refine ⟨hwaits', fun hopen hfin => ?_⟩
    have hblocked : stream.blocked = false := by
      apply eq_false_of_ne_true
      exact fun hblocked => Nat.not_lt.mpr (hfin.le hover) (hwaits' hblocked)
    exact (queueRight_of_inStep (h.inStep hopen) id stream hstream).2 hblocked (hfin.hasMore hover)

theorem waits_step_iff (hcredit : api.Crediting) (hs : s.Inv)
    (h : s.app.All PlainStream.Waits) (ht : step api config mode s e = some t) :
    t.app.All PlainStream.Waits ↔ ¬s.Strands e := by
  cases e with
  | createStream id =>
    refine iff_of_true ?_ not_false
    unfold Scheduler.step at ht
    dsimp only at ht
    split at ht
    · exact nomatch ht
    · rename_i hnew
      rw [not_or] at hnew
      obtain rfl := Option.some.inj ht
      intro j stream hj
      have hj' := findStream_createStream config mode (mt (hs.known id) hnew.1) j
      change (s.app.createStream config mode id).findStream j = some stream at hj
      rw [hj'] at hj
      split at hj
      · obtain rfl := Option.some.inj hj
        exact waits_of_not_blocked rfl
      · exact h j stream hj
  | stream id o =>
    obtain rfl := Option.some.inj ht
    constructor
    · rintro hall ⟨stream, hstream, hstrands⟩
      exact not_waits_of_strands hs.ordered hstream hstrands hall
    · exact fun hnot => waits_operate h fun stream hstream hstrands =>
        hnot ⟨stream, hstream, hstrands⟩
  | extendMaxStreamData id =>
    refine iff_of_true ?_ not_false
    obtain rfl := Option.some.inj ht
    show (s.app.extendMaxStreamData id).All PlainStream.Waits
    unfold extendMaxStreamData
    split
    · exact h
    · refine All.schedule (All.modify h ?_) (fun _ _ h => h) true
      exact fun stream _ _ => waits_of_not_blocked rfl
  | writePkt conn closed applicationReady =>
    obtain rfl := Option.some.inj ht
    exact iff_of_true h not_false
  | pass =>
    obtain rfl := Option.some.inj ht
    exact iff_of_true (QuicSession.waits_pass hcredit hs.ordered h) not_false
  | onClosed =>
    obtain rfl := Option.some.inj ht
    exact iff_of_true h not_false

/-- **A FIN waits for no credit**: throughout a run, no stream is blocked without bytes to wait for,
and a stream that has only its FIN left is queued, exactly if no write is cancelled in zero-copy
whose stream is blocked while everything handed over of it is acknowledged. -/
theorem unparked_iff (hcredit : api.Crediting)
    (hrun : run (step api config mode) (Scheduler.init conn) es = some s) :
    Throughout (step api config mode) Unparked (Scheduler.init conn) es ↔
      Meets (step api config mode) (fun s e => ¬s.Strands e) (Scheduler.init conn) es := by
  refine throughout_iff_meets (I := Inv) (fun _ _ _ hs ht => hs.step ht) ?_ (.init conn) ?_ hrun
  · intro s e t hs h ht
    rw [unparked_iff_waits (hs.step ht)]
    exact waits_step_iff hcredit hs ((unparked_iff_waits hs).mp h) ht
  · exact fun _ _ h => nomatch h

/-- A connection that has credit for so many bytes, on all of its streams together, and room for any
number of them in a packet. -/
def credited : Ngtcp2 Nat where
  maxDataLeft _ := 1
  room _ := 1200
  writev n data :=
    match data with
    | none => (n, .packet 0 none)
    | some data =>
      if vecLen data.vecs = 0 then (n, .packet 1200 (some 0))
      else if n = 0 then (0, .streamDataBlocked)
      else (n - vecLen data.vecs, .packet 1200 (some (min n (vecLen data.vecs))))

theorem credited_crediting : credited.Crediting := by
  rintro n data n' hresult hvecs
  unfold credited at hresult
  dsimp only at hresult
  rw [hvecs, vecLen_nil, if_pos rfl] at hresult
  exact nomatch (Prod.mk.inj hresult).2

/-- A write is blocked after its first byte, and goes on when there is credit. -/
def unblocked : List (Event Nat) :=
  [.createStream 0, .stream 0 .makeHandle, .stream 0 (.startWrite (some ⟨0, some 0⟩) [1, 2, 3] false),
    .writePkt (some 1) false true, .pass, .writePkt (some 0) false true, .pass,
    .extendMaxStreamData 0, .writePkt (some 10) false true, .pass, .stream 0 (.onAcked 3),
    .stream 0 (.startWrite none [] true)]

theorem unparked_unblocked :
    Throughout (step credited ⟨0, 0⟩ .zeroCopy) Unparked (Scheduler.init (some 1)) unblocked ∧
      (run (step credited ⟨0, 0⟩ .zeroCopy) (Scheduler.init (some 1)) unblocked).isSome =
        true := by
  have hsome : (run (step credited ⟨0, 0⟩ .zeroCopy) (Scheduler.init (some 1))
    unblocked).isSome = true := by decide
  obtain ⟨s, hrun⟩ := Option.isSome_iff_exists.mp hsome
  exact ⟨(unparked_iff credited_crediting hrun).mpr (by decide), hsome⟩

/-- The write is cancelled while it is blocked, and the body ended: the FIN has to wait for credit
that it does not need. -/
def cancelled : List (Event Nat) :=
  [.createStream 0, .stream 0 .makeHandle, .stream 0 (.startWrite (some ⟨0, some 0⟩) [1, 2, 3] false),
    .writePkt (some 0) false true, .pass, .stream 0 (.cancelWrite 1),
    .stream 0 (.startWrite (some ⟨1, none⟩) [] true)]

theorem fin_parked :
    credited.Crediting ∧
      ∃ s, run (step credited ⟨0, 0⟩ .zeroCopy) (Scheduler.init (some 0)) cancelled = some s ∧
        ∃ stream, s.app.findStream 0 = some stream ∧ stream.q.sendingOver = false ∧
          stream.blocked = true ∧ ¬stream.q.tx.txSent < stream.q.tx.txQueued ∧
            OnlyFin stream.q ∧ 0 ∉ s.app.writeQueue := by
  refine ⟨credited_crediting, ?_⟩
  have hparked : (run (step credited ⟨0, 0⟩ .zeroCopy) (Scheduler.init (some 0)) cancelled).any
      (fun s => (s.app.findStream 0).any fun stream => stream.q.sendingOver = false ∧
        stream.blocked = true ∧ ¬stream.q.tx.txSent < stream.q.tx.txQueued ∧
          OnlyFin stream.q ∧ 0 ∉ s.app.writeQueue) = true := by decide
  obtain ⟨s, hrun, hs⟩ := (Option.any_eq_true _ _).mp hparked
  obtain ⟨stream, hstream, hfacts⟩ := (Option.any_eq_true _ _).mp hs
  exact ⟨s, hrun, stream, hstream, of_decide_eq_true hfacts⟩

end Scheduler

end AnyHttp.Quic.Packing
