import AnyHttp.Quic.Packing
import Mathlib.Algebra.Order.BigOperators.Group.List

/-!
# Packing a packet comes to an end

ngtcp2 is asked again only where it has used some of the buffer, or where a stream has to wait for
credit or can not be written any more.  Either happens to a stream once at most, because such a
stream is not offered again (`nextStreamData_offers`).

* `writePkt_terminates`: so many passes, and no more.
-/

namespace AnyHttp.Quic.Packing

open Lib

/-! ### What a stream can still be told -/

/-- How often ngtcp2 can still say that the stream is blocked, or can not be written any more. -/
def PlainStream.left (stream : PlainStream) : Nat :=
  (if stream.blocked then 0 else 1) + (if stream.q.writeAborted then 0 else 1)

theorem nextStreamData_writeAborted (q : QuicStream) :
    q.nextStreamData.1.writeAborted = q.writeAborted := by
  unfold QuicStream.nextStreamData QuicStream.pendingData
  split <;> rfl

theorem completeWrite_writeAborted (q : QuicStream) (h : Option Handler) (ec : ErrorCode) :
    (q.completeWrite h ec).writeAborted = q.writeAborted := by
  cases h <;> rfl

theorem onStreamDataWritten_writeAborted (q : QuicStream) (n : Nat) (fin : Bool) :
    (q.onStreamDataWritten n fin).writeAborted = q.writeAborted := by
  have hoffered : ∀ stop, (q.onOffered stop fin).writeAborted = q.writeAborted := by
    intro stop
    unfold QuicStream.onOffered
    dsimp only
    split
    · exact completeWrite_writeAborted _ _ _
    · rfl
  have hsent : ∀ (q : QuicStream) (stop : Nat), (q.onSent stop).writeAborted = q.writeAborted := by
    intro q stop
    unfold QuicStream.onSent
    dsimp only
    split_ifs
    · rfl
    · rfl
    · rfl
    · exact completeWrite_writeAborted _ _ _
    · rfl
  unfold QuicStream.onStreamDataWritten
  dsimp only
  rw [hsent, hoffered]

theorem abortWriting_writeAborted (q : QuicStream) (ec : ErrorCode) :
    (q.abortWriting ec).writeAborted = true := by
  unfold QuicStream.abortWriting
  dsimp only
  split
  · rfl
  · exact completeWrite_writeAborted _ _ _

/-- A stream whose sending side is over has nothing to send. -/
theorem not_writeAborted_of_hasStreamData {q : QuicStream}
    (h : q.nextStreamData.1.hasStreamData q.nextStreamData.2.1 q.nextStreamData.2.2 = true) :
    q.writeAborted = false := by
  cases haborted : q.writeAborted with
  | false => rfl
  | true =>
    have hover : q.sendingOver = true := by
      rw [QuicStream.sendingOver, haborted, Bool.or_true]
    rw [QuicStream.nextStreamData, QuicStream.pendingData, if_pos (.inr hover)] at h
    exact nomatch h

namespace StreamApplication

variable {app app' : StreamApplication} {id : Nat} {f : PlainStream → PlainStream}

def left (app : StreamApplication) : Nat := (app.streams.map (·.2.left)).sum

/-! ### One stream at a time -/

theorem findStream_modify (app : StreamApplication) (id j : Nat) (f : PlainStream → PlainStream) :
    (app.modify id f).findStream j =
      if j = id then (app.findStream j).map f else app.findStream j := by
  have hlookup (xs : List (Nat × PlainStream)) :
      (xs.map fun x => if x.1 = id then (x.1, f x.2) else x).lookup j =
        if j = id then (xs.lookup j).map f else xs.lookup j := by
    -- on the streams
    induction xs with
    | nil => simp
    | cons x xs ih =>
      rw [List.map_cons, List.lookup_cons, List.lookup_cons]
      -- the one that is looked for comes first, or later
      by_cases hx : j = x.1
      · by_cases hid : j = id
        · simp [← hx, hid]
        · simp [← hx, hid]
      · have hbeq : (j == x.1) = false := beq_false_of_ne hx
        have hkey : (if x.1 = id then (x.1, f x.2) else x).1 = x.1 := by split <;> rfl
        rw [hkey, hbeq]
        exact ih
  exact hlookup app.streams

theorem left_modify_le (hf : ∀ stream, (f stream).left ≤ stream.left) :
    (app.modify id f).left ≤ app.left := by
  show ((app.streams.map _).map _).sum ≤ _
  rw [List.map_map]
  apply List.sum_le_sum
  intro x _
  show PlainStream.left (if x.1 = id then (x.1, f x.2) else x).2 ≤ x.2.left
  split
  · exact hf x.2
  · exact Nat.le_refl _

theorem left_modify_lt {stream : PlainStream} (hf : ∀ stream, (f stream).left ≤ stream.left)
    (hstream : app.findStream id = some stream) (hlt : (f stream).left < stream.left) :
    (app.modify id f).left < app.left := by
  obtain ⟨front, back, hstreams, _⟩ := List.lookup_eq_some_iff.mp hstream
  show ((app.streams.map _).map _).sum < _
  rw [List.map_map]
  apply List.sum_lt_sum
  · intro x _
    show PlainStream.left (if x.1 = id then (x.1, f x.2) else x).2 ≤ x.2.left
    -- the stream that changes has less left, and the others have as much
    split
    · exact hf x.2
    · exact Nat.le_refl _
  · refine ⟨(id, stream), ?_, ?_⟩
    · rw [hstreams]
      exact List.mem_append_right _ List.mem_cons_self
    · show PlainStream.left (if id = id then (id, f stream) else (id, stream)).2 < stream.left
      rw [if_pos rfl]
      exact hlt

theorem left_unscheduleFront_le : (app.unscheduleFront id).left ≤ app.left :=
  left_modify_le (f := fun stream => { stream with scheduled := false }) fun _ => Nat.le_refl _

theorem left_schedule_le (wake : Bool) : (app.schedule id wake).left ≤ app.left := by
  unfold schedule
  split
  · exact Nat.le_refl _
  · split
    · exact Nat.le_refl _
    · exact left_modify_le (f := fun stream => { stream with scheduled := true }) fun _ =>
        Nat.le_refl _

theorem left_onStreamDataWritten_le (n : Nat) (fin : Bool) :
    (app.onStreamDataWritten id n fin).left ≤ app.left := by
  have hq : ∀ stream : PlainStream,
      PlainStream.left { stream with q := stream.q.onStreamDataWritten n fin } ≤ stream.left := by
    intro stream
    unfold PlainStream.left
    dsimp only
    rw [onStreamDataWritten_writeAborted]
  unfold onStreamDataWritten
  split
  · exact Nat.le_refl _
  · dsimp only
    refine Nat.le_trans (left_schedule_le false) ?_
    split
    · refine Nat.le_trans (left_schedule_le true) ?_
      exact Nat.le_trans (left_modify_le hq) left_unscheduleFront_le
    · exact Nat.le_trans (left_modify_le hq) left_unscheduleFront_le

theorem blocked_le (stream : PlainStream) :
    PlainStream.left { stream with blocked := true } ≤ stream.left := by
  unfold PlainStream.left
  dsimp only
  rw [if_pos rfl]
  omega

theorem aborted_le (stream : PlainStream) :
    PlainStream.left { stream with q := stream.q.abortWriting .connectionReset } ≤
      stream.left := by
  unfold PlainStream.left
  dsimp only
  rw [abortWriting_writeAborted, if_pos (c := true = true) rfl]
  omega

theorem left_onStreamBlocked_le : (app.onStreamBlocked id).left ≤ app.left := by
  unfold onStreamBlocked
  split
  · exact Nat.le_refl _
  · exact Nat.le_trans left_unscheduleFront_le (left_modify_le blocked_le)

theorem left_onStreamBlocked_lt {stream : PlainStream} (hstream : app.findStream id = some stream)
    (hblocked : stream.blocked = false) : (app.onStreamBlocked id).left < app.left := by
  have hlt : PlainStream.left { stream with blocked := true } < stream.left := by
    unfold PlainStream.left
    dsimp only
    rw [hblocked, if_pos rfl, if_neg Bool.false_ne_true]
    omega
  unfold onStreamBlocked
  rw [hstream]
  exact Nat.lt_of_le_of_lt left_unscheduleFront_le (left_modify_lt blocked_le hstream hlt)

theorem left_onStreamShutWr_lt {stream : PlainStream} (hstream : app.findStream id = some stream)
    (haborted : stream.q.writeAborted = false) : (app.onStreamShutWr id).left < app.left := by
  have hfront : (app.unscheduleFront id).findStream id =
      some { stream with scheduled := false } := by
    have hmodify := findStream_modify app id id fun stream => { stream with scheduled := false }
    rw [if_pos rfl, hstream] at hmodify
    exact hmodify
  have hlt : PlainStream.left
      { stream with scheduled := false, q := stream.q.abortWriting .connectionReset } <
      PlainStream.left { stream with scheduled := false } := by
    unfold PlainStream.left
    dsimp only
    rw [abortWriting_writeAborted, haborted, if_pos (c := true = true) rfl,
      if_neg (c := false = true) Bool.false_ne_true]
    omega
  unfold onStreamShutWr
  rw [hstream]
  exact Nat.lt_of_lt_of_le (left_modify_lt aborted_le hfront hlt) left_unscheduleFront_le

/-! ### What is offered -/

/-- `next_stream_data()` names a stream that there is, that is not waiting for credit, and that can
still be written. -/
theorem nextStreamData_offers (app : StreamApplication) :
    app.nextStreamData.1.left ≤ app.left ∧ ∀ data, app.nextStreamData.2 = some data →
      ∃ stream, app.nextStreamData.1.findStream data.id = some stream ∧
        stream.blocked = false ∧ stream.q.writeAborted = false := by
  have hdata : ∀ stream : PlainStream,
      PlainStream.left { stream with q := stream.q.nextStreamData.1 } ≤ stream.left := by
    intro stream
    unfold PlainStream.left
    dsimp only
    rw [nextStreamData_writeAborted]
  refine loop_induction nextPass_variant
    (P := fun app r => r.1.left ≤ app.left ∧ ∀ data, r.2 = some data →
      ∃ stream, r.1.findStream data.id = some stream ∧
        stream.blocked = false ∧ stream.q.writeAborted = false) ?_ ?_ app
  · intro app app' hpass ih
    refine ⟨Nat.le_trans ih.1 ?_, ih.2⟩
    unfold nextPass at hpass
    -- an empty queue ends the loop, a stream that is gone does not
    split at hpass
    · exact nomatch hpass
    · split at hpass
      · exact Sum.inl.inj hpass ▸ Nat.le_refl _
      · split at hpass
        · exact Sum.inl.inj hpass ▸ left_unscheduleFront_le
        · dsimp only at hpass
          split at hpass
          · exact nomatch hpass
          · rw [← Sum.inl.inj hpass]
            exact Nat.le_trans left_unscheduleFront_le (left_modify_le hdata)
  · intro app r hpass
    unfold nextPass at hpass
    split at hpass
    · rw [← Sum.inr.inj hpass]
      exact ⟨Nat.le_refl _, nofun⟩
    · rename_i id rest hqueue
      split at hpass
      · exact nomatch hpass
      · rename_i stream hstream
        split at hpass
        · exact nomatch hpass
        · rename_i hblocked
          dsimp only at hpass
          split at hpass
          · rename_i hhas
            rw [← Sum.inr.inj hpass]
            refine ⟨left_modify_le hdata, ?_⟩
            intro data hdata
            obtain rfl := Option.some.inj hdata
            refine ⟨{ stream with q := stream.q.nextStreamData.1 }, ?_, ?_, ?_⟩
            · dsimp only
              rw [findStream_modify, if_pos rfl, hstream]
              rfl
            · exact eq_false_of_ne_true hblocked
            · show stream.q.nextStreamData.1.writeAborted = false
              rw [nextStreamData_writeAborted]
              exact not_writeAborted_of_hasStreamData hhas
          · exact nomatch hpass

end StreamApplication

/-! ### Passes -/

namespace QuicSession

variable {κ : Type} {api : Ngtcp2 κ} {p p' : QuicSession κ}

/-- What is left of the buffer, and of what can be said about the streams. -/
def size (api : Ngtcp2 κ) (p : QuicSession κ) : Nat := p.conn.elim 0 api.room + p.app.left

theorem offer_spec (api : Ngtcp2 κ) (p : QuicSession κ) (conn : κ) :
    (p.offer api conn).1.left ≤ p.app.left ∧ ∀ data, (p.offer api conn).2 = some data →
      ∃ stream, (p.offer api conn).1.findStream data.id = some stream ∧
        stream.blocked = false ∧ stream.q.writeAborted = false := by
  unfold offer
  split
  · exact p.app.nextStreamData_offers
  · exact ⟨Nat.le_refl _, nofun⟩

theorem left_written_le (data : Option StreamData) (ndatalen : Option Nat) :
    (p.written data ndatalen).app.left ≤ p.app.left := by
  cases ndatalen with
  | none => exact Nat.le_refl _
  | some n =>
    cases data with
    | none => exact Nat.le_refl _
    | some data => exact StreamApplication.left_onStreamDataWritten_le n _

theorem conn_written (data : Option StreamData) (ndatalen : Option Nat) :
    (p.written data ndatalen).conn = p.conn := by
  cases ndatalen with
  | none => rfl
  | some n => cases data <;> rfl

/-- What is left to be said about the streams, where ngtcp2 is asked again without having used any
of the buffer. -/
theorem left_handle_lt {data : Option StreamData} {result : Writev}
    (hoffer : ∀ data', data = some data' → ∃ stream, p.app.findStream data'.id = some stream ∧
      stream.blocked = false ∧ stream.q.writeAborted = false)
    (hmore : ∀ ndatalen, result ≠ .writeMore ndatalen)
    (hdata : result = .streamDataBlocked ∨ result = .streamShutWr ∨ result = .streamNotFound →
      data ≠ none) (hpass : p.handle data result = .inl p') : p'.app.left < p.app.left := by
  cases result with
  | packet nwrite ndatalen => exact nomatch hpass
  | error code => exact nomatch hpass
  | writeMore ndatalen => exact absurd rfl (hmore ndatalen)
  | streamDataBlocked =>
    obtain ⟨data, rfl⟩ := Option.ne_none_iff_exists'.mp (hdata (.inl rfl))
    obtain ⟨stream, hstream, hblocked, _⟩ := hoffer data rfl
    rw [← Sum.inl.inj hpass]
    exact StreamApplication.left_onStreamBlocked_lt hstream hblocked
  | streamShutWr =>
    obtain ⟨data, rfl⟩ := Option.ne_none_iff_exists'.mp (hdata (.inr (.inl rfl)))
    obtain ⟨stream, hstream, _, haborted⟩ := hoffer data rfl
    rw [← Sum.inl.inj hpass]
    exact StreamApplication.left_onStreamShutWr_lt hstream haborted
  | streamNotFound =>
    obtain ⟨data, rfl⟩ := Option.ne_none_iff_exists'.mp (hdata (.inr (.inr rfl)))
    obtain ⟨stream, hstream, _, haborted⟩ := hoffer data rfl
    unfold handle at hpass
    dsimp only at hpass
    split at hpass
    · exact nomatch hpass
    · rw [← Sum.inl.inj hpass]
      exact Nat.lt_of_le_of_lt StreamApplication.left_onStreamBlocked_le
        (StreamApplication.left_onStreamShutWr_lt hstream haborted)

theorem conn_handle {data : Option StreamData} {result : Writev}
    (hpass : p.handle data result = .inl p') : p'.conn = p.conn := by
  cases result with
  | packet nwrite ndatalen => exact nomatch hpass
  | error code => exact nomatch hpass
  | writeMore ndatalen => exact Sum.inl.inj hpass ▸ conn_written data ndatalen
  | streamDataBlocked => cases data <;> exact Sum.inl.inj hpass ▸ rfl
  | streamShutWr => cases data <;> exact Sum.inl.inj hpass ▸ rfl
  | streamNotFound =>
    unfold handle at hpass
    dsimp only at hpass
    split at hpass
    · exact nomatch hpass
    · split at hpass
      · exact nomatch hpass
      · exact Sum.inl.inj hpass ▸ rfl

/-- A pass after which ngtcp2 is asked again leaves less to be used, or to be said. -/
theorem pass_lt (h : api.Promises) (hpass : p.pass api = .inl p') :
    p'.size api < p.size api := by
  unfold pass at hpass
  split at hpass
  · exact nomatch hpass
  · rename_i conn hconn
    split at hpass
    · exact nomatch hpass
    · obtain ⟨hleft, hoffer⟩ := offer_spec api p conn
      dsimp only at hpass
      generalize p.offer api conn = offer at hpass hleft hoffer
      have hroom := h.room conn offer.2
      have hconn' := conn_handle hpass
      rw [size, size, hconn, hconn']
      show api.room (api.writev conn offer.2).1 + p'.app.left < api.room conn + p.app.left
      -- either more is written to the packet, or a stream is left with less to do
      by_cases hmore : ∃ ndatalen, (api.writev conn offer.2).2 = .writeMore ndatalen
      · obtain ⟨ndatalen, hmore⟩ := hmore
        have hused := h.more conn offer.2 _ ndatalen (Prod.ext rfl hmore)
        rw [hmore] at hpass
        rw [← Sum.inl.inj hpass]
        have hwritten := left_written_le offer.2 ndatalen
          (p := { p with app := offer.1, conn := some (api.writev conn offer.2).1 })
        exact Nat.add_lt_add_of_lt_of_le hused (Nat.le_trans hwritten hleft)
      · have hlt := left_handle_lt hoffer (fun ndatalen heq => hmore ⟨ndatalen, heq⟩) ?_ hpass
        · exact Nat.add_lt_add_of_le_of_lt hroom (Nat.lt_of_lt_of_le hlt hleft)
        · rintro (hresult | hresult | hresult)
          · exact h.blocked conn offer.2 _ (Prod.ext rfl hresult)
          · exact h.shutWr conn offer.2 _ (Prod.ext rfl hresult)
          · exact h.notFound conn offer.2 _ (Prod.ext rfl hresult)

/-- **Both loops end**: the one of `next_stream_data()` after the queue has been gone through, and
the one of `write_pkt()` after so many passes as there are bytes in the buffer, and things to be
said about the streams, two about each. -/
theorem writePkt_terminates (h : api.Promises) (p : QuicSession κ) :
    (∀ app : StreamApplication,
      (iterate StreamApplication.nextPass (app.writeQueue.length + 1) app).isSome = true) ∧
    (iterate (pass api) (p.conn.elim 0 api.room + 2 * p.app.streams.length + 1) p).isSome =
      true := by
  have hvariant : Variant (pass api) (size api) := fun p p' hpass => pass_lt h hpass
  refine ⟨fun app => ?_, ?_⟩
  · exact iterate_isSome StreamApplication.nextPass_variant _ app (Nat.lt_succ_self _)
  · apply iterate_isSome hvariant
    have hleft : p.app.left ≤ p.app.streams.length * 2 := by
      have hbound : ∀ n ∈ p.app.streams.map (·.2.left), n ≤ 2 := by
        intro n hn
        obtain ⟨x, _, rfl⟩ := List.mem_map.mp hn
        unfold PlainStream.left
        split <;> split <;> omega
      have hsum := List.sum_le_card_nsmul _ 2 hbound
      rw [List.length_map] at hsum
      exact hsum
    show p.conn.elim 0 api.room + p.app.left < _
    omega

/-- A connection whose streams with odd numbers are gone, and that takes one byte of any other one
for every byte there is room for. -/
def sparse : Ngtcp2 Nat where
  maxDataLeft _ := 1
  room n := n
  writev n data :=
    match data with
    | none => (n, .packet 0 none)
    | some data =>
      if data.id % 2 = 1 then (n, .streamNotFound)
      else if n = 0 then (0, .packet 1200 (some 0))
      else (n - 1, .writeMore (some 1))

theorem sparse_promises : sparse.Promises where
  blocked := by
    rintro n (_ | data) n' hresult
    · exact nomatch hresult
    · exact nofun
  shutWr := by
    rintro n (_ | data) n' hresult
    · exact nomatch hresult
    · exact nofun
  notFound := by
    rintro n (_ | data) n' hresult
    · exact nomatch hresult
    · exact nofun
  more := by
    rintro n (_ | data) n' ndatalen hresult
    · exact nomatch hresult
    · unfold sparse at hresult
      dsimp only at hresult
      split_ifs at hresult with hodd hfull
      · exact nomatch (Prod.mk.inj hresult).2
      · exact nomatch (Prod.mk.inj hresult).2
      · obtain ⟨rfl, _⟩ := Prod.mk.inj hresult
        show n - 1 < n
        omega
  room := by
    rintro n (_ | data)
    · exact Nat.le_refl _
    · unfold sparse
      dsimp only
      split_ifs
      · exact Nat.le_refl _
      · exact Nat.zero_le _
      · exact Nat.sub_le _ _

/-- Two streams that are gone, and one with five bytes, in a buffer of three. -/
def gone : QuicSession Nat where
  app :=
    { streams :=
        [(1, ⟨(Stream.init (.plain ⟨0, 0⟩) .zeroCopy true).q.startWrite none [1] true,
          true, false⟩),
          (3, ⟨(Stream.init (.plain ⟨0, 0⟩) .zeroCopy true).q.startWrite none [2] true,
            true, false⟩),
          (4, ⟨(Stream.init (.plain ⟨0, 0⟩) .staged true).q.startWrite none [1, 2, 3, 4, 5] true,
            true, false⟩)]
      writeQueue := [1, 3, 4] }
  conn := some 3

theorem writePkt_terminates_gone :
    ∃ p, iterate (pass sparse) 10 gone = some p ∧
      (iterate (pass sparse) 10 gone).map Prod.snd = some (.packet 1200) := by
  obtain ⟨_, hends⟩ := writePkt_terminates sparse_promises gone
  obtain ⟨p, hp⟩ := Option.isSome_iff_exists.mp hends
  exact ⟨p, hp, by decide⟩

end QuicSession

end AnyHttp.Quic.Packing
