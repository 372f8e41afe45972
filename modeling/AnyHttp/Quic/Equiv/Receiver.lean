import AnyHttp.Quic.Receiver

/-!
# The invariants of the receiving side

`Receiver.Rep` is what holds of the queue of chunks, the loop of `call_read_handler()` and the
handler it serves, at any point of any run.  The loop runs at most once at a time; the frame of the
handler that it has invoked, or the `Phase`, says which one it is.  What makes the reader see every
byte once is `Parked`: the queue is empty exactly if the view of its first chunk is.
-/

namespace AnyHttp.Quic

open Lib

namespace Receiver

/-! ### The queue of chunks -/

/-- The view of the first chunk is empty only if there is none, and no other chunk is. -/
def Parked (head : List UInt8) (chunks : List (List UInt8)) : Prop :=
  chunks = [] ∧ head = [] ∨ chunks ≠ [] ∧ head ≠ [] ∧ ∀ c ∈ chunks.tail, c ≠ []

theorem Parked.head_eq_nil_iff {head : List UInt8} {chunks : List (List UInt8)}
    (h : Parked head chunks) : head = [] ↔ chunks = [] := by
  rcases h with ⟨hchunks, hhead⟩ | ⟨hchunks, hhead, _⟩
  · simp [hchunks, hhead]
  · simp [hchunks, hhead]

/-- Reading from the queue takes the first bytes of it, as many as fit. -/
theorem takeParked_spec {head : List UInt8} {chunks : List (List UInt8)}
    (h : Parked head chunks) (dest : Nat) :
    (QuicStream.takeParked dest head chunks).1 = (head ++ chunks.tail.flatten).take dest ∧
      (QuicStream.takeParked dest head chunks).2.1 ++
          (QuicStream.takeParked dest head chunks).2.2.tail.flatten =
        (head ++ chunks.tail.flatten).drop dest ∧
      Parked (QuicStream.takeParked dest head chunks).2.1
        (QuicStream.takeParked dest head chunks).2.2 := by
  -- on the chunks, each of which is taken as a whole, or is the last one
  induction chunks generalizing dest head with
  | nil =>
    obtain rfl : head = [] := h.head_eq_nil_iff.mpr rfl
    simp [QuicStream.takeParked, Parked]
  | cons c cs ih =>
    have hhead : head ≠ [] := by simp [h.head_eq_nil_iff]
    have hrest : ∀ c ∈ cs, c ≠ [] := by
      rcases h with ⟨hchunks, _⟩ | ⟨_, _, hrest⟩
      · exact absurd hchunks (by simp)
      · exact hrest
    unfold QuicStream.takeParked
    -- no room is left
    by_cases hdest : dest = 0
    · rw [if_pos (Or.inl hdest)]
      simp [hdest, h]
    rw [if_neg (not_or.mpr ⟨hdest, hhead⟩)]
    by_cases hfits : head.length ≤ dest
    · -- the view of the next chunk is all of it
      rw [if_pos hfits]
      have hnext : Parked (cs.head?.getD []) cs := by
        cases cs with
        | nil => exact Or.inl ⟨rfl, rfl⟩
        | cons d ds =>
          exact Or.inr ⟨by simp, hrest d List.mem_cons_self,
            fun e he => hrest e (List.mem_cons_of_mem d he)⟩
      have hflat : cs.head?.getD [] ++ cs.tail.flatten = cs.flatten := by
        cases cs <;> simp
      obtain ⟨htaken, hleft, hparked⟩ := ih hnext (dest - head.length)
      rw [hflat] at htaken hleft
      refine ⟨?_, ?_, hparked⟩
      · simp only [htaken, List.tail_cons]
        rw [List.take_append, List.take_of_length_le hfits]
      · simp only [hleft, List.tail_cons]
        rw [List.drop_append, List.drop_of_length_le hfits, List.nil_append]
    · rw [if_neg hfits]
      have hle : dest ≤ head.length := by omega
      refine ⟨?_, ?_, ?_⟩
      · simp [List.take_append_of_le_length hle]
      · simp [List.drop_append_of_le_length hle]
      · refine Or.inr ⟨by simp, ?_, hrest⟩
        simp only [ne_eq, List.drop_eq_nil_iff]
        omega

theorem unread_eq_nil {rx : Incoming} (h : Parked rx.readHead rx.pendingRead) :
    rx.unread = [] ↔ rx.readHead = [] ∧ rx.incoming = [] := by
  unfold Incoming.unread
  constructor
  · intro hnil
    simp only [List.append_eq_nil_iff] at hnil
    exact ⟨hnil.1.1, hnil.2⟩
  · rintro ⟨hhead, hincoming⟩
    rw [hhead, hincoming, h.head_eq_nil_iff.mp hhead]
    rfl

/-- A read gets what is unread, as much as fits. -/
theorem readBytes_eq {rx : Incoming} (h : Parked rx.readHead rx.pendingRead) (size : Nat) :
    readBytes rx size = rx.unread.take size := by
  unfold readBytes Incoming.unread
  dsimp only
  rw [(takeParked_spec h size).1]
  generalize rx.readHead ++ rx.pendingRead.tail.flatten = queued
  rw [List.take_append, List.length_take]
  congr 2
  omega

theorem unread_afterRead {rx : Incoming} (h : Parked rx.readHead rx.pendingRead) (size : Nat) :
    (afterRead rx size).unread = rx.unread.drop size := by
  obtain ⟨htaken, hleft, _⟩ := takeParked_spec h size
  unfold afterRead Incoming.unread
  dsimp only
  rw [hleft, htaken]
  generalize rx.readHead ++ rx.pendingRead.tail.flatten = queued
  rw [List.drop_append, List.length_take]
  congr 2
  omega

theorem parked_afterRead {rx : Incoming} (h : Parked rx.readHead rx.pendingRead) (size : Nat) :
    Parked (afterRead rx size).readHead (afterRead rx size).pendingRead :=
  (takeParked_spec h size).2.2

/-- What is parked goes behind everything else that is unread. -/
theorem unread_park {rx : Incoming} (h : Parked rx.readHead rx.pendingRead) :
    (park rx).unread = rx.unread ∧ Parked (park rx).readHead (park rx).pendingRead ∧
      (park rx).incoming = [] := by
  unfold park
  split
  case isTrue hnil => exact ⟨rfl, h, hnil⟩
  case isFalse hne =>
    rcases h with ⟨hchunks, hhead⟩ | ⟨hchunks, hhead, hrest⟩
    · simp [Incoming.unread, Parked, hchunks, hhead, hne]
    · obtain ⟨c, cs, hcs⟩ := List.exists_cons_of_ne_nil hchunks
      rw [hcs, List.tail_cons] at hrest
      refine ⟨by simp [Incoming.unread, hcs, hhead], Or.inr ⟨by simp, by simp [hhead], ?_⟩, rfl⟩
      intro d hd
      simp only [hcs, List.cons_append, List.tail_cons, List.mem_append, List.mem_singleton] at hd
      rcases hd with hd | rfl
      · exact hrest d hd
      · exact hne

/-! ### What the trace tells -/

@[simp] theorem delivered_append (cs ds : List Call) :
    delivered (cs ++ ds) = delivered cs ++ delivered ds :=
  List.flatMap_append

@[simp] theorem credited_append (cs ds : List Call) :
    credited (cs ++ ds) = credited cs + credited ds := by
  simp [credited]

@[simp] theorem delivered_read (h : Handler) (size : Nat) (ec : ErrorCode) :
    delivered [.completeRead h size ec []] = [] := by
  cases ec <;> rfl

@[simp] theorem delivered_data (h : Handler) (size : Nat) (bytes : List UInt8) :
    delivered [.completeRead h size .success bytes] = bytes := by
  simp [delivered]

@[simp] theorem credited_read (h : Handler) (size : Nat) (ec : ErrorCode) (bytes : List UInt8) :
    credited [.completeRead h size ec bytes] = 0 := rfl

@[simp] theorem credited_consume (n : Nat) : credited [.consumeStream n] = n := by
  simp [credited]

@[simp] theorem delivered_consume (n : Nat) : delivered [.consumeStream n] = [] := rfl

@[simp] theorem delivered_onCancel (h : Handler) (fn : CancelFn) :
    delivered [.onCancel h fn] = [] := rfl

@[simp] theorem credited_onCancel (h : Handler) (fn : CancelFn) :
    credited [.onCancel h fn] = 0 := rfl

theorem delivered_other {cs : List Call} (h : ∀ c ∈ cs, c.aboutReading = false) :
    delivered cs = [] := by
  refine List.flatMap_eq_nil_iff.mpr fun c hc => ?_
  cases c with
  | completeRead handler size ec bytes => exact absurd (h _ hc) (by simp [Call.aboutReading])
  | _ => rfl

theorem credited_other {cs : List Call} (h : ∀ c ∈ cs, c.aboutReading = false) :
    credited cs = 0 := by
  induction cs with
  | nil => rfl
  | cons c cs ih =>
    have hc : credited [c] = 0 := by
      cases c with
      | consumeStream n => exact absurd (h _ List.mem_cons_self) (by simp [Call.aboutReading])
      | _ => rfl
    rw [← List.singleton_append, credited_append, hc,
      ih fun d hd => h d (List.mem_cons_of_mem c hd)]

@[simp] theorem delivered_detachCalls (r : Receiver) : delivered r.detachCalls = [] := by
  unfold detachCalls
  cases r.rx.readHandler <;> simp [delivered]

@[simp] theorem credited_detachCalls (r : Receiver) : credited r.detachCalls = 0 := by
  unfold detachCalls
  cases r.rx.readHandler <;> simp [credited]

/-! ### The loop -/

/-- The loops whose handler is running. -/
def loops : List Frame → List (Nat × Cont)
  | [] => []
  | .loop n k :: fs => (n, k) :: loops fs
  | .failing _ :: fs => loops fs

/-- Parking is a matter of the queue alone. -/
theorem park_same (rx : Incoming) :
    (park rx).callReadHandlerActive = rx.callReadHandlerActive ∧
      (park rx).eofReceived = rx.eofReceived ∧ (park rx).readHandler = rx.readHandler := by
  unfold park
  split
  · exact ⟨rfl, rfl, rfl⟩
  · exact ⟨rfl, rfl, rfl⟩

end Receiver

namespace Phase

/-- The loop that is running right now. -/
def loops : Phase → List (Nat × Cont)
  | .loop n k => [(n, k)]
  | _ => []

/-- What will go on right after it. -/
def conts : Phase → List Cont
  | .rest => []
  | .calling k | .left k | .loop _ k => [k]

end Phase

namespace Receiver

variable {c : Conduct} {p p' : Phase} {r r' : Receiver}

/-- All loops of `call_read_handler()` that are not over yet. -/
def running (p : Phase) (r : Receiver) : List (Nat × Cont) := p.loops ++ loops r.frames

/-- All callers that `call_read_handler()` has not returned to yet, or only just. -/
def conts (p : Phase) (r : Receiver) : List Cont := p.conts ++ (loops r.frames).map Prod.snd

/-- The representation invariant of the receiving side. -/
structure Rep (p : Phase) (r : Receiver) : Prop where
  running : (r.running p).length = if r.rx.callReadHandlerActive then 1 else 0
  alone : ∀ fin, .chunk fin ∈ p.conts → loops r.frames = []
  parked : Parked r.rx.readHead r.rx.pendingRead
  incoming : r.rx.incoming ≠ [] → ∃ fin, .chunk fin ∈ r.conts p
  pending : (∀ k, p ≠ .calling k) → r.rx.callReadHandlerActive = false → r.rx.readHandler ≠ none →
    r.rx.unread = [] ∧ r.rx.eofReceived = false ∧ r.readAborted = false
  credit : credited r.trace + ((r.running p).map Prod.fst).sum = (delivered r.trace).length
  ending : .chunk true ∈ r.conts p →
    r.kind ≠ .http3 ∧ r.rx.eofReceived = false ∧ r.destroyed = false
  aborted : r.readAborted = true → r.kind ≠ .http3 ∧ r.rx.unread = []
  gone : r.destroyed = true → r.rx.readHandler = none ∧ r.reader ≠ .attached
  detached : ∀ ec, r.reader = .detached ec → r.destroyed = true

theorem mem_loops {n : Nat} {k : Cont} {frames : List Frame} :
    (n, k) ∈ loops frames ↔ .loop n k ∈ frames := by
  induction frames with
  | nil => simp [loops]
  | cons f fs ih =>
    cases f with
    | loop n' k' => simp [loops, ih]
    | failing ec => simp [loops, ih]

/-- The end of the body is to come with the chunk that is being delivered. -/
theorem mem_conts_rest :
    .chunk true ∈ r.conts .rest ↔ ∃ n, .loop n (.chunk true) ∈ r.frames := by
  constructor
  · intro hend
    obtain ⟨⟨n, k⟩, hmem, rfl⟩ := List.mem_map.mp hend
    exact ⟨n, mem_loops.mp hmem⟩
  · rintro ⟨n, hmem⟩
    exact List.mem_map.mpr ⟨_, mem_loops.mpr hmem, rfl⟩

/-- With nothing on the stack, the loop is not running. -/
theorem Rep.inactive (h : r.Rep .rest) (hframes : r.frames = []) :
    r.rx.callReadHandlerActive = false := by
  have hrunning := h.running
  cases hactive : r.rx.callReadHandlerActive with
  | false => rfl
  | true => simp [Receiver.running, Phase.loops, hframes, loops, hactive] at hrunning

/-- ... and nothing is being delivered. -/
theorem Rep.no_incoming (h : r.Rep .rest) (hframes : r.frames = []) : r.rx.incoming = [] := by
  by_contra hne
  obtain ⟨fin, hfin⟩ := h.incoming hne
  simp [Receiver.conts, Phase.conts, hframes, loops] at hfin

/-- There is one loop at most: while it is running, no frame is another. -/
theorem Rep.loops_eq_nil {n : Nat} {k : Cont} (h : r.Rep (.loop n k)) : loops r.frames = [] := by
  have hrunning := h.running
  simp only [Receiver.running, Phase.loops, List.singleton_append, List.length_cons] at hrunning
  exact List.length_eq_zero_iff.mp (by split at hrunning <;> omega)

/-- After a pass of the loop, its frame is on the stack. -/
theorem Rep.pass {n : Nat} {k : Cont} (h : r.Rep (.loop n k)) (rx : Incoming)
    (hactive : rx.callReadHandlerActive = r.rx.callReadHandlerActive)
    (heof : rx.eofReceived = r.rx.eofReceived) (hparked : Parked rx.readHead rx.pendingRead)
    (hincoming : rx.incoming ≠ [] → r.rx.incoming ≠ [])
    (hunread : r.rx.unread = [] → rx.unread = []) (x : Call) (hx : credited [x] = 0) :
    ({ r with rx := rx }.pass (n + (delivered [x]).length) k x).Rep .rest where
  running := by
    show _ = if rx.callReadHandlerActive then 1 else 0
    rw [hactive, ← h.running]
    rfl
  alone := by simp [Phase.conts]
  parked := hparked
  incoming := fun hne => h.incoming (hincoming hne)
  pending := fun _ _ hh => absurd rfl hh
  credit := by
    have hcredit := h.credit
    simp only [Receiver.running, Phase.loops, Receiver.pass, loops, List.nil_append,
      List.singleton_append, List.map_cons, List.sum_cons, delivered_append, credited_append, hx,
      List.length_append] at hcredit ⊢
    omega
  ending := fun hend => by
    obtain ⟨hkind, hnoeof, hlive⟩ := h.ending hend
    exact ⟨hkind, heof.trans hnoeof, hlive⟩
  aborted := fun ha => ⟨(h.aborted ha).1, hunread (h.aborted ha).2⟩
  gone := fun hd => ⟨rfl, (h.gone hd).2⟩
  detached := h.detached

/-- A read that is not completed with data. -/
theorem Rep.pass_error {n : Nat} {k : Cont} (h : r.Rep (.loop n k)) (handler : Handler)
    (ec : ErrorCode) :
    (r.pass n k (.completeRead handler r.rx.readHandlerBuffer ec [])).Rep .rest := by
  have hpass := h.pass r.rx rfl rfl h.parked id id
    (.completeRead handler r.rx.readHandlerBuffer ec []) rfl
  rwa [delivered_read, List.length_nil, Nat.add_zero] at hpass

/-- A change at rest that leaves the queue and the loops alone, and delivers nothing. -/
theorem Rep.stay (h : r.Rep .rest) (hloops : loops r'.frames = loops r.frames)
    (hrx : r'.rx = r.rx ∨ r'.rx = { r.rx with readHandler := none })
    (hdelivered : delivered r'.trace = delivered r.trace)
    (hcredited : credited r'.trace = credited r.trace) (hkind : r'.kind = r.kind)
    (haborted : r'.readAborted = r.readAborted)
    (hlive : loops r.frames = [] ∨ r'.destroyed = r.destroyed)
    (hgone : r'.destroyed = true → r'.rx.readHandler = none ∧ r'.reader ≠ .attached)
    (hdetached : ∀ ec, r'.reader = .detached ec → r'.destroyed = true) : r'.Rep .rest := by
  have hsame : r'.rx.callReadHandlerActive = r.rx.callReadHandlerActive ∧
      r'.rx.readHead = r.rx.readHead ∧ r'.rx.pendingRead = r.rx.pendingRead ∧
      r'.rx.incoming = r.rx.incoming ∧ r'.rx.eofReceived = r.rx.eofReceived ∧
      (r'.rx.readHandler ≠ none → r.rx.readHandler ≠ none) := by
    rcases hrx with hrx | hrx <;> simp [hrx]
  obtain ⟨hactive, hhead, hchunks, hincoming, heof, hhandler⟩ := hsame
  have hunread : r'.rx.unread = r.rx.unread := by
    rw [Incoming.unread, hhead, hchunks, hincoming]
    rfl
  have hrunning : r'.running .rest = r.running .rest := by
    simp only [Receiver.running, hloops]
  have hconts : r'.conts .rest = r.conts .rest := by
    simp only [Receiver.conts, hloops]
  exact
    { running := by rw [hrunning, hactive]; exact h.running
      alone := by simp [Phase.conts]
      parked := by rw [hhead, hchunks]; exact h.parked
      incoming := by rw [hincoming, hconts]; exact h.incoming
      pending := fun hp ha hh => by
        rw [hunread, heof, haborted]
        exact h.pending hp (hactive ▸ ha) (hhandler hh)
      credit := by rw [hrunning, hdelivered, hcredited]; exact h.credit
      ending := fun hend => by
        rw [hconts] at hend
        have hne : loops r.frames ≠ [] := by
          intro hnil
          simp [Receiver.conts, Phase.conts, hnil] at hend
        rw [hkind, heof, hlive.resolve_left hne]
        exact h.ending hend
      aborted := by rw [haborted, hkind, hunread]; exact h.aborted
      gone := hgone
      detached := hdetached }

/-- A change at rest before `call_read_handler()` is called, for nobody who has anything left to
do. -/
theorem Rep.before (h : r.Rep .rest) {rx : Incoming} {aborted : Bool} {trace : List Call}
    (hactive : rx.callReadHandlerActive = r.rx.callReadHandlerActive)
    (hparked : Parked rx.readHead rx.pendingRead)
    (hincoming : rx.incoming ≠ [] → r.rx.incoming ≠ [])
    (heof : .chunk true ∈ r.conts .rest → rx.eofReceived = false)
    (haborted : aborted = true → r.kind ≠ .http3 ∧ rx.unread = [])
    (hdelivered : delivered trace = delivered r.trace)
    (hcredited : credited trace = credited r.trace) (hlive : r.destroyed = false) :
    { r with rx := rx, readAborted := aborted, trace := trace }.Rep (.calling .caller) where
  running := by rw [hactive]; exact h.running
  alone := by simp [Phase.conts]
  parked := hparked
  incoming := fun hne => by
    obtain ⟨fin, hfin⟩ := h.incoming (hincoming hne)
    exact ⟨fin, List.mem_cons_of_mem _ hfin⟩
  pending := fun hp => absurd rfl (hp .caller)
  credit := by rw [hdelivered, hcredited]; exact h.credit
  ending := fun hend => by
    have hend' : .chunk true ∈ r.conts .rest := by
      simpa [Receiver.conts, Phase.conts] using hend
    obtain ⟨hk, _, hd⟩ := h.ending hend'
    exact ⟨hk, heof hend', hd⟩
  aborted := haborted
  gone := fun hd => absurd (hlive.symm.trans hd) Bool.false_ne_true
  detached := h.detached

theorem unread_clear (rx : Incoming) : (clear rx).unread = [] := rfl

theorem parked_clear (rx : Incoming) : Parked (clear rx).readHead (clear rx).pendingRead :=
  Or.inl ⟨rfl, rfl⟩

theorem Step.rep (hstep : Step c p r p' r') (h : r.Rep p) : r'.Rep p' := by
  cases hstep with
  | skip r k hskip =>
    exact
      { h with
        running := h.running
        alone := h.alone
        incoming := h.incoming
        pending := fun _ hactive hh => by
          rcases hskip with hnone | hactive'
          · exact absurd hnone hh
          · exact absurd (hactive.symm.trans hactive') Bool.false_ne_true
        credit := h.credit
        ending := h.ending }
  | enter r k handler hh hactive =>
    have hnone : loops r.frames = [] := by
      have hrunning := h.running
      rw [hactive] at hrunning
      exact List.length_eq_zero_iff.mp hrunning
    exact
      { running := by simp [Receiver.running, Phase.loops, hnone]
        alone := fun _ _ => hnone
        parked := h.parked
        incoming := h.incoming
        pending := fun _ hactive' => absurd hactive' (by simp)
        credit := by
          have hcredit := h.credit
          simp only [Receiver.running, Phase.loops, hnone] at hcredit ⊢
          exact hcredit
        ending := h.ending
        aborted := h.aborted
        gone := h.gone
        detached := h.detached }
  | data r n k handler hh hunread =>
    have hpass := h.pass (afterRead r.rx r.rx.readHandlerBuffer) rfl rfl
      (parked_afterRead h.parked _) (fun hne hnil => hne (by simp [afterRead, hnil]))
      (fun hnil => by rw [unread_afterRead h.parked, hnil, List.drop_nil])
      (.completeRead handler r.rx.readHandlerBuffer .success
        (readBytes r.rx r.rx.readHandlerBuffer)) rfl
    rwa [delivered_data] at hpass
  | eof r n k handler hh hread heof => exact h.pass_error handler .eof
  | truncated r n k handler hh hread heof hover hfair => exact h.pass_error handler .partialMessage
  | leave r n k hdone =>
    have hnone := h.loops_eq_nil
    exact
      { running := by simp [Receiver.running, Phase.loops, hnone]
        alone := fun _ _ => hnone
        parked := h.parked
        incoming := h.incoming
        pending := fun _ _ hh => by
          rcases hdone with hh' | ⟨hhead, hincoming, heof, _, haborted⟩
          · exact absurd hh' hh
          · exact ⟨(unread_eq_nil h.parked).mpr ⟨hhead, hincoming⟩, heof, haborted⟩
        credit := by
          have hcredit := h.credit
          simp only [Receiver.running, Phase.loops, hnone] at hcredit ⊢
          simpa using hcredit
        ending := h.ending
        aborted := h.aborted
        gone := h.gone
        detached := h.detached }
  | back r =>
    exact
      { h with
        running := h.running
        alone := by simp [Phase.conts]
        incoming := fun hne => by
          obtain ⟨fin, hfin⟩ := h.incoming hne
          exact ⟨fin, by simpa [Receiver.conts, Phase.conts] using hfin⟩
        pending := fun _ => h.pending (by simp)
        credit := h.credit
        ending := fun hend => h.ending (List.mem_cons_of_mem _ hend) }
  | park r =>
    obtain ⟨hunread, hparked, hincoming⟩ := unread_park h.parked
    obtain ⟨hactive, heof, hhandler⟩ := park_same r.rx
    have hnone := h.alone false List.mem_cons_self
    exact
      { running := by rw [hactive]; exact h.running
        alone := by simp [Phase.conts]
        parked := hparked
        incoming := fun hne => absurd hincoming hne
        pending := fun _ ha hh => by
          rw [hunread, heof]
          exact h.pending (by simp) (hactive ▸ ha) (hhandler ▸ hh)
        credit := h.credit
        ending := fun hend => absurd hend (by simp [Receiver.conts, Phase.conts, hnone])
        aborted := by rw [hunread]; exact h.aborted
        gone := by rw [hhandler]; exact h.gone
        detached := h.detached }
  | parkEnd r =>
    obtain ⟨hunread, hparked, hincoming⟩ := unread_park h.parked
    obtain ⟨hactive, _, hhandler⟩ := park_same r.rx
    have hnone := h.alone true List.mem_cons_self
    exact
      { running := by
          show _ = if (Receiver.park r.rx).callReadHandlerActive then 1 else 0
          rw [hactive]
          exact h.running
        alone := by simp [Phase.conts]
        parked := hparked
        incoming := fun hne => absurd hincoming hne
        pending := fun hp => absurd rfl (hp .caller)
        credit := h.credit
        ending := fun hend => absurd hend (by simp [Receiver.conts, Phase.conts, hnone])
        aborted := fun ha => ⟨(h.aborted ha).1, hunread.trans (h.aborted ha).2⟩
        gone := fun hd => ⟨hhandler.trans (h.gone hd).1, (h.gone hd).2⟩
        detached := h.detached }
  | again r n k frames hframes =>
    have hloops : loops r.frames = (n, k) :: loops frames := by rw [hframes]; rfl
    have hrunning : r.running .rest = (n, k) :: loops frames := hloops
    have hconts : r.conts .rest = k :: (loops frames).map Prod.snd := by
      simp [Receiver.conts, Phase.conts, hloops]
    have hactive : r.rx.callReadHandlerActive = true ∧ loops frames = [] := by
      have hlen := h.running
      rw [hrunning, List.length_cons] at hlen
      split at hlen
      case isTrue ha => exact ⟨ha, List.length_eq_zero_iff.mp (by omega)⟩
      case isFalse => omega
    exact
      { running := by rw [hactive.1]; exact congrArg (· + 1) (congrArg List.length hactive.2)
        alone := fun _ _ => hactive.2
        parked := h.parked
        incoming := fun hne => by
          obtain ⟨fin, hfin⟩ := h.incoming hne
          rw [hconts] at hfin
          exact ⟨fin, hfin⟩
        pending := fun _ ha => absurd (ha.symm.trans hactive.1) Bool.false_ne_true
        credit := by
          have hcredit := h.credit
          rw [hrunning] at hcredit
          exact hcredit
        ending := fun hend => h.ending (by rw [hconts]; exact hend)
        aborted := h.aborted
        gone := h.gone
        detached := h.detached }
  | cancel r handler hh =>
    exact h.stay rfl (Or.inr rfl) (by simp) (by simp) rfl rfl (Or.inr rfl)
      (fun hd => ⟨rfl, (h.gone hd).2⟩) h.detached
  | drop r hcalm hreader hfair =>
    exact
      { running := h.running
        alone := by simp [Phase.conts]
        parked := parked_clear r.rx
        incoming := fun hne => absurd rfl hne
        pending := fun hp ha hh => ⟨unread_clear r.rx, (h.pending hp ha hh).2⟩
        credit := h.credit
        ending := h.ending
        aborted := fun ha => ⟨(h.aborted ha).1, unread_clear r.rx⟩
        gone := fun hd => ⟨(h.gone hd).1, by simp⟩
        detached := fun _ hec => absurd hec (by simp) }
  | ended r hlive hframes hclosed heof haborted =>
    refine h.before rfl h.parked id (fun hend => absurd hend ?_) h.aborted rfl rfl hlive
    simp [Receiver.conts, Phase.conts, hframes, loops]
  | abort r hcalm hlive hkind heof hfair =>
    exact h.before rfl (parked_clear r.rx) (fun hne => absurd rfl hne) (fun _ => heof)
      (fun _ => ⟨hkind, unread_clear r.rx⟩) rfl rfl hlive
  | fail r ec handler hh hcalm hfair =>
    exact h.stay rfl (Or.inr rfl) (by simp) (by simp) rfl rfl (Or.inr rfl)
      (fun hd => ⟨rfl, (h.gone hd).2⟩) h.detached
  | close r closed hclosed hcalm =>
    exact h.stay rfl (Or.inl rfl) rfl rfl rfl rfl (Or.inr rfl) h.gone h.detached
  | failing r ec =>
    exact h.stay rfl (Or.inl rfl) rfl rfl rfl rfl (Or.inr rfl) h.gone h.detached
  | failed r ec frames hframes =>
    exact h.stay (by rw [hframes]; rfl) (Or.inl rfl) rfl rfl rfl rfl (Or.inr rfl) h.gone
      h.detached
  | destroy r hframes hlive =>
    have hnone : loops r.frames = [] := by rw [hframes]; rfl
    refine h.stay rfl (Or.inr rfl) ?_ ?_ rfl rfl (Or.inl hnone) ?_ (fun _ _ => rfl)
    · simp [detachAll]
    · simp [detachAll]
    · intro _
      refine ⟨rfl, ?_⟩
      dsimp only [detachAll]
      split
      · simp
      · assumption
  | release r hcalm hdestroyed =>
    exact h.stay rfl (Or.inl rfl) rfl rfl rfl rfl (Or.inr rfl)
      (fun hd => ⟨(h.gone hd).1, by simp⟩) (fun _ hec => absurd hec (by simp))
  | calls r cs hcs =>
    exact h.stay rfl (Or.inl rfl) (by simp [delivered_other hcs]) (by simp [credited_other hcs])
      rfl rfl (Or.inr rfl) h.gone h.detached

theorem Rep.arrive (h : r.Rep .rest) {data : List UInt8} {fin : Bool}
    (hlive : r.destroyed = false) (hframes : r.frames = []) (heof : r.rx.eofReceived = false)
    (haborted : r.kind ≠ .http3 → r.readAborted = false) (hfin : fin = true → r.kind ≠ .http3) :
    (r.arrive data).Rep (.calling (.chunk fin)) where
  running := h.running
  alone := fun _ _ => by
    show loops r.frames = []
    rw [hframes]
    rfl
  parked := h.parked
  incoming := fun _ => ⟨fin, List.mem_cons_self⟩
  pending := fun hp => absurd rfl (hp _)
  credit := h.credit
  ending := fun hend => by
    have hcont : fin = true := by
      simpa [Receiver.conts, Phase.conts, Receiver.arrive, hframes, loops, eq_comm] using hend
    exact ⟨hfin hcont, heof, hlive⟩
  aborted := fun ha => absurd ((haborted (h.aborted ha).1).symm.trans ha) Bool.false_ne_true
  gone := fun hd => absurd (hlive.symm.trans hd) Bool.false_ne_true
  detached := h.detached

theorem Rep.live_of_attached (h : r.Rep p) (hreader : r.reader = .attached) :
    r.destroyed = false := by
  by_contra hd
  exact (h.gone ((Bool.not_eq_false _).mp hd)).2 hreader

theorem Rep.arm (h : r.Rep .rest) (hreader : r.reader = .attached) (handler : Handler)
    (size : Nat) : (r.arm handler size).Rep (.calling .caller) :=
  h.before rfl h.parked id (fun hend => (h.ending hend).2.1) h.aborted (by simp) (by simp)
    (h.live_of_attached hreader)

theorem Rep.answer (h : r.Rep .rest) (handler : Handler) (size : Nat) (ec : ErrorCode) :
    (r.call (.completeRead handler size ec [])).Rep .rest :=
  h.stay rfl (Or.inl rfl) (by simp [Receiver.call]) (by simp [Receiver.call]) rfl rfl (Or.inr rfl)
    h.gone h.detached

theorem Steps.rep (hsteps : Steps c p r p' r') (h : r.Rep p) : r'.Rep p' := by
  induction hsteps with
  | refl => exact h
  | cons hstep _ ih => exact ih (hstep.rep h)

/-- **The representation invariant is kept by every action.** -/
theorem Turn.rep {a : Act} (hturn : Turn c r a r') (h : r.Rep .rest) : r'.Rep .rest := by
  cases hturn with
  | arrive data fin hdata hlive hframes hclosed heof haborted hfin hsteps =>
    exact hsteps.rep (h.arrive hlive hframes heof haborted hfin)
  | read handler size hsize hreader hh hsteps => exact hsteps.rep (h.arm hreader handler size)
  | answer handler size ec => exact h.answer handler size ec
  | steps hsteps => exact hsteps.rep h

end Receiver

end AnyHttp.Quic
