/-
# No question is ever heard

The RESENDs of the receiving end, and the ACK or ABORT that ends a transfer, have
bodies that are shorter than a header. `TcpWrapper::Receive` decodes a body from
behind the size of a header, so such a body is read from behind its end. However the
bytes arrive, the first call of `Receive` that gets somewhere ends with a failure, and
the listener with it.

So no entry of the upload's table is ever cleared and the stop signal is never set. A
packet that is marked stays marked, whatever became of its datagram.
-/

import Fup.Client.Session.Delivery
import Fup.TcpLink.Garbled

namespace Fup

namespace Client

open TcpWrapper (Receiving Short)

/-- A RESEND is a short message. -/
theorem Ends.short_request (ends : Ends) (order : ByteOrder) (seqId : SequenceId) :
    Short order (ends.request seqId) := by
  set header : Header := ⟨ends.version, ends.connectionId, .resend, 8⟩ with headerIs
  have encoded := Resend.serialize_eq ends.receiverOrder ⟨seqId⟩
  have width : (Resend.wire ⟨seqId⟩).length = 8 := FixedWidth.length_highFirst 8 _
  have carried : (Message.mk header (some (.resend ⟨seqId⟩))).body = some (.resend ⟨seqId⟩) := rfl
  have small : (8 : UInt64).toNat < 2 ^ 63 := by decide
  have whole := Message.serialize_eq ends.receiverOrder carried
    (congrArg Except.ok encoded) width small
  have bytes : ends.request seqId = header.wire ends.receiverOrder ++ Resend.wire ⟨seqId⟩ := by
    rw [Ends.request]
    exact congrArg Ends.passed whole
  have short : (8 : UInt64).toNat < Header.size := by decide
  rw [bytes]
  exact TcpWrapper.short_wire _ order _ short

/-- So is an answer without a body. -/
theorem Ends.short_answer (ends : Ends) (order : ByteOrder) (keyword : Keyword) :
    Short order (ends.answer keyword) := by
  set header : Header := ⟨ends.version, ends.connectionId, keyword, 0⟩ with headerIs
  have carried : (Message.mk header (some .base)).body = some .base := rfl
  have encoded : Body.serialize ends.receiverOrder .base = .ok (Buffer.fill 0 0) := rfl
  have whole := Message.serialize_eq ends.receiverOrder carried encoded rfl (by decide)
  have bytes : ends.answer keyword = header.wire ends.receiverOrder ++ [] := by
    rw [Ends.answer, TcpWrapper.frame]
    exact congrArg Ends.passed whole
  have short : (0 : UInt64).toNat < Header.size := by decide
  rw [bytes]
  exact TcpWrapper.short_wire _ order _ short

namespace Session

variable {ι : Type} {ends : Ends}

/-! ### The bytes of the connection -/

/-- The bytes of the connection that no call of `Receive` is done with. -/
def pending (s : Session ι) : List Byte :=
  (s.current.elim [] Prod.snd) ++ s.buffered ++ s.inFlight

/-- As long as the listener lives, the bytes on the connection begin with a short
message or a part of one, and a call of `Receive` has the state of the bytes it has
consumed. -/
structure Waits (ends : Ends) (s : Session ι) : Prop where
  short : Header.size ≤ s.pending.length → Short ends.senderOrder s.pending
  whole : s.broken = false → s.pending = [] ∨ Header.size ≤ s.pending.length
  located : ∀ receiving consumed, s.current = some (receiving, consumed) →
    receiving = Receiving.after ends.senderOrder consumed

/-- Bytes behind a whole message, or in front of which there is nothing, leave the
first message short. -/
theorem Waits.short_append {s : Session ι} (waits : Waits ends s) (sound : s.broken = false)
    {rest : List Byte} (next : Header.size ≤ rest.length → Short ends.senderOrder rest)
    (enough : Header.size ≤ (s.pending ++ rest).length) :
    Short ends.senderOrder (s.pending ++ rest) := by
  rcases waits.whole sound with nothing | inside
  · rw [nothing, List.nil_append] at enough ⊢
    exact next enough
  · refine ⟨enough, ?_⟩
    rw [Header.read_append _ inside]
    exact (waits.short inside).2

/-- A step that only moves bytes. -/
theorem Waits.of_pending {s t : Session ι} (waits : Waits ends s)
    (pending : t.pending = s.pending) (broken : t.broken = s.broken)
    (located : ∀ receiving consumed, t.current = some (receiving, consumed) →
      receiving = Receiving.after ends.senderOrder consumed) : Waits ends t :=
  ⟨pending ▸ waits.short, broken ▸ pending ▸ waits.whole, located⟩

/-- A step that writes a short message. -/
theorem Waits.of_append {s t : Session ι} (waits : Waits ends s) (sound : s.broken = false)
    {frame : List Byte} (short : Short ends.senderOrder frame)
    (pending : t.pending = s.pending ++ frame) (current : t.current = s.current) :
    Waits ends t := by
  refine ⟨fun enough => ?_, fun _ => Or.inr ?_, current ▸ waits.located⟩
  · rw [pending] at enough ⊢
    exact waits.short_append sound (fun _ => short) enough
  · rw [pending, List.length_append]
    exact Nat.le_add_left_of_le short.1

/-- A part of a short message is short as far as it has a header. -/
theorem short_of_part {order : ByteOrder} {bytes frame : List Byte} (short : Short order frame)
    (part : bytes <+: frame) (enough : Header.size ≤ bytes.length) : Short order bytes := by
  obtain ⟨rest, rfl⟩ := part
  exact ⟨enough, Header.read_append order enough rest ▸ short.2⟩

/-- A step that writes a part of a short message, the last thing it writes. -/
theorem Waits.of_part {s t : Session ι} (waits : Waits ends s) {frame bytes : List Byte}
    (short : Short ends.senderOrder frame) (part : bytes <+: if s.broken then [] else frame)
    (pending : t.pending = s.pending ++ bytes) (current : t.current = s.current)
    (broken : t.broken = true) : Waits ends t := by
  refine ⟨fun enough => ?_, fun sound => absurd (sound.symm.trans broken) Bool.false_ne_true,
    current ▸ waits.located⟩
  rw [pending] at enough ⊢
  by_cases before : s.broken = true
  · rw [if_pos before] at part
    rw [List.prefix_nil.mp part, List.append_nil] at enough ⊢
    exact waits.short enough
  · rw [if_neg before] at part
    exact waits.short_append (Bool.eq_false_iff.mpr before) (short_of_part short part) enough

/-- A `recv` moves bytes from the socket to the call. -/
theorem recv_append_drop (receiving : Receiving) (buffered : List Byte) :
    receiving.recv buffered ++ buffered.drop (receiving.recv buffered).length = buffered := by
  have front : receiving.recv buffered <+: buffered := List.take_prefix _ _
  exact List.prefix_iff_eq_append.mp front

/-! ### What the upload keeps -/

/-- No RESEND is handled in between, the stop signal is as it was, and what is marked
stays marked. -/
structure Keeps (s t : Transmission ι) : Prop where
  resends : ∀ i, .resend i ∈ t.history → .resend i ∈ s.history
  stop : t.stop = s.stop
  marks : ∀ i : ℕ, s.packetsToSend[i]? = some true → t.packetsToSend[i]? = some true

theorem keeps_refl (s : Transmission ι) : Keeps s s := ⟨fun _ => id, rfl, fun _ => id⟩

theorem Keeps.trans {s t u : Transmission ι} (first : Keeps s t) (second : Keeps t u) :
    Keeps s u :=
  ⟨fun i listed => first.resends i (second.resends i listed), second.stop.trans first.stop,
    fun i marked => second.marks i (first.marks i marked)⟩

/-- A worker may mark a packet, and nothing else changes. -/
theorem keeps_of_transmits [DecidableEq ι] {sender : Sender} {s t : Transmission ι} {w : ι}
    (moved : Transmission.Transmits sender s w t) :
    Keeps s t ∧ t.listener = s.listener := by
  cases moved with
  | sends nextSeqId buffer pc located outcome =>
    refine ⟨⟨fun i listed => ?_, rfl, fun _ => id⟩, rfl⟩
    rcases List.mem_cons.mp listed with latest | before
    · cases latest
    · exact before
  | marks nextSeqId located =>
    refine ⟨⟨fun _ => id, rfl, fun i marked => ?_⟩, rfl⟩
    change (s.packetsToSend.set nextSeqId true)[i]? = some true
    rw [List.getElem?_set]
    split_ifs with same inside
    · rfl
    · rw [← same, List.getElem?_eq_none (Nat.le_of_not_lt inside)] at marked
      cases marked
    · exact marked
  | checks | waits | chooses | runsDry | reads => exact ⟨⟨fun _ => id, rfl, fun _ => id⟩, rfl⟩

/-- A listener that has ended stays so. -/
theorem alive_of_listen {s t : Transmission ι} {answer : Answer} (moved : s.listen answer = some t)
    (failure : Option Failure) : s.listener ≠ .ended failure := by
  intro ended
  simp only [Transmission.listen, ended, reduceCtorEq] at moved

/-- A listener that has no message in hand, and gets none, changes nothing it shares.
It goes on or fails. -/
theorem keeps_of_hears {s t : Transmission ι} {answer : Answer}
    (empty : ∀ message, s.listener ≠ .handling message) (running : s.stop = false)
    (nothing : ∀ message, answer ≠ .received (.ok message))
    (moved : Transmission.Hears s answer t) :
    Keeps s t ∧ (∀ message, t.listener ≠ .handling message) ∧ t.listener ≠ .ended none := by
  cases moved with
  | receives message => exact absurd rfl (nothing message)
  | resends message _ located => exact absurd located (empty message)
  | resendsBeyond message _ located => exact absurd located (empty message)
  | acks message located => exact absurd located (empty message)
  | aborts message located => exact absurd located (empty message)
  | ignores message located => exact absurd located (empty message)
  | handleFails message _ located => exact absurd located (empty message)
  | checks located =>
    refine ⟨⟨fun _ => id, rfl, fun _ => id⟩, ?_⟩
    rw [if_neg (Bool.eq_false_iff.mp running)]
    exact ⟨fun message => ListenPc.noConfusion, ListenPc.noConfusion⟩
  | enters | quiet =>
    exact ⟨⟨fun _ => id, rfl, fun _ => id⟩, fun message => ListenPc.noConfusion,
      ListenPc.noConfusion⟩
  | setupFails failure | selectFails failure | receiveFails failure =>
    exact ⟨⟨fun _ => id, rfl, fun _ => id⟩, fun message => ListenPc.noConfusion,
      fun same => by cases same⟩

/-! ### The invariant -/

/-- No message is in the listener's hands, and if it has ended it has failed. -/
structure Deaf (ends : Ends) (s : Session ι) : Prop where
  resends : ∀ i, .resend i ∉ s.transmission.history
  running : s.transmission.stop = false
  empty : ∀ message, s.transmission.listener ≠ .handling message
  failed : s.transmission.listener ≠ .ended none
  waits : (∀ failure, s.transmission.listener ≠ .ended failure) → Waits ends s

theorem deaf_start : Deaf ends (start ends : Session ι) where
  resends _ listed := absurd listed List.not_mem_nil
  running := rfl
  empty _ := ListenPc.noConfusion
  failed := ListenPc.noConfusion
  waits _ := ⟨fun enough => absurd enough (Nat.not_succ_le_zero 14),
    fun _ => Or.inl rfl, fun _ _ located => by cases located⟩

/-- A step in which the upload keeps what it shares, with what holds of its listener
then. -/
theorem Deaf.of_keeps {s t : Session ι} (deaf : Deaf ends s)
    (keeps : Keeps s.transmission t.transmission)
    (empty : ∀ message, t.transmission.listener ≠ .handling message)
    (failed : t.transmission.listener ≠ .ended none)
    (waits : (∀ failure, t.transmission.listener ≠ .ended failure) → Waits ends t) :
    Deaf ends t :=
  ⟨fun i listed => deaf.resends i (keeps.resends i listed), keeps.stop.trans deaf.running, empty,
    failed, waits⟩

variable [DecidableEq ι]

theorem Deaf.moves {s t : Session ι} (deaf : Deaf ends s) (moved : Moves ends s t) :
    Keeps s.transmission t.transmission ∧ Deaf ends t := by
  have heard {answer : Answer} {transmission : Transmission ι}
      (nothing : ∀ message, answer ≠ .received (.ok message))
      (hears : s.transmission.listen answer = some transmission) :=
    keeps_of_hears deaf.empty deaf.running nothing (Transmission.hears_of_listen hears)
  cases moved with
  | transmits w sendFault transmission sent =>
    obtain ⟨keeps, listener⟩ := keeps_of_transmits (Transmission.transmits_of_transmit sent)
    refine ⟨keeps, deaf.of_keeps keeps ?_ ?_ ?_⟩
    · exact listener.symm ▸ deaf.empty
    · exact listener.symm ▸ deaf.failed
    · intro alive
      have waits := deaf.waits fun failure ended => alive failure (listener.trans ended)
      exact waits.of_pending rfl rfl waits.located
  | listens answer transmission idle other hears =>
    obtain ⟨keeps, empty, failed⟩ := heard (fun message => other (.ok message)) hears
    have waits := deaf.waits (alive_of_listen hears)
    exact ⟨keeps, deaf.of_keeps keeps empty failed fun _ =>
      waits.of_pending rfl rfl waits.located⟩
  | receives idle located readable =>
    refine ⟨keeps_refl _, deaf.of_keeps (keeps_refl _) deaf.empty deaf.failed fun alive => ?_⟩
    refine (deaf.waits alive).of_pending ?_ rfl ?_
    · rw [pending, pending, idle]
      rfl
    · intro receiving consumed begun
      obtain ⟨rfl, rfl⟩ := Prod.mk.inj (Option.some.inj begun)
      rfl
  | takes receiving next consumed current asking available taken =>
    refine ⟨keeps_refl _, deaf.of_keeps (keeps_refl _) deaf.empty deaf.failed fun alive => ?_⟩
    have waits := deaf.waits alive
    obtain rfl := waits.located receiving consumed current
    refine waits.of_pending ?_ rfl ?_
    · rw [pending, pending, current]
      simp only [Option.elim_some]
      rw [List.append_assoc consumed, recv_append_drop]
    · intro after bytes begun
      obtain ⟨rfl, rfl⟩ := Prod.mk.inj (Option.some.inj begun)
      -- The call asked for these bytes and got at least one.
      have nonempty : (Receiving.after ends.senderOrder consumed).recv s.buffered ≠ [] := by
        have limit : 0 < TcpWrapper.recvLimit := by decide
        have positive := List.length_pos_iff.mpr available
        rw [← List.length_pos_iff, Receiving.recv, List.length_take]
        exact lt_min (lt_min (Nat.pos_of_ne_zero asking) limit) positive
      have asked : ((Receiving.after ends.senderOrder consumed).recv s.buffered).length ≤
          (Receiving.after ends.senderOrder consumed).wants :=
        (List.length_take_le _ _).trans (min_le_left _ _)
      rw [Receiving.take_after ends.senderOrder nonempty asked] at taken
      exact (Except.ok.inj taken).symm
  | throws failure buffered transmission hears =>
    obtain ⟨keeps, empty, failed⟩ := heard (fun message => by simp) hears
    refine ⟨keeps, deaf.of_keeps keeps empty failed fun alive => ?_⟩
    -- The listener does not catch it.
    cases Transmission.hears_of_listen hears with
    | receiveFails => exact absurd rfl (alive (some failure))
  | decodes receiving consumed outcome transmission current returned hears =>
    have waits := deaf.waits (alive_of_listen hears)
    obtain rfl := waits.located receiving consumed current
    -- It has the first message, or a part of it with the header.
    have enough : Header.size ≤ consumed.length := by
      by_contra missing
      rw [Receiving.after_of_lt _ (Nat.lt_of_not_le missing)] at returned
      cases returned
    have part : consumed <+: s.pending := by
      rw [pending, current, Option.elim_some, List.append_assoc]
      exact List.prefix_append consumed _
    have short := short_of_part (waits.short (enough.trans part.length_le)) part enough
    obtain rfl := Receiving.result_of_short short returned
    obtain ⟨keeps, empty, failed⟩ := heard (fun message => by simp) hears
    refine ⟨keeps, deaf.of_keeps keeps empty failed fun alive => ?_⟩
    cases Transmission.hears_of_listen hears with
    | receiveFails => exact absurd rfl (alive (some .outOfBounds))
  | arrives k =>
    refine ⟨keeps_refl _, deaf.of_keeps (keeps_refl _) deaf.empty deaf.failed fun alive => ?_⟩
    refine (deaf.waits alive).of_pending ?_ rfl (deaf.waits alive).located
    rw [pending, pending]
    simp only [List.append_assoc, List.take_append_drop]
  | polls round t delivers polled =>
    have request := ends.short_request ends.senderOrder
    cases polled with
    | keeps nothing =>
      exact ⟨keeps_refl _, deaf.of_keeps (keeps_refl _) deaf.empty deaf.failed fun alive =>
        (deaf.waits alive).of_pending rfl rfl (deaf.waits alive).located⟩
    | asks seqId damaged sound =>
      exact ⟨keeps_refl _, deaf.of_keeps (keeps_refl _) deaf.empty deaf.failed fun alive =>
        (deaf.waits alive).of_append sound (request seqId)
          (List.append_assoc _ _ _).symm rfl⟩
    | fails seqId bytes damaged part =>
      exact ⟨keeps_refl _, deaf.of_keeps (keeps_refl _) deaf.empty deaf.failed fun alive =>
        (deaf.waits alive).of_part (request seqId) part (List.append_assoc _ _ _).symm rfl rfl⟩
  | replies keyword sound =>
    exact ⟨keeps_refl _, deaf.of_keeps (keeps_refl _) deaf.empty deaf.failed fun alive =>
      (deaf.waits alive).of_append sound (ends.short_answer ends.senderOrder keyword)
        (List.append_assoc _ _ _).symm rfl⟩

/-! ### Runs -/

/-- What the receiving end wants the upload to hear is not heard: no RESEND was handled,
no ACK has set the stop signal, and a listener that has ended has ended in a failure. -/
structure Unheard (s : Session ι) : Prop where
  resends : ∀ i, .resend i ∉ s.transmission.history
  running : s.transmission.stop = false
  failed : s.transmission.listener ≠ .ended none

theorem deaf_of_reachable {s : Session ι} (reached : (system ends).Reachable s) :
    Deaf ends s := by
  apply reached.invariant
  · rintro _ rfl
    exact deaf_start
  · intro s move t deaf moved
    exact (deaf.moves (moves_of_step moved)).2

theorem keeps_of_exec {s t : Session ι} {moves : List (SessionMove ι)}
    (reached : (system ends).Reachable s) (run : (system ends).exec s moves = some t) :
    Keeps s.transmission t.transmission := by
  induction moves generalizing s with
  | nil =>
    rw [StepSystem.exec_nil, Option.some_inj] at run
    exact run ▸ keeps_refl _
  | cons move moves ih =>
    obtain ⟨r, moved, rest⟩ := Option.bind_eq_some_iff.mp run
    have first := ((deaf_of_reachable reached).moves (moves_of_step moved)).1
    exact first.trans (ih (reached.step moved) rest)

/-- However a session goes on, its questions are not heard, and a packet that a worker
has marked as sent is never marked as missing again. -/
theorem unheard_of_exec {s t : Session ι} {moves : List (SessionMove ι)}
    (reached : (system ends).Reachable s) (run : (system ends).exec s moves = some t) :
    Unheard t ∧ ∀ i : ℕ, s.transmission.packetsToSend[i]? = some true →
      t.transmission.packetsToSend[i]? = some true := by
  have deaf := deaf_of_reachable (reached.exec run)
  exact ⟨⟨deaf.resends, deaf.running, deaf.failed⟩, (keeps_of_exec reached run).marks⟩

/-- The worker marks its packet, and the RESEND of it gets to the listener. -/
def damagedListened : List (SessionMove Unit) :=
  [.transmit () none, .listen (.setup none), .arrive 23, .receive, .recv, .recv, .decode]

/-- The theorem where the listener has ended over a RESEND. -/
theorem unheard_damagedListened :
    ∃ s t : Session Unit,
      (system damagedEnds).exec (start damagedEnds) damagedAsked = some s ∧
      (system damagedEnds).exec s damagedListened = some t ∧
      t.transmission.listener = .ended (some .outOfBounds) ∧ Unheard t ∧
        ∀ i : ℕ, s.transmission.packetsToSend[i]? = some true →
          t.transmission.packetsToSend[i]? = some true := by
  have ended : ((system damagedEnds).exec (start damagedEnds)
      (damagedAsked ++ damagedListened)).map (fun t => t.transmission.listener) =
        some (.ended (some .outOfBounds)) := by decide +kernel
  obtain ⟨t, whole, listener⟩ := Option.map_eq_some_iff.mp ended
  obtain ⟨s, first, rest⟩ := StepSystem.exec_append_eq_some.mp whole
  exact ⟨s, t, first, rest, listener,
    unheard_of_exec ⟨start damagedEnds, damagedAsked, rfl, first⟩ rest⟩

end Session

end Client

end Fup
