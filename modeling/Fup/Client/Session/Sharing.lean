/-
# Transfers that share a network

A UDP socket receives whatever is sent to it, and only the id in its header says which
transfer a datagram belongs to. Any number of transfers run here at the same time, and
the network may deliver the datagrams of each to the receiving end of any other. When
no two of them have the same id this is as good as a network for each: what happens in
one is what could have happened without the others. When two have the same id it is not.
-/

import Fup.Client.Session.Progress
import Fup.Lib.Family

namespace Fup.Client

/-- The datagram that a poll delivers. -/
def Poll.datagram? : Poll → Option (List Byte)
  | .datagram bytes => some bytes
  | _ => none

theorem Poll.eq_of_datagram? {poll : Poll} {bytes : List Byte}
    (same : poll.datagram? = some bytes) : poll = .datagram bytes := by
  cases poll with
  | datagram other => exact congrArg Poll.datagram (Option.some.inj same)
  | selectFailed | quiet | recvFailed => cases same

namespace Session

variable {ι : Type}

/-- A round of `ReceivePackets` on what its socket delivers, wherever that comes from. -/
def polled (ends : Ends) (s : Session ι) (round : Round) (written : ℕ) : Option (Session ι) :=
  match s.flow with
  | .running =>
    let after := ends.receiver.loopBody s.received round
    let next := { s with received := after.1, flow := after.2 }
    match ends.asks round, round.resend with
    | none, _ => some next
    | some seqId, .ok () =>
      if s.broken then none
      else some { next with
        inFlight := s.inFlight ++ ends.request seqId
        requested := s.requested ++ [seqId] }
    | some seqId, .error _ =>
      some { next with
        inFlight := if s.broken then s.inFlight
          else s.inFlight ++ (ends.request seqId).take written
        broken := true }
  | _ => none

/-- Alone a transfer polls its own datagrams and strays. -/
theorem poll_eq (ends : Ends) (s : Session ι) (round : Round) (written : ℕ) :
    s.poll ends round written =
      if s.Delivers ends round then s.polled ends round written else none := by
  unfold poll polled
  cases s.flow with
  | running => rfl
  | left | threw failure => exact (ite_self none).symm

theorem delivers_of_step [DecidableEq ι] {ends : Ends} {s t : Session ι} {round : Round}
    {written : ℕ} (moved : (system ends).step s (.poll round written) = some t) :
    s.Delivers ends round := (polls_of_poll moved).1

/-- A round that needs nothing of the connection, or finds it sound, is executed. -/
theorem exists_polled {ends : Ends} {s : Session ι} {poll : Poll} {stop : Bool}
    (running : s.flow = .running) (sound : s.broken = false) (written : ℕ) :
    ∃ t, s.polled ends ⟨poll, .ok (), stop⟩ written = some t := by
  rw [polled, running]
  dsimp only
  cases ends.asks ⟨poll, .ok (), stop⟩ with
  | none => exact ⟨_, rfl⟩
  | some seqId =>
    dsimp only
    rw [sound]
    exact ⟨_, rfl⟩

end Session

/-- Every host finds the id and the keyword in a datagram. -/
theorem Ends.stray_datagram_iff {ends other : Ends} (i : ℕ) :
    other.Stray (ends.transfer.datagram i) ↔ ends.connectionId ≠ other.connectionId := by
  have whole : (ends.transfer.sender.header.wire ends.transfer.senderOrder).length =
      Header.size := Header.length_wire _ _
  have read : Header.read other.receiverOrder (ends.transfer.datagram i) =
      Header.read other.receiverOrder
        (ends.transfer.sender.header.wire ends.transfer.senderOrder) := by
    rw [ends.transfer.datagram_eq, Header.read_append _ whole.ge]
  have enough : Header.size ≤ (ends.transfer.datagram i).length := by
    rw [ends.transfer.datagram_eq, List.length_append, whole]
    exact Nat.le_add_right _ _
  rw [Stray, read, Header.read_wire]
  constructor
  · intro stray
    exact (stray enough).resolve_right fun other => other rfl
  · intro apart _
    exact Or.inl apart

namespace Sharing

open Session (start)
open StepSystem (own)

variable {κ ι : Type} (ends : κ → Ends)

/-- A round polls what it may poll alone, or a datagram of any of the transfers. -/
def Delivers (s : κ → Session ι) (k : κ) (round : Round) : Prop :=
  (s k).Delivers (ends k) round ∨
    ∃ j, ∃ bytes ∈ (s j).network (ends j), round.poll.datagram? = some bytes

instance [Fintype κ] (s : κ → Session ι) (k : κ) (round : Round) :
    Decidable (Delivers ends s k round) :=
  inferInstanceAs (Decidable (_ ∨ _))

variable [Fintype κ] [DecidableEq κ] [DecidableEq ι]

/-- All interleavings of the transfers. -/
def system : StepSystem (κ → Session ι) (κ × SessionMove ι) where
  init s := s = fun k => start (ends k)
  step s move :=
    match move with
    | (k, .poll round written) =>
      if Delivers ends s k round then
        ((s k).polled (ends k) round written).map (Function.update s k)
      else none
    | (k, move) => ((Session.system (ends k)).step (s k) move).map (Function.update s k)

variable {ends}

/-- What a transfer can do alone it can do among the others. -/
theorem step_of_alone {s : κ → Session ι} {k : κ} {move : SessionMove ι} {next : Session ι}
    (moved : (Session.system (ends k)).step (s k) move = some next) :
    (system ends).step s (k, move) = some (Function.update s k next) := by
  cases move with
  | poll round written =>
    have moved : (s k).poll (ends k) round written = some next := moved
    rw [Session.poll_eq] at moved
    obtain ⟨alone, polled⟩ := Option.ite_none_right_eq_some.mp moved
    have delivers : Delivers ends s k round := Or.inl alone
    exact (if_pos delivers).trans (congrArg (Option.map _) polled)
  | _ => exact congrArg (Option.map _) moved

/-- What a transfer does among others with other ids it can do alone. -/
theorem alone_of_step {s t : κ → Session ι} {k : κ} {move : SessionMove ι}
    (distinct : Function.Injective fun k => (ends k).connectionId)
    (carries : ∀ j, Transmission.CarriesChunks (ends j).sender (ends j).file
      (ends j).packetCount.toNat (s j).transmission)
    (moved : (system ends).step s (k, move) = some t) :
    ∃ next, (Session.system (ends k)).step (s k) move = some next ∧
      t = Function.update s k next := by
  cases move with
  | poll round written =>
    obtain ⟨delivers, goes⟩ := Option.ite_none_right_eq_some.mp moved
    obtain ⟨next, polled, rfl⟩ := Option.map_eq_some_iff.mp goes
    refine ⟨next, ?_, rfl⟩
    have alone : (s k).Delivers (ends k) round := by
      rcases delivers with alone | ⟨j, bytes, listed, polls⟩
      · exact alone
      · rw [Session.Delivers, Poll.eq_of_datagram? polls]
        by_cases same : j = k
        · exact Or.inl (same ▸ listed)
        · -- A datagram of another transfer is a stray here.
          obtain ⟨i, -, -, sent⟩ :=
            @Session.exists_of_mem_network ι (ends j) (s j) (carries j) bytes listed
          refine Or.inr ?_
          rw [sent, Ends.stray_datagram_iff]
          exact fun clash => same (distinct clash)
    change (s k).poll (ends k) round written = some next
    rw [Session.poll_eq, if_pos alone]
    exact polled
  | _ =>
    obtain ⟨next, step, rfl⟩ := Option.map_eq_some_iff.mp moved
    exact ⟨next, step, rfl⟩

/-! ### Runs -/

/-- Every run of the transfers is a run of each, and runs of each in any order are a run
of all. -/
def Separate (ι : Type) [DecidableEq ι] (ends : κ → Ends) : Prop :=
  ∀ (moves : List (κ × SessionMove ι)) (t : κ → Session ι),
    (system ends).exec (fun k => start (ends k)) moves = some t ↔
      ∀ k, (Session.system (ends k)).exec (start (ends k)) (moves.filterMap (own k)) = some (t k)

theorem separate_of_injective (distinct : Function.Injective fun k => (ends k).connectionId) :
    Separate ι ends := by
  intro moves t
  constructor
  · intro run
    refine StepSystem.exec_own ?_ run
    intro before s k move t each moved
    exact alone_of_step distinct (fun j => Session.carries_of_exec (each j)) moved
  · intro each
    exact StepSystem.exec_of_own (fun _ _ _ _ moved => step_of_alone moved) each

omit [Fintype κ] [DecidableEq ι] in
theorem filterMap_own_map (j k : κ) (moves : List (SessionMove ι)) :
    (moves.map fun move => (j, move)).filterMap (own k) = if j = k then moves else [] := by
  rw [List.filterMap_map]
  split_ifs with same
  · subst same
    have each : own j ∘ (fun move : SessionMove ι => (j, move)) = some :=
      funext fun move => StepSystem.own_self j move
    rw [each, List.filterMap_some]
  · exact List.filterMap_eq_nil_iff.mpr fun move _ => StepSystem.own_of_ne same move

/-- The other transfers wait while one of them runs. -/
theorem exec_alone {j : κ} {moves : List (SessionMove ι)} {s : Session ι}
    (run : (Session.system (ends j)).exec (start (ends j)) moves = some s) :
    (system ends).exec (fun k => start (ends k)) (moves.map fun move => (j, move)) =
      some (Function.update (fun k => start (ends k)) j s) := by
  refine StepSystem.exec_of_own (fun _ _ _ _ moved => step_of_alone moved) fun k => ?_
  rw [filterMap_own_map]
  by_cases same : j = k
  · subst same
    rwa [if_pos rfl, Function.update_self]
  · rw [if_neg same, Function.update_of_ne (Ne.symm same)]
    rfl

/-- A transfer takes a packet of another that has its id. -/
theorem not_separate_of_clash [Fintype ι] [Nonempty ι] {j k : κ} (apart : j ≠ k)
    (clash : (ends j).connectionId = (ends k).connectionId) : ¬ Separate ι ends := by
  intro separate
  -- One sends all its packets before the other has sent any.
  obtain ⟨moves, s, run, sent⟩ := Session.exists_exec_sent (ι := ι) (ends j)
  have positive := (Transmission.Chunked.of_calculateTotalPacketCount (ends j).nonempty
    (ends j).describable (ends j).counted).positive
  have listed : (ends j).transfer.datagram 0 ∈ s.network (ends j) := by
    obtain ⟨packet, happened⟩ := sent 0 positive
    obtain ⟨-, rfl⟩ := (Session.carries_of_exec run).sent 0 packet happened
    exact List.mem_filterMap.mpr ⟨_, happened, Session.datagram_packetOf (ends j) 0⟩
  -- The other one polls the first of them.
  set u := Function.update (fun k => start (ends k)) j s with uIs
  have here : u j = s := Function.update_self ..
  have there : u k = start (ends k) := Function.update_of_ne (Ne.symm apart) ..
  set round : Round := ⟨.datagram ((ends j).transfer.datagram 0), .ok (), false⟩ with roundIs
  obtain ⟨next, taken⟩ : ∃ next, (u k).polled (ends k) round 0 = some next := by
    rw [there]
    exact Session.exists_polled rfl rfl 0
  have delivers : Delivers ends u k round := Or.inr ⟨j, _, here.symm ▸ listed, rfl⟩
  have moved : (system ends).step u (k, .poll round 0) = some (Function.update u k next) :=
    (if_pos delivers).trans (congrArg (Option.map _) taken)
  have joined := StepSystem.exec_snoc_eq_some.mpr ⟨u, exec_alone run, moved⟩
  -- Alone it could not have done that.
  have alone := (separate _ _).mp joined k
  rw [List.filterMap_append, filterMap_own_map, if_neg apart,
    List.filterMap_cons_some (StepSystem.own_self k _), List.filterMap_nil,
    List.nil_append] at alone
  obtain ⟨after, polled, -⟩ := Option.bind_eq_some_iff.mp alone
  have taken := Session.delivers_of_step polled
  rw [Session.Delivers, roundIs] at taken
  rcases taken with own | stray
  · exact absurd own List.not_mem_nil
  · exact (Ends.stray_datagram_iff 0).mp stray clash

/-- Transfers on one network are separate exactly when their ids are different. -/
theorem separate_iff [Fintype ι] [Nonempty ι] :
    Separate ι ends ↔ Function.Injective fun k => (ends k).connectionId := by
  refine ⟨fun separate j k clash => ?_, separate_of_injective⟩
  by_contra apart
  exact not_separate_of_clash apart clash separate

/-- Two transfers of one byte. -/
def sevenAndEight : Bool → Ends
  | false => Session.oneByteEnds
  | true => { Session.oneByteEnds with connectionId := 8 }

/-- The theorem for these two. -/
theorem separate_sevenAndEight : Separate Unit sevenAndEight := by
  apply separate_iff.mpr
  intro j k
  cases j <;> cases k <;> decide

end Sharing

end Fup.Client
