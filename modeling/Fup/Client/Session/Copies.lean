/-
# How often a packet is sent

A worker chooses a packet while its entry is clear and marks it behind its send. So
between two sends of one packet by the same worker the entry has been set and cleared
again, and only a RESEND clears it. In a session no RESEND is heard. Each worker then
sends a packet once at most, and what the network loses of these few datagrams is lost
for good.

For a packet, the workers that could still send it are counted: those that hold it
once it is marked, and before that all but those that are behind a send. A step never
adds to them, and a send takes one away.
-/

import Fup.Client.Session.Unheard
import Mathlib.Data.Fintype.Card

namespace Fup.Client

/-- A send of the packet was started. -/
def Event.sends (i : ℕ) : Event → Bool
  | .resend _ => false
  | .send j _ => j = i

/-- The worker has chosen the packet and not sent it yet. -/
def TransmitPc.holds (i : ℕ) : TransmitPc → Bool
  | .read j => j = i
  | .send j _ => j = i
  | _ => false

/-- The worker is behind a send: of this packet, or one that has thrown. -/
def TransmitPc.hasSent (i : ℕ) : TransmitPc → Bool
  | .mark j => j = i
  | .exited (.threw _) => true
  | _ => false

theorem TransmitPc.hasSent_mark (i : ℕ) : (TransmitPc.mark i).hasSent i = true :=
  decide_eq_true rfl

/-- A worker that holds a packet is not behind a send of it. -/
theorem TransmitPc.hasSent_of_holds {pc : TransmitPc} {i : ℕ} (holds : pc.holds i = true) :
    pc.hasSent i = false := by
  cases pc <;> first | rfl | cases holds

theorem countP_sends_cons (i j : ℕ) (packet : Packet) (history : List Event) :
    (Event.send j packet :: history).countP (Event.sends i) =
      history.countP (Event.sends i) + if j = i then 1 else 0 := by
  rw [List.countP_cons, Event.sends]
  simp only [decide_eq_true_eq]

namespace Transmission

variable {ι : Type}

/-- The worker could still send the packet if no RESEND came. -/
def Open (i : ℕ) (s : Transmission ι) (w : ι) : Prop :=
  if s.packetsToSend[i]? = some true then (s.workers w).holds i = true
  else (s.workers w).hasSent i = false

instance (i : ℕ) (s : Transmission ι) : DecidablePred (s.Open i) := fun _ => by
  unfold Open
  infer_instance

/-- How often the packet was sent, and how many workers could still send it. -/
def weight [Fintype ι] (i : ℕ) (s : Transmission ι) : ℕ :=
  s.history.countP (Event.sends i) + (Finset.univ.filter (s.Open i)).card

section Steps

variable [Fintype ι] {i : ℕ} {s t : Transmission ι}

omit [Fintype ι] in
/-- Events are added in front. -/
theorem history_isSuffix_of_step [DecidableEq ι] {sender : Sender} {file : List Byte}
    {packetCount : ℕ} {move : Move ι}
    (moved : (system sender file packetCount).step s move = some t) : s.history <:+ t.history := by
  cases move with
  | transmit w sendFault =>
    cases transmits_of_transmit moved with
    | sends => exact List.suffix_cons _ _
    | _ => exact List.suffix_rfl
  | listen answer =>
    cases listens_of_listen moved with
    | resends => exact List.suffix_cons _ _
    | _ => exact List.suffix_rfl

theorem weight_start_le (file : List Byte) (packetCount : ℕ) :
    weight i (start file packetCount : Transmission ι) ≤ Fintype.card ι := by
  rw [weight, start, List.countP_nil, Nat.zero_add]
  exact Finset.card_le_univ _

/-- A step that sends nothing and opens nobody. -/
theorem weight_le_of_open
    (unsent : t.history.countP (Event.sends i) = s.history.countP (Event.sends i))
    (opens : ∀ w, t.Open i w → s.Open i w) : t.weight i ≤ s.weight i := by
  have fewer : (Finset.univ.filter (t.Open i)).card ≤ (Finset.univ.filter (s.Open i)).card :=
    Finset.card_le_card (Finset.monotone_filter_right _ fun w _ => opens w)
  rw [weight, weight, unsent]
  exact Nat.add_le_add_left fewer _

/-- A send by a worker that was open and is not open any more. -/
theorem weight_le_of_send {w : ι}
    (sent : t.history.countP (Event.sends i) = s.history.countP (Event.sends i) + 1)
    (before : s.Open i w) (after : ¬ t.Open i w) (opens : ∀ v, t.Open i v → s.Open i v) :
    t.weight i ≤ s.weight i := by
  have fewer : (Finset.univ.filter (t.Open i)).card < (Finset.univ.filter (s.Open i)).card := by
    apply Finset.card_lt_card
    rw [Finset.ssubset_iff_of_subset (Finset.monotone_filter_right _ fun v _ => opens v)]
    exact ⟨w, Finset.mem_filter.mpr ⟨Finset.mem_univ w, before⟩,
      fun listed => after (Finset.mem_filter.mp listed).2⟩
  rw [weight, weight]
  omega

variable [DecidableEq ι] {w : ι} {pc : TransmitPc}

omit [Fintype ι] in
/-- Where the table stays as it is, a worker that goes on opens nobody else, and itself
only if its new place does. -/
theorem open_of_goto (workers : t.workers = (s.goto w pc).workers)
    (table : t.packetsToSend = s.packetsToSend)
    (holding : pc.holds i = true → (s.workers w).holds i = true)
    (behind : pc.hasSent i = false → (s.workers w).hasSent i = false) (v : ι)
    (opened : t.Open i v) :
    s.Open i v := by
  rw [Open, workers, table, workers_goto] at opened
  rw [Open]
  by_cases same : v = w
  · subst same
    rw [if_pos rfl] at opened
    by_cases marked : s.packetsToSend[i]? = some true
    · rw [if_pos marked] at opened ⊢
      exact holding opened
    · rw [if_neg marked] at opened ⊢
      exact behind opened
  · rwa [if_neg same] at opened

/-- A worker that sends nothing and leaves the table alone. -/
theorem weight_le_of_goto (workers : t.workers = (s.goto w pc).workers)
    (table : t.packetsToSend = s.packetsToSend) (events : t.history = s.history)
    (holding : pc.holds i = true → (s.workers w).holds i = true)
    (behind : pc.hasSent i = false → (s.workers w).hasSent i = false) :
    t.weight i ≤ s.weight i :=
  weight_le_of_open (by rw [events]) (open_of_goto workers table holding behind)

/-- A worker that sends the packet was open, and is behind its send. -/
theorem weight_le_of_sends {j : ℕ} {packet : Packet} {buffer : List Byte}
    (located : s.workers w = .send j buffer) (sent : pc.hasSent j = true)
    (dropped : pc.holds j = false)
    (elsewhere : ∀ k, k ≠ j → pc.holds k = false)
    (workers : t.workers = (s.goto w pc).workers) (table : t.packetsToSend = s.packetsToSend)
    (events : t.history = .send j packet :: s.history) : t.weight i ≤ s.weight i := by
  have opens : ∀ v, t.Open i v → s.Open i v := by
    refine open_of_goto workers table (fun holding => ?_) fun _ => by rw [located]; rfl
    by_cases same : i = j
    · rw [same, dropped] at holding
      cases holding
    · rw [elsewhere i same] at holding
      cases holding
  by_cases same : j = i
  · subst same
    have before : s.Open j w := by
      rw [Open, located]
      split_ifs
      · exact decide_eq_true rfl
      · rfl
    have after : ¬ t.Open j w := by
      rw [Open, workers, workers_goto, if_pos rfl, sent, dropped]
      split_ifs <;> simp
    refine weight_le_of_send ?_ before after opens
    rw [events, countP_sends_cons, if_pos rfl]
  · refine weight_le_of_open ?_ opens
    rw [events, countP_sends_cons, if_neg same, Nat.add_zero]

/-- A worker that marks its packet closes it for all that do not hold it. -/
theorem weight_marks_le {j : ℕ} (located : s.workers w = .mark j)
    (inside : j < s.packetsToSend.length) :
    weight i { s.goto w .checkStop with packetsToSend := s.packetsToSend.set j true } ≤
      s.weight i := by
  refine weight_le_of_open rfl fun v opened => ?_
  rw [Open] at opened ⊢
  by_cases same : j = i
  · subst same
    rw [if_pos (by simp [inside])] at opened
    have opened : ((s.goto w .checkStop).workers v).holds j = true := opened
    rw [workers_goto] at opened
    split_ifs at opened with here
    · cases opened
    · split_ifs
      · exact opened
      -- A worker that holds the packet has not sent it.
      · exact TransmitPc.hasSent_of_holds opened
  · have entry : (s.packetsToSend.set j true)[i]? = s.packetsToSend[i]? :=
      List.getElem?_set_ne same
    simp only [entry] at opened
    have opened : if s.packetsToSend[i]? = some true
        then ((s.goto w .checkStop).workers v).holds i = true
        else ((s.goto w .checkStop).workers v).hasSent i = false := opened
    rw [workers_goto] at opened
    by_cases here : v = w
    · rw [here, located]
      rw [if_pos here] at opened
      split_ifs at opened ⊢
      · cases opened
      · exact decide_eq_false same
    · rwa [if_neg here] at opened

/-- A worker's block. -/
theorem weight_transmits_le {sender : Sender} {packetCount : ℕ} (inTable : InTable packetCount s)
    (moved : Transmits sender s w t) : t.weight i ≤ s.weight i := by
  cases moved with
  | checks located =>
    refine weight_le_of_goto rfl rfl rfl ?_ fun _ => by rw [located]; rfl
    split_ifs <;> exact fun holding => by cases holding
  | waits located marked =>
    exact weight_le_of_goto rfl rfl rfl (fun holding => by cases holding) fun _ => by rw [located]; rfl
  | chooses j located unsent first =>
    refine weight_le_of_open rfl fun v opened => ?_
    rw [Open] at opened ⊢
    have opened : if s.packetsToSend[i]? = some true
        then ((s.goto w (.read j)).workers v).holds i = true
        else ((s.goto w (.read j)).workers v).hasSent i = false := opened
    rw [workers_goto] at opened
    by_cases here : v = w
    · rw [here, located]
      rw [if_pos here] at opened
      split_ifs at opened ⊢ with marked
      -- The chosen packet is not marked, so it is another one than this.
      · rw [of_decide_eq_true opened] at unsent
        cases marked.symm.trans unsent
      · rfl
    · rwa [if_neg here] at opened
  | runsDry j located nothing =>
    exact weight_le_of_goto rfl rfl rfl (fun holding => by cases holding) fun _ => by rw [located]; rfl
  | reads j located something =>
    exact weight_le_of_goto rfl rfl rfl (fun holding => by rw [located]; exact holding)
      fun _ => by rw [located]; rfl
  | sends j buffer pc located outcome =>
    rcases outcome with rfl | ⟨failure, rfl⟩
    · exact weight_le_of_sends located (TransmitPc.hasSent_mark j) rfl (fun _ _ => rfl) rfl rfl rfl
    · exact weight_le_of_sends located rfl rfl (fun _ _ => rfl) rfl rfl rfl
  | marks j located =>
    have inside := inTable.chosen w j (by rw [located]; rfl)
    exact weight_marks_le located (inTable.size ▸ inside)

/-- As long as no RESEND is handled, a step adds nothing. -/
theorem weight_step_le {sender : Sender} {file : List Byte} {packetCount : ℕ} {move : Move ι}
    (inTable : InTable packetCount s) (quiet : ∀ j, .resend j ∉ t.history)
    (moved : (system sender file packetCount).step s move = some t) :
    t.weight i ≤ s.weight i := by
  cases move with
  | transmit w sendFault => exact weight_transmits_le inTable (transmits_of_transmit moved)
  | listen answer =>
    cases listens_of_listen moved with
    | resends message seqId => exact absurd List.mem_cons_self (quiet seqId.toNat)
    | goes pc => exact weight_le_of_open rfl fun _ => id
    | stops => exact weight_le_of_open rfl fun _ => id

end Steps

end Transmission

namespace Session

variable {ι : Type} [Fintype ι] [DecidableEq ι] {ends : Ends}

/-- How often the packet has been sent. -/
def copies (i : ℕ) (s : Session ι) : ℕ := s.transmission.history.countP (Event.sends i)

omit [Fintype ι] in
theorem copies_le_of_step {i : ℕ} {s t : Session ι} {move : SessionMove ι}
    (moved : (system ends).step s move = some t) : s.copies i ≤ t.copies i := by
  rcases (moves_of_step moved).transmission_step with same | ⟨move, followed⟩
  · rw [copies, copies, same]
  · exact (Transmission.history_isSuffix_of_step followed).sublist.countP_le

omit [Fintype ι] in
theorem inTable_of_reachable {s : Session ι} (reached : (system ends).Reachable s) :
    s.transmission.InTable ends.packetCount.toNat := by
  apply (transmission_of_reachable reached).invariant
  · rintro _ rfl
    exact Transmission.inTable_start ends.file ends.packetCount.toNat
  · exact fun _ _ _ inTable moved => inTable.step moved

theorem weight_step_le {i : ℕ} {s t : Session ι} {move : SessionMove ι}
    (reached : (system ends).Reachable s) (moved : (system ends).step s move = some t) :
    t.transmission.weight i ≤ s.transmission.weight i := by
  rcases (moves_of_step moved).transmission_step with same | ⟨move, followed⟩
  · rw [same]
  · exact Transmission.weight_step_le (inTable_of_reachable reached)
      (deaf_of_reachable (reached.step moved)).resends followed

theorem weight_exec_le {i : ℕ} {s t : Session ι} {moves : List (SessionMove ι)}
    (reached : (system ends).Reachable s) (run : (system ends).exec s moves = some t) :
    s.copies i ≤ t.copies i ∧ t.transmission.weight i ≤ s.transmission.weight i := by
  induction moves generalizing s with
  | nil =>
    rw [StepSystem.exec_nil, Option.some_inj] at run
    exact run ▸ ⟨le_rfl, le_rfl⟩
  | cons move moves ih =>
    obtain ⟨r, moved, rest⟩ := Option.bind_eq_some_iff.mp run
    obtain ⟨more, fewer⟩ := ih (reached.step moved) rest
    exact ⟨(copies_le_of_step moved).trans more, fewer.trans (weight_step_le reached moved)⟩

/-- A packet is sent at most once for each worker, and no more at all from when it is
marked and no worker holds it. -/
structure SentOnce (i : ℕ) (s t : Session ι) : Prop where
  atMost : t.copies i ≤ Fintype.card ι
  settled : s.transmission.packetsToSend[i]? = some true →
    (∀ w, (s.transmission.workers w).holds i = false) → t.copies i = s.copies i

/-- However a session goes on. What the network has lost of a settled packet is lost for
good. -/
theorem sentOnce_of_exec {s t : Session ι} {moves : List (SessionMove ι)}
    (reached : (system ends).Reachable s) (run : (system ends).exec s moves = some t) (i : ℕ) :
    SentOnce i s t := by
  obtain ⟨more, fewer⟩ := weight_exec_le (i := i) reached run
  have sent : t.copies i ≤ t.transmission.weight i := Nat.le_add_right _ _
  refine ⟨?_, fun marked nobody => ?_⟩
  · obtain ⟨_, before, rfl, came⟩ := reached
    have began : (system ends).Reachable (start ends : Session ι) := ⟨_, [], rfl, rfl⟩
    have whole := (weight_exec_le (i := i) began came).2
    exact sent.trans (fewer.trans (whole.trans
      (Transmission.weight_start_le ends.file ends.packetCount.toNat)))
  · -- Nobody is left who could send it.
    have closed : Finset.univ.filter (s.transmission.Open i) = ∅ := by
      refine Finset.filter_false_of_mem fun w _ opened => ?_
      rw [Transmission.Open, if_pos marked, nobody w] at opened
      cases opened
    have rest : s.transmission.weight i = s.copies i := by
      rw [Transmission.weight, closed, Finset.card_empty, Nat.add_zero, copies]
    exact Nat.le_antisymm (sent.trans (rest ▸ fewer)) more

/-- The worker of the session of one byte marks its packet, which is settled then. -/
theorem sentOnce_oneByteSent :
    ∃ s t : Session Unit, (system oneByteEnds).exec (start oneByteEnds) (oneByteSent ++
        [.transmit () none]) = some s ∧
      (system oneByteEnds).exec s [.transmit () none, .transmit () none] = some t ∧
      s.transmission.packetsToSend = [true] ∧ s.copies 0 = 1 ∧ SentOnce 0 s t := by
  have ends : ((system oneByteEnds).exec (start oneByteEnds) (oneByteSent ++
      [.transmit () none])).map (fun s => (s.transmission.packetsToSend, s.copies 0)) =
        some ([true], 1) := by decide +kernel
  have goes : ((system oneByteEnds).exec (start oneByteEnds) ((oneByteSent ++
      [.transmit () none]) ++ [.transmit () none, .transmit () none])).isSome := by
    decide +kernel
  obtain ⟨s, run, values⟩ := Option.map_eq_some_iff.mp ends
  obtain ⟨marked, once⟩ := Prod.mk.inj values
  obtain ⟨t, whole⟩ := Option.isSome_iff_exists.mp goes
  obtain ⟨r, first, rest⟩ := StepSystem.exec_append_eq_some.mp whole
  obtain rfl := Option.some.inj (first.symm.trans run)
  exact ⟨r, t, run, rest, marked, once, sentOnce_of_exec ⟨_, _, rfl, run⟩ rest 0⟩

end Session

end Fup.Client
