/-
# The stop signal and the end of the listener

The listener alone sets the stop signal, in the branch for an ACK, and returns
from there. It also ends on an ABORT, on an exception from any of its calls and
on a RESEND without a body, and none of these sets the signal.
-/

import Fup.Client.Transmission

namespace Fup.Client

namespace Transmission

variable {ι : Type}

/-- The listener has returned or thrown. After an access outside an object or
through a null pointer nothing is promised, and the listener does not count as
ended. -/
def Ended : ListenPc → Prop
  | .ended none => True
  | .ended (some (.exception _)) => True
  | _ => False

/-- Once the listener has ended, the stop signal is set. -/
def EndSignalled (s : Transmission ι) : Prop := Ended s.listener → s.stop = true

/-- A block of the listener that ends it without an ACK: a call throws, the
message is an ABORT or handling it throws. -/
def CutsShort (s : Transmission ι) : Answer → Prop
  | .setup fault => ∃ what, fault = some (.exception what)
  | .selectFailed _ => True
  | .quiet => False
  | .received outcome => ∃ what, outcome = .error (.exception what)
  | .internal => ∃ message, s.listener = .handling message ∧
      (dispatch message = .abort ∨ ∃ what, dispatch message = .threw (.exception what))

/-- The move is no block of the listener that cuts it short. -/
def RunsOn (s : Transmission ι) (move : Move ι) : Prop :=
  ∀ answer, move = .listen answer → ¬ CutsShort s answer

theorem ended_failure {failure : Failure} :
    Ended (.ended (some failure)) ↔ ∃ what, failure = .exception what := by
  cases failure <;> simp [Ended]

/-- Before the signal is set, a block of the listener sets it and returns, or
leaves it and ends the listener only by cutting it short. -/
theorem listen_cases {s t : Transmission ι} {answer : Answer} (running : s.stop = false)
    (moved : s.listen answer = some t) :
    (t.stop = true ∧ t.listener = .ended none ∧ ¬ CutsShort s answer) ∨
      t.stop = false ∧ (Ended t.listener ↔ CutsShort s answer) := by
  cases hears_of_listen moved with
  | acks message located kind => exact Or.inl ⟨rfl, rfl, by simp [CutsShort, located, kind]⟩
  | setupFails failure => exact Or.inr ⟨running, ended_failure.trans (by simp [CutsShort])⟩
  | receiveFails failure => exact Or.inr ⟨running, ended_failure.trans (by simp [CutsShort])⟩
  | handleFails message failure located kind =>
    exact Or.inr ⟨running, ended_failure.trans (by simp [CutsShort, located, kind])⟩
  | resends message seqId located kind _ =>
    exact Or.inr ⟨running, by simp [Ended, CutsShort, located, kind]⟩
  | resendsBeyond message seqId located kind =>
    exact Or.inr ⟨running, by simp [Ended, CutsShort, located, kind]⟩
  | aborts message located kind =>
    exact Or.inr ⟨running, by simp [Ended, CutsShort, located, kind]⟩
  | ignores message located kind =>
    exact Or.inr ⟨running, by simp [Ended, CutsShort, located, kind]⟩
  -- The check of the signal, which is still clear.
  | checks located => exact Or.inr ⟨running, by simp [Ended, CutsShort, running, located]⟩
  | enters | selectFails | quiet | receives =>
    exact Or.inr ⟨running, by simp [Ended, CutsShort]⟩

/-- The signal is set exactly when the listener has ended. -/
structure InStep (s : Transmission ι) : Prop where
  byListener : s.stop = true → s.listener = .ended none
  endSignalled : EndSignalled s

theorem inStep_start (file : List Byte) (packetCount : ℕ) :
    InStep (start file packetCount : Transmission ι) where
  byListener := fun stopped => absurd stopped Bool.false_ne_true
  endSignalled := fun ended => ended.elim

/-- A listener that goes on has not seen the signal. -/
theorem InStep.running {s t : Transmission ι} {answer : Answer} (inStep : InStep s)
    (moved : s.listen answer = some t) : s.stop = false := by
  rw [← Bool.not_eq_true]
  intro stopped
  simp only [listen, inStep.byListener stopped, reduceCtorEq] at moved

theorem InStep.listen {s t : Transmission ι} {answer : Answer} (inStep : InStep s)
    (on : ¬ CutsShort s answer) (moved : s.listen answer = some t) : InStep t := by
  rcases listen_cases (inStep.running moved) moved with ⟨stopped, ended, -⟩ | ⟨running, ends⟩
  · exact ⟨fun _ => ended, fun _ => stopped⟩
  · refine ⟨fun stopped => ?_, fun ended => absurd (ends.mp ended) on⟩
    exact absurd (running.symm.trans stopped) Bool.false_ne_true

/-- A block that cuts the listener short leaves the signal clear. -/
theorem InStep.unsignalled {s t : Transmission ι} {answer : Answer} (inStep : InStep s)
    (short : CutsShort s answer) (moved : s.listen answer = some t) : ¬ EndSignalled t := by
  intro signalled
  rcases listen_cases (inStep.running moved) moved with ⟨-, -, on⟩ | ⟨running, ends⟩
  · exact on short
  · exact Bool.false_ne_true (running.symm.trans (signalled (ends.mpr short)))

section Workers

variable [DecidableEq ι]

/-- The workers only read the signal. -/
theorem InStep.transmits {sender : Sender} {s t : Transmission ι} {w : ι} (inStep : InStep s)
    (moved : Transmits sender s w t) : InStep t := by
  cases moved <;> exact ⟨inStep.byListener, inStep.endSignalled⟩

/-- The end of the listener is signalled throughout a run exactly when no step
of the run cuts the listener short. -/
theorem throughout_endSignalled_iff {sender : Sender} {file : List Byte} {packetCount : ℕ}
    {moves : List (Move ι)} {t : Transmission ι}
    (run : (system sender file packetCount).exec (start file packetCount) moves = some t) :
    (system sender file packetCount).Throughout EndSignalled (start file packetCount) moves ↔
      (system sender file packetCount).Within RunsOn (start file packetCount) moves := by
  refine StepSystem.throughout_iff_within (inStep_start file packetCount) ?_
    (fun _ inStep => inStep.endSignalled) ?_ run
  · intro s move t inStep on moved
    cases move with
    | transmit w sendFault => exact inStep.transmits (transmits_of_transmit moved)
    | listen answer => exact inStep.listen (on answer rfl) moved
  · intro s move t inStep short moved
    simp only [RunsOn, not_forall, not_not, exists_prop] at short
    obtain ⟨answer, rfl, short⟩ := short
    exact inStep.unsignalled short moved

end Workers

end Transmission

end Fup.Client
