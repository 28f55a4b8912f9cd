import Backstep.Machine.Action
import Backstep.Proofs.Machine.StepLaws

/-!
A run as its first step and the run from there on. The status that a step leaves makes the run from
there check the breakpoint, so no flag has to be carried along.
-/

namespace Backstep.Machine.Processor

theorem stepWhile_asked (goOn : Processor → Bool) (budget asked : Nat) (resuming : Bool)
    (cpu : Processor) :
    stepWhile (fun _ => goOn) budget asked resuming cpu =
      stepWhile (fun _ => goOn) budget 0 resuming cpu := by
  induction budget generalizing asked resuming cpu with
  | zero => rfl
  | succ budget ih =>
    simp only [stepWhile]
    split
    · rfl
    split
    · rfl
    split
    · rw [ih (asked + 1), ih (0 + 1)]
    · rfl

theorem runWhile_of_live {goOn : Processor → Bool} {budget : Nat} {cpu : Processor}
    (live : cpu.status ≠ .halted) : cpu.runWhile goOn budget =
      stepWhile (fun _ => goOn) budget 0 (cpu.status == .stoppedAtBreakpoint) cpu := by
  rw [runWhile, runAsking, if_neg live]

theorem runWhile_zero {goOn : Processor → Bool} {cpu : Processor} (live : cpu.status ≠ .halted) :
    cpu.runWhile goOn 0 = (none, cpu) := by
  rw [runWhile_of_live live, stepWhile]

theorem run_of_halted {budget : Nat} {cpu : Processor} (halted : cpu.status = .halted) :
    cpu.run budget = (some (.ok .halted), cpu) := by
  rw [run, runWhile, runAsking, if_pos halted]

def stepThen (cpu : Processor) (rest : Processor → Option (Except Fault Signal) × Processor) :
    Option (Except Fault Signal) × Processor :=
  match cpu.step with
  | (.ok .stepped, after) => rest after
  | (outcome, after) => (some outcome, after)

theorem stepThen_error {cpu : Processor} {fault : Fault}
    {rest : Processor → Option (Except Fault Signal) × Processor} (live : cpu.status ≠ .halted)
    (h : cpu.state.advance = .error fault) : cpu.stepThen rest = (some (.error fault), cpu) := by
  rw [stepThen, step_error live h]

theorem stepThen_halt {cpu : Processor} {state : State}
    {rest : Processor → Option (Except Fault Signal) × Processor} (live : cpu.status ≠ .halted)
    (h : cpu.state.advance = .ok (state, true)) :
    cpu.stepThen rest = (some (.ok .halted), cpu.stepped state true) := by
  rw [stepThen, step_ok live h]
  rfl

theorem stepThen_next {cpu : Processor} {state : State}
    {rest : Processor → Option (Except Fault Signal) × Processor} (live : cpu.status ≠ .halted)
    (h : cpu.state.advance = .ok (state, false)) :
    cpu.stepThen rest = rest (cpu.stepped state false) := by
  rw [stepThen, step_ok live h]
  rfl

theorem runWhile_succ {goOn : Processor → Bool} {budget : Nat} {cpu : Processor}
    (live : cpu.status ≠ .halted) : cpu.runWhile goOn (budget + 1) =
      if goOn cpu = false then (some (.ok .interrupted), cpu)
      else if cpu.status ≠ .stoppedAtBreakpoint ∧ cpu.breakpoint = some cpu.pc then
        (some (.ok (.breakpointHit cpu.pc)), { cpu with status := .stoppedAtBreakpoint })
      else cpu.stepThen (·.runWhile goOn budget) := by
  rw [runWhile_of_live live, stepWhile]
  simp only [beq_eq_false_iff_ne]
  split
  · rfl
  split
  · rfl
  cases advance : cpu.state.advance with
  | error fault => rw [step_error live advance, stepThen_error live advance]
  | ok result =>
    obtain ⟨state, halts⟩ := result
    rw [step_ok live advance]
    cases halts with
    | true =>
      rw [stepThen_halt live advance]
      rfl
    | false =>
      rw [stepThen_next live advance, runWhile_of_live (by simp [stepped])]
      exact stepWhile_asked goOn budget 1 false _

/-- A run does not stop where it starts if it stopped there before or if there is no breakpoint. -/
def Passes (cpu : Processor) : Prop :=
  cpu.status = .stoppedAtBreakpoint ∨ cpu.breakpoint ≠ some cpu.pc

theorem run_of_passes {budget : Nat} {cpu : Processor} (live : cpu.status ≠ .halted)
    (h : cpu.Passes) : cpu.run (budget + 1) = cpu.stepThen (·.run budget) := by
  have passes : ¬ (cpu.status ≠ .stoppedAtBreakpoint ∧ cpu.breakpoint = some cpu.pc) :=
    fun stops => h.elim stops.1 (fun away => away stops.2)
  rw [run, runWhile_succ live, if_neg (by simp), if_neg passes]
  rfl

theorem run_of_not_passes {budget : Nat} {cpu : Processor} (live : cpu.status ≠ .halted)
    (h : ¬ cpu.Passes) : cpu.run (budget + 1) =
      (some (.ok (.breakpointHit cpu.pc)), { cpu with status := .stoppedAtBreakpoint }) := by
  rw [Passes, not_or, Decidable.not_not] at h
  rw [run, runWhile_succ live, if_neg (by simp), if_pos h]

end Backstep.Machine.Processor
