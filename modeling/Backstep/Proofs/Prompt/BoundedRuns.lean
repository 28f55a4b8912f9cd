import Backstep.Prompt.Session
import Backstep.Proofs.Machine.Reachable
import Backstep.Proofs.Machine.StopConditions
import Backstep.Proofs.Machine.TimeTravel

namespace Backstep.Machine.Processor

variable {cpu mid after p : Processor} {outcome : Except Fault Signal} {m n : Nat}

theorem stepWhile_asked_lt {bound asked : Nat} {resuming : Bool} (left : asked + n = bound) :
    stepWhile (fun asked _ => decide (asked < bound)) (n + 1) asked resuming cpu =
      (some ((stepWhile (fun _ _ => true) n asked resuming cpu).1.getD (.ok .interrupted)),
        (stepWhile (fun _ _ => true) n asked resuming cpu).2) := by
  induction n generalizing asked resuming cpu with
  | zero =>
    have last : ¬ asked < bound := by omega
    simp [stepWhile, last]
  | succ n ih =>
    have goes : decide (asked < bound) = true := decide_eq_true (by omega)
    have next : asked + 1 + n = bound := by omega
    rw [stepWhile, stepWhile]
    simp only [goes, Bool.true_eq_false, if_false]
    by_cases held : resuming = false ∧ cpu.breakpoint = some cpu.pc
    · rw [if_pos held, if_pos held]
      rfl
    · rw [if_neg held, if_neg held]
      split
      case h_1 => exact ih next
      case h_2 => rfl

theorem runAsking_asked_lt (cpu : Processor) (n : Nat) :
    cpu.runAsking (fun asked _ => decide (asked < n)) (n + 1) =
      (some (cpu.runFor n).1, (cpu.runFor n).2) := by
  rw [runFor, run, runWhile, runAsking, runAsking]
  by_cases halted : cpu.status = .halted
  · rw [if_pos halted, if_pos halted]
  · rw [if_neg halted, if_neg halted, stepWhile_asked_lt (Nat.zero_add n)]
    rcases stepWhile (fun _ _ => true) n 0 (cpu.status == .stoppedAtBreakpoint) cpu with
      ⟨_ | outcome, after⟩ <;> rfl

theorem live_of_run_eq_none (h : cpu.run n = (none, mid)) : cpu.status ≠ .halted := by
  intro halted
  rw [run_of_halted halted] at h
  cases h

theorem run_of_none (h : cpu.run m = (none, mid)) :
    cpu.onward? m = some mid ∧ ∀ n, cpu.run (m + n) = mid.run n := by
  have live := live_of_run_eq_none h
  induction m generalizing cpu with
  | zero =>
    rw [run, runWhile_zero live] at h
    cases h
    exact ⟨rfl, fun n => by rw [Nat.zero_add]⟩
  | succ m ih =>
    obtain ⟨_, _, -, ran⟩ | ⟨-, state, advance, ran⟩ := stops_or_steps (fun _ => true) live
    · cases (ran m).symm.trans h
    · have rest : (cpu.stepped state false).run m = (none, mid) := (ran m).symm.trans h
      obtain ⟨onward, longer⟩ := ih rest (live_of_run_eq_none rest)
      refine ⟨?_, fun n => ?_⟩
      · rw [onward?, step_ok live advance]
        exact onward
      · rw [Nat.add_right_comm, ← longer]
        exact ran (m + n)

theorem run_of_some (h : cpu.run m = (some outcome, after)) :
    cpu.run (m + n) = (some outcome, after) := runAsking_of_le (Nat.le_add_right m n) h

theorem run_ne_interrupted : cpu.run n ≠ (some (.ok .interrupted), after) := by
  intro ran
  by_cases halted : cpu.status = .halted
  · rw [run_of_halted halted] at ran
    cases ran
  · obtain ⟨_, -, ⟨_, -, stops⟩, -⟩ := (runWhile_eq_some_iff halted).mp ran
    cases stops with
    | interrupted ends => cases ends

theorem runFor_eq_interrupted :
    cpu.runFor m = (.ok .interrupted, mid) ↔ cpu.run m = (none, mid) := by
  rw [runFor]
  split
  case h_1 outcome after ran =>
    have other : outcome ≠ .ok .interrupted := by
      rintro rfl
      exact run_ne_interrupted ran
    simp [ran, other]
  case h_2 after ran => simp [ran]

theorem runFor_add_of_interrupted (h : cpu.runFor m = (.ok .interrupted, mid)) :
    mid.runFor n = cpu.runFor (m + n) := by
  rw [runFor, runFor, (run_of_none (runFor_eq_interrupted.mp h)).2]

theorem runFor_add_of_ended (h : cpu.runFor m = (outcome, after))
    (ended : outcome ≠ .ok .interrupted) : cpu.runFor (m + n) = (outcome, after) := by
  rw [runFor] at h
  split at h
  case h_1 ran =>
    cases h
    rw [runFor, run_of_some ran]
  case h_2 =>
    cases h
    exact absurd rfl ended

theorem stepTimes?_succ_left : cpu.stepTimes? (n + 1) = cpu.stepOnce?.bind (·.stepTimes? n) := by
  induction n with
  | zero => cases h : cpu.stepOnce? <;> simp [stepTimes?, h]
  | succ n ih => rw [stepTimes?, ih, Option.bind_assoc]; rfl

theorem stepTimes?_of_onward? (live : cpu.status ≠ .halted) (h : cpu.onward? n = some p) :
    cpu.stepTimes? n = some p ∧ p.status ≠ .halted := by
  induction n generalizing cpu with
  | zero =>
    cases h
    exact ⟨rfl, live⟩
  | succ n ih =>
    cases advance : cpu.state.advance with
    | error fault => simp [onward?, step_error live advance] at h
    | ok result =>
      obtain ⟨state, halts⟩ := result
      cases halts with
      | true => simp [onward?, step_ok live advance] at h
      | false =>
        have once : cpu.stepOnce? = some (cpu.stepped state false) :=
          stepOnce?_eq_some.mpr ⟨live, state, false, advance, rfl⟩
        rw [onward?, step_ok live advance] at h
        rw [stepTimes?_succ_left, once]
        exact ih (by simp [stepped]) h

theorem exists_stepTimes?_of_runFor (cpu : Processor) (n : Nat) :
    ∃ k ≤ n, ∃ p, cpu.stepTimes? k = some p ∧ p.state = (cpu.runFor n).2.state ∧
      p.history = (cpu.runFor n).2.history := by
  by_cases halted : cpu.status = .halted
  · refine ⟨0, Nat.zero_le n, cpu, rfl, ?_⟩
    rw [runFor, run_of_halted halted]
    exact ⟨rfl, rfl⟩
  rw [runFor]
  split
  case h_2 mid ran =>
    have steps := (stepTimes?_of_onward? halted (run_of_none ran).1).1
    exact ⟨n, Nat.le_refl n, mid, steps, rfl, rfl⟩
  case h_1 outcome final ran =>
    obtain ⟨i, lt, ⟨p, onward, stops⟩, -⟩ := (runWhile_eq_some_iff halted).mp ran
    obtain ⟨steps, live⟩ := stepTimes?_of_onward? halted onward
    cases stops with
    | interrupted | breakpoint | failure =>
      exact ⟨i, Nat.le_of_lt lt, _, steps, rfl, rfl⟩
    | halt _ _ step =>
      refine ⟨i + 1, lt, final, ?_, rfl, rfl⟩
      rw [stepTimes?, steps, Option.bind_some, stepOnce?, if_neg live, step]

end Backstep.Machine.Processor

namespace Backstep.Prompt

open Machine

variable {cpu : Processor} {n : Nat}

theorem run_clearBreakpoint (live : cpu.status ≠ .halted) :
    cpu.clearBreakpoint.run n = ((stepTimes n cpu).1, (stepTimes n cpu).2.clearBreakpoint) ∧
      (stepTimes n cpu).2.breakpoint = cpu.breakpoint := by
  induction n generalizing cpu with
  | zero =>
    have live' : cpu.clearBreakpoint.status ≠ .halted := live
    rw [Processor.run, Processor.runWhile_zero live']
    exact ⟨rfl, rfl⟩
  | succ n ih =>
    have live' : cpu.clearBreakpoint.status ≠ .halted := live
    have free : cpu.clearBreakpoint.Passes := .inr (by simp [Processor.clearBreakpoint])
    rw [Processor.run_of_passes live' free, stepTimes]
    cases advance : cpu.state.advance with
    | error fault =>
      rw [Processor.stepThen_error live' advance, Processor.step_error live advance]
      exact ⟨rfl, rfl⟩
    | ok result =>
      obtain ⟨state, halts⟩ := result
      cases halts with
      | true =>
        rw [Processor.stepThen_halt live' advance, Processor.step_ok live advance]
        exact ⟨rfl, rfl⟩
      | false =>
        have running : (cpu.stepped state false).status ≠ .halted := by simp [Processor.stepped]
        rw [Processor.stepThen_next live' advance, Processor.step_ok live advance]
        exact ih running

theorem stepTimes_of_halted (halted : cpu.status = .halted) : (stepTimes n cpu).2 = cpu := by
  cases n with
  | zero => rfl
  | succ n => rw [stepTimes, Processor.step_halted halted]

theorem stepTimes_snd (cpu : Processor) (n : Nat) :
    (stepTimes n cpu).2 =
      { (cpu.clearBreakpoint.runFor n).2 with breakpoint := cpu.breakpoint } := by
  by_cases halted : cpu.status = .halted
  · have halted' : cpu.clearBreakpoint.status = .halted := halted
    rw [stepTimes_of_halted halted, Processor.runFor, Processor.run_of_halted halted']
    rfl
  · obtain ⟨ran, kept⟩ := run_clearBreakpoint (n := n) halted
    rw [Processor.runFor, ran, ← kept]
    cases (stepTimes n cpu).1 <;> rfl

theorem execute_step (budget : Nat) :
    ∃ outputs, execute budget cpu (.step n) = some (outputs, (stepTimes n cpu).2) := by
  rw [execute]
  rcases stepTimes n cpu with ⟨_ | outcome, after⟩
  · exact ⟨_, rfl⟩
  · exact ⟨_, rfl⟩

/-- A bounded run is a run under a condition that counts, and executes no more instructions than it
may. Cut in two it ends as it does in one piece, and what has ended stays so under a larger bound.
Stepping so many times from the prompt is the bounded run of the processor without its breakpoint. -/
theorem runFor_composes (cpu : Processor) (m n : Nat) :
    cpu.runAsking (fun asked _ => decide (asked < n)) (n + 1) =
      (some (cpu.runFor n).1, (cpu.runFor n).2) ∧
    (∃ k ≤ n, ∃ p, cpu.stepTimes? k = some p ∧ p.state = (cpu.runFor n).2.state ∧
      p.history = (cpu.runFor n).2.history) ∧
    (∀ mid, cpu.runFor m = (.ok .interrupted, mid) → mid.runFor n = cpu.runFor (m + n)) ∧
    (∀ outcome after, cpu.runFor m = (outcome, after) → outcome ≠ .ok .interrupted →
      cpu.runFor (m + n) = (outcome, after)) ∧
    ∀ budget, ∃ outputs, execute budget cpu (.step n) =
      some (outputs, { (cpu.clearBreakpoint.runFor n).2 with breakpoint := cpu.breakpoint }) := by
  refine ⟨Processor.runAsking_asked_lt cpu n, Processor.exists_stepTimes?_of_runFor cpu n,
    fun mid => Processor.runFor_add_of_interrupted,
    fun outcome after => Processor.runFor_add_of_ended, fun budget => ?_⟩
  rw [← stepTimes_snd]
  exact execute_step budget

theorem runFor_composes_of_cut : ∃ cpu mid after : Processor, mid.pc = 1 ∧
    cpu.breakpoint = some 1 ∧ cpu.runFor 1 = (.ok .interrupted, mid) ∧
      mid.runFor 3 = (.ok (.breakpointHit 1), after) ∧
      cpu.runFor (1 + 3) = (.ok (.breakpointHit 1), after) := by
  have first : (((Processor.new ⟨8, none⟩).load [0x5402, 0x5241, 0x929E, 0xE000]).2.setBreakpoint
      1).runFor 1 = (.ok .interrupted, _) := rfl
  have whole := (runFor_composes _ 1 3).2.2.1 _ first
  exact ⟨_, _, _, rfl, rfl, first, rfl, whole.symm.trans rfl⟩

end Backstep.Prompt
