import Backstep.Proofs.Machine.RunLaws
import Backstep.Proofs.Machine.Reachable

namespace Backstep.Machine

/-- The states from which instructions are fetched, up to a failure or a halt. -/
def State.fetched (s : State) : Nat → List State
  | 0 => []
  | n + 1 => s :: match s.advance with
    | .ok (after, false) => after.fetched n
    | _ => []

namespace Processor

/-- Runs from `cpu`, each from where the one before stopped: so many stop at the breakpoint `b`, and
then one ends in a halt or a failure. -/
inductive Resumes (b : Nat) : Nat → Processor → Except Fault Signal → Processor → Prop
  | ends {cpu budget outcome after} : cpu.run budget = (some outcome, after) →
      outcome = .ok .halted ∨ (∃ fault, outcome = .error fault) → Resumes b 0 cpu outcome after
  | hit {hits cpu budget stop outcome after} :
      cpu.run budget = (some (.ok (.breakpointHit b)), stop) → stop.pc = b →
      Resumes b hits stop outcome after → Resumes b (hits + 1) cpu outcome after

namespace Resumes

variable {b hits : Nat} {cpu after : Processor} {outcome : Except Fault Signal}

theorem error {fault : Fault} (live : cpu.status ≠ .halted) (passes : cpu.Passes)
    (h : cpu.state.advance = .error fault) : Resumes b 0 cpu (.error fault) cpu := by
  have ran : cpu.run 1 = (some (.error fault), cpu) := by
    rw [run_of_passes live passes, stepThen_error live h]
  exact .ends ran (.inr ⟨fault, rfl⟩)

theorem halt {state : State} (live : cpu.status ≠ .halted) (passes : cpu.Passes)
    (h : cpu.state.advance = .ok (state, true)) :
    Resumes b 0 cpu (.ok .halted) (cpu.stepped state true) := by
  have ran : cpu.run 1 = (some (.ok .halted), cpu.stepped state true) := by
    rw [run_of_passes live passes, stepThen_halt live h]
  exact .ends ran (.inl rfl)

theorem next {state : State} (live : cpu.status ≠ .halted) (passes : cpu.Passes)
    (h : cpu.state.advance = .ok (state, false))
    (rest : Resumes b hits (cpu.stepped state false) outcome after) :
    Resumes b hits cpu outcome after := by
  have longer (budget : Nat) : cpu.run (budget + 1) = (cpu.stepped state false).run budget := by
    rw [run_of_passes live passes, stepThen_next live h]
  cases rest with
  | ends ran final => exact .ends ((longer _).trans ran) final
  | hit ran pc rest => exact .hit ((longer _).trans ran) pc rest

theorem stop (live : cpu.status ≠ .halted) (stops : ¬ cpu.Passes) (here : cpu.pc = b)
    (rest : Resumes b hits { cpu with status := .stoppedAtBreakpoint } outcome after) :
    Resumes b (hits + 1) cpu outcome after := by
  have ran : cpu.run 1 =
      (some (.ok (.breakpointHit b)), { cpu with status := .stoppedAtBreakpoint }) := by
    rw [run_of_not_passes live stops, here]
  exact .hit ran here rest

end Resumes

/-- The number of stops at `b` among the states that are fetched from: the first one does not count
if the run has stopped there before. -/
def stops (b n : Nat) (cpu : Processor) : Nat :=
  ((cpu.state.fetched n).drop (if cpu.status = .stoppedAtBreakpoint then 1 else 0)).countP
    (·.pc = b)

theorem stops_succ {b n : Nat} {cpu : Processor} :
    cpu.stops b (n + 1) = stops b (n + 1) { cpu with status := .stoppedAtBreakpoint } +
      if cpu.status ≠ .stoppedAtBreakpoint ∧ cpu.pc = b then 1 else 0 := by
  by_cases stopped : cpu.status = .stoppedAtBreakpoint
  · simp [stops, stopped]
  · simp [stops, stopped, State.fetched, List.countP_cons, pc]

/-- The simulation: `p` runs without a breakpoint, `q` stands where `p` stands and has one. -/
theorem resumes_of_run {b n : Nat} {p q final : Processor} {outcome : Except Fault Signal}
    (clear : p.breakpoint = none) (armed : q.breakpoint = some b) (state : q.state = p.state)
    (history : q.history = p.history) (live_p : p.status ≠ .halted) (live_q : q.status ≠ .halted)
    (ran : p.run n = (some outcome, final)) :
    ∃ after, Resumes b (q.stops b n) q outcome after ∧
      after.state = final.state ∧ after.history = final.history := by
  induction n generalizing p q with
  | zero =>
    rw [run, runWhile_zero live_p] at ran
    cases ran
  | succ n ih =>
    rw [run_of_passes live_p (.inr (by simp [clear]))] at ran
    -- A step of `p` is one of `q` wherever `q` does not stop, and then neither counts a stop.
    have passing {q : Processor} (armed : q.breakpoint = some b) (state : q.state = p.state)
        (history : q.history = p.history) (live : q.status ≠ .halted) (passes : q.Passes) :
        ∃ after, Resumes b (stops b (n + 1) { q with status := .stoppedAtBreakpoint }) q outcome
          after ∧ after.state = final.state ∧ after.history = final.history := by
      cases advance : p.state.advance with
      | error fault =>
        rw [stepThen_error live_p advance] at ran
        cases ran
        have count : stops b (n + 1) { q with status := .stoppedAtBreakpoint } = 0 := by
          simp [stops, State.fetched, state, advance]
        rw [count]
        exact ⟨q, .error live passes (state ▸ advance), state, history⟩
      | ok result =>
        obtain ⟨next, halts⟩ := result
        cases halts with
        | true =>
          rw [stepThen_halt live_p advance] at ran
          cases ran
          have count : stops b (n + 1) { q with status := .stoppedAtBreakpoint } = 0 := by
            simp [stops, State.fetched, state, advance]
          rw [count]
          refine ⟨_, .halt live passes (state ▸ advance), rfl, ?_⟩
          rw [stepped, stepped, history, state]
        | false =>
          rw [stepThen_next live_p advance] at ran
          have count : stops b (n + 1) { q with status := .stoppedAtBreakpoint } =
              stops b n (q.stepped next false) := by
            simp [stops, State.fetched, state, advance, stepped]
          obtain ⟨after, resumes, same⟩ := ih (p := p.stepped next false)
            (q := q.stepped next false) clear armed rfl
            (by rw [stepped, stepped, history, state]) (by simp [stepped]) (by simp [stepped]) ran
          rw [count]
          exact ⟨after, resumes.next live passes (state ▸ advance), same⟩
    rw [stops_succ]
    by_cases stopped : q.status = .stoppedAtBreakpoint
    · rw [if_neg (by simp [stopped])]
      exact passing armed state history live_q (.inl stopped)
    by_cases here : q.pc = b
    -- `q` stops before it steps: the run that resumes it is one that passes.
    · obtain ⟨after, resumes, same⟩ := passing (q := { q with status := .stoppedAtBreakpoint })
        armed state history (by simp) (.inl rfl)
      rw [if_pos ⟨stopped, here⟩]
      exact ⟨after, resumes.stop live_q (by simp [Passes, stopped, armed, here]) here, same⟩
    · rw [if_neg (by simp [here])]
      exact passing armed state history live_q (.inr (by simpa [armed] using Ne.symm here))

/-- Breakpoints are transparent: if the processor would run to a halt or a failure without a
breakpoint, then with one it stops there as often as the run comes by and ends the same way. A run
from the breakpoint begins with a step. -/
theorem breakpoint_transparent {cpu : Processor} (live : cpu.status ≠ .halted) (b : Nat) :
    (∀ n outcome final, cpu.clearBreakpoint.run n = (some outcome, final) →
      ∃ after, Resumes b (((cpu.state.fetched n).drop
            (if cpu.status = .stoppedAtBreakpoint then 1 else 0)).countP (·.pc = b))
          (cpu.setBreakpoint b) outcome after ∧
        after.state = final.state ∧ after.history = final.history) ∧
    (cpu.status = .stoppedAtBreakpoint → ∀ n, cpu.run (n + 1) = match cpu.step with
      | (.ok .stepped, after) => after.run n
      | (outcome, after) => (some outcome, after)) := by
  constructor
  · intro n outcome final ran
    exact resumes_of_run (p := cpu.clearBreakpoint) (q := cpu.setBreakpoint b) rfl rfl rfl rfl live
      live ran
  · intro stopped n
    exact run_of_passes live (.inl stopped)

theorem breakpoint_transparent_of_loop : ∃ cpu final after : Processor,
    cpu.status ≠ .halted ∧ cpu.clearBreakpoint.run 9 = (some (.ok .halted), final) ∧
      Resumes 1 2 (cpu.setBreakpoint 1) (.ok .halted) after ∧
      after.state = final.state ∧ after.history = final.history := by
  have live : ((Processor.new ⟨8, none⟩).load [0x5402, 0x5241, 0x929E, 0xE000]).2.status ≠
      .halted := by decide
  obtain ⟨after, resumes, state, history⟩ := (breakpoint_transparent live 1).1 9 (.ok .halted) _ rfl
  exact ⟨_, _, after, live, rfl, resumes, state, history⟩

end Processor

end Backstep.Machine
