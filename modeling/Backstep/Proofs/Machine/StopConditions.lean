import Backstep.Proofs.Machine.RunLaws

namespace Backstep.Machine.Processor

def onward? : Nat → Processor → Option Processor
  | 0, cpu => some cpu
  | n + 1, cpu =>
    match cpu.step with
    | (.ok .stepped, after) => after.onward? n
    | _ => none

/-- How a run ends where it stands, in the order in which it is tested: the condition, the
breakpoint unless the run resumes from it, and the step. -/
inductive Stops (goOn : Processor → Bool) (resumes : Prop) (cpu : Processor) :
    Except Fault Signal → Processor → Prop
  | interrupted : goOn cpu = false → Stops goOn resumes cpu (.ok .interrupted) cpu
  | breakpoint : goOn cpu = true → ¬ resumes → cpu.breakpoint = some cpu.pc →
      Stops goOn resumes cpu (.ok (.breakpointHit cpu.pc)) { cpu with status := .stoppedAtBreakpoint }
  | failure {fault : Fault} {after : Processor} : goOn cpu = true →
      resumes ∨ cpu.breakpoint ≠ some cpu.pc → cpu.step = (.error fault, after) →
      Stops goOn resumes cpu (.error fault) cpu
  | halt {after : Processor} : goOn cpu = true → resumes ∨ cpu.breakpoint ≠ some cpu.pc →
      cpu.step = (.ok .halted, after) → Stops goOn resumes cpu (.ok .halted) after

/-- The run ends so after `i` steps, if it gets there. Only a run that has made no step resumes. -/
def StopsAt (goOn : Processor → Bool) (cpu : Processor) (i : Nat) (outcome : Except Fault Signal)
    (final : Processor) : Prop :=
  ∃ p, cpu.onward? i = some p ∧
    Stops goOn (i = 0 ∧ cpu.status = .stoppedAtBreakpoint) p outcome final

variable {goOn : Processor → Bool} {cpu after final p : Processor} {outcome : Except Fault Signal}
  {state : State} {i n budget : Nat}

theorem stopsAt_zero : cpu.StopsAt goOn 0 outcome final ↔
    Stops goOn (cpu.status = .stoppedAtBreakpoint) cpu outcome final := by
  simp [StopsAt, onward?]

theorem stopsAt_succ (live : cpu.status ≠ .halted) (advance : cpu.state.advance = .ok (state, false)) :
    cpu.StopsAt goOn (i + 1) outcome final ↔
      (cpu.stepped state false).StopsAt goOn i outcome final := by
  have next : cpu.onward? (i + 1) = (cpu.stepped state false).onward? i := by
    rw [onward?, step_ok live advance]
    rfl
  have running : (cpu.stepped state false).status = .running := rfl
  simp [StopsAt, next, running]

theorem stops_or_steps (goOn : Processor → Bool) (live : cpu.status ≠ .halted) :
    (∃ outcome final, cpu.StopsAt goOn 0 outcome final ∧
      ∀ budget, cpu.runWhile goOn (budget + 1) = (some outcome, final)) ∨
    (∀ outcome final, ¬ cpu.StopsAt goOn 0 outcome final) ∧
      ∃ state, cpu.state.advance = .ok (state, false) ∧
        ∀ budget, cpu.runWhile goOn (budget + 1) =
          (cpu.stepped state false).runWhile goOn budget := by
  by_cases goes : goOn cpu = false
  · refine .inl ⟨_, _, stopsAt_zero.mpr (.interrupted goes), fun budget => ?_⟩
    rw [runWhile_succ live, if_pos goes]
  by_cases held : cpu.status ≠ .stoppedAtBreakpoint ∧ cpu.breakpoint = some cpu.pc
  · have going : goOn cpu = true := by simpa using goes
    refine .inl ⟨_, _, stopsAt_zero.mpr (.breakpoint going held.1 held.2), fun budget => ?_⟩
    rw [runWhile_succ live, if_neg goes, if_pos held]
  have run (budget : Nat) :
      cpu.runWhile goOn (budget + 1) = cpu.stepThen (·.runWhile goOn budget) := by
    rw [runWhile_succ live, if_neg goes, if_neg held]
  have passes : cpu.Passes := by
    rwa [not_and_or, Decidable.not_not] at held
  rw [Bool.not_eq_false] at goes
  cases advance : cpu.state.advance with
  | error fault =>
    have failure := Stops.failure goes passes (step_error live advance)
    exact .inl ⟨_, _, stopsAt_zero.mpr failure, fun budget => by
      rw [run, stepThen_error live advance]⟩
  | ok result =>
    obtain ⟨state, halts⟩ := result
    have step := step_ok live advance
    cases halts with
    | true =>
      have halt := Stops.halt goes passes step
      exact .inl ⟨_, _, stopsAt_zero.mpr halt, fun budget => by
        rw [run, stepThen_halt live advance]⟩
    | false =>
      refine .inr ⟨fun outcome final stops => ?_, state, rfl, fun budget => by
        rw [run, stepThen_next live advance]⟩
      rw [stopsAt_zero] at stops
      cases stops with
      | interrupted ends => simp [goes] at ends
      | breakpoint _ fresh here => exact passes.elim fresh (fun away => away here)
      | failure _ _ failed => simp [step] at failed
      | halt _ _ halted => simp [step] at halted

theorem Stops.unique {resumes : Prop} {outcome' : Except Fault Signal} {final' : Processor}
    (h : Stops goOn resumes cpu outcome final) (h' : Stops goOn resumes cpu outcome' final') :
    outcome = outcome' ∧ final = final' := by
  cases h <;> cases h' <;> simp_all

theorem runWhile_eq_some_iff (live : cpu.status ≠ .halted) :
    cpu.runWhile goOn budget = (some outcome, final) ↔
      ∃ i < budget, cpu.StopsAt goOn i outcome final ∧
        ∀ j < i, ∀ earlier p, ¬ cpu.StopsAt goOn j earlier p := by
  induction budget generalizing cpu with
  | zero => simp [runWhile_zero live]
  | succ budget ih =>
    obtain ⟨first, stop, stops, run⟩ | ⟨none, state, advance, run⟩ := stops_or_steps goOn live
    · rw [run, Prod.mk.injEq, Option.some.injEq]
      constructor
      · rintro ⟨rfl, rfl⟩
        exact ⟨0, Nat.succ_pos budget, stops, by simp⟩
      · rintro ⟨i, -, there, earliest⟩
        obtain rfl : i = 0 := by
          by_contra later
          exact earliest 0 (Nat.pos_of_ne_zero later) first stop stops
        exact (stopsAt_zero.mp stops).unique (stopsAt_zero.mp there)
    · have running : (cpu.stepped state false).status ≠ .halted := by simp [stepped]
      rw [run, ih running]
      constructor
      · rintro ⟨i, lt, there, earliest⟩
        refine ⟨i + 1, Nat.succ_lt_succ lt, (stopsAt_succ live advance).mpr there, ?_⟩
        intro j lt earlier p
        cases j with
        | zero => exact none earlier p
        | succ j =>
          rw [stopsAt_succ live advance]
          exact earliest j (Nat.lt_of_succ_lt_succ lt) earlier p
      · rintro ⟨i, lt, there, earliest⟩
        cases i with
        | zero => exact absurd there (none _ _)
        | succ i =>
          refine ⟨i, Nat.lt_of_succ_lt_succ lt, (stopsAt_succ live advance).mp there, ?_⟩
          intro j lt earlier p before
          exact earliest (j + 1) (Nat.succ_lt_succ lt) earlier p
            ((stopsAt_succ live advance).mpr before)

theorem runWhile_eq_none_iff (live : cpu.status ≠ .halted) :
    (∀ budget, (cpu.runWhile goOn budget).1 = none) ↔
      ∀ i outcome final, ¬ cpu.StopsAt goOn i outcome final := by
  constructor
  · intro endless i
    induction i using Nat.strongRecOn with
    | ind i earlier =>
      intro outcome final there
      have ran := (runWhile_eq_some_iff live).mpr ⟨i, Nat.lt_succ_self i, there, earlier⟩
      simpa [ran] using endless (i + 1)
  · intro free budget
    rcases ran : cpu.runWhile goOn budget with ⟨_ | outcome, final⟩
    · rfl
    · obtain ⟨i, -, there, -⟩ := (runWhile_eq_some_iff live).mp ran
      exact absurd there (free i outcome final)

/-- A run stops at the first of the processors that its steps lead to at which the condition, the
breakpoint, a failure or a halt stops it, in this order, and does not stop if there is none. A
halted processor stays as it is, whatever the condition. -/
theorem runWhile_stops_first (goOn : Processor → Bool) (cpu : Processor) :
    (cpu.status ≠ .halted →
      (∀ budget outcome final, cpu.runWhile goOn budget = (some outcome, final) ↔
        ∃ i < budget, cpu.StopsAt goOn i outcome final ∧
          ∀ j < i, ∀ earlier p, ¬ cpu.StopsAt goOn j earlier p) ∧
      ((∀ budget, (cpu.runWhile goOn budget).1 = none) ↔
        ∀ i outcome final, ¬ cpu.StopsAt goOn i outcome final)) ∧
    (cpu.status = .halted →
      ∀ budget, cpu.runWhile goOn budget = (some (.ok .halted), cpu)) := by
  refine ⟨fun live => ⟨fun budget outcome final => runWhile_eq_some_iff live,
    runWhile_eq_none_iff live⟩, fun halted budget => ?_⟩
  rw [runWhile, runAsking, if_pos halted]

theorem runWhile_stops_first_of_both : ∃ cpu final : Processor, cpu.status ≠ .halted ∧
    cpu.breakpoint = some 2 ∧ cpu.runWhile (·.pc != 2) 9 = (some (.ok .interrupted), final) ∧
      ∃ i < 9, cpu.StopsAt (·.pc != 2) i (.ok .interrupted) final ∧
        ∀ j < i, ∀ earlier p, ¬ cpu.StopsAt (·.pc != 2) j earlier p := by
  have live : (((Processor.new ⟨8, none⟩).load [0x5402, 0x5241, 0x929E, 0xE000]).2.setBreakpoint
      2).status ≠ .halted := by decide
  have ran : (((Processor.new ⟨8, none⟩).load [0x5402, 0x5241, 0x929E, 0xE000]).2.setBreakpoint
      2).runWhile (·.pc != 2) 9 = (some (.ok .interrupted), _) := rfl
  exact ⟨_, _, live, rfl, ran, (((runWhile_stops_first _ _).1 live).1 9 _ _).mp ran⟩

end Backstep.Machine.Processor
