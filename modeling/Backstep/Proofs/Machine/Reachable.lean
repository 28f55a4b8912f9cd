import Backstep.Machine.Action
import Backstep.Proofs.Machine.StepLaws
import Mathlib.Logic.Relation

/-!
The processors that calls lead to. A call that loads nothing is a sequence of moves, so what holds
of a new processor and is kept by loads and moves holds of all of them.
-/

namespace Backstep.Machine

open Isa

structure Call where
  action : Action
  answer : Except Fault Answer
  after : Processor

def Call.loaded (call : Call) : Bool :=
  match call.action, call.answer with
  | .load _, .ok _ => true
  | .loadImage _, .ok _ => true
  | _, _ => false

theorem Answer.ofRun_eq_some {result : Option (Except Fault Signal) × Processor}
    {answer : Except Fault Answer} {after : Processor} :
    Answer.ofRun result = some (answer, after) ↔
      ∃ outcome, result = (some outcome, after) ∧ outcome.map .signal = answer := by
  obtain ⟨outcome, after'⟩ := result
  cases outcome with
  | none => simp [ofRun]
  | some outcome =>
    simp only [ofRun, Option.some.injEq, Prod.mk.injEq]
    constructor
    · rintro ⟨rfl, rfl⟩
      exact ⟨outcome, ⟨rfl, rfl⟩, rfl⟩
    · rintro ⟨_, ⟨rfl, rfl⟩, rfl⟩
      exact ⟨rfl, rfl⟩

namespace Processor

/-- The processors that calls lead to, from a new one on. The latest call stands first. -/
inductive Reached (config : Config) : List Call → Processor → Prop
  | new : Reached config [] (.new config)
  | call {calls cpu budget action answer after} : Reached config calls cpu →
      cpu.perform budget action = some (answer, after) →
      Reached config (⟨action, answer, after⟩ :: calls) after

/-- The state right after the last successful load, or that of a new processor. -/
def origin (config : Config) : List Call → State
  | [] => (new config).state
  | call :: calls => if call.loaded then call.after.state else origin config calls

inductive Move : Processor → Processor → Prop
  | step {cpu state halts} : cpu.status ≠ .halted → cpu.state.advance = .ok (state, halts) →
      Move cpu (cpu.stepped state halts)
  | pause {cpu} : cpu.status ≠ .halted → Move cpu { cpu with status := .stoppedAtBreakpoint }
  | rewind {cpu before} : cpu.rewind = (true, before) → Move cpu before
  | reset {cpu} : Move cpu cpu.reset
  | breakpoint {cpu} (b : Option Nat) : Move cpu { cpu with breakpoint := b }

abbrev Moves : Processor → Processor → Prop := Relation.ReflTransGen Move

theorem load_ok {cpu after : Processor} {program : List Word}
    (h : cpu.load program = (.ok (), after)) :
    ∃ memory, (Memory.zero cpu.capacity).load program = .ok memory ∧
      after = ⟨⟨.zero, memory, 0⟩, ⟨.zero, memory, 0⟩, none, cpu.history.clear, .loaded⟩ := by
  rw [load] at h
  split at h
  · rename_i memory fits
    cases h
    exact ⟨memory, fits, rfl⟩
  · cases h

theorem load_error {cpu after : Processor} {program : List Word} {fault : Fault}
    (h : cpu.load program = (.error fault, after)) : after = cpu := by
  rw [load] at h
  split at h <;> cases h
  rfl

theorem loadImage_ok {cpu after : Processor} {text : String}
    (h : cpu.loadImage text = (.ok (), after)) : ∃ program, cpu.load program = (.ok (), after) := by
  rw [loadImage] at h
  split at h
  · exact ⟨_, h⟩
  · cases h

theorem loadImage_error {cpu after : Processor} {text : String} {fault : Fault}
    (h : cpu.loadImage text = (.error fault, after)) : after = cpu := by
  rw [loadImage] at h
  split at h
  · exact load_error h
  · cases h
    rfl

theorem rewind_eq_true {cpu before : Processor} (h : cpu.rewind = (true, before)) :
    ∃ state history, cpu.history.pop? = some (state, history) ∧
      before = { cpu with
        state
        history
        status := if cpu.breakpoint = some state.pc then .stoppedAtBreakpoint else .loaded } := by
  rw [rewind] at h
  split at h
  · cases h
  · rename_i state history pop
    cases h
    exact ⟨state, history, pop, rfl⟩

theorem rewind_eq_false {cpu after : Processor} (h : cpu.rewind = (false, after)) : after = cpu := by
  rw [rewind] at h
  split at h <;> cases h
  rfl

theorem step_moves (cpu : Processor) : Moves cpu cpu.step.2 := by
  by_cases halted : cpu.status = .halted
  · rw [step_halted halted]
  · cases h : cpu.state.advance with
    | error fault => rw [step_error halted h]
    | ok result =>
      obtain ⟨state, halts⟩ := result
      rw [step_ok halted h]
      exact .single (.step halted h)

theorem stepWhile_moves (goOn : Nat → Processor → Bool) {budget asked : Nat} {resuming : Bool}
    {cpu : Processor} (live : cpu.status ≠ .halted) :
    Moves cpu (stepWhile goOn budget asked resuming cpu).2 := by
  induction budget generalizing asked resuming cpu with
  | zero => exact .refl
  | succ budget ih =>
    rw [stepWhile]
    split
    · exact .refl
    split
    · exact .single (.pause live)
    cases h : cpu.state.advance with
    | error fault =>
      rw [step_error live h]
    | ok result =>
      obtain ⟨state, halts⟩ := result
      rw [step_ok live h]
      have move : Move cpu (cpu.stepped state halts) := .step live h
      cases halts with
      | true => exact .single move
      | false => exact .head move (ih (by simp [stepped]))

theorem runAsking_moves (goOn : Nat → Processor → Bool) (budget : Nat) (cpu : Processor) :
    Moves cpu (cpu.runAsking goOn budget).2 := by
  rw [runAsking]
  split
  · exact .refl
  · rename_i live
    exact stepWhile_moves goOn live

theorem runFor_moves (n : Nat) (cpu : Processor) : Moves cpu (cpu.runFor n).2 := by
  have moves := runAsking_moves (fun _ _ => true) n cpu
  rw [runFor, run, runWhile]
  split <;> simpa [*] using moves

theorem perform_cases {cpu after : Processor} {budget : Nat} {action : Action}
    {answer : Except Fault Answer} (h : cpu.perform budget action = some (answer, after)) :
    ((Call.mk action answer after).loaded = true ∧ ∃ program, cpu.load program = (.ok (), after)) ∨
      ((Call.mk action answer after).loaded = false ∧ Moves cpu after) := by
  cases action with
  | load program =>
    rcases result : cpu.load program with ⟨outcome, loaded⟩
    rw [perform, result] at h
    cases h
    cases outcome with
    | ok => exact .inl ⟨rfl, program, result⟩
    | error fault =>
      cases load_error result
      exact .inr ⟨rfl, .refl⟩
  | loadImage text =>
    rcases result : cpu.loadImage text with ⟨outcome, loaded⟩
    rw [perform, result] at h
    cases h
    cases outcome with
    | ok => exact .inl ⟨rfl, loadImage_ok result⟩
    | error fault =>
      cases loadImage_error result
      exact .inr ⟨rfl, .refl⟩
  | reset =>
    cases h
    exact .inr ⟨rfl, .single .reset⟩
  | step =>
    cases h
    exact .inr ⟨rfl, step_moves cpu⟩
  | run =>
    obtain ⟨outcome, ran, -⟩ := Answer.ofRun_eq_some.mp h
    have moves := runAsking_moves (fun _ _ => true) budget cpu
    rw [← runWhile, ← run, ran] at moves
    exact .inr ⟨rfl, moves⟩
  | runFor n =>
    cases h
    exact .inr ⟨rfl, runFor_moves n cpu⟩
  | runWhile goOn =>
    obtain ⟨outcome, ran, -⟩ := Answer.ofRun_eq_some.mp h
    have moves := runAsking_moves (fun _ => goOn) budget cpu
    rw [← runWhile, ran] at moves
    exact .inr ⟨rfl, moves⟩
  | runAsking goOn =>
    obtain ⟨outcome, ran, -⟩ := Answer.ofRun_eq_some.mp h
    have moves := runAsking_moves goOn budget cpu
    rw [ran] at moves
    exact .inr ⟨rfl, moves⟩
  | rewind =>
    rcases result : cpu.rewind with ⟨undone, before⟩
    rw [perform, result] at h
    cases h
    cases undone with
    | true => exact .inr ⟨rfl, .single (.rewind result)⟩
    | false =>
      cases rewind_eq_false result
      exact .inr ⟨rfl, .refl⟩
  | setBreakpoint address =>
    cases h
    exact .inr ⟨rfl, .single (.breakpoint (some address))⟩
  | clearBreakpoint =>
    cases h
    exact .inr ⟨rfl, .single (.breakpoint none)⟩

theorem Moves.invariant {P : Processor → Prop}
    (move : ∀ {cpu after}, P cpu → Move cpu after → P after) {cpu after : Processor}
    (h : Moves cpu after) (start : P cpu) : P after := by
  induction h with
  | refl => exact start
  | tail _ last kept => exact move kept last

theorem Reached.invariant {config : Config} {P : Processor → Prop} (new : P (.new config))
    (load : ∀ {cpu after program}, P cpu → cpu.load program = (.ok (), after) → P after)
    (move : ∀ {cpu after}, P cpu → Move cpu after → P after) {calls : List Call} {cpu : Processor}
    (h : Reached config calls cpu) : P cpu := by
  induction h with
  | new => exact new
  | call _ performed ih =>
    obtain ⟨-, program, loaded⟩ | ⟨-, moves⟩ := perform_cases performed
    · exact load ih loaded
    · exact moves.invariant move ih

def Performs (cpu : Processor) (action : Action) (answer : Except Fault Answer)
    (after : Processor) : Prop :=
  ∃ budget, cpu.perform budget action = some (answer, after)

theorem stepWhile_of_le {goOn : Nat → Processor → Bool} {budget more asked : Nat} {resuming : Bool}
    {cpu after : Processor} {outcome : Except Fault Signal} (le : budget ≤ more)
    (h : stepWhile goOn budget asked resuming cpu = (some outcome, after)) :
    stepWhile goOn more asked resuming cpu = (some outcome, after) := by
  induction budget generalizing more asked resuming cpu with
  | zero => cases h
  | succ budget ih =>
    obtain ⟨more, rfl⟩ := Nat.exists_eq_add_of_le' (Nat.one_le_of_lt le)
    rw [stepWhile] at h ⊢
    split at h
    case isTrue interrupted => rwa [if_pos interrupted]
    case isFalse goes =>
      rw [if_neg goes]
      split at h
      case isTrue stops => rwa [if_pos stops]
      case isFalse passes =>
        rw [if_neg passes]
        split at h
        case h_1 => exact ih (Nat.le_of_succ_le_succ le) h
        case h_2 => exact h

theorem runAsking_of_le {goOn : Nat → Processor → Bool} {budget more : Nat} {cpu after : Processor}
    {outcome : Except Fault Signal} (le : budget ≤ more)
    (h : cpu.runAsking goOn budget = (some outcome, after)) :
    cpu.runAsking goOn more = (some outcome, after) := by
  rw [runAsking] at h ⊢
  split at h
  case isTrue halted => rwa [if_pos halted]
  case isFalse live =>
    rw [if_neg live]
    exact stepWhile_of_le le h

theorem perform_of_le {budget more : Nat} {cpu after : Processor} {action : Action}
    {answer : Except Fault Answer} (le : budget ≤ more)
    (h : cpu.perform budget action = some (answer, after)) :
    cpu.perform more action = some (answer, after) := by
  cases action with
  | run | runWhile goOn | runAsking goOn =>
    obtain ⟨outcome, ran, same⟩ := Answer.ofRun_eq_some.mp h
    exact Answer.ofRun_eq_some.mpr ⟨outcome, runAsking_of_le le ran, same⟩
  | _ => exact h

theorem Performs.unique {cpu after other : Processor} {action : Action}
    {answer reply : Except Fault Answer} (h : cpu.Performs action answer after)
    (h' : cpu.Performs action reply other) : answer = reply ∧ after = other := by
  obtain ⟨budget, performed⟩ := h
  obtain ⟨budget', performed'⟩ := h'
  have both := (perform_of_le (Nat.le_max_left budget budget') performed).symm.trans
    (perform_of_le (Nat.le_max_right budget budget') performed')
  simpa using both

inductive Leads : Processor → List (Action × Except Fault Answer) → Processor → Prop
  | nil {cpu : Processor} : Leads cpu [] cpu
  | cons {cpu next after : Processor} {action : Action} {answer : Except Fault Answer}
      {calls : List (Action × Except Fault Answer)} : cpu.Performs action answer next →
      Leads next calls after → Leads cpu ((action, answer) :: calls) after

end Processor

end Backstep.Machine
