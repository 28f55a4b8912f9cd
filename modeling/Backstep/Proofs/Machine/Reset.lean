import Backstep.Proofs.Machine.Reachable
import Backstep.Proofs.Machine.WellFormed

namespace Backstep

open Isa Machine

theorem Image.parse_eq_error {text : String} {fault : Fault} (h : parse text = .error fault) :
    ∃ token index, fault = .invalidToken token index := by
  obtain ⟨-, ⟨token, index⟩, -, -, refused⟩ := mapM_eq_error.mp h
  dsimp only at refused
  split at refused <;> cases refused
  exact ⟨_, _, rfl⟩

namespace Machine

def Call.program? (call : Call) : Option (List Word) :=
  match call.action, call.answer with
  | .load program, .ok _ => some program
  | .loadImage text, .ok _ => (Image.parse text).toOption
  | _, _ => none

namespace Processor

def lastProgram? (calls : List Call) : Option (List Word) := calls.findSome? Call.program?

def freshlyLoaded (config : Config) : Option (List Word) → Processor
  | none => new config
  | some program => ((new config).load program).2

def armed (cpu : Processor) : Option Nat → Processor
  | none => cpu.clearBreakpoint
  | some address => cpu.setBreakpoint address

variable {config : Config} {calls : List Call} {cpu after : Processor}

theorem armed_eq (cpu : Processor) (b : Option Nat) :
    cpu.armed b = { cpu with breakpoint := b } := by
  cases b <;> rfl

theorem program?_of_perform {budget : Nat} {action : Action} {answer : Except Fault Answer}
    (h : cpu.perform budget action = some (answer, after)) :
    (∃ program, (Call.mk action answer after).program? = some program ∧
      cpu.load program = (.ok (), after)) ∨
    ((Call.mk action answer after).program? = none ∧ Moves cpu after) := by
  cases action with
  | load program =>
    rcases result : cpu.load program with ⟨outcome, loaded⟩
    rw [perform, result] at h
    cases h
    cases outcome with
    | ok => exact .inl ⟨program, rfl, result⟩
    | error fault =>
      cases load_error result
      exact .inr ⟨rfl, .refl⟩
  | loadImage text =>
    rcases result : cpu.loadImage text with ⟨outcome, loaded⟩
    rw [perform, result] at h
    cases h
    cases outcome with
    | error fault =>
      cases loadImage_error result
      exact .inr ⟨rfl, .refl⟩
    | ok =>
      rw [loadImage] at result
      split at result
      case h_1 program parsed =>
        exact .inl ⟨program, by simp [Call.program?, parsed, Except.map, Except.toOption], result⟩
      case h_2 => cases result
  | _ =>
    obtain ⟨loads, -⟩ | ⟨-, moves⟩ := perform_cases h
    · cases loads
    · exact .inr ⟨rfl, moves⟩

theorem Move.initial_eq (move : Move cpu after) : after.initial = cpu.initial := by
  cases move with
  | rewind undone =>
    obtain ⟨state, history, -, rfl⟩ := rewind_eq_true undone
    rfl
  | _ => rfl

theorem Moves.initial_eq (moves : Moves cpu after) : after.initial = cpu.initial :=
  moves.invariant (P := fun other => other.initial = cpu.initial)
    (fun same move => move.initial_eq.trans same) rfl

namespace WellFormed

variable {program : List Word}

theorem capacity (h : WellFormed config cpu) : cpu.capacity = config.capacity := h.initial.memory

theorem clear (h : WellFormed config cpu) : cpu.history.clear = .empty config.historyLimit := by
  rw [History.clear, h.limit]

theorem load_new (h : WellFormed config cpu) (loaded : cpu.load program = (.ok (), after)) :
    (Processor.new config).load program = (.ok (), after) := by
  obtain ⟨memory, fill, rfl⟩ := load_ok loaded
  rw [h.capacity, ← (WellFormed.new config).capacity] at fill
  rw [Processor.load, fill, h.clear, (WellFormed.new config).clear]

theorem load_too_large {fault : Fault} (h : WellFormed config cpu)
    (refused : cpu.load program = (.error fault, after)) :
    fault = .programTooLarge program.length config.capacity := by
  rw [Processor.load, Memory.load, Memory.capacity_zero, h.capacity] at refused
  split at refused
  case h_1 => cases refused
  case h_2 cause eq =>
    cases refused
    split at eq <;> cases eq
    rfl

end WellFormed

theorem Reached.freshlyLoaded_eq (h : Reached config calls cpu) :
    freshlyLoaded config (lastProgram? calls) =
      ⟨cpu.initial, cpu.initial, none, .empty config.historyLimit, .loaded⟩ := by
  induction h with
  | new => rfl
  | call before performed ih =>
    rw [lastProgram?, List.findSome?_cons]
    obtain ⟨program, loads, loaded⟩ | ⟨loads, moves⟩ := program?_of_perform performed
    · rw [loads]
      dsimp only
      rw [freshlyLoaded, before.wellFormed.load_new loaded]
      obtain ⟨memory, -, rfl⟩ := load_ok loaded
      rw [before.wellFormed.clear]
    · rw [loads, moves.initial_eq]
      exact ih

theorem Reached.load_lastProgram (h : Reached config calls cpu) {program : List Word}
    (last : lastProgram? calls = some program) :
    ((Processor.new config).load program).1 = .ok () := by
  induction h with
  | new => cases last
  | call before performed ih =>
    rw [lastProgram?, List.findSome?_cons] at last
    obtain ⟨loadedProgram, loads, loaded⟩ | ⟨loads, -⟩ := program?_of_perform performed
    · rw [loads] at last
      cases last
      rw [before.wellFormed.load_new loaded]
    · rw [loads] at last
      exact ih last

/-- A reset leads to the new processor on which the program that was loaded last was just loaded,
but for the breakpoint, and so does a load to the one with its own program. A program that is
refused changes nothing. -/
theorem Reached.starts_over (h : Reached config calls cpu) :
    (∀ program, lastProgram? calls = some program →
      ((Processor.new config).load program).1 = .ok ()) ∧
    cpu.reset = (freshlyLoaded config (lastProgram? calls)).armed cpu.breakpoint ∧
    (∀ later last, Leads cpu.reset later last ↔
      Leads ((freshlyLoaded config (lastProgram? calls)).armed cpu.breakpoint) later last) ∧
    (∀ program fault after, cpu.load program = (.error fault, after) →
      fault = .programTooLarge program.length config.capacity ∧ after = cpu) ∧
    (∀ text fault after, cpu.loadImage text = (.error fault, after) →
      ((∃ token index, fault = .invalidToken token index) ∨
        ∃ words, fault = .programTooLarge words config.capacity) ∧ after = cpu) ∧
    (∀ program after, cpu.load program = (.ok (), after) →
      (Processor.new config).load program = (.ok (), after)) ∧
    ∀ text after, cpu.loadImage text = (.ok (), after) →
      (Processor.new config).loadImage text = (.ok (), after) := by
  have wf := h.wellFormed
  have renewed : cpu.reset = (freshlyLoaded config (lastProgram? calls)).armed cpu.breakpoint := by
    rw [armed_eq, h.freshlyLoaded_eq, reset, wf.clear]
  refine ⟨fun program => h.load_lastProgram, renewed, fun later last => by rw [renewed], ?_, ?_,
    fun program after => wf.load_new, ?_⟩
  · intro program fault after refused
    exact ⟨wf.load_too_large refused, load_error refused⟩
  · intro text fault after refused
    refine ⟨?_, loadImage_error refused⟩
    rw [loadImage] at refused
    split at refused
    case h_1 program parsed => exact .inr ⟨_, wf.load_too_large refused⟩
    case h_2 cause parsed =>
      cases refused
      exact .inl (Image.parse_eq_error parsed)
  · intro text after loaded
    rw [loadImage] at loaded ⊢
    split at loaded
    case h_1 program parsed => exact wf.load_new loaded
    case h_2 => cases loaded

theorem Reached.starts_over_of_store : ∃ calls cpu, Reached ⟨4, some 1⟩ calls cpu ∧
    lastProgram? calls = some [0x5201, 0x7200, 0xE000] ∧
    cpu.state.memory.words[0]? = some 1 ∧ cpu.history.depth = 1 ∧
    cpu.reset = (freshlyLoaded ⟨4, some 1⟩ (some [0x5201, 0x7200, 0xE000])).armed (some 2) ∧
    (cpu.load [1, 2, 3, 4, 5]).1 = .error (.programTooLarge 5 4) ∧
    (cpu.load [1, 2, 3, 4, 5]).2 = cpu := by
  have loaded : (Processor.new ⟨4, some 1⟩).perform 0 (.loadImage "5201 7200\nE000") =
      some (.ok .done, ((Processor.new ⟨4, some 1⟩).load [0x5201, 0x7200, 0xE000]).2) := rfl
  have armed : ((Processor.new ⟨4, some 1⟩).load [0x5201, 0x7200, 0xE000]).2.perform 0
      (.setBreakpoint 2) = some (.ok .done, _) := rfl
  have ran : (((Processor.new ⟨4, some 1⟩).load [0x5201, 0x7200, 0xE000]).2.setBreakpoint 2).perform
      3 .run = some (.ok (.signal (.breakpointHit 2)), ((((Processor.new ⟨4, some 1⟩).load
        [0x5201, 0x7200, 0xE000]).2.setBreakpoint 2).run 3).2) := rfl
  have reached := ((Reached.new.call loaded).call armed).call ran
  obtain ⟨-, renewed, -, unchanged, -⟩ := reached.starts_over
  obtain ⟨-, same⟩ := unchanged [1, 2, 3, 4, 5] _ _ rfl
  exact ⟨_, _, reached, rfl, rfl, rfl, renewed, rfl, same⟩

end Processor

end Machine

end Backstep
