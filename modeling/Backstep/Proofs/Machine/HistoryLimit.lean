import Backstep.Proofs.Machine.Reachable
import Backstep.Proofs.Machine.RunLaws

/-!
A limit on the history bounds how far one can go back, and nothing else: a processor with a limit
follows one without, call by call, until it is asked for a state that it has dropped.
-/

namespace Backstep.Machine

open Isa

/-- The action does not ask a caller's condition, which could look at the history. -/
def Action.unconditional : Action → Bool
  | .runWhile _ => false
  | .runAsking _ => false
  | _ => true

namespace Processor

/-- Two processors of one memory size, without a limit and with the limit `n`, after the same calls,
and what these answered, the latest first. No rewind was refused by the second processor only. -/
inductive Paired (memoryWords n : Nat) :
    List (Except Fault Answer) → List (Except Fault Answer) → Processor → Processor → Prop
  | new : Paired memoryWords n [] [] (.new ⟨memoryWords, none⟩) (.new ⟨memoryWords, some n⟩)
  | call {p q p' q' : Processor} {action : Action} {answer reply : Except Fault Answer}
      {answers replies : List (Except Fault Answer)} : Paired memoryWords n answers replies p q →
      action.unconditional = true → p.Performs action answer p' → q.Performs action reply q' →
      ¬ (answer = .ok (.rewound true) ∧ reply = .ok (.rewound false)) →
      Paired memoryWords n (answer :: answers) (reply :: replies) p' q'

/-- The second processor differs from the first one in its history only, which is as much of the
newest part of the first one's as the limit allows or less. -/
structure Follows (n : Nat) (p q : Processor) : Prop where
  same : q = { p with history := q.history }
  unlimited : p.history.limit = none
  limited : q.history.limit = some n
  recent : q.history.entries <+: p.history.entries
  depth : q.history.entries.length ≤ n

structure Agree {α : Type} (n : Nat) (x y : α × Processor) : Prop where
  answer : x.1 = y.1
  follows : Follows n x.2 y.2

namespace Agree

variable {α β : Type} {n : Nat}

theorem map (f : α → β) {x y : α × Processor} (h : Agree n x y) :
    Agree n (f x.1, x.2) (f y.1, y.2) :=
  ⟨congrArg f h.answer, h.follows⟩

theorem ofRun {x y : Option (Except Fault Signal) × Processor} (h : Agree n x y) :
    Option.Rel (Agree n) (Answer.ofRun x) (Answer.ofRun y) := by
  obtain ⟨outcome, p⟩ := x
  obtain ⟨outcome', q⟩ := y
  obtain ⟨rfl, follows⟩ := h
  cases outcome with
  | none => exact .none
  | some outcome => exact .some ⟨rfl, follows⟩

theorem map_fst {x y : Option (α × Processor)} (h : Option.Rel (Agree n) x y) :
    x.map Prod.fst = y.map Prod.fst := by
  cases h with
  | none => rfl
  | some agree => exact congrArg some agree.answer

end Agree

namespace Follows

variable {n : Nat} {p q : Processor}

theorem of_empty {state initial : State} {breakpoint : Option Nat} {status : Status}
    {h g : History State} (unlimited : h.limit = none) (limited : g.limit = some n)
    (empty : g.entries = []) :
    Follows n ⟨state, initial, breakpoint, h, status⟩ ⟨state, initial, breakpoint, g, status⟩ where
  same := rfl
  unlimited := unlimited
  limited := limited
  recent := by simp [empty]
  depth := by simp [empty]

theorem state_eq (h : Follows n p q) : q.state = p.state := by rw [h.same]

theorem initial_eq (h : Follows n p q) : q.initial = p.initial := by rw [h.same]

theorem breakpoint_eq (h : Follows n p q) : q.breakpoint = p.breakpoint := by rw [h.same]

theorem status_eq (h : Follows n p q) : q.status = p.status := by rw [h.same]

theorem change (h : Follows n p q) (state initial : State) (breakpoint : Option Nat)
    (status : Status) :
    Follows n ⟨state, initial, breakpoint, p.history, status⟩
      ⟨state, initial, breakpoint, q.history, status⟩ :=
  ⟨rfl, h.unlimited, h.limited, h.recent, h.depth⟩

theorem stepped (h : Follows n p q) (state : State) (halts : Bool) :
    Follows n (p.stepped state halts) (q.stepped state halts) where
  same := by rw [Processor.stepped, Processor.stepped, h.initial_eq, h.breakpoint_eq]
  unlimited := (History.push_limit _ _).trans h.unlimited
  limited := (History.push_limit _ _).trans h.limited
  recent := by
    rw [Processor.stepped, Processor.stepped, History.push_entries, History.push_entries,
      h.unlimited, h.state_eq]
    exact (History.keep_prefix _ _).trans ((List.prefix_cons_inj p.state).mpr h.recent)
  depth := by
    rw [Processor.stepped, History.push_entries]
    exact History.length_keep_le h.limited _

theorem step (h : Follows n p q) : Agree n p.step q.step := by
  by_cases halted : p.status = .halted
  · rw [step_halted halted, step_halted (h.status_eq.trans halted)]
    exact ⟨rfl, h⟩
  have live : q.status ≠ .halted := fun same => halted (h.status_eq.symm.trans same)
  cases advance : p.state.advance with
  | error fault =>
    rw [step_error halted advance, step_error live (h.state_eq ▸ advance)]
    exact ⟨rfl, h⟩
  | ok result =>
    obtain ⟨state, halts⟩ := result
    rw [step_ok halted advance, step_ok live (h.state_eq ▸ advance)]
    exact ⟨rfl, h.stepped state halts⟩

theorem passes_iff (h : Follows n p q) : q.Passes ↔ p.Passes := by
  rw [Passes, Passes, pc, pc, h.status_eq, h.breakpoint_eq, h.state_eq]

theorem run (h : Follows n p q) (budget : Nat) : Agree n (p.run budget) (q.run budget) := by
  by_cases halted : p.status = .halted
  · rw [run_of_halted halted, run_of_halted (h.status_eq.trans halted)]
    exact ⟨rfl, h⟩
  have live : q.status ≠ .halted := fun same => halted (h.status_eq.symm.trans same)
  induction budget generalizing p q with
  | zero =>
    rw [Processor.run, Processor.run, runWhile_zero halted, runWhile_zero live]
    exact ⟨rfl, h⟩
  | succ budget ih =>
    by_cases passes : p.Passes
    · rw [run_of_passes halted passes, run_of_passes live (h.passes_iff.mpr passes)]
      cases advance : p.state.advance with
      | error fault =>
        rw [stepThen_error halted advance, stepThen_error live (h.state_eq ▸ advance)]
        exact ⟨rfl, h⟩
      | ok result =>
        obtain ⟨state, halts⟩ := result
        cases halts with
        | true =>
          rw [stepThen_halt halted advance, stepThen_halt live (h.state_eq ▸ advance)]
          exact ⟨rfl, h.stepped state true⟩
        | false =>
          rw [stepThen_next halted advance, stepThen_next live (h.state_eq ▸ advance)]
          exact ih (h.stepped state false) (by simp [Processor.stepped])
            (by simp [Processor.stepped])
    · rw [run_of_not_passes halted passes, run_of_not_passes live (mt h.passes_iff.mp passes)]
      have stops := h.change p.state p.initial p.breakpoint .stoppedAtBreakpoint
      rw [pc, pc, h.state_eq, h.initial_eq, h.breakpoint_eq]
      exact ⟨rfl, stops⟩

theorem runFor (h : Follows n p q) (steps : Nat) : Agree n (p.runFor steps) (q.runFor steps) := by
  have answer (cpu : Processor) : cpu.runFor steps =
      ((cpu.run steps).1.getD (.ok .interrupted), (cpu.run steps).2) := by
    rw [Processor.runFor]
    split <;> simp [*]
  rw [answer, answer]
  exact (h.run steps).map (·.getD (.ok .interrupted))

theorem load (h : Follows n p q) (program : List Word) :
    Agree n (p.load program) (q.load program) := by
  have capacity : q.capacity = p.capacity := congrArg (·.memory.capacity) h.initial_eq
  rw [Processor.load, Processor.load, capacity]
  cases (Memory.zero p.capacity).load program with
  | ok memory => exact ⟨rfl, .of_empty h.unlimited h.limited rfl⟩
  | error fault => exact ⟨rfl, h⟩

theorem loadImage (h : Follows n p q) (text : String) :
    Agree n (p.loadImage text) (q.loadImage text) := by
  rw [Processor.loadImage, Processor.loadImage]
  cases Image.parse text with
  | ok program => exact h.load program
  | error fault => exact ⟨rfl, h⟩

theorem reset (h : Follows n p q) : Follows n p.reset q.reset := by
  rw [Processor.reset, Processor.reset, h.initial_eq, h.breakpoint_eq]
  exact .of_empty h.unlimited h.limited rfl

theorem setBreakpoint (h : Follows n p q) (b : Option Nat) :
    Follows n { p with breakpoint := b } { q with breakpoint := b } := by
  rw [h.state_eq, h.initial_eq, h.status_eq]
  exact h.change _ _ _ _

theorem rewind (h : Follows n p q) (kept : p.rewind.1 = true → q.rewind.1 = true) :
    Agree n p.rewind q.rewind := by
  cases pop : q.history.pop? with
  | none =>
    have refused : q.rewind = (false, q) := by rw [Processor.rewind, pop]
    rw [refused] at kept ⊢
    rcases back : p.rewind with ⟨undone, before⟩
    cases undone with
    | true => simp [back] at kept
    | false =>
      cases rewind_eq_false back
      exact ⟨rfl, h⟩
  | some result =>
    obtain ⟨state, shorter⟩ := result
    obtain ⟨entries, limit⟩ := History.pop?_eq_some.mp pop
    obtain ⟨rest, whole⟩ := h.recent
    rw [entries, List.cons_append] at whole
    cases pop' : p.history.pop? with
    | none => simp [History.pop?_eq_none.mp pop'] at whole
    | some result' =>
      obtain ⟨state', longer⟩ := result'
      obtain ⟨entries', limit'⟩ := History.pop?_eq_some.mp pop'
      obtain ⟨rfl, whole⟩ := List.cons.inj (whole.trans entries')
      rw [Processor.rewind, Processor.rewind, pop, pop', h.breakpoint_eq]
      refine ⟨rfl, ?_, limit'.trans h.unlimited, limit.trans h.limited, ⟨rest, whole⟩, ?_⟩
      · rw [h.initial_eq]
      · have bound := h.depth
        rw [entries, List.length_cons] at bound
        exact Nat.le_of_succ_le bound

theorem perform (h : Follows n p q) {action : Action} (plain : action.unconditional = true)
    (kept : action = .rewind → p.rewind.1 = true → q.rewind.1 = true) (budget : Nat) :
    Option.Rel (Agree n) (p.perform budget action) (q.perform budget action) := by
  cases action with
  | load program => exact .some ((h.load program).map _)
  | loadImage text => exact .some ((h.loadImage text).map _)
  | reset => exact .some ⟨rfl, h.reset⟩
  | step => exact .some (h.step.map _)
  | run => exact (h.run budget).ofRun
  | runFor steps => exact .some ((h.runFor steps).map _)
  | runWhile goOn => cases plain
  | runAsking goOn => cases plain
  | rewind =>
    exact .some ((h.rewind (kept rfl)).map fun undone : Bool =>
      (.ok (.rewound undone) : Except Fault Answer))
  | setBreakpoint address => exact .some ⟨rfl, h.setBreakpoint (some address)⟩
  | clearBreakpoint => exact .some ⟨rfl, h.setBreakpoint none⟩

theorem exists_performs_iff (h : Follows n p q) {action : Action} {answer : Except Fault Answer}
    (plain : action.unconditional = true)
    (kept : action = .rewind → p.rewind.1 = true → q.rewind.1 = true) :
    (∃ after, p.Performs action answer after) ↔ ∃ after, q.Performs action answer after := by
  have answers (cpu : Processor) : (∃ after, cpu.Performs action answer after) ↔
      ∃ budget, (cpu.perform budget action).map Prod.fst = some answer := by
    simp only [Performs, Option.map_eq_some_iff, Prod.exists, exists_and_right, exists_eq_right]
    exact exists_comm
  rw [answers, answers]
  apply exists_congr
  intro budget
  rw [Agree.map_fst (h.perform plain kept budget)]

theorem performs (h : Follows n p q) {action : Action} {answer reply : Except Fault Answer}
    {p' q' : Processor} (plain : action.unconditional = true)
    (kept : action = .rewind → p.rewind.1 = true → q.rewind.1 = true)
    (first : p.Performs action answer p') (second : q.Performs action reply q') :
    reply = answer ∧ Follows n p' q' := by
  obtain ⟨budget, performed⟩ := first
  have related := h.perform plain kept budget
  rw [performed] at related
  rcases performed' : q.perform budget action with _ | ⟨reply', after⟩
  · rw [performed'] at related
    cases related
  · rw [performed'] at related
    obtain ⟨agree⟩ := related
    obtain ⟨rfl, rfl⟩ := second.unique ⟨budget, performed'⟩
    exact ⟨agree.answer.symm, agree.follows⟩

end Follows

theorem Performs.rewind {cpu after : Processor} {answer : Except Fault Answer}
    (h : cpu.Performs .rewind answer after) : answer = .ok (.rewound cpu.rewind.1) := by
  obtain ⟨budget, performed⟩ := h
  exact (congrArg Prod.fst (Option.some.inj performed)).symm

namespace Paired

variable {memoryWords n : Nat} {answers replies : List (Except Fault Answer)} {p q : Processor}

theorem follows (h : Paired memoryWords n answers replies p q) :
    replies = answers ∧ Follows n p q := by
  induction h with
  | new => exact ⟨rfl, .of_empty rfl rfl rfl⟩
  | @call p q _ _ action _ _ _ _ _ plain first second kept ih =>
    obtain ⟨rfl, follows⟩ := ih
    have undone_too : action = .rewind → p.rewind.1 = true → q.rewind.1 = true := by
      rintro rfl undone
      by_contra refused
      rw [first.rewind, second.rewind, undone, Bool.eq_false_iff.mpr refused] at kept
      exact kept ⟨rfl, rfl⟩
    obtain ⟨rfl, follows⟩ := follows.performs plain undone_too first second
    exact ⟨rfl, follows⟩

/-- A limit only bounds how far one can go back: both processors have answered the same to every
call and stand in the same state, the limited one's history is the newest part of the other one's,
and the next call answers the same too, or goes on for ever on both. -/
theorem indistinct (h : Paired memoryWords n answers replies p q) :
    replies = answers ∧
    (q.state = p.state ∧ q.status = p.status ∧ q.breakpoint = p.breakpoint) ∧
    (q.history.entries.reverse <:+ p.history.entries.reverse ∧ q.history.depth ≤ n) ∧
    ∀ action answer, action.unconditional = true →
      (action = .rewind → p.rewind.1 = true → q.rewind.1 = true) →
      ((∃ after, p.Performs action answer after) ↔ ∃ after, q.Performs action answer after) := by
  obtain ⟨same, follows⟩ := h.follows
  refine ⟨same, ⟨follows.state_eq, follows.status_eq, follows.breakpoint_eq⟩, ⟨?_, ?_⟩,
    fun action answer => follows.exists_performs_iff⟩
  · exact List.reverse_suffix.mpr follows.recent
  · rw [q.history.depth_eq]
    exact follows.depth

theorem indistinct_of_rewind : ∃ answers replies p q, Paired 8 1 answers replies p q ∧
    p.history.depth = 2 ∧ q.history.depth ≤ 1 ∧ replies = answers ∧ q.state = p.state ∧
      ((∃ after, p.Performs .rewind (.ok (.rewound true)) after) ↔
        ∃ after, q.Performs .rewind (.ok (.rewound true)) after) := by
  have load (limit : Option Nat) : (Processor.new ⟨8, limit⟩).Performs
      (.load [0x5201, 0x5241, 0xE000]) (.ok .done)
      ((Processor.new ⟨8, limit⟩).load [0x5201, 0x5241, 0xE000]).2 := ⟨0, rfl⟩
  have run : ((Processor.new ⟨8, none⟩).load [0x5201, 0x5241, 0xE000]).2.Performs (.runFor 2)
      (.ok (.signal .interrupted))
      (((Processor.new ⟨8, none⟩).load [0x5201, 0x5241, 0xE000]).2.runFor 2).2 := ⟨0, rfl⟩
  have run_limited : ((Processor.new ⟨8, some 1⟩).load [0x5201, 0x5241, 0xE000]).2.Performs
      (.runFor 2) (.ok (.signal .interrupted))
      (((Processor.new ⟨8, some 1⟩).load [0x5201, 0x5241, 0xE000]).2.runFor 2).2 := ⟨0, rfl⟩
  have paired := (Paired.new.call (by rfl) (load none) (load (some 1)) (by simp)).call (by rfl) run
    run_limited (by simp)
  obtain ⟨same, ⟨state, -⟩, ⟨-, depth⟩, next⟩ := paired.indistinct
  exact ⟨_, _, _, _, paired, rfl, depth, same, state, next .rewind _ rfl fun _ _ => rfl⟩

end Paired

end Processor

end Backstep.Machine
