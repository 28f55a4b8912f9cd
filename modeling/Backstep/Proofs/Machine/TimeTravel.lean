import Backstep.Proofs.Machine.WellFormed
import Mathlib.Data.List.Chain

namespace Backstep.Machine

namespace State

def execTimes (s : State) : Nat → Option State
  | 0 => some s
  | n + 1 => (s.execTimes n).bind exec

abbrev Before (s after : State) : Prop := s.exec = some after

theorem execTimes_length {newest oldest : State} {older : List State}
    (chain : (newest :: older).IsChain (fun after s => s.Before after))
    (last : (newest :: older).getLast? = some oldest) :
    oldest.execTimes older.length = some newest := by
  induction older generalizing newest with
  | nil =>
    cases last
    rfl
  | cons next older ih =>
    obtain ⟨step, chain⟩ := List.isChain_cons_cons.mp chain
    rw [List.getLast?_cons_cons] at last
    rw [List.length_cons, execTimes, ih chain last]
    exact step

end State

namespace Processor

def timeline (cpu : Processor) : List State := cpu.state :: cpu.history.entries

def stepOnce? (cpu : Processor) : Option Processor :=
  if cpu.status = .halted then none
  else match cpu.step with
    | (.ok _, after) => some after
    | (.error _, _) => none

def stepTimes? (cpu : Processor) : Nat → Option Processor
  | 0 => some cpu
  | n + 1 => (cpu.stepTimes? n).bind stepOnce?

def rewindOnce? (cpu : Processor) : Option Processor :=
  match cpu.rewind with
  | (true, before) => some before
  | (false, _) => none

def rewindTimes? (cpu : Processor) : Nat → Option Processor
  | 0 => some cpu
  | n + 1 => (cpu.rewindTimes? n).bind rewindOnce?

theorem stepOnce?_eq_some {cpu after : Processor} :
    cpu.stepOnce? = some after ↔ cpu.status ≠ .halted ∧
      ∃ state halts, cpu.state.advance = .ok (state, halts) ∧ cpu.stepped state halts = after := by
  rw [stepOnce?]
  by_cases halted : cpu.status = .halted
  · simp [halted]
  rw [if_neg halted]
  cases advance : cpu.state.advance with
  | error fault => simp [step_error halted advance]
  | ok result =>
    obtain ⟨state, halts⟩ := result
    rw [step_ok halted advance]
    constructor
    · rintro ⟨⟩
      exact ⟨halted, state, halts, rfl, rfl⟩
    · rintro ⟨-, _, _, ⟨⟩, rfl⟩
      rfl

theorem rewindOnce?_eq_some {cpu before : Processor} :
    cpu.rewindOnce? = some before ↔ cpu.rewind = (true, before) := by
  rw [rewindOnce?]
  split <;> simp [*]

/-- How the timeline of a processor stands to the state that its `reset` goes back to. -/
structure Rooted (origin : State) (cpu : Processor) : Prop where
  initial : cpu.initial = origin
  chain : cpu.timeline.IsChain (fun after s => s.Before after)
  reach : ∀ s ∈ cpu.timeline, ∃ n, origin.execTimes n = some s
  whole : cpu.history.limit = none → cpu.timeline.getLast? = some origin

theorem timeline_stepped (cpu : Processor) (state : State) (halts : Bool) :
    (cpu.stepped state halts).timeline = state :: History.keep cpu.history.limit cpu.timeline := by
  rw [timeline, stepped, History.push_entries]
  rfl

namespace Rooted

variable {origin : State} {cpu after : Processor}

theorem fresh (state : State) (breakpoint : Option Nat) {history : History State}
    (empty : history.entries = []) : Rooted state ⟨state, state, breakpoint, history, .loaded⟩ where
  initial := rfl
  chain := by simp [timeline, empty]
  reach := by
    intro s mem
    obtain rfl : s = state := by simpa [timeline, empty] using mem
    exact ⟨0, rfl⟩
  whole := by simp [timeline, empty]

theorem step {state : State} {halts : Bool} (h : Rooted origin cpu)
    (advance : cpu.state.advance = .ok (state, halts)) :
    Rooted origin (cpu.stepped state halts) := by
  have exec : cpu.state.Before state := State.exec_eq_some.mpr ⟨halts, advance⟩
  have kept := History.keep_prefix cpu.history.limit cpu.timeline
  refine ⟨h.initial, ?_, ?_, ?_⟩
  · have longer : (state :: cpu.timeline).IsChain (fun after s => s.Before after) :=
      List.isChain_cons_cons.mpr ⟨exec, h.chain⟩
    rw [timeline_stepped]
    exact longer.infix (List.prefix_cons_inj state |>.mpr kept).isInfix
  · intro s mem
    rw [timeline_stepped] at mem
    obtain rfl | old := List.mem_cons.mp mem
    · obtain ⟨n, reached⟩ := h.reach cpu.state (List.mem_cons_self ..)
      exact ⟨n + 1, by rw [State.execTimes, reached]; exact exec⟩
    · exact h.reach s (kept.mem old)
  · intro unlimited
    have unlimited : cpu.history.limit = none := by simpa [stepped] using unlimited
    rw [timeline_stepped, unlimited, ← h.whole unlimited]
    exact List.getLast?_cons_cons

theorem rewind (h : Rooted origin cpu) (undone : cpu.rewind = (true, after)) :
    Rooted origin after := by
  obtain ⟨state, history, pop, rfl⟩ := rewind_eq_true undone
  obtain ⟨entries, limit⟩ := History.pop?_eq_some.mp pop
  have timeline_eq : cpu.timeline = cpu.state :: (state :: history.entries) := by
    rw [timeline, entries]
  refine ⟨h.initial, ?_, ?_, ?_⟩
  · exact (List.isChain_cons_cons.mp (timeline_eq ▸ h.chain)).2
  · intro s mem
    exact h.reach s (timeline_eq ▸ List.mem_cons_of_mem _ mem)
  · intro unlimited
    rw [← h.whole (limit ▸ unlimited), timeline_eq]
    exact List.getLast?_cons_cons.symm

theorem move (h : Rooted origin cpu) (move : Move cpu after) : Rooted origin after := by
  cases move with
  | step live advance => exact h.step advance
  | pause live => exact ⟨h.initial, h.chain, h.reach, h.whole⟩
  | rewind undone => exact h.rewind undone
  | reset =>
    obtain rfl := h.initial
    exact fresh cpu.initial cpu.breakpoint rfl
  | breakpoint b => exact ⟨h.initial, h.chain, h.reach, h.whole⟩

end Rooted

theorem Reached.rooted {config : Config} {calls : List Call} {cpu : Processor}
    (h : Reached config calls cpu) : Rooted (origin config calls) cpu := by
  induction h with
  | new => exact Rooted.fresh _ none rfl
  | call _ performed ih =>
    rw [origin]
    obtain ⟨loads, program, loaded⟩ | ⟨loads, moves⟩ := perform_cases performed
    · obtain ⟨memory, -, rfl⟩ := load_ok loaded
      rw [if_pos loads]
      exact Rooted.fresh _ none rfl
    · rw [if_neg (by simp [loads])]
      exact moves.invariant Rooted.move ih

/-- Where a processor stands that has gone back `n` states on the timeline of another. -/
structure Behind (cpu : Processor) (n : Nat) (past : Processor) : Prop where
  state : cpu.timeline[n]? = some past.state
  entries : past.history.entries = cpu.history.entries.drop n
  limit : past.history.limit = cpu.history.limit

namespace Behind

variable {cpu past : Processor} {n : Nat}

theorem refl (cpu : Processor) : Behind cpu 0 cpu := ⟨rfl, rfl, rfl⟩

theorem unique {other : Processor} (h : Behind cpu n past) (h' : Behind cpu n other) :
    past.state = other.state ∧ past.history = other.history := by
  constructor
  · exact Option.some.inj (h.state.symm.trans h'.state)
  · exact History.ext_entries (h.limit.trans h'.limit.symm) (h.entries.trans h'.entries.symm)

theorem rewind (h : Behind cpu n past) (more : n < cpu.history.entries.length) :
    ∃ before, past.rewindOnce? = some before ∧ before.status ≠ .halted ∧
      Behind cpu (n + 1) before := by
  have entries : past.history.entries =
      cpu.history.entries[n] :: cpu.history.entries.drop (n + 1) := by
    rw [h.entries, List.drop_eq_getElem_cons more]
  cases pop : past.history.pop? with
  | none =>
    rw [History.pop?_eq_none.mp pop] at entries
    cases entries
  | some result =>
    obtain ⟨state, history⟩ := result
    obtain ⟨popped, limit⟩ := History.pop?_eq_some.mp pop
    obtain ⟨state_eq, rest⟩ := List.cons.inj (popped.symm.trans entries)
    refine ⟨_, rewindOnce?_eq_some.mpr (by rw [Processor.rewind, pop]), ?_, ?_, rest,
      limit.trans h.limit⟩
    · dsimp only
      split <;> simp
    · rw [timeline, List.getElem?_cons_succ, List.getElem?_eq_getElem more, state_eq]

theorem step {config : Config} {origin : State} (wf : WellFormed config cpu)
    (rooted : Rooted origin cpu) (h : Behind cpu (n + 1) past) (live : past.status ≠ .halted) :
    ∃ after, past.stepOnce? = some after ∧ Behind cpu n after ∧
      (n ≠ 0 → after.status ≠ .halted) := by
  have inside : n < cpu.history.entries.length := by
    have := (List.getElem?_eq_some_iff.mp h.state).1
    rw [timeline, List.length_cons] at this
    omega
  have at_n : cpu.history.entries[n]? = some past.state := h.state
  have older : n + 1 < cpu.timeline.length := Nat.succ_lt_succ inside
  have newer : n < cpu.timeline.length := Nat.lt_of_succ_lt older
  have next : past.state.exec = some cpu.timeline[n] := by
    have chain := List.isChain_iff_getElem.mp rooted.chain n older
    have here : cpu.timeline[n + 1] = past.state := (List.getElem?_eq_some_iff.mp h.state).2
    rwa [here] at chain
  obtain ⟨halts, advance⟩ := State.exec_eq_some.mp next
  refine ⟨_, stepOnce?_eq_some.mpr ⟨live, _, _, advance, rfl⟩, ⟨?_, ?_, ?_⟩, ?_⟩
  · exact List.getElem?_eq_getElem _
  · have fits : (past.state :: past.history.entries) = cpu.history.entries.drop n := by
      rw [h.entries, List.drop_eq_getElem_cons inside, (List.getElem?_eq_some_iff.mp at_n).2]
    rw [stepped, History.push_entries, fits, h.limit, wf.limit]
    cases limit : config.historyLimit with
    | none => rfl
    | some m =>
      have bound := wf.depth m limit
      rw [History.keep, List.take_of_length_le]
      rw [List.length_drop]
      omega
  · exact (History.push_limit _ _).trans h.limit
  -- An older entry is not at a `halt`, so only the last of the steps can halt the processor.
  · intro later halted
    cases halts with
    | false => cases halted
    | true => exact later (wf.halts n past.state at_n (State.advance_halt advance).1).1

end Behind

theorem rewindTimes?_behind {cpu : Processor} {n : Nat} (recorded : n ≤ cpu.history.entries.length) :
    ∃ past, cpu.rewindTimes? n = some past ∧ Behind cpu n past ∧
      (n ≠ 0 → past.status ≠ .halted) := by
  induction n with
  | zero => exact ⟨cpu, rfl, .refl cpu, by simp⟩
  | succ n ih =>
    obtain ⟨past, rewound, behind, -⟩ := ih (Nat.le_of_succ_le recorded)
    obtain ⟨before, undone, live, behind⟩ := behind.rewind recorded
    exact ⟨before, by rw [rewindTimes?, rewound]; exact undone, behind, fun _ => live⟩

theorem stepTimes?_behind {config : Config} {origin : State} {cpu past : Processor} {n k : Nat}
    (wf : WellFormed config cpu) (rooted : Rooted origin cpu) (h : Behind cpu n past)
    (live : n ≠ 0 → past.status ≠ .halted) (le : k ≤ n) :
    ∃ after, past.stepTimes? k = some after ∧ Behind cpu (n - k) after ∧
      (n - k ≠ 0 → after.status ≠ .halted) := by
  induction k with
  | zero => exact ⟨past, rfl, h, live⟩
  | succ k ih =>
    obtain ⟨middle, stepped, behind, live⟩ := ih (Nat.le_of_succ_le le)
    obtain ⟨m, eq⟩ : ∃ m, n - k = m + 1 := Nat.exists_eq_succ_of_ne_zero (by omega)
    rw [eq] at behind live
    obtain ⟨after, step, behind, live⟩ := behind.step wf rooted (live (Nat.succ_ne_zero m))
    obtain rfl : n - (k + 1) = m := by omega
    exact ⟨after, by rw [stepTimes?, stepped]; exact step, behind, live⟩

theorem timeline_of_stepTimes? {past cpu : Processor} {k : Nat} (h : past.stepTimes? k = some cpu)
    (recorded : k ≤ cpu.history.entries.length) : cpu.timeline[k]? = some past.state := by
  induction k generalizing cpu with
  | zero =>
    cases h
    rfl
  | succ k ih =>
    rw [stepTimes?] at h
    obtain ⟨before, steps, last⟩ := Option.bind_eq_some_iff.mp h
    obtain ⟨-, state, halts, -, rfl⟩ := stepOnce?_eq_some.mp last
    rw [stepped, History.push_entries] at recorded
    have inside : k < before.timeline.length :=
      Nat.lt_of_lt_of_le recorded (History.keep_prefix _ _).length_le
    have earlier := ih steps (Nat.le_of_lt_succ inside)
    have kept := List.getElem?_eq_getElem recorded
    rw [timeline_stepped, List.getElem?_cons_succ, ← earlier]
    exact kept.trans (History.getElem?_of_keep kept).symm

/-- Time travel is exact, after any calls: the recorded states and the current one form an
execution, which starts where the last load left off unless a limit has cut it. Going back `k` steps
leads to the state before the last `k` of them, and stepping on from there to the same states with
the same records. -/
theorem Reached.time_travel {config : Config} {calls : List Call} {cpu : Processor}
    (h : Reached config calls cpu) :
    (cpu.history.entries.reverse ++ [cpu.state]).IsChain (fun s after => s.exec = some after) ∧
    (config.historyLimit = none →
      (cpu.history.entries.reverse ++ [cpu.state]).head? = some (origin config calls) ∧
        (origin config calls).execTimes cpu.history.depth = some cpu.state) ∧
    (∀ n, config.historyLimit = some n → cpu.history.depth ≤ n ∧
      ∃ first m, (cpu.history.entries.reverse ++ [cpu.state]).head? = some first ∧
        (origin config calls).execTimes m = some first) ∧
    (∀ k, ∀ past : Processor, past.stepTimes? k = some cpu → k ≤ cpu.history.depth →
      ∃ before, cpu.rewindTimes? k = some before ∧ before.state = past.state) ∧
    ∀ k ≤ cpu.history.depth, ∃ past, cpu.rewindTimes? k = some past ∧
      (cpu.history.entries.reverse ++ [cpu.state])[cpu.history.depth - k]? = some past.state ∧
      ∀ j ≤ k, ∃ before again, cpu.rewindTimes? (k - j) = some before ∧
        past.stepTimes? j = some again ∧
        again.state = before.state ∧ again.history = before.history := by
  have wf := h.wellFormed
  have rooted := h.rooted
  have reversed : cpu.history.entries.reverse ++ [cpu.state] = cpu.timeline.reverse := by
    simp [timeline]
  rw [reversed, cpu.history.depth_eq]
  refine ⟨?_, ?_, ?_, ?_, ?_⟩
  · exact List.isChain_reverse.mpr rooted.chain
  · intro unlimited
    have whole := rooted.whole (wf.limit.trans unlimited)
    rw [List.head?_reverse]
    exact ⟨whole, State.execTimes_length rooted.chain whole⟩
  · intro n limit
    obtain ⟨first, last⟩ : ∃ first, cpu.timeline.getLast? = some first :=
      ⟨_, List.getLast?_eq_some_getLast (List.cons_ne_nil _ _)⟩
    obtain ⟨m, reach⟩ := rooted.reach first (List.mem_of_getLast? last)
    rw [List.head?_reverse]
    exact ⟨wf.depth n limit, first, m, last, reach⟩
  · intro k past steps recorded
    obtain ⟨before, rewound, behind, -⟩ := rewindTimes?_behind recorded
    have there := timeline_of_stepTimes? steps recorded
    exact ⟨before, rewound, Option.some.inj (behind.state.symm.trans there)⟩
  · intro k recorded
    obtain ⟨past, rewound, behind, live⟩ := rewindTimes?_behind recorded
    refine ⟨past, rewound, ?_, ?_⟩
    · have length : cpu.timeline.length = cpu.history.entries.length + 1 := rfl
      have inside : cpu.history.entries.length - k < cpu.timeline.length := by omega
      rw [← behind.state, List.getElem?_reverse inside]
      congr 1
      omega
    · intro j le
      obtain ⟨again, steps, ahead, -⟩ := stepTimes?_behind wf rooted behind live le
      obtain ⟨before, fewer, back, -⟩ :=
        rewindTimes?_behind (Nat.le_trans (Nat.sub_le k j) recorded)
      obtain ⟨state, history⟩ := ahead.unique back
      exact ⟨before, again, fewer, steps, state, history⟩

theorem Reached.time_travel_of_rewind : ∃ calls cpu, Reached ⟨8, none⟩ calls cpu ∧
    cpu.pc = 1 ∧ cpu.history.depth = 1 ∧
      (origin ⟨8, none⟩ calls).execTimes cpu.history.depth = some cpu.state ∧
      ∃ past, cpu.rewindTimes? 1 = some past ∧ past.pc = 0 ∧
        ∃ again, past.stepTimes? 1 = some again ∧ again.state = cpu.state := by
  have loaded : (Processor.new ⟨8, none⟩).perform 0 (.load [0x5201, 0x5241, 0xE000]) =
      some (.ok .done, ((Processor.new ⟨8, none⟩).load [0x5201, 0x5241, 0xE000]).2) := rfl
  have first : ((Processor.new ⟨8, none⟩).load [0x5201, 0x5241, 0xE000]).2.perform 0 .step =
      some (.ok (.signal .stepped), _) := rfl
  have second : ((Processor.new ⟨8, none⟩).load [0x5201, 0x5241, 0xE000]).2.step.2.perform 0 .step =
      some (.ok (.signal .stepped), _) := rfl
  have back : ((Processor.new ⟨8, none⟩).load [0x5201, 0x5241, 0xE000]).2.step.2.step.2.perform 0
      .rewind = some (.ok (.rewound true), _) := rfl
  have reached := (((Reached.new.call loaded).call first).call second).call back
  obtain ⟨-, whole, -, -, travel⟩ := reached.time_travel
  obtain ⟨past, rewound, -, again⟩ := travel 1 (Nat.le_refl 1)
  obtain ⟨_, again, ⟨⟩, steps, same, -⟩ := again 1 (Nat.le_refl 1)
  have pc : past.pc = 0 := by
    cases rewound
    rfl
  exact ⟨_, _, reached, rfl, rfl, (whole rfl).2, past, rewound, pc, again, steps, same⟩

end Processor

end Backstep.Machine
