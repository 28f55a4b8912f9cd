import Backstep.Proofs.Machine.Reachable

namespace Backstep.Machine

open Isa

def Config.capacity (config : Config) : Nat := min config.memoryWords maxMemoryWords

structure State.Fits (capacity : Nat) (s : State) : Prop where
  memory : s.memory.capacity = capacity
  zero : s.registers.get 0 = .ok 0
  pc : s.pc ≤ capacity

def State.AtHalt (s : State) : Prop := s.memory.HaltAt s.pc

theorem State.fits_zero (capacity : Nat) : (State.zero capacity).Fits capacity :=
  ⟨Memory.capacity_zero capacity, rfl, Nat.zero_le _⟩

theorem State.Fits.advance {capacity : Nat} {s after : State} {halts : Bool} (fits : s.Fits capacity)
    (h : s.advance = .ok (after, halts)) : after.Fits capacity := by
  have kept := advance_kept h
  have pc := advance_pc h
  rw [fits.memory] at pc
  exact ⟨kept.capacity.trans fits.memory, kept.zero.trans fits.zero, pc⟩

namespace Processor

structure WellFormed (config : Config) (cpu : Processor) : Prop where
  state : cpu.state.Fits config.capacity
  initial : cpu.initial.Fits config.capacity
  entries : ∀ entry ∈ cpu.history.entries, entry.Fits config.capacity
  limit : cpu.history.limit = config.historyLimit
  depth : ∀ n, config.historyLimit = some n → cpu.history.entries.length ≤ n
  halted : cpu.status = .halted → ∃ last : State, last.AtHalt ∧
    cpu.state = { last with pc := last.pc + 1 } ∧ ∀ entry ∈ cpu.history.entries.head?, entry = last
  halts : ∀ i entry, cpu.history.entries[i]? = some entry → entry.AtHalt →
    i = 0 ∧ cpu.status = .halted

namespace WellFormed

variable {config : Config} {cpu after : Processor}

theorem fresh {state : State} {breakpoint : Option Nat} {history : History State}
    (fits : state.Fits config.capacity) (limit : history.limit = config.historyLimit)
    (empty : history.entries = []) :
    WellFormed config ⟨state, state, breakpoint, history, .loaded⟩ where
  state := fits
  initial := fits
  entries := by simp [empty]
  limit := limit
  depth := by simp [empty]
  halted := by simp
  halts := by simp [empty]

theorem new (config : Config) : WellFormed config (.new config) :=
  fresh (State.fits_zero _) rfl rfl

theorem load {program : List Word} (h : WellFormed config cpu)
    (loaded : cpu.load program = (.ok (), after)) : WellFormed config after := by
  obtain ⟨memory, fill, rfl⟩ := load_ok loaded
  have capacity : memory.capacity = config.capacity := by
    rw [Memory.capacity_load fill, Memory.capacity_zero]
    exact h.initial.memory
  exact fresh ⟨capacity, rfl, Nat.zero_le _⟩ h.limit rfl

theorem step {state : State} {halts : Bool} (h : WellFormed config cpu)
    (live : cpu.status ≠ .halted) (advance : cpu.state.advance = .ok (state, halts)) :
    WellFormed config (cpu.stepped state halts) where
  state := h.state.advance advance
  initial := h.initial
  entries := by
    intro entry mem
    rw [stepped, History.push_entries] at mem
    obtain rfl | old := List.mem_cons.mp ((History.keep_prefix _ _).mem mem)
    · exact h.state
    · exact h.entries entry old
  limit := (History.push_limit _ _).trans h.limit
  depth := by
    intro n eq
    rw [stepped, History.push_entries]
    exact History.length_keep_le (h.limit.trans eq) _
  halted := by
    intro halted
    cases halts with
    | false => cases halted
    | true =>
      obtain ⟨atHalt, rfl⟩ := State.advance_halt advance
      refine ⟨cpu.state, atHalt, rfl, ?_⟩
      intro entry head
      rw [stepped, History.push_entries, List.head?_eq_getElem?] at head
      simpa using (History.getElem?_of_keep head).symm
  halts := by
    intro i entry at_i atHalt
    rw [stepped, History.push_entries] at at_i
    have old := History.getElem?_of_keep at_i
    cases i with
    | succ i =>
      rw [List.getElem?_cons_succ] at old
      exact absurd (h.halts i entry old atHalt).2 live
    | zero =>
      obtain rfl : cpu.state = entry := by simpa using old
      cases halts with
      | false => exact absurd atHalt (State.advance_not_halt advance)
      | true => exact ⟨rfl, rfl⟩

theorem rewind (h : WellFormed config cpu) (undone : cpu.rewind = (true, after)) :
    WellFormed config after := by
  obtain ⟨state, history, pop, rfl⟩ := rewind_eq_true undone
  obtain ⟨entries, limit⟩ := History.pop?_eq_some.mp pop
  have live : (if cpu.breakpoint = some state.pc then Status.stoppedAtBreakpoint else .loaded) ≠
      .halted := by
    split <;> simp
  refine ⟨?_, h.initial, ?_, limit.trans h.limit, ?_, fun halted => absurd halted live, ?_⟩
  · exact h.entries state (by simp [entries])
  · intro entry mem
    exact h.entries entry (by simp [entries, mem])
  · intro n eq
    have bound := h.depth n eq
    rw [entries, List.length_cons] at bound
    dsimp only
    omega
  · intro i entry at_i atHalt
    have older : cpu.history.entries[i + 1]? = some entry := by
      rw [entries, List.getElem?_cons_succ]
      exact at_i
    exact absurd (h.halts _ entry older atHalt).1 (Nat.succ_ne_zero i)

theorem move (h : WellFormed config cpu) (move : Move cpu after) : WellFormed config after := by
  cases move with
  | step live advance => exact h.step live advance
  | pause live =>
    refine ⟨h.state, h.initial, h.entries, h.limit, h.depth, by simp, ?_⟩
    intro i entry at_i atHalt
    exact absurd (h.halts i entry at_i atHalt).2 live
  | rewind undone => exact h.rewind undone
  | reset => exact fresh h.initial h.limit rfl
  | breakpoint b => exact ⟨h.state, h.initial, h.entries, h.limit, h.depth, h.halted, h.halts⟩

end WellFormed

theorem Reached.wellFormed {config : Config} {calls : List Call} {cpu : Processor}
    (h : Reached config calls cpu) : WellFormed config cpu :=
  h.invariant (.new config) .load .move

/-- The invariant of every processor that calls lead to, in the terms of its parts. -/
theorem Reached.representation {config : Config} {calls : List Call} {cpu : Processor}
    (h : Reached config calls cpu) :
    (∀ s : State, s = cpu.state ∨ s = cpu.initial ∨ s ∈ cpu.history.entries →
      s.memory.words.size = min config.memoryWords 65536 ∧ s.registers.get 0 = .ok 0 ∧
        s.pc ≤ s.memory.words.size) ∧
    (∀ n, config.historyLimit = some n → cpu.history.depth ≤ n) ∧
    (cpu.status = .halted →
      1 ≤ cpu.pc ∧ cpu.state.memory.HaltAt (cpu.pc - 1 : Nat) ∧
        ∀ last, cpu.history.entries.head? = some last → last.pc = cpu.pc - 1) ∧
    ∀ i entry, cpu.history.entries[i]? = some entry → entry.memory.HaltAt entry.pc →
      i = 0 ∧ cpu.status = .halted := by
  have wf := h.wellFormed
  refine ⟨?_, ?_, ?_, wf.halts⟩
  · intro s which
    have fits : s.Fits config.capacity := by
      rcases which with rfl | rfl | mem
      · exact wf.state
      · exact wf.initial
      · exact wf.entries s mem
    exact ⟨fits.memory, fits.zero, Nat.le_trans fits.pc (Nat.le_of_eq fits.memory.symm)⟩
  · intro n eq
    rw [cpu.history.depth_eq]
    exact wf.depth n eq
  · intro halted
    obtain ⟨last, atHalt, state, head⟩ := wf.halted halted
    have pc : cpu.pc = last.pc + 1 := by rw [Processor.pc, state]
    have memory : cpu.state.memory = last.memory := by rw [state]
    rw [pc, Nat.add_sub_cancel, memory]
    exact ⟨Nat.le_add_left 1 _, atHalt, fun entry eq => congrArg State.pc (head entry eq)⟩

theorem Reached.representation_of_halt : ∃ calls cpu, Reached ⟨4, some 1⟩ calls cpu ∧
    cpu.status = .halted ∧ cpu.state.memory.words.size = 4 ∧ cpu.history.depth ≤ 1 ∧
      1 ≤ cpu.pc ∧ cpu.state.memory.HaltAt (cpu.pc - 1 : Nat) := by
  have loaded : (Processor.new ⟨4, some 1⟩).perform 0 (.load [0x0000, 0xE000]) =
      some (.ok .done, ((Processor.new ⟨4, some 1⟩).load [0x0000, 0xE000]).2) := rfl
  have ran : ((Processor.new ⟨4, some 1⟩).load [0x0000, 0xE000]).2.perform 9 .run =
      some (.ok (.signal .halted), _) := rfl
  have reached := (Reached.new.call loaded).call ran
  obtain ⟨fits, depth, halted, -⟩ := reached.representation
  obtain ⟨pc, atHalt, -⟩ := halted rfl
  exact ⟨_, _, reached, rfl, (fits _ (.inl rfl)).1, depth 1 rfl, pc, atHalt⟩

end Processor

end Backstep.Machine
