import Backstep.Proofs.Machine.HistoryLimit
import Backstep.Proofs.Machine.Reset

namespace Backstep.Machine

open Isa

namespace Memory

def widen (n : Nat) (memory : Memory) : Memory := ⟨memory.words ++ Array.replicate n 0⟩

variable {memory after : Memory} {n : Nat} {address : Int} {w : Word}

@[simp] theorem capacity_widen : (memory.widen n).capacity = memory.capacity + n := by
  simp [widen, capacity]

theorem read_widen (h : memory.read address = .ok w) : (memory.widen n).read address = .ok w := by
  rw [read] at h ⊢
  split at h
  case isFalse => cases h
  case isTrue low =>
    split at h <;> cases h
    case h_1 found =>
      have inside := (Array.getElem?_eq_some_iff.mp found).1
      rw [if_pos low, widen, Array.getElem?_append_left inside, found]

theorem write_widen (h : memory.write address w = .ok after) :
    (memory.widen n).write address w = .ok (after.widen n) := by
  rw [write] at h
  split at h
  case isFalse => cases h
  case isTrue inside =>
    cases h
    have longer : 0 ≤ address ∧ address.toNat < (memory.widen n).words.size :=
      ⟨inside.1, Nat.lt_of_lt_of_le inside.2 (by simp [widen])⟩
    rw [write, dif_pos longer]
    simp only [widen, Array.set_append_left inside.2]

theorem load_widen {program : List Word} (h : memory.load program = .ok after) :
    (memory.widen n).load program = .ok (after.widen n) := by
  rw [load] at h
  split at h
  case isFalse => cases h
  case isTrue fits =>
    cases h
    have split : memory.capacity + n - program.length = memory.capacity - program.length + n := by
      omega
    rw [load, capacity_widen, if_pos (Nat.le_add_right_of_le fits), split, List.replicate_add]
    simp [widen]

theorem zero_widen {capacity : Nat} : (zero capacity).widen n = zero (capacity + n) := by
  simp [widen, zero]

end Memory

namespace State

def widen (n : Nat) (s : State) : State := { s with memory := s.memory.widen n }

variable {s after : State} {n : Nat} {i : Instruction} {flow : Flow}

theorem setRegister_widen {r : Nat} {w : Word} (h : s.setRegister r w = .ok after) :
    (s.widen n).setRegister r w = .ok (after.widen n) := by
  obtain ⟨registers, set, rfl⟩ := setRegister_eq_ok h
  simp [setRegister, widen, set]

theorem execute_widen (h : s.execute i = .ok (after, flow)) :
    (s.widen n).execute i = .ok (after.widen n, flow) := by
  cases i with
  | alu op ra rb rc =>
    simp only [execute, bind_eq_ok] at h ⊢
    obtain ⟨b, hb, c, hc, after, set, eq⟩ := h
    cases eq
    exact ⟨b, hb, c, hc, _, setRegister_widen set, rfl⟩
  | addi ra rb imm =>
    simp only [execute, bind_eq_ok] at h ⊢
    obtain ⟨b, hb, after, set, eq⟩ := h
    cases eq
    exact ⟨b, hb, _, setRegister_widen set, rfl⟩
  | lw ra rb disp =>
    simp only [execute, bind_eq_ok] at h ⊢
    obtain ⟨base, hb, value, read, after, set, eq⟩ := h
    cases eq
    exact ⟨base, hb, value, Memory.read_widen read, _, setRegister_widen set, rfl⟩
  | sw ra rb disp =>
    simp only [execute, bind_eq_ok] at h ⊢
    obtain ⟨base, hb, value, ha, memory, write, eq⟩ := h
    cases eq
    exact ⟨base, hb, value, ha, _, Memory.write_widen write, rfl⟩
  | branch cond ra rb offset =>
    simp only [execute, bind_eq_ok] at h ⊢
    obtain ⟨a, ha, b, hb, eq⟩ := h
    cases eq
    exact ⟨a, ha, b, hb, rfl⟩
  | jalr ra rb =>
    simp only [execute, bind_eq_ok] at h ⊢
    obtain ⟨target, hb, after, set, eq⟩ := h
    cases eq
    exact ⟨target, hb, _, setRegister_widen set, rfl⟩
  | lea ra offset =>
    simp only [execute, bind_eq_ok] at h ⊢
    obtain ⟨after, set, eq⟩ := h
    cases eq
    exact ⟨_, setRegister_widen set, rfl⟩
  | halt =>
    cases h
    rfl

theorem fetch_widen (h : s.fetch = .ok i) : (s.widen n).fetch = .ok i := by
  obtain ⟨w, read, decoded⟩ := bind_eq_ok.mp h
  exact bind_eq_ok.mpr ⟨w, Memory.read_widen read, decoded⟩

theorem advance_widen {halts : Bool} (h : s.advance = .ok (after, halts)) :
    (s.widen n).advance = .ok (after.widen n, halts) := by
  obtain ⟨i, raw, flow, fetch, execute, ⟨low, high⟩, rfl, rfl⟩ := advance_eq_ok.mp h
  refine advance_eq_ok.mpr
    ⟨i, raw.widen n, flow, fetch_widen fetch, execute_widen execute, ⟨low, ?_⟩, rfl, rfl⟩
  have larger : (s.widen n).memory.capacity = s.memory.capacity + n := Memory.capacity_widen
  have same : (s.widen n).target flow = s.target flow := rfl
  omega

end State

namespace History

variable {α β : Type} (f : α → β) (h : History α)

def map : History β := ⟨h.limit, h.entries.map f, h.depth, by simp [h.depth_eq]⟩

@[simp] theorem map_limit : (h.map f).limit = h.limit := rfl

@[simp] theorem map_entries : (h.map f).entries = h.entries.map f := rfl

theorem push_map (entry : α) : (h.map f).push (f entry) = (h.push entry).map f := by
  apply ext_entries
  · simp
  · rw [push_entries, map_entries, map_entries, push_entries, map_limit]
    cases h.limit with
    | none => rfl
    | some n => simp [keep, List.map_take]

theorem pop?_map : (h.map f).pop? = h.pop?.map (Prod.map f (map f)) := by
  cases pop : h.pop? with
  | none =>
    rw [pop?_eq_none] at pop
    exact pop?_eq_none.mpr (by simp [pop])
  | some result =>
    obtain ⟨entry, rest⟩ := result
    obtain ⟨entries, limit⟩ := pop?_eq_some.mp pop
    exact pop?_eq_some.mpr ⟨by simp [entries], limit⟩

end History

namespace Processor

def widen (n : Nat) (cpu : Processor) : Processor :=
  { cpu with
    state := cpu.state.widen n
    initial := cpu.initial.widen n
    history := cpu.history.map (State.widen n) }

variable {cpu after : Processor} {n : Nat}

theorem stepped_widen (state : State) (halts : Bool) :
    (cpu.widen n).stepped (state.widen n) halts = (cpu.stepped state halts).widen n := by
  rw [stepped, widen, History.push_map]
  rfl

theorem step_widen {signal : Signal} (h : cpu.step = (.ok signal, after)) :
    (cpu.widen n).step = (.ok signal, after.widen n) := by
  by_cases halted : cpu.status = .halted
  · rw [step_halted halted] at h
    cases h
    exact step_halted halted
  have live : (cpu.widen n).status ≠ .halted := halted
  cases advance : cpu.state.advance with
  | error fault =>
    rw [step_error halted advance] at h
    cases h
  | ok result =>
    obtain ⟨state, halts⟩ := result
    rw [step_ok halted advance] at h
    cases h
    rw [step_ok live (State.advance_widen advance), stepped_widen]

theorem run_widen {budget : Nat} {outcome : Option (Except Fault Signal)}
    (h : cpu.run budget = (outcome, after)) (sound : ∀ fault, outcome ≠ some (.error fault)) :
    (cpu.widen n).run budget = (outcome, after.widen n) := by
  by_cases halted : cpu.status = .halted
  · rw [run_of_halted halted] at h
    cases h
    exact run_of_halted halted
  have live : (cpu.widen n).status ≠ .halted := halted
  induction budget generalizing cpu with
  | zero =>
    rw [run, runWhile_zero halted] at h
    cases h
    exact runWhile_zero live
  | succ budget ih =>
    by_cases passes : cpu.Passes
    · have passes' : (cpu.widen n).Passes := passes
      rw [run_of_passes halted passes] at h
      rw [run_of_passes live passes']
      cases advance : cpu.state.advance with
      | error fault =>
        rw [stepThen_error halted advance] at h
        cases h
        exact absurd rfl (sound fault)
      | ok result =>
        obtain ⟨state, halts⟩ := result
        have larger := State.advance_widen (n := n) advance
        cases halts with
        | true =>
          rw [stepThen_halt halted advance] at h
          cases h
          rw [stepThen_halt live larger, stepped_widen]
        | false =>
          rw [stepThen_next halted advance] at h
          rw [stepThen_next live larger, stepped_widen]
          exact ih h (by simp [stepped]) (by simp [stepped, widen])
    · have stops : ¬ (cpu.widen n).Passes := passes
      rw [run_of_not_passes halted passes] at h
      cases h
      exact run_of_not_passes live stops

theorem rewind_widen : (cpu.widen n).rewind = (cpu.rewind.1, cpu.rewind.2.widen n) := by
  have pops : (cpu.widen n).history.pop? = _ := History.pop?_map (State.widen n) cpu.history
  rw [rewind, rewind, pops]
  cases cpu.history.pop? with
  | none => rfl
  | some result => rfl

theorem load_widen {program : List Word} (h : cpu.load program = (.ok (), after)) :
    (cpu.widen n).load program = (.ok (), after.widen n) := by
  obtain ⟨memory, fill, rfl⟩ := load_ok h
  have larger : (cpu.widen n).capacity = cpu.capacity + n := Memory.capacity_widen
  rw [load, larger, ← Memory.zero_widen, Memory.load_widen fill]
  rfl

theorem loadImage_widen {text : String} (h : cpu.loadImage text = (.ok (), after)) :
    (cpu.widen n).loadImage text = (.ok (), after.widen n) := by
  rw [loadImage] at h ⊢
  split at h
  case h_1 program parsed => exact load_widen h
  case h_2 => cases h

theorem new_widen {c c' : Nat} {limit : Option Nat} (le : c ≤ c') (max : c' ≤ maxMemoryWords) :
    (new ⟨c, limit⟩).widen (c' - c) = new ⟨c', limit⟩ := by
  have zero : (State.zero c).widen (c' - c) = State.zero c' := by
    rw [State.widen, State.zero, Memory.zero_widen, Nat.add_sub_cancel' le, State.zero]
  rw [new, new, widen]
  dsimp only
  rw [Nat.min_eq_left (Nat.le_trans le max), Nat.min_eq_left max, zero]
  rfl

theorem perform_widen {budget : Nat} {action : Action} {answer : Answer}
    (plain : action.unconditional = true)
    (h : cpu.perform budget action = some (.ok answer, after)) :
    (cpu.widen n).perform budget action = some (.ok answer, after.widen n) := by
  cases action with
  | load program =>
    rcases result : cpu.load program with ⟨outcome, loaded⟩
    rw [perform, result] at h
    cases outcome with
    | error fault => cases h
    | ok =>
      cases h
      rw [perform, load_widen result]
      rfl
  | loadImage text =>
    rcases result : cpu.loadImage text with ⟨outcome, loaded⟩
    rw [perform, result] at h
    cases outcome with
    | error fault => cases h
    | ok =>
      cases h
      rw [perform, loadImage_widen result]
      rfl
  | reset =>
    cases h
    rfl
  | step =>
    rcases result : cpu.step with ⟨outcome, stepped⟩
    rw [perform, result] at h
    cases outcome with
    | error fault => cases h
    | ok signal =>
      cases h
      rw [perform, step_widen result]
      rfl
  | run =>
    obtain ⟨outcome, ran, same⟩ := Answer.ofRun_eq_some.mp h
    obtain ⟨signal, rfl, -⟩ := map_eq_ok.mp same
    exact Answer.ofRun_eq_some.mpr ⟨_, run_widen ran (by simp), same⟩
  | runFor steps =>
    rcases ran : cpu.run steps with ⟨outcome, stopped⟩
    rw [perform, runFor, ran] at h
    obtain _ | fault | signal := outcome
    case some.error => cases h
    case none | some.ok =>
      cases h
      rw [perform, runFor, run_widen ran (by simp)]
      rfl
  | runWhile goOn => cases plain
  | runAsking goOn => cases plain
  | rewind =>
    cases h
    rw [perform, rewind_widen]
    rfl
  | setBreakpoint address =>
    cases h
    rfl
  | clearBreakpoint =>
    cases h
    rfl

def Sound (calls : List (Action × Except Fault Answer)) : Prop :=
  ∀ call ∈ calls, call.1.unconditional = true ∧ ∃ answer, call.2 = .ok answer

variable {calls : List (Action × Except Fault Answer)}

theorem Leads.widen (leads : Leads cpu calls after) (sound : Sound calls) :
    Leads (cpu.widen n) calls (after.widen n) := by
  induction leads with
  | nil => exact .nil
  | cons performs _ ih =>
    rw [Sound, List.forall_mem_cons] at sound
    obtain ⟨⟨plain, answer, rfl⟩, rest⟩ := sound
    obtain ⟨budget, performed⟩ := performs
    exact .cons ⟨budget, perform_widen plain performed⟩ (ih rest)

theorem WellFormed.leads {config : Config} (h : WellFormed config cpu)
    (leads : Leads cpu calls after) : WellFormed config after := by
  induction leads with
  | nil => exact h
  | cons performs _ ih =>
    obtain ⟨budget, performed⟩ := performs
    obtain ⟨-, program, loaded⟩ | ⟨-, moves⟩ := perform_cases performed
    · exact ih (h.load loaded)
    · exact ih (moves.invariant .move h)

/-- The second processor shows what the first one shows, and the words of its memory that the first
one does not have are zero. -/
structure Enlarges (c c' : Nat) (p q : Processor) : Prop where
  registers : q.state.registers = p.state.registers
  pc : q.pc = p.pc
  status : q.status = p.status
  depth : q.history.depth = p.history.depth
  sizes : p.state.memory.words.size = c ∧ q.state.memory.words.size = c'
  words : ∀ a < c, q.state.memory.words[a]? = p.state.memory.words[a]?
  zeros : ∀ a, c ≤ a → a < c' → q.state.memory.words[a]? = some 0

theorem enlarges_widen {c c' : Nat} {p : Processor} (le : c ≤ c')
    (size : p.state.memory.words.size = c) : Enlarges c c' p (p.widen (c' - c)) where
  registers := rfl
  pc := rfl
  status := rfl
  depth := rfl
  sizes := ⟨size, by simp [widen, State.widen, Memory.widen, size, le]⟩
  words := by
    intro a inside
    exact Array.getElem?_append_left (size ▸ inside)
  zeros := by
    intro a outside inside
    have behind : a - c < c' - c := Nat.sub_lt_sub_right outside inside
    rw [widen, State.widen, Memory.widen, Array.getElem?_append_right (size ▸ outside), size,
      Array.getElem?_replicate, if_pos behind]

/-- Memory size does not change a correct run: what a program does in a memory that it fits it does
in every larger one, with the same answers, as long as nothing fails in the smaller one. -/
theorem larger_memory_agrees {c c' : Nat} {limit : Option Nat} {program : List Word}
    (fits : program.length ≤ c) (le : c ≤ c') (max : c' ≤ maxMemoryWords) :
    ∃ p q, (new ⟨c, limit⟩).load program = (.ok (), p) ∧
      (new ⟨c', limit⟩).load program = (.ok (), q) ∧ Enlarges c c' p q ∧
      ∀ calls p', Sound calls → Leads p calls p' →
        ∃ q', Leads q calls q' ∧ Enlarges c c' p' q' := by
  have capacity : Config.capacity ⟨c, limit⟩ = c := Nat.min_eq_left (Nat.le_trans le max)
  obtain ⟨p, loaded⟩ : ∃ p, (new ⟨c, limit⟩).load program = (.ok (), p) := by
    have room : program.length ≤ (Memory.zero (new ⟨c, limit⟩).capacity).capacity := by
      rw [Memory.capacity_zero, (WellFormed.new ⟨c, limit⟩).capacity, capacity]
      exact fits
    rw [load, Memory.load, if_pos room]
    exact ⟨_, rfl⟩
  have larger := load_widen (n := c' - c) loaded
  rw [new_widen le max] at larger
  have wf := (WellFormed.new ⟨c, limit⟩).load loaded
  refine ⟨p, _, loaded, larger, enlarges_widen le (wf.state.memory.trans capacity), ?_⟩
  intro calls p' sound leads
  exact ⟨_, leads.widen sound,
    enlarges_widen le ((wf.leads leads).state.memory.trans capacity)⟩

theorem larger_memory_agrees_of_store : ∃ p q calls p' q',
    (new ⟨4, some 1⟩).load [0x5201, 0x7203, 0xE000] = (.ok (), p) ∧
    (new ⟨6, some 1⟩).load [0x5201, 0x7203, 0xE000] = (.ok (), q) ∧
    calls.map Prod.fst = [.runFor 2, .rewind, .step] ∧ Sound calls ∧ Leads p calls p' ∧
    p'.state.memory.words[3]? = some 1 ∧ Leads q calls q' ∧ Enlarges 4 6 p' q' := by
  obtain ⟨p, q, loaded, larger, -, agrees⟩ :=
    @larger_memory_agrees 4 6 (some 1) [0x5201, 0x7203, 0xE000]
      (by decide) (by decide) (by decide)
  obtain rfl : ((new ⟨4, some 1⟩).load [0x5201, 0x7203, 0xE000]).2 = p := by rw [loaded]
  have first : ((new ⟨4, some 1⟩).load [0x5201, 0x7203, 0xE000]).2.Performs (.runFor 2)
      (.ok (.signal .interrupted)) _ := ⟨0, rfl⟩
  have second : (((new ⟨4, some 1⟩).load [0x5201, 0x7203, 0xE000]).2.runFor 2).2.Performs .rewind
      (.ok (.rewound true)) _ := ⟨0, rfl⟩
  have third : (((new ⟨4, some 1⟩).load [0x5201, 0x7203, 0xE000]).2.runFor 2).2.rewind.2.Performs
      .step (.ok (.signal .stepped)) _ := ⟨0, rfl⟩
  have sound : Sound [(.runFor 2, .ok (.signal .interrupted)), (.rewind, .ok (.rewound true)),
      (.step, .ok (.signal .stepped))] := by simp [Sound, Action.unconditional]
  have ran := Leads.cons first (.cons second (.cons third .nil))
  obtain ⟨q', runs, enlarges⟩ := agrees _ _ sound ran
  exact ⟨_, q, _, _, q', loaded, larger, rfl, sound, ran, rfl, runs, enlarges⟩

end Processor

end Backstep.Machine
