import Backstep.Machine.Processor
import Backstep.Proofs.ExceptLaws

/-!
What one instruction and one step can do: each of them is opened here, and nowhere else.
-/

namespace Backstep.Machine

open Isa

def Memory.HaltAt (memory : Memory) (address : Int) : Prop :=
  ∃ word, memory.read address = .ok word ∧ Instruction.decode? word = some .halt

namespace History

variable {α : Type}

theorem ext_entries {h g : History α} (limit : h.limit = g.limit) (entries : h.entries = g.entries) :
    h = g := by
  obtain ⟨limit₁, entries₁, depth₁, rfl⟩ := h
  obtain ⟨limit₂, entries₂, depth₂, rfl⟩ := g
  cases limit
  cases entries
  rfl

@[simp] theorem push_limit (h : History α) (entry : α) : (h.push entry).limit = h.limit := by
  rw [push]
  split <;> rfl

theorem push_entries (h : History α) (entry : α) :
    (h.push entry).entries = keep h.limit (entry :: h.entries) := by
  rw [push]
  split
  · rfl
  · rename_i room
    cases hl : h.limit with
    | none => rfl
    | some n =>
      simp only [isFull, hl, h.depth_eq, decide_eq_true_eq] at room
      have fits : (entry :: h.entries).length ≤ n := by
        rw [List.length_cons]
        omega
      rw [keep, List.take_of_length_le fits]

theorem keep_prefix (limit : Option Nat) (entries : List α) : keep limit entries <+: entries := by
  cases limit with
  | none => exact List.prefix_rfl
  | some n => exact List.take_prefix n entries

theorem getElem?_of_keep {limit : Option Nat} {entries : List α} {i : Nat} {entry : α}
    (h : (keep limit entries)[i]? = some entry) : entries[i]? = some entry := by
  obtain ⟨inside, -⟩ := List.getElem?_eq_some_iff.mp h
  obtain ⟨rest, eq⟩ := keep_prefix limit entries
  calc
    entries[i]? = (keep limit entries ++ rest)[i]? := by rw [eq]
    _ = (keep limit entries)[i]? := List.getElem?_append_left inside
    _ = some entry := h

theorem length_keep_le {limit : Option Nat} {n : Nat} (h : limit = some n) (entries : List α) :
    (keep limit entries).length ≤ n := by
  subst h
  exact List.length_take_le n entries

theorem pop?_eq_some {h rest : History α} {entry : α} :
    h.pop? = some (entry, rest) ↔ h.entries = entry :: rest.entries ∧ rest.limit = h.limit := by
  rw [pop?]
  split
  · rename_i eq
    simp [eq]
  · rename_i first others eq
    simp only [Option.some.injEq, Prod.mk.injEq, eq, List.cons.injEq]
    constructor
    · rintro ⟨rfl, rfl⟩
      exact ⟨⟨rfl, rfl⟩, rfl⟩
    · rintro ⟨⟨rfl, h₁⟩, h₂⟩
      exact ⟨rfl, ext_entries h₂.symm h₁⟩

theorem pop?_eq_none {h : History α} : h.pop? = none ↔ h.entries = [] := by
  rw [pop?]
  split <;> simp [*]

end History

theorem Registers.get_zero_set {regs after : Registers} {r : Nat} {value : Word}
    (h : regs.set r value = .ok after) : after.get 0 = regs.get 0 := by
  rw [set] at h
  split at h
  · cases h
    split
    · rfl
    · rename_i nonzero
      simp [get, nonzero]
  · cases h

theorem Memory.capacity_write {memory after : Memory} {address : Int} {value : Word}
    (h : memory.write address value = .ok after) : after.capacity = memory.capacity := by
  rw [write] at h
  split at h
  · cases h
    simp [capacity]
  · cases h

@[simp] theorem Memory.capacity_zero (capacity : Nat) : (zero capacity).capacity = capacity := by
  simp [zero, Memory.capacity]

theorem Memory.capacity_load {memory after : Memory} {program : List Word}
    (h : memory.load program = .ok after) : after.capacity = memory.capacity := by
  rw [load] at h
  split at h
  · rename_i fits
    cases h
    simp only [capacity, List.size_toArray, List.length_append, List.length_replicate] at fits ⊢
    omega
  · cases h

namespace State

theorem setRegister_eq_ok {s after : State} {r : Nat} {value : Word}
    (h : s.setRegister r value = .ok after) :
    ∃ registers, s.registers.set r value = .ok registers ∧ after = { s with registers } := by
  obtain ⟨registers, set, eq⟩ := bind_eq_ok.mp h
  cases eq
  exact ⟨registers, set, rfl⟩

structure Kept (s after : State) : Prop where
  capacity : after.memory.capacity = s.memory.capacity
  zero : after.registers.get 0 = s.registers.get 0

theorem Kept.refl (s : State) : Kept s s := ⟨rfl, rfl⟩

theorem Kept.setRegister {s after : State} {r : Nat} {value : Word}
    (h : s.setRegister r value = .ok after) : Kept s after := by
  obtain ⟨registers, set, rfl⟩ := setRegister_eq_ok h
  exact ⟨rfl, Registers.get_zero_set set⟩

theorem execute_kept {s after : State} {i : Instruction} {flow : Flow}
    (h : s.execute i = .ok (after, flow)) : Kept s after := by
  cases i with
  | alu op ra rb rc =>
    simp only [execute, bind_eq_ok] at h
    obtain ⟨b, _, c, _, after, set, eq⟩ := h
    cases eq
    exact Kept.setRegister set
  | addi ra rb imm =>
    simp only [execute, bind_eq_ok] at h
    obtain ⟨b, _, after, set, eq⟩ := h
    cases eq
    exact Kept.setRegister set
  | lw ra rb disp =>
    simp only [execute, bind_eq_ok] at h
    obtain ⟨base, _, value, _, after, set, eq⟩ := h
    cases eq
    exact Kept.setRegister set
  | sw ra rb disp =>
    simp only [execute, bind_eq_ok] at h
    obtain ⟨base, _, value, _, memory, write, eq⟩ := h
    cases eq
    exact ⟨Memory.capacity_write write, rfl⟩
  | branch cond ra rb offset =>
    simp only [execute, bind_eq_ok] at h
    obtain ⟨a, _, b, _, eq⟩ := h
    cases eq
    exact Kept.refl s
  | jalr ra rb =>
    simp only [execute, bind_eq_ok] at h
    obtain ⟨target, _, after, set, eq⟩ := h
    cases eq
    exact Kept.setRegister set
  | lea ra offset =>
    simp only [execute, bind_eq_ok] at h
    obtain ⟨after, set, eq⟩ := h
    cases eq
    exact Kept.setRegister set
  | halt =>
    cases h
    exact Kept.refl s

theorem execute_flow_halt {s after : State} {i : Instruction}
    (h : s.execute i = .ok (after, .halt)) : i = .halt ∧ after = s := by
  cases i with
  | halt =>
    cases h
    exact ⟨rfl, rfl⟩
  | branch cond ra rb offset =>
    simp only [execute, bind_eq_ok] at h
    obtain ⟨a, _, b, _, eq⟩ := h
    split at eq <;> cases eq
  | _ => simp [execute, bind_eq_ok] at h

theorem fetch_eq_halt {s : State} : s.fetch = .ok .halt ↔ s.memory.HaltAt s.pc := by
  rw [fetch, bind_eq_ok, Memory.HaltAt]
  apply exists_congr
  intro word
  rw [decodeAt]
  cases Instruction.decode? word <;> simp

theorem advance_eq_ok {s after : State} {halts : Bool} :
    s.advance = .ok (after, halts) ↔
      ∃ i raw flow, s.fetch = .ok i ∧ s.execute i = .ok (raw, flow) ∧
        (0 ≤ s.target flow ∧ s.target flow ≤ s.memory.capacity) ∧
        { raw with pc := (s.target flow).toNat } = after ∧ (flow == .halt) = halts := by
  simp only [advance, bind_eq_ok]
  constructor
  · rintro ⟨i, fetch, ⟨raw, flow⟩, execute, h⟩
    dsimp only at h
    split at h
    · rename_i inside
      cases h
      exact ⟨i, raw, flow, fetch, execute, inside, rfl, rfl⟩
    · cases h
  · rintro ⟨i, raw, flow, fetch, execute, inside, rfl, rfl⟩
    refine ⟨i, fetch, (raw, flow), execute, ?_⟩
    dsimp only
    rw [if_pos inside]
    rfl

theorem advance_kept {s after : State} {halts : Bool} (h : s.advance = .ok (after, halts)) :
    Kept s after := by
  obtain ⟨i, raw, flow, -, execute, -, rfl, -⟩ := advance_eq_ok.mp h
  exact ⟨(execute_kept execute).capacity, (execute_kept execute).zero⟩

theorem advance_pc {s after : State} {halts : Bool} (h : s.advance = .ok (after, halts)) :
    after.pc ≤ s.memory.capacity := by
  obtain ⟨i, raw, flow, -, -, ⟨low, high⟩, rfl, -⟩ := advance_eq_ok.mp h
  dsimp only
  omega

theorem advance_halt {s after : State} (h : s.advance = .ok (after, true)) :
    s.memory.HaltAt s.pc ∧ after = { s with pc := s.pc + 1 } := by
  obtain ⟨i, raw, flow, fetch, execute, -, rfl, halts⟩ := advance_eq_ok.mp h
  obtain rfl : flow = .halt := by simpa using halts
  obtain ⟨rfl, rfl⟩ := execute_flow_halt execute
  exact ⟨fetch_eq_halt.mp fetch, rfl⟩

theorem advance_not_halt {s after : State} (h : s.advance = .ok (after, false)) :
    ¬ s.memory.HaltAt s.pc := by
  obtain ⟨i, raw, flow, fetch, execute, -, -, goes⟩ := advance_eq_ok.mp h
  intro halt
  rw [fetch_eq_halt.mpr halt] at fetch
  cases fetch
  cases execute
  cases goes

def exec (s : State) : Option State :=
  match s.advance with
  | .ok (after, _) => some after
  | .error _ => none

theorem exec_eq_some {s after : State} :
    s.exec = some after ↔ ∃ halts, s.advance = .ok (after, halts) := by
  rw [exec]
  split <;> simp [*]

end State

namespace Processor

def stepped (cpu : Processor) (state : State) (halts : Bool) : Processor :=
  { cpu with
    state
    history := cpu.history.push cpu.state
    status := if halts then .halted else .running }

theorem step_halted {cpu : Processor} (h : cpu.status = .halted) : cpu.step = (.ok .halted, cpu) := by
  rw [step, if_pos h]

theorem step_error {cpu : Processor} {fault : Fault} (live : cpu.status ≠ .halted)
    (h : cpu.state.advance = .error fault) : cpu.step = (.error fault, cpu) := by
  rw [step, if_neg live, h]

theorem step_ok {cpu : Processor} {state : State} {halts : Bool} (live : cpu.status ≠ .halted)
    (h : cpu.state.advance = .ok (state, halts)) :
    cpu.step = (.ok (if halts then .halted else .stepped), cpu.stepped state halts) := by
  rw [step, if_neg live, h]
  cases halts <;> rfl

end Processor

end Backstep.Machine
