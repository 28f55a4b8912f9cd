import Backstep.Proofs.Machine.StepLaws

namespace Backstep.Machine

open Isa

namespace Registers

variable {regs : Registers} {r : Nat}

def word (regs : Registers) (r : Nat) : Word := regs.words[r]?.getD 0

theorem get_of_lt (h : r < registerCount) : regs.get r = .ok (regs.word r) := by
  simp [get, word, h]

theorem set_of_lt (value : Word) (h : r < registerCount) :
    ∃ after, regs.set r value = .ok after ∧
      ∀ q, after.word q = if q = r ∧ q ≠ 0 then value else regs.word q := by
  refine ⟨_, dif_pos h, ?_⟩
  intro q
  by_cases zero : r = 0
  · simp +contextual [zero]
  by_cases same : q = r
  · simp [word, zero, same, h]
  · simp [word, zero, same, Vector.getElem?_set_ne h (Ne.symm same)]

end Registers

namespace Memory

variable {memory : Memory} {address : Int}

def Holds (memory : Memory) (address : Int) : Prop := 0 ≤ address ∧ address < memory.capacity

theorem read_of_holds (h : memory.Holds address) :
    ∃ w, memory.words[address.toNat]? = some w ∧ memory.read address = .ok w := by
  rw [Holds, capacity] at h
  have inside : address.toNat < memory.words.size := by omega
  refine ⟨memory.words[address.toNat], ?_, ?_⟩
  · simp [inside]
  · simp [read, h.1, inside]

theorem read_of_not_holds (h : ¬ memory.Holds address) :
    memory.read address = .error (.addressOutOfBounds address) := by
  rw [Holds, capacity] at h
  by_cases low : 0 ≤ address
  · have outside : memory.words[address.toNat]? = none := by
      apply Array.getElem?_eq_none
      omega
    simp [read, outside]
  · simp [read, low]

theorem write_of_holds (value : Word) (h : memory.Holds address) :
    ∃ after, memory.write address value = .ok after ∧ ∀ a : Nat,
      after.words[a]? = if (a : Int) = address then some value else memory.words[a]? := by
  rw [Holds, capacity] at h
  have inside : 0 ≤ address ∧ address.toNat < memory.words.size := by omega
  refine ⟨_, dif_pos inside, ?_⟩
  intro a
  have same : address.toNat = a ↔ (a : Int) = address := by omega
  rw [Array.getElem?_set]
  simp only [same]

theorem write_of_not_holds (value : Word) (h : ¬ memory.Holds address) :
    memory.write address value = .error (.addressOutOfBounds address) := by
  rw [Holds, capacity] at h
  rw [write, dif_neg]
  omega

theorem load_of_fits {program : List Word} (fits : program.length ≤ memory.capacity) :
    ∃ after, memory.load program = .ok after ∧ after.capacity = memory.capacity ∧
      ∀ i < program.length, after.words[i]? = program[i]? := by
  refine ⟨_, if_pos fits, capacity_load (if_pos fits), ?_⟩
  intro i inside
  rw [List.getElem?_toArray, List.getElem?_append_left inside]

end Memory

end Backstep.Machine
