import Backstep.Proofs.Program.Reassembly
import Backstep.Prompt.Session

/-!
The words that `memory` shows. They are those of the addresses asked for that memory has, and what
comes after them is about the first address that it does not have. How often memory is looked at is
counted by the same dump with a lookup that notes its addresses.
-/

namespace Backstep.Machine

def inTwosComplement (address : Nat) : Int :=
  if address < 2 ^ 63 then address else address - 2 ^ 64

namespace Processor

variable {cpu : Processor} {address : Nat}

theorem disassemble_of_lt (few : cpu.state.memory.capacity ≤ maxMemoryWords)
    (inside : address < cpu.state.memory.capacity) :
    ∃ w, cpu.state.memory.words[address]? = some w ∧
      cpu.disassemble address = .ok ⟨address, w, wordText w⟩ := by
  have stands := Array.getElem?_eq_getElem inside
  exact ⟨_, stands, disassemble_of_getElem? (Nat.lt_of_lt_of_le inside few) stands⟩

theorem disassemble_of_le (outside : cpu.state.memory.capacity ≤ address)
    (within : address < 2 ^ 64) :
    cpu.disassemble address = .error (.addressOutOfBounds (inTwosComplement address)) := by
  have cast : Int.bmod address 0x10000000000000000 = inTwosComplement address := by
    rw [inTwosComplement, Int.bmod]
    split <;> split <;> omega
  have lacks : ¬ cpu.state.memory.Holds (inTwosComplement address) := by
    rw [Memory.Holds, inTwosComplement]
    split <;> omega
  rw [disassemble, cast, Memory.read_of_not_holds lacks]
  rfl

end Processor

end Backstep.Machine

namespace Backstep.Prompt

open Machine

structure Window (memory : Memory) (first last : Nat) (shown : List Disassembly) : Prop where
  addresses : shown.map (·.address) = List.range' first (last - first)
  words : ∀ d ∈ shown, memory.words[d.address]? = some d.word
  texts : ∀ d ∈ shown, d.text = wordText d.word

theorem Window.empty {memory : Memory} {first last : Nat} (h : last ≤ first) :
    Window memory first last [] where
  addresses := by simp [Nat.sub_eq_zero_of_le h]
  words := by simp
  texts := by simp

theorem Window.cons {memory : Memory} {first last : Nat} {w : Isa.Word} {shown : List Disassembly}
    (lt : first < last) (stands : memory.words[first]? = some w)
    (rest : Window memory (first + 1) last shown) :
    Window memory first last (⟨first, w, wordText w⟩ :: shown) where
  addresses := by
    have length : last - first = last - (first + 1) + 1 := by omega
    rw [List.map_cons, rest.addresses, length, List.range'_succ]
  words := List.forall_mem_cons.mpr ⟨stands, rest.words⟩
  texts := List.forall_mem_cons.mpr ⟨rfl, rest.texts⟩

/-- A lookup that notes its address. -/
def noting (lookup : Nat → Except Fault Disassembly) (address : Nat) :
    StateM (List Nat) (Except Fault Disassembly) := do
  modify (· ++ [address])
  return lookup address

/-- What follows the lines of `n` addresses: nothing if memory has them all. -/
def closing (first n capacity : Nat) : List Output :=
  if n = 0 ∨ first + n ≤ capacity then []
  else [.log .warn (Fault.addressOutOfBounds (inTwosComplement (max first capacity))).message]

theorem closing_succ {first n capacity : Nat} (lt : first < capacity) :
    closing first (n + 1) capacity = closing (first + 1) n capacity := by
  have ends : n + 1 = 0 ∨ first + (n + 1) ≤ capacity ↔ n = 0 ∨ first + 1 + n ≤ capacity := by omega
  rw [closing, closing, Nat.max_eq_right lt, Nat.max_eq_right (Nat.le_of_lt lt)]
  simp only [ends]

theorem closing_of_le {first n capacity : Nat} (le : capacity ≤ first) :
    closing first (n + 1) capacity =
      [.log .warn (Fault.addressOutOfBounds (inTwosComplement first)).message] := by
  have past : ¬ (n + 1 = 0 ∨ first + (n + 1) ≤ capacity) := by omega
  rw [closing, if_neg past, Nat.max_eq_left le]

variable {cpu : Processor} {address capacity n : Nat} {rows : List Output} {looked : List Nat}

theorem memoryLines_noting_succ {lookup : Nat → Except Fault Disassembly} :
    (memoryLines (noting lookup) (n + 1) address rows).run looked =
      match lookup address with
      | .ok d => (memoryLines (noting lookup) n (address + 1) (.line d.line :: rows)).run
          (looked ++ [address])
      | .error fault => ((.log .warn fault.message :: rows).reverse, looked ++ [address]) := by
  rw [memoryLines]
  cases found : lookup address with
  | ok d => simp [noting, found]
  | error fault =>
    simp [noting, found]
    rfl

theorem memoryLines_noting_fst {lookup : Nat → Except Fault Disassembly} (looked : List Nat) :
    ((memoryLines (noting lookup) n address rows).run looked).1 =
      memoryLines (m := Id) lookup n address rows := by
  induction n generalizing address rows looked with
  | zero => rfl
  | succ n ih =>
    rw [memoryLines_noting_succ, memoryLines]
    cases found : lookup address with
    | ok d => exact ih _
    | error fault => rfl

theorem memoryLines_noting (rows : List Output) (looked : List Nat)
    (size : cpu.state.memory.capacity = capacity) (few : capacity ≤ maxMemoryWords)
    (within : address + n ≤ numberMax) :
    ∃ shown, Window cpu.state.memory address (min (address + n) capacity) shown ∧
      (memoryLines (noting cpu.disassemble) n address rows).run looked =
        (rows.reverse ++ shown.map (fun d => .line d.line) ++ closing address n capacity,
          looked ++ List.range' address (min n (capacity - address + 1))) := by
  induction n generalizing address rows looked with
  | zero =>
    refine ⟨[], .empty (Nat.min_le_left _ _), ?_⟩
    simp [memoryLines, closing]
    rfl
  | succ n ih =>
    rw [memoryLines_noting_succ]
    by_cases inside : address < capacity
    · obtain ⟨w, stands, found⟩ := Processor.disassemble_of_lt (size ▸ few) (size ▸ inside)
      have next : address + 1 + n = address + (n + 1) := by omega
      have looks : min (n + 1) (capacity - address + 1) =
          min n (capacity - (address + 1) + 1) + 1 := by omega
      obtain ⟨shown, window, run⟩ := ih _ _ (next ▸ within)
      refine ⟨_, .cons (by omega) stands (next ▸ window), ?_⟩
      rw [found, closing_succ inside, looks, List.range'_succ]
      dsimp only
      rw [run]
      simp
    · have outside := Nat.le_of_not_lt inside
      -- This is the lookup that makes no line.
      have once : min (n + 1) (capacity - address + 1) = 1 := by omega
      have representable : address < 2 ^ 64 := by
        rw [numberMax] at within
        omega
      have found := Processor.disassemble_of_le (size ▸ outside) representable
      refine ⟨[], .empty (Nat.le_trans (Nat.min_le_right _ _) outside), ?_⟩
      rw [found, closing_of_le outside, once]
      simp

theorem execute_memory {outputs : List Output} (budget : Nat)
    (run : (memoryLines (noting cpu.disassemble) (min (address + n) numberMax - address) address
      []).run [] = (outputs, looked)) :
    execute budget cpu (.memory address n) = some (outputs, cpu) := by
  rw [execute, ← memoryLines_noting_fst [], run]

theorem closing_of_saturated (few : capacity ≤ maxMemoryWords) (within : address ≤ numberMax)
    (asked : 0 < n) :
    closing address (min (address + n) numberMax - address) capacity =
      if address + n ≤ capacity ∨ address = numberMax then [] else
        [.log .warn
          (Fault.addressOutOfBounds (inTwosComplement (max address capacity))).message] := by
  rw [maxMemoryWords] at few
  rw [numberMax] at within
  have ends : min (address + n) numberMax - address = 0 ∨
      address + (min (address + n) numberMax - address) ≤ capacity ↔
        address + n ≤ capacity ∨ address = numberMax := by
    rw [numberMax]
    omega
  rw [closing]
  simp only [ends]

/-- A dump shows the words of the addresses asked for that memory has, and each of them stands where
it says. It looks at memory no more often than memory has words and once more. Where memory ends
there is a warning, but none at the last address of all, where the range is empty; and the address
in it is a signed number, which is another one in the upper half of the addresses. -/
theorem memory_shows_window {config : Config} {calls : List Call} (budget : Nat)
    (reached : Processor.Reached config calls cpu) (within : address ≤ numberMax) (asked : 0 < n) :
    ∃ shown outputs looked,
      Window cpu.state.memory address (min (address + n) cpu.capacity) shown ∧
      outputs = shown.map (fun d => .line d.line) ++
        (if address + n ≤ cpu.capacity ∨ address = numberMax then [] else
          [.log .warn
            (Fault.addressOutOfBounds (inTwosComplement (max address cpu.capacity))).message]) ∧
      execute budget cpu (.memory address n) = some (outputs, cpu) ∧
      (∀ line : String, Command.parse line.toList = .ok (some (.memory address n)) →
        feed budget cpu line = some (.stay outputs cpu)) ∧
      (memoryLines (noting cpu.disassemble) (min (address + n) numberMax - address) address []).run
        [] = (outputs, looked) ∧ looked.length ≤ cpu.capacity + 1 := by
  have fits := reached.wellFormed
  have size : cpu.state.memory.capacity = cpu.capacity :=
    fits.state.memory.trans fits.initial.memory.symm
  have few : cpu.capacity ≤ maxMemoryWords := by
    rw [Processor.capacity, fits.initial.memory]
    exact Nat.min_le_right _ _
  have saturated :
      address + (min (address + n) numberMax - address) = min (address + n) numberMax := by omega
  have large : cpu.capacity ≤ numberMax := Nat.le_trans few (by decide)
  obtain ⟨shown, window, run⟩ :=
    memoryLines_noting [] [] size few (saturated ▸ Nat.min_le_right _ _)
  rw [saturated, Nat.min_assoc, Nat.min_eq_right large] at window
  rw [closing_of_saturated few within asked] at run
  refine ⟨shown, _, _, window, rfl, execute_memory budget run, fun line parsed => ?_, run, ?_⟩
  · rw [feed, parsed]
    dsimp only
    rw [execute_memory budget run]
    rfl
  · rw [List.nil_append, List.length_range']
    omega

theorem memory_shows_window_of_end : ∃ cpu shown,
    Processor.Reached ⟨4, none⟩ [] cpu ∧ 2 ≤ numberMax ∧ 0 < 5 ∧
    Window cpu.state.memory 2 (min (2 + 5) cpu.capacity) shown ∧
    feed 0 cpu "memory 2 5" = some (.stay [.line "0x0002: 0000      0  noop",
      .line "0x0003: 0000      0  noop", .log .warn "address 4 is outside of memory"] cpu) ∧
    [2, 3, 4].length ≤ cpu.capacity + 1 := by
  have reached : Processor.Reached ⟨4, none⟩ [] (.new ⟨4, none⟩) := .new
  have within : 2 ≤ numberMax := by decide
  have asked : 0 < 5 := by decide
  obtain ⟨shown, outputs, looked, window, -, -, fed, run, few⟩ :=
    memory_shows_window 0 reached within asked
  obtain ⟨rfl, rfl⟩ : _ ∧ [2, 3, 4] = looked := Prod.mk.inj (Eq.trans rfl run)
  exact ⟨_, shown, reached, within, asked, window, fed "memory 2 5" rfl, few⟩

theorem last_addresses_misnamed :
    execute 0 (.new ⟨4, none⟩) (.memory 0xFFFFFFFFFFFFFFFF 1) = some ([], .new ⟨4, none⟩) ∧
    execute 0 (.new ⟨4, none⟩) (.memory 0xFFFFFFFFFFFFFFFE 5) =
      some ([.log .warn "address -2 is outside of memory"], .new ⟨4, none⟩) := by
  constructor
  · rfl
  · rfl

end Backstep.Prompt
