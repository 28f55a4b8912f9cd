import Backstep.Program.Simulator
import Backstep.Proofs.Asm.SourceLines
import Backstep.Proofs.Machine.Stretches
import Backstep.Proofs.Text.SplitLaws

namespace Backstep.Program.Multiplication

open Isa Text Asm Machine Simulator

def rows : List (List Char) := List.map String.toList
  ["main:",
   "    la r1, a",
   "    lw r2, r1, 0        # r2 = a",
   "    lw r3, r1, 1        # r3 = b",
   "    lea r6, multiply",
   "    jalr r7, r6",
   "    la r1, result",
   "    sw r4, r1, 0",
   "    halt",
   "",
   "# r4 = r2 * r3, for r3 >= 0",
   "multiply:",
   "    add r4, r0, r0",
   "mul_loop:",
   "    beq r3, r0, mul_done",
   "    add r4, r4, r2",
   "    addi r3, r3, -1",
   "    beq r0, r0, mul_loop",
   "mul_done:",
   "    jalr r0, r7",
   "",
   "a:      .word 6",
   "b:      .word 7",
   "result: .word 0"]

def words : List Word :=
  [0x8001, 20, 0xC21E, 0x6240, 0x6440, 0x6641, 0xCC07, 0xBF80, 0x8001, 22, 0xC21E, 0x6240, 0x7840,
   0xE000, 0x0800, 0x8603, 0x0902, 0x56DF, 0x801C, 0xB1C0, 6, 7, 0]

set_option maxRecDepth 10000 in
theorem builtInSource_eq : builtInSource = String.ofList (rows.flatMap (· ++ ['\n'])) := by
  rfl

theorem lines_builtInSource : lines builtInSource.toList = rows := by
  rw [builtInSource_eq, String.toList_ofList]
  exact lines_flatMap (by decide)

theorem assemble_builtInSource : assemble builtInSource = .ok words := by
  rw [assemble, assembleChars, Layout.ofSource_eq_ofRows, lines_builtInSource]
  decide +kernel

structure Holds (x y : Word) (memory : Memory) : Prop where
  code : ∀ i < 20, memory.words[i]? = words[i]?
  first : memory.words[20]? = some x
  second : memory.words[21]? = some y
  room : 23 ≤ memory.capacity

/-- The registers of the program: `r0` is zero and `r5` is never used. -/
def frame (pointer x y sum routine link : Word) : Registers :=
  ⟨#v[0, pointer, x, y, sum, 0, routine, link]⟩

section Stretches

variable {x y pointer count sum routine link : Word} {memory : Memory}

theorem Holds.fetches (holds : Holds x y memory) {registers : Registers} {pc : Nat}
    {i : Instruction} (inside : pc < 20)
    (coded : words[pc]?.bind Instruction.decode? = some i) :
    State.Fetches ⟨registers, memory, pc⟩ i := by
  obtain ⟨w, written, decoded⟩ := Option.bind_eq_some_iff.mp coded
  exact ⟨w, (holds.code pc inside).trans written, decoded⟩

theorem Holds.advance (holds : Holds x y memory) {registers after : Registers} {stored : Memory}
    {pc target : Nat} {flow : Flow} (i : Instruction) (inside : pc < 20 ∧ target ≤ 23)
    (coded : words[pc]?.bind Instruction.decode? = some i)
    (executes : State.execute ⟨registers, memory, pc⟩ i = .ok (⟨after, stored, pc⟩, flow))
    (goes : (flow == .halt) = false)
    (lands : State.target ⟨registers, memory, pc⟩ flow = target) :
    State.advance ⟨registers, memory, pc⟩ = .ok (⟨after, stored, target⟩, false) := by
  have room := Nat.le_trans inside.2 holds.room
  have reached : 0 ≤ State.target ⟨registers, memory, pc⟩ flow ∧
      State.target ⟨registers, memory, pc⟩ flow ≤ memory.capacity := by
    omega
  rw [(holds.fetches inside.1 coded).advance executes reached, goes, lands]
  rfl

variable (holds : Holds x y memory)
include holds

theorem goes_call :
    State.Goes ⟨.zero, memory, 0⟩ 8 ⟨frame 20 x y 0 14 8, memory, 15⟩ := by
  have table : memory.read 1 = .ok 20 := Memory.read_of_found (a := 1) (holds.code 1 (by decide))
  have first : memory.read 20 = .ok x := Memory.read_of_found (a := 20) holds.first
  have second : memory.read 21 = .ok y := Memory.read_of_found (a := 21) holds.second
  have skip : State.advance ⟨.zero, memory, 0⟩ = .ok (⟨frame 0 0 0 0 0 0, memory, 2⟩, false) :=
    holds.advance (.branch .equal 0 0 1) (by decide) rfl rfl rfl rfl
  have point : State.advance ⟨frame 0 0 0 0 0 0, memory, 2⟩ =
      .ok (⟨frame 1 0 0 0 0 0, memory, 3⟩, false) :=
    holds.advance (.lea 1 (-2)) (by decide) rfl rfl rfl rfl
  have load : State.advance ⟨frame 1 0 0 0 0 0, memory, 3⟩ =
      .ok (⟨frame 20 0 0 0 0 0, memory, 4⟩, false) :=
    holds.advance (.lw 1 1 0) (by decide) rfl (State.execute_lw 1 rfl table rfl) rfl rfl
  have load_first : State.advance ⟨frame 20 0 0 0 0 0, memory, 4⟩ =
      .ok (⟨frame 20 x 0 0 0 0, memory, 5⟩, false) :=
    holds.advance (.lw 2 1 0) (by decide) rfl (State.execute_lw 20 rfl first rfl) rfl rfl
  have load_second : State.advance ⟨frame 20 x 0 0 0 0, memory, 5⟩ =
      .ok (⟨frame 20 x y 0 0 0, memory, 6⟩, false) :=
    holds.advance (.lw 3 1 1) (by decide) rfl (State.execute_lw 20 rfl second rfl) rfl rfl
  have routine : State.advance ⟨frame 20 x y 0 0 0, memory, 6⟩ =
      .ok (⟨frame 20 x y 0 14 0, memory, 7⟩, false) :=
    holds.advance (.lea 6 7) (by decide) rfl rfl rfl rfl
  have call : State.advance ⟨frame 20 x y 0 14 0, memory, 7⟩ =
      .ok (⟨frame 20 x y 0 14 8, memory, 14⟩, false) :=
    holds.advance (.jalr 7 6) (by decide) rfl rfl rfl rfl
  have clear : State.advance ⟨frame 20 x y 0 14 8, memory, 14⟩ =
      .ok (⟨frame 20 x y 0 14 8, memory, 15⟩, false) :=
    holds.advance (.alu .add 4 0 0) (by decide) rfl rfl rfl rfl
  exact .next skip <| .next point <| .next load <| .next load_first <| .next load_second <|
    .next routine <| .next call <| .next clear .refl

theorem goes_round (more : count ≠ 0) :
    State.Goes ⟨frame pointer x count sum routine link, memory, 15⟩ 4
      ⟨frame pointer x (count + wrap (-1)) (sum + x) routine link, memory, 15⟩ := by
  have different : Condition.holds .equal count 0 = false := beq_false_of_ne more
  have passes : State.execute ⟨frame pointer x count sum routine link, memory, 15⟩
      (.branch .equal 3 0 3) =
      .ok (⟨frame pointer x count sum routine link, memory, 15⟩, .next) := by
    have counted : (frame pointer x count sum routine link).get 3 = .ok count := rfl
    have zero : (frame pointer x count sum routine link).get 0 = .ok 0 := rfl
    simp [State.execute, counted, zero, different]
  have stay : State.advance ⟨frame pointer x count sum routine link, memory, 15⟩ =
      .ok (⟨frame pointer x count sum routine link, memory, 16⟩, false) :=
    holds.advance (.branch .equal 3 0 3) (by decide) rfl passes rfl rfl
  have add : State.advance ⟨frame pointer x count sum routine link, memory, 16⟩ =
      .ok (⟨frame pointer x count (sum + x) routine link, memory, 17⟩, false) :=
    holds.advance (.alu .add 4 4 2) (by decide) rfl rfl rfl rfl
  have less : State.advance ⟨frame pointer x count (sum + x) routine link, memory, 17⟩ =
      .ok (⟨frame pointer x (count + wrap (-1)) (sum + x) routine link, memory, 18⟩, false) :=
    holds.advance (.addi 3 3 (-1)) (by decide) rfl rfl rfl rfl
  have again : State.advance
      ⟨frame pointer x (count + wrap (-1)) (sum + x) routine link, memory, 18⟩ =
      .ok (⟨frame pointer x (count + wrap (-1)) (sum + x) routine link, memory, 15⟩, false) :=
    holds.advance (.branch .equal 0 0 (-4)) (by decide) rfl rfl rfl rfl
  exact .next stay <| .next add <| .next less <| .next again .refl

theorem goes_loop {n : Nat} (left : count.toNat = n) :
    State.Goes ⟨frame pointer x count sum routine link, memory, 15⟩ (4 * n)
      ⟨frame pointer x 0 (sum + x * count) routine link, memory, 15⟩ := by
  induction n generalizing count sum with
  | zero =>
    obtain rfl : count = 0 := UInt16.toNat_inj.mp left
    rw [UInt16.mul_zero, UInt16.add_zero]
    exact .refl
  | succ n ih =>
    have more : count ≠ 0 := by
      rintro rfl
      cases left
    have fewer := toNat_add_wrap count (-1)
    have left' : (count + wrap (-1)).toNat = n := by
      have := count.toNat_lt
      omega
    have total : sum + x + x * (count + wrap (-1)) = sum + x * count := by
      have minus : wrap (-1) = -1 := rfl
      rw [minus]
      grind
    rw [Nat.mul_succ, Nat.add_comm, ← total]
    exact (goes_round holds more).trans (ih left')

theorem goes_return :
    State.Goes ⟨frame pointer x 0 sum routine 8, memory, 15⟩ 5
      ⟨frame 22 x 0 sum routine 8, memory, 12⟩ := by
  have table : memory.read 9 = .ok 22 := Memory.read_of_found (a := 9) (holds.code 9 (by decide))
  have done : State.advance ⟨frame pointer x 0 sum routine 8, memory, 15⟩ =
      .ok (⟨frame pointer x 0 sum routine 8, memory, 19⟩, false) :=
    holds.advance (.branch .equal 3 0 3) (by decide) rfl rfl rfl rfl
  have back : State.advance ⟨frame pointer x 0 sum routine 8, memory, 19⟩ =
      .ok (⟨frame pointer x 0 sum routine 8, memory, 8⟩, false) :=
    holds.advance (.jalr 0 7) (by decide) rfl rfl rfl rfl
  have skip : State.advance ⟨frame pointer x 0 sum routine 8, memory, 8⟩ =
      .ok (⟨frame pointer x 0 sum routine 8, memory, 10⟩, false) :=
    holds.advance (.branch .equal 0 0 1) (by decide) rfl rfl rfl rfl
  have point : State.advance ⟨frame pointer x 0 sum routine 8, memory, 10⟩ =
      .ok (⟨frame 9 x 0 sum routine 8, memory, 11⟩, false) :=
    holds.advance (.lea 1 (-2)) (by decide) rfl rfl rfl rfl
  have load : State.advance ⟨frame 9 x 0 sum routine 8, memory, 11⟩ =
      .ok (⟨frame 22 x 0 sum routine 8, memory, 12⟩, false) :=
    holds.advance (.lw 1 1 0) (by decide) rfl (State.execute_lw 9 rfl table rfl) rfl rfl
  exact .next done <| .next back <| .next skip <| .next point <| .next load .refl

theorem goes_store {stored : Memory} (write : memory.write 22 sum = .ok stored) :
    State.Goes ⟨frame 22 x count sum routine link, memory, 12⟩ 1
      ⟨frame 22 x count sum routine link, stored, 13⟩ := by
  have store : State.advance ⟨frame 22 x count sum routine link, memory, 12⟩ =
      .ok (⟨frame 22 x count sum routine link, stored, 13⟩, false) :=
    holds.advance (.sw 4 1 0) (by decide) rfl (State.execute_sw 22 rfl rfl write) rfl rfl
  exact .next store .refl

theorem advance_halt {registers : Registers} :
    State.advance ⟨registers, memory, 13⟩ = .ok (⟨registers, memory, 14⟩, true) := by
  have room : (14 : Int) ≤ memory.capacity := by
    have := holds.room
    omega
  exact (holds.fetches (i := .halt) (by decide) rfl).advance rfl ⟨Int.natCast_nonneg 14, room⟩

theorem Holds.of_kept {stored : Memory} (size : stored.capacity = memory.capacity)
    (kept : ∀ i : Nat, i ≠ 22 → stored.words[i]? = memory.words[i]?) : Holds x y stored where
  code := by
    intro i inside
    rw [kept i (by omega), holds.code i inside]
  first := (kept 20 (by decide)).trans holds.first
  second := (kept 21 (by decide)).trans holds.second
  room := size ▸ holds.room

end Stretches

theorem goes_halt {x y : Word} {memory : Memory} (holds : Holds x y memory) :
    ∃ stored : Memory,
      State.Goes ⟨.zero, memory, 0⟩ (14 + 4 * y.toNat) ⟨frame 22 x 0 (x * y) 14 8, stored, 13⟩ ∧
      State.advance ⟨frame 22 x 0 (x * y) 14 8, stored, 13⟩ =
        .ok (⟨frame 22 x 0 (x * y) 14 8, stored, 14⟩, true) ∧
      ∀ i : Nat, stored.words[i]? = if i = 22 then some (x * y) else memory.words[i]? := by
  have inside : memory.Holds 22 := ⟨by decide, by have := holds.room; omega⟩
  obtain ⟨stored, write, words⟩ := memory.write_of_holds (x * y) inside
  have words : ∀ i : Nat, stored.words[i]? = if i = 22 then some (x * y) else memory.words[i]? := by
    intro i
    rw [words]
    norm_cast
  have loop : State.Goes ⟨frame 20 x y 0 14 8, memory, 15⟩ (4 * y.toNat)
      ⟨frame 20 x 0 (0 + x * y) 14 8, memory, 15⟩ := goes_loop holds rfl
  rw [UInt16.zero_add] at loop
  have rest := loop.trans ((goes_return holds).trans (goes_store holds write))
  have whole := (goes_call holds).trans rest
  have length : 8 + (4 * y.toNat + (5 + 1)) = 14 + 4 * y.toNat := by omega
  rw [length] at whole
  have kept : Holds x y stored :=
    holds.of_kept (Memory.capacity_write write) fun i other => by rw [words, if_neg other]
  exact ⟨stored, whole, advance_halt kept, words⟩

theorem holds_of_load {fresh : Processor} (x y : Word) (room : 23 ≤ fresh.capacity) :
    ∃ cpu memory, fresh.load ((words.set 20 x).set 21 y) = (.ok (), cpu) ∧
      cpu.state = ⟨.zero, memory, 0⟩ ∧ cpu.status ≠ .halted ∧ cpu.breakpoint = none ∧
      Holds x y memory := by
  have fits : ((words.set 20 x).set 21 y).length ≤ (Memory.zero fresh.capacity).capacity := by
    rw [Memory.capacity_zero]
    exact room
  obtain ⟨memory, loaded, size, kept⟩ := Memory.load_of_fits fits
  have kept : ∀ i < 23, memory.words[i]? = ((words.set 20 x).set 21 y)[i]? := kept
  refine ⟨_, memory, by rw [Processor.load, loaded], rfl, by simp, rfl, ?_,
    kept 20 (by decide), kept 21 (by decide), ?_⟩
  · intro i inside
    rw [kept i (by omega), List.getElem?_set_ne (by omega), List.getElem?_set_ne (by omega)]
  · rw [size, Memory.capacity_zero]
    exact room

/-- The built-in program multiplies: from any two words at `a` and `b` it halts after four steps per
unit of `b` and fifteen others, not before, with the product modulo 2¹⁶ in `r4` and at `result` and
with the rest of memory as loaded. -/
theorem builtIn_multiplies : ∃ words, assemble builtInSource = .ok words ∧ words.length = 23 ∧
    LabelAt (lines builtInSource.toList) "a".toList 20 ∧
    LabelAt (lines builtInSource.toList) "b".toList 21 ∧
    LabelAt (lines builtInSource.toList) "result".toList 22 ∧
    ∀ (fresh : Processor) (x y : Word), 23 ≤ fresh.capacity →
      ∃ cpu after : Processor, fresh.load ((words.set 20 x).set 21 y) = (.ok (), cpu) ∧
        (∀ steps < 15 + 4 * y.toNat, (cpu.run steps).1 = none) ∧
        (∀ steps ≥ 15 + 4 * y.toNat, cpu.run steps = (some (.ok .halted), after)) ∧
        ∃ product : Word, product.toNat = x.toNat * y.toNat % 65536 ∧
          after.register 4 = .ok product ∧ after.state.memory.words[22]? = some product ∧
          ∀ i : Nat, i ≠ 22 → after.state.memory.words[i]? = cpu.state.memory.words[i]? := by
  rw [lines_builtInSource]
  refine ⟨words, assemble_builtInSource, rfl, ⟨21, _, rfl, rfl, rfl⟩, ⟨22, _, rfl, rfl, rfl⟩,
    ⟨23, _, rfl, rfl, rfl⟩, ?_⟩
  intro fresh x y room
  obtain ⟨cpu, memory, loaded, start, live, free, holds⟩ := holds_of_load x y room
  obtain ⟨stored, goes, halt, kept⟩ := goes_halt holds
  rw [← start] at goes
  obtain ⟨before, after, state, final⟩ := Processor.run_of_goes_halt goes halt live free
  refine ⟨cpu, after, loaded, ?_, ?_, x * y, UInt16.toNat_mul x y, ?_, ?_, ?_⟩
  · intro steps lt
    exact before steps (by omega)
  · intro steps le
    exact final steps (by omega)
  · rw [Processor.register, state]
    rfl
  · rw [state, kept, if_pos rfl]
  · intro i other
    rw [state, kept, if_neg other, start]

theorem builtIn_multiplies_large : ∃ words cpu after, assemble builtInSource = .ok words ∧
    (Processor.new ⟨23, none⟩).load ((words.set 20 300).set 21 500) = (.ok (), cpu) ∧
    (cpu.run 2014).1 = none ∧ cpu.run 2015 = (some (.ok .halted), after) ∧
    after.register 4 = .ok 18928 := by
  obtain ⟨words, assembled, -, -, -, -, multiplies⟩ := builtIn_multiplies
  obtain ⟨cpu, after, loaded, before, final, product, value, register, -⟩ :=
    multiplies (.new ⟨23, none⟩) 300 500 (by decide)
  obtain rfl : product = 18928 := UInt16.toNat_inj.mp value
  exact ⟨words, cpu, after, assembled, loaded, before 2014 (by decide), final 2015 (by decide),
    register⟩

end Backstep.Program.Multiplication
