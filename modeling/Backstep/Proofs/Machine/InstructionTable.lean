import Backstep.Proofs.Isa.EncodingLaws
import Backstep.Proofs.Machine.StorageLaws
import Backstep.Proofs.Machine.WellFormed

namespace Backstep.Machine

open Isa

def twosComplement (n : Nat) : Int := if n < 32768 then n else n - 65536

theorem bmod_eq_twosComplement {n : Nat} (h : n < 65536) :
    Int.bmod n 65536 = twosComplement n := by
  rw [Int.bmod_def, twosComplement]
  omega

theorem signed_eq (w : Word) : signed w = twosComplement w.toNat :=
  bmod_eq_twosComplement w.toNat_lt

theorem toNat_wrap (n : Int) : ((wrap n).toNat : Int) = n % 65536 := by
  rw [wrap, UInt16.toNat_ofNat']
  omega

theorem toNat_add_wrap (b : Word) (n : Int) :
    ((b + wrap n).toNat : Int) = (b.toNat + n) % 65536 := by
  have wrapped := toNat_wrap n
  rw [UInt16.toNat_add]
  omega

def AluOp.value : AluOp → Nat → Nat → Int
  | .add, b, c => b + c
  | .sub, b, c => b - c
  | .and, b, c => (b &&& c : Nat)
  | .or, b, c => (b ||| c : Nat)
  | .nand, b, c => 65535 - (b &&& c : Nat)

theorem toNat_apply (op : AluOp) (b c : Word) :
    ((AluOp.apply op b c).toNat : Int) = AluOp.value op b.toNat c.toNat % 65536 := by
  have hb := b.toNat_lt
  have hc := c.toNat_lt
  cases op with
  | add => simp [AluOp.apply, AluOp.value]
  | sub =>
    rw [AluOp.apply, AluOp.value, UInt16.toNat_sub]
    omega
  | and =>
    have small : b.toNat &&& c.toNat ≤ b.toNat := Nat.and_le_left
    rw [AluOp.apply, AluOp.value, UInt16.toNat_and]
    omega
  | or =>
    have small : (b.toNat ||| c.toNat) < 2 ^ 16 := Nat.or_lt_two_pow hb hc
    rw [AluOp.apply, AluOp.value, UInt16.toNat_or]
    omega
  | nand =>
    have small : b.toNat &&& c.toNat ≤ b.toNat := Nat.and_le_left
    rw [AluOp.apply, AluOp.value, UInt16.toNat_not, UInt16.toNat_and, UInt16.size]
    omega

namespace State

variable {s after : State} {i : Instruction} {fault : Fault}

def reg (s : State) (r : Nat) : Nat := (s.registers.word r).toNat

theorem toNat_word (s : State) (r : Nat) : (s.registers.word r).toNat = s.reg r := rfl

def Fetches (s : State) (i : Instruction) : Prop :=
  ∃ w, s.memory.words[s.pc]? = some w ∧ Instruction.decode? w = some i

def accessed? (s : State) : Instruction → Option Int
  | .lw _ rb disp => some (s.reg rb + disp)
  | .sw _ rb disp => some (s.reg rb + disp)
  | _ => none

def Taken (s : State) : Condition → Nat → Nat → Prop
  | .equal, ra, rb => s.reg ra = s.reg rb
  | .notEqual, ra, rb => s.reg ra ≠ s.reg rb
  | .less, ra, rb => twosComplement (s.reg ra) < twosComplement (s.reg rb)

instance (s : State) (cond : Condition) (ra rb : Nat) : Decidable (s.Taken cond ra rb) :=
  match cond with
  | .equal => inferInstanceAs (Decidable (s.reg ra = s.reg rb))
  | .notEqual => inferInstanceAs (Decidable (s.reg ra ≠ s.reg rb))
  | .less => inferInstanceAs (Decidable (twosComplement (s.reg ra) < twosComplement (s.reg rb)))

def destination (s : State) : Instruction → Int
  | .branch cond ra rb offset => if s.Taken cond ra rb then s.pc + 1 + offset else s.pc + 1
  | .jalr _ rb => s.reg rb
  | _ => s.pc + 1

def written? (s : State) : Instruction → Option (Nat × Int)
  | .alu op ra rb rc => some (ra, AluOp.value op (s.reg rb) (s.reg rc))
  | .addi ra rb imm => some (ra, s.reg rb + imm)
  | .lw ra rb disp => some (ra, (s.memory.words[(s.reg rb + disp).toNat]?.getD 0).toNat)
  | .jalr ra _ => some (ra, s.pc + 1)
  | .lea ra offset => some (ra, s.pc + 1 + offset)
  | _ => none

def stored? (s : State) : Instruction → Option (Int × Word)
  | .sw ra rb disp => some (s.reg rb + disp, s.registers.word ra)
  | _ => none

structure Changed (s : State) (i : Instruction) (after : State) : Prop where
  registers : ∀ r, (after.reg r : Int) = match s.written? i with
    | some (ra, value) => if r = ra ∧ r ≠ 0 then value % 65536 else s.reg r
    | none => s.reg r
  memory : ∀ a : Nat, after.memory.words[a]? = match s.stored? i with
    | some (address, w) => if (a : Int) = address then some w else s.memory.words[a]?
    | none => s.memory.words[a]?

/-- What the table says of an instruction: registers, memory and `pc`, and nothing else changes. -/
structure Effect (s : State) (i : Instruction) (after : State) : Prop
    extends Changed s i after where
  pc : (after.pc : Int) = s.destination i

def Accesses (s : State) (i : Instruction) : Prop :=
  ∀ a, s.accessed? i = some a → s.memory.Holds a

def Lands (s : State) (i : Instruction) : Prop :=
  0 ≤ s.destination i ∧ s.destination i ≤ s.memory.capacity

/-- Why an instruction fails. Each cause stands behind the ones before it. -/
inductive Refuses (s : State) : Fault → Prop
  | fetch : s.memory.capacity ≤ s.pc → Refuses s (.addressOutOfBounds s.pc)
  | decode {w : Word} : s.memory.words[s.pc]? = some w → Instruction.decode? w = none →
      Refuses s (.invalidInstruction w s.pc)
  | access {i : Instruction} {a : Int} : s.Fetches i → s.accessed? i = some a →
      ¬ s.memory.Holds a → Refuses s (.addressOutOfBounds a)
  | land {i : Instruction} : s.Fetches i → s.Accesses i → ¬ s.Lands i →
      Refuses s (.addressOutOfBounds (s.destination i))

theorem Refuses.ne_invalidRegister (h : s.Refuses fault) (r : Nat) :
    fault ≠ .invalidRegister r := by
  cases h <;> simp

theorem taken_iff {cond : Condition} {ra rb : Nat} :
    Condition.holds cond (s.registers.word ra) (s.registers.word rb) = true ↔
      s.Taken cond ra rb := by
  cases cond with
  | equal => simp [Condition.holds, Taken, reg, UInt16.toNat_inj]
  | notEqual => simp [Condition.holds, Taken, reg, UInt16.toNat_inj]
  | less => simp [Condition.holds, Taken, reg, signed_eq]

theorem changed_refl (written : s.written? i = none) (stored : s.stored? i = none) :
    s.Changed i s := by
  constructor
  · simp [written]
  · simp [stored]

theorem changed_setRegister {ra : Nat} {w : Word} {value : Int} (lt : ra < registerCount)
    (written : s.written? i = some (ra, value)) (stored : s.stored? i = none)
    (eq : (w.toNat : Int) = value % 65536) :
    ∃ after, s.setRegister ra w = .ok after ∧ s.Changed i after := by
  obtain ⟨regs, set, word⟩ := s.registers.set_of_lt w lt
  refine ⟨{ s with registers := regs }, by simp [setRegister, set], ?_, by simp [stored]⟩
  intro r
  simp only [written, reg, word]
  split
  · exact eq
  · rfl

theorem execute_changed (lt : ∀ r, Operand.reg r ∈ i.operands → r < registerCount)
    (accesses : s.Accesses i) :
    ∃ after flow, s.execute i = .ok (after, flow) ∧ s.Changed i after ∧
      s.target flow = s.destination i ∧ (flow == .halt) = decide (i = .halt) := by
  cases i with
  | alu op ra rb rc =>
    obtain ⟨ha, hb, hc⟩ : ra < registerCount ∧ rb < registerCount ∧ rc < registerCount := by
      simpa [Instruction.operands] using lt
    obtain ⟨after, set, changed⟩ := changed_setRegister (s := s) (i := .alu op ra rb rc) ha rfl rfl
      (toNat_apply op _ _)
    refine ⟨after, .next, ?_, changed, rfl, rfl⟩
    simp [execute, Registers.get_of_lt, hb, hc, set]
  | addi ra rb imm =>
    obtain ⟨ha, hb⟩ : ra < registerCount ∧ rb < registerCount := by
      simpa [Instruction.operands] using lt
    obtain ⟨after, set, changed⟩ := changed_setRegister (s := s) (i := .addi ra rb imm) ha rfl rfl
      (toNat_add_wrap _ imm)
    refine ⟨after, .next, ?_, changed, rfl, rfl⟩
    simp [execute, Registers.get_of_lt, hb, set]
  | lw ra rb disp =>
    obtain ⟨ha, hb⟩ : ra < registerCount ∧ rb < registerCount := by
      simpa [Instruction.operands] using lt
    obtain ⟨w, found, read⟩ := Memory.read_of_holds (accesses _ rfl)
    have value : (w.toNat : Int) =
        ((s.memory.words[(s.reg rb + disp).toNat]?.getD 0).toNat : Int) % 65536 := by
      have small := w.toNat_lt
      simp only [found, Option.getD_some]
      omega
    obtain ⟨after, set, changed⟩ := changed_setRegister (s := s) (i := .lw ra rb disp) ha rfl rfl
      value
    refine ⟨after, .next, ?_, changed, rfl, rfl⟩
    simp [execute, Registers.get_of_lt, hb, toNat_word, read, set]
  | sw ra rb disp =>
    obtain ⟨ha, hb⟩ : ra < registerCount ∧ rb < registerCount := by
      simpa [Instruction.operands] using lt
    obtain ⟨memory, write, words⟩ := Memory.write_of_holds (s.registers.word ra) (accesses _ rfl)
    refine ⟨{ s with memory }, .next, ?_, ⟨fun _ => rfl, words⟩, rfl, rfl⟩
    simp [execute, Registers.get_of_lt, ha, hb, toNat_word, write]
  | branch cond ra rb offset =>
    obtain ⟨ha, hb⟩ : ra < registerCount ∧ rb < registerCount := by
      simpa [Instruction.operands] using lt
    by_cases taken : s.Taken cond ra rb
    · refine ⟨s, .jump (s.nextPc + offset), ?_, changed_refl rfl rfl, ?_, rfl⟩
      · simp [execute, Registers.get_of_lt, ha, hb, taken_iff, taken]
      · simp [destination, taken, target, nextPc]
    · refine ⟨s, .next, ?_, changed_refl rfl rfl, ?_, rfl⟩
      · simp [execute, Registers.get_of_lt, ha, hb, taken_iff, taken]
      · simp [destination, taken, target, nextPc]
  | jalr ra rb =>
    obtain ⟨ha, hb⟩ : ra < registerCount ∧ rb < registerCount := by
      simpa [Instruction.operands] using lt
    obtain ⟨after, set, changed⟩ := changed_setRegister (s := s) (i := .jalr ra rb) ha rfl rfl
      (toNat_wrap s.nextPc)
    refine ⟨after, .jump (s.reg rb), ?_, changed, rfl, rfl⟩
    simp [execute, Registers.get_of_lt, hb, toNat_word, set]
  | lea ra offset =>
    have ha : ra < registerCount := by
      simpa [Instruction.operands] using lt
    obtain ⟨after, set, changed⟩ := changed_setRegister (s := s) (i := .lea ra offset) ha rfl rfl
      (toNat_wrap (s.nextPc + offset))
    refine ⟨after, .next, ?_, changed, rfl, rfl⟩
    simp [execute, set]
  | halt => exact ⟨s, .halt, rfl, changed_refl rfl rfl, rfl, rfl⟩

theorem execute_error {a : Int} (lt : ∀ r, Operand.reg r ∈ i.operands → r < registerCount)
    (accessed : s.accessed? i = some a) (outside : ¬ s.memory.Holds a) :
    s.execute i = .error (.addressOutOfBounds a) := by
  cases i with
  | lw ra rb disp =>
    have hb : rb < registerCount := lt rb (by simp [Instruction.operands])
    cases accessed
    simp [execute, Registers.get_of_lt, hb, toNat_word, Memory.read_of_not_holds outside]
  | sw ra rb disp =>
    obtain ⟨ha, hb⟩ : ra < registerCount ∧ rb < registerCount := by
      simpa [Instruction.operands] using lt
    cases accessed
    simp [execute, Registers.get_of_lt, ha, hb, toNat_word, Memory.write_of_not_holds _ outside]
  | _ => cases accessed

theorem Fetches.registers_lt (h : s.Fetches i) :
    ∀ r, Operand.reg r ∈ i.operands → r < registerCount := by
  obtain ⟨w, -, decoded⟩ := h
  intro r operand
  exact Instruction.fits_of_decode? decoded _ operand

theorem Fetches.fetch (h : s.Fetches i) : s.fetch = .ok i := by
  obtain ⟨w, found, decoded⟩ := h
  simp [State.fetch, Memory.read, found, decodeAt, decoded]

theorem advance_effect (fetches : s.Fetches i) (accesses : s.Accesses i) (lands : s.Lands i) :
    ∃ after, s.advance = .ok (after, decide (i = .halt)) ∧ s.Effect i after := by
  obtain ⟨raw, flow, executed, changed, target, halts⟩ :=
    execute_changed fetches.registers_lt accesses
  refine ⟨{ raw with pc := (s.destination i).toNat }, ?_, ⟨changed.registers, changed.memory⟩, ?_⟩
  · rw [Lands] at lands
    simp [advance, fetches.fetch, executed, target, lands, halts]
  · exact Int.toNat_of_nonneg lands.1

theorem Refuses.advance (h : s.Refuses fault) : s.advance = .error fault := by
  cases h with
  | fetch outside =>
    have past : ¬ s.memory.Holds s.pc := by
      rw [Memory.Holds]
      omega
    simp [State.advance, State.fetch, Memory.read_of_not_holds past]
  | decode found undefined =>
    simp [State.advance, State.fetch, Memory.read, found, decodeAt, undefined]
  | access fetches accessed outside =>
    simp [State.advance, fetches.fetch, execute_error fetches.registers_lt accessed outside]
  | land fetches accesses lands =>
    obtain ⟨raw, flow, executed, -, target, -⟩ := execute_changed fetches.registers_lt accesses
    rw [Lands] at lands
    simp [State.advance, fetches.fetch, executed, target, lands]

theorem refuses_or_effect (s : State) : (∃ fault, s.Refuses fault) ∨
    ∃ i after, s.Fetches i ∧ s.advance = .ok (after, decide (i = .halt)) ∧ s.Effect i after := by
  by_cases past : s.memory.capacity ≤ s.pc
  · exact .inl ⟨_, .fetch past⟩
  have inside : s.pc < s.memory.words.size := Nat.lt_of_not_le past
  have found : s.memory.words[s.pc]? = some s.memory.words[s.pc] := Array.getElem?_eq_getElem inside
  cases decoded : Instruction.decode? s.memory.words[s.pc] with
  | none => exact .inl ⟨_, .decode found decoded⟩
  | some i =>
    have fetches : s.Fetches i := ⟨_, found, decoded⟩
    by_cases accesses : s.Accesses i
    · by_cases lands : s.Lands i
      · obtain ⟨after, advances, effect⟩ := advance_effect fetches accesses lands
        exact .inr ⟨i, after, fetches, advances, effect⟩
      · exact .inl ⟨_, .land fetches accesses lands⟩
    · rw [Accesses] at accesses
      push Not at accesses
      obtain ⟨a, accessed, outside⟩ := accesses
      exact .inl ⟨_, .access fetches accessed outside⟩

theorem advance_eq_error : s.advance = .error fault ↔ s.Refuses fault := by
  constructor
  · intro failed
    obtain ⟨other, refuses⟩ | ⟨i, after, -, advances, -⟩ := s.refuses_or_effect
    · obtain rfl : other = fault := by simpa [refuses.advance] using failed
      exact refuses
    · simp [advances] at failed
  · exact Refuses.advance

theorem effect_of_advance {halts : Bool} (h : s.advance = .ok (after, halts)) :
    ∃ i, s.Fetches i ∧ halts = decide (i = .halt) ∧ s.Effect i after := by
  obtain ⟨fault, refuses⟩ | ⟨i, next, fetches, advances, effect⟩ := s.refuses_or_effect
  · simp [refuses.advance] at h
  · obtain ⟨rfl, rfl⟩ : next = after ∧ decide (i = .halt) = halts := by simpa [advances] using h
    exact ⟨i, fetches, rfl, effect⟩

theorem Fits.reg_zero {capacity : Nat} (h : s.Fits capacity) : s.reg 0 = 0 := by
  have zero := h.zero
  rw [Registers.get_of_lt (by decide)] at zero
  simpa [reg] using congrArg UInt16.toNat (Except.ok.inj zero)

end State

namespace Processor

/-- A step follows the table. It fails exactly for the causes that the table gives, and then nothing
changes. Else registers, memory and `pc` are those of the table, and the old state is recorded. -/
theorem Reached.step_by_table {config : Config} {calls : List Call} {cpu : Processor}
    (h : Reached config calls cpu) (live : cpu.status ≠ .halted) :
    (∀ fault, cpu.step.1 = .error fault ↔ cpu.state.Refuses fault) ∧
    (∀ fault, cpu.step.1 = .error fault →
      (∀ r, fault ≠ .invalidRegister r) ∧ cpu.step.2 = cpu) ∧
    ∀ signal, cpu.step.1 = .ok signal → ∃ i state history,
      cpu.state.Fetches i ∧ signal = (if i = .halt then .halted else .stepped) ∧
      cpu.step.2 = { cpu with
        state
        history
        status := if i = .halt then .halted else .running } ∧
      cpu.state.Effect i state ∧ cpu.state.reg 0 = 0 ∧ state.reg 0 = 0 ∧
      history.limit = config.historyLimit ∧
      history.entries = History.keep config.historyLimit (cpu.state :: cpu.history.entries) := by
  have wf := h.wellFormed
  cases advance : cpu.state.advance with
  | error cause =>
    rw [step_error live advance]
    have refuses : cpu.state.Refuses cause := State.advance_eq_error.mp advance
    refine ⟨?_, ?_, by simp⟩
    · intro fault
      rw [← State.advance_eq_error, advance]
      simp
    · rintro fault ⟨⟩
      exact ⟨refuses.ne_invalidRegister, rfl⟩
  | ok result =>
    obtain ⟨state, halts⟩ := result
    rw [step_ok live advance]
    refine ⟨?_, by simp, ?_⟩
    · intro fault
      rw [← State.advance_eq_error, advance]
      simp
    · rintro signal ⟨⟩
      obtain ⟨i, fetches, rfl, effect⟩ := State.effect_of_advance advance
      have zero := (wf.state.advance advance).reg_zero
      refine ⟨i, state, cpu.history.push cpu.state, fetches, by simp, by simp [stepped], effect,
        wf.state.reg_zero, zero, ?_, ?_⟩
      · rw [History.push_limit, wf.limit]
      · rw [History.push_entries, wf.limit]

theorem Reached.step_by_table_of_jump : ∃ calls cpu, Reached ⟨8, some 1⟩ calls cpu ∧
    cpu.status ≠ .halted ∧ (∃ i state, cpu.state.Fetches i ∧ cpu.state.Effect i state ∧
      cpu.step.2.state = state ∧ cpu.step.2.history.entries = [cpu.state]) ∧
    cpu.step.2.state.Refuses (.addressOutOfBounds 65535) ∧ cpu.step.2.step.2 = cpu.step.2 := by
  have loaded : (Processor.new ⟨8, some 1⟩).perform 0 (.load [0x521F, 0xB240]) =
      some (.ok .done, ((Processor.new ⟨8, some 1⟩).load [0x521F, 0xB240]).2) := rfl
  have first : ((Processor.new ⟨8, some 1⟩).load [0x521F, 0xB240]).2.perform 0 .step =
      some (.ok (.signal .stepped), _) := rfl
  have before := Reached.new.call loaded
  obtain ⟨i, state, history, fetches, -, stepped, effect, -, -, -, entries⟩ :=
    (before.step_by_table (by decide)).2.2 .stepped rfl
  obtain ⟨refuses, unchanged, -⟩ := (before.call first).step_by_table (by decide)
  have failed : ((Processor.new ⟨8, some 1⟩).load [0x521F, 0xB240]).2.step.2.step.1 =
      .error (.addressOutOfBounds 65535) := rfl
  refine ⟨_, _, before, by decide, ⟨i, state, fetches, effect, ?_, ?_⟩, (refuses _).mp failed,
    (unchanged _ failed).2⟩
  · rw [stepped]
  · rw [stepped, entries]
    rfl

end Processor

end Backstep.Machine
