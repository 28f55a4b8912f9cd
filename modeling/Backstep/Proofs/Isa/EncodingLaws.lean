import Backstep.Isa.Instruction
import Backstep.Proofs.ExceptLaws
import Mathlib.Algebra.Group.Nat.Defs

namespace Backstep.Isa

theorem Opcode.ofMnemonic?_mnemonic (op : Opcode) : ofMnemonic? op.mnemonic = some op := by
  cases op with
  | alu f => cases f <;> rfl
  | branch cond => cases cond <;> rfl
  | _ => rfl

theorem Opcode.ofMnemonic?_eq_some {mnemonic : String} {op : Opcode} :
    ofMnemonic? mnemonic = some op ↔ op.mnemonic = mnemonic := by
  constructor
  · intro h
    simpa using List.find?_some h
  · rintro rfl
    exact ofMnemonic?_mnemonic op

theorem Opcode.ofMnemonic?_eq_none {mnemonic : String} :
    ofMnemonic? mnemonic = none ↔ ∀ op : Opcode, op.mnemonic ≠ mnemonic := by
  simp only [Option.eq_none_iff_forall_not_mem, Option.mem_def, ofMnemonic?_eq_some, ne_eq]

theorem pseudoOp?_eq_some {mnemonic : String} {word : Word} : pseudoOp? mnemonic = some word ↔
    mnemonic = "noop" ∧ word = 0 ∨ mnemonic = "halt" ∧ word = 0xE000 := by
  by_cases noop : mnemonic = "noop"
  · subst noop
    simp [pseudoOp?, pseudoOps, eq_comm]
  by_cases halt : mnemonic = "halt"
  · subst halt
    simp [pseudoOp?, pseudoOps, eq_comm]
  simp [pseudoOp?, pseudoOps, noop, halt, Ne.symm noop, Ne.symm halt]

namespace Operand

def Fits : Operand → Prop
  | reg index => index < registerCount
  | imm value => immMin ≤ value ∧ value ≤ immMax

theorem register_eq_ok {o : Operand} {r : Nat} : o.register = .ok r ↔ o = .reg r ∧ o.Fits := by
  cases o with
  | imm value => simp [register]
  | reg index =>
    rw [register, Fits]
    split <;> simp [*]

theorem immediate_eq_ok {o : Operand} {v : Int} : o.immediate = .ok v ↔ o = .imm v ∧ o.Fits := by
  cases o with
  | reg index => simp [immediate]
  | imm value =>
    rw [immediate, Fits]
    split <;> simp [*]

inductive Suits : OperandKind → Operand → Prop
  | register {r : Nat} : (reg r).Fits → Suits .reg (reg r)
  | value {kind : OperandKind} {v : Int} : kind ≠ .reg → (imm v).Fits → Suits kind (imm v)

theorem Suits.exists_register {o : Operand} (h : Suits .reg o) : ∃ r, o.register = .ok r := by
  cases h with
  | register fits => exact ⟨_, register_eq_ok.mpr ⟨rfl, fits⟩⟩
  | value number => exact absurd rfl number

theorem Suits.exists_immediate {kind : OperandKind} {o : Operand} (h : Suits kind o)
    (number : kind ≠ .reg) : ∃ v, o.immediate = .ok v := by
  cases h with
  | register => exact absurd rfl number
  | value _ fits => exact ⟨_, immediate_eq_ok.mpr ⟨rfl, fits⟩⟩

end Operand

namespace Instruction

def operands : Instruction → List Operand
  | alu _ ra rb rc => [.reg ra, .reg rb, .reg rc]
  | addi ra rb imm => [.reg ra, .reg rb, .imm imm]
  | lw ra rb disp => [.reg ra, .reg rb, .imm disp]
  | sw ra rb disp => [.reg ra, .reg rb, .imm disp]
  | branch _ ra rb offset => [.reg ra, .reg rb, .imm offset]
  | jalr ra rb => [.reg ra, .reg rb]
  | lea ra offset => [.reg ra, .imm offset]
  | halt => []

theorem ofOperands_eq_ok {op : Opcode} {operands : List Operand} {i : Instruction} :
    ofOperands op operands = .ok i ↔
      i.opcode = op ∧ i.operands = operands ∧ ∀ o ∈ operands, o.Fits := by
  constructor
  · intro h
    rw [ofOperands.eq_def] at h
    split at h
    case h_8 =>
      cases h
      exact ⟨rfl, rfl, by simp⟩
    case h_9 => cases h
    case h_6 | h_7 =>
      simp only [bind_eq_ok, Operand.register_eq_ok, Operand.immediate_eq_ok] at h
      obtain ⟨a, ⟨rfl, fa⟩, b, ⟨rfl, fb⟩, ⟨⟩⟩ := h
      exact ⟨rfl, rfl, by simp [fa, fb]⟩
    all_goals
      simp only [bind_eq_ok, Operand.register_eq_ok, Operand.immediate_eq_ok] at h
      obtain ⟨a, ⟨rfl, fa⟩, b, ⟨rfl, fb⟩, c, ⟨rfl, fc⟩, ⟨⟩⟩ := h
      exact ⟨rfl, rfl, by simp [fa, fb, fc]⟩
  · rintro ⟨rfl, rfl, fits⟩
    cases i with
    | halt => rfl
    | _ =>
      simpa [opcode, Instruction.operands, ofOperands, bind_eq_ok, Operand.register_eq_ok,
        Operand.immediate_eq_ok] using fits

theorem exists_ofOperands_eq_ok {op : Opcode} {operands : List Operand}
    (suits : List.Forall₂ Operand.Suits op.operandKinds operands) :
    ∃ i, ofOperands op operands = .ok i := by
  cases op with
  | halt =>
    cases suits
    exact ⟨_, rfl⟩
  | jalr =>
    obtain _ | ⟨ha, _ | ⟨hb, ⟨⟩⟩⟩ := suits
    obtain ⟨ra, ha⟩ := ha.exists_register
    obtain ⟨rb, hb⟩ := hb.exists_register
    simp [ofOperands, ha, hb]
  | lea =>
    obtain _ | ⟨ha, _ | ⟨hb, ⟨⟩⟩⟩ := suits
    obtain ⟨ra, ha⟩ := ha.exists_register
    obtain ⟨offset, hb⟩ := hb.exists_immediate (by simp)
    simp [ofOperands, ha, hb]
  | alu =>
    obtain _ | ⟨ha, _ | ⟨hb, _ | ⟨hc, ⟨⟩⟩⟩⟩ := suits
    obtain ⟨ra, ha⟩ := ha.exists_register
    obtain ⟨rb, hb⟩ := hb.exists_register
    obtain ⟨rc, hc⟩ := hc.exists_register
    simp [ofOperands, ha, hb, hc]
  | addi | lw | sw | branch =>
    obtain _ | ⟨ha, _ | ⟨hb, _ | ⟨hc, ⟨⟩⟩⟩⟩ := suits
    obtain ⟨ra, ha⟩ := ha.exists_register
    obtain ⟨rb, hb⟩ := hb.exists_register
    obtain ⟨v, hc⟩ := hc.exists_immediate (by simp)
    simp [ofOperands, ha, hb, hc]

def ofFields (ra rb low : Nat) : Opcode → Instruction
  | .alu op => alu op ra rb (low % 8)
  | .addi => addi ra rb (Int.bmod low 32)
  | .lw => lw ra rb (Int.bmod low 32)
  | .sw => sw ra rb (Int.bmod low 32)
  | .branch cond => branch cond ra rb (Int.bmod low 32)
  | .jalr => jalr ra rb
  | .lea => lea ra (Int.bmod low 32)
  | .halt => halt

theorem decode?_eq_some {word : Word} {i : Instruction} :
    decode? word = some i ↔ ∃ op, Opcode.ofCode? (word.toNat / 4096) = some op ∧
      ofFields (word.toNat / 512 % 8) (word.toNat / 64 % 8) word.toNat op = i := by
  rw [decode?, Option.map_eq_some_iff]
  apply exists_congr
  intro op
  cases op <;> rfl

theorem bmod_fits (n : Nat) : (Operand.imm (Int.bmod n 32)).Fits := by
  rw [Operand.Fits, immMin, immMax, Int.bmod_def]
  omega

theorem fits_of_decode? {word : Word} {i : Instruction} (h : decode? word = some i) :
    ∀ o ∈ i.operands, o.Fits := by
  obtain ⟨op, -, rfl⟩ := decode?_eq_some.mp h
  have reg (n : Nat) : (Operand.reg (n % 8)).Fits := Nat.mod_lt n (by decide)
  cases op <;> simp [ofFields, operands, reg, bmod_fits]

theorem code_lt (op : Opcode) : op.code < 16 := by
  cases op with
  | alu f => cases f <;> decide
  | branch cond => cases cond <;> decide
  | _ => decide

theorem toNat_pack {op : Opcode} {ra rb low : Nat} (hlow : low < 64) :
    (pack op.code ra rb low).toNat = op.code * 4096 + ra % 8 * 512 + rb % 8 * 64 + low := by
  have := code_lt op
  rw [pack, UInt16.toNat_ofNat']
  omega

theorem decode?_pack {op : Opcode} {ra rb low : Nat} (hra : ra < 8) (hrb : rb < 8)
    (hlow : low < 64) : decode? (pack op.code ra rb low) = some (ofFields ra rb low op) := by
  have word := @toNat_pack op ra rb low hlow
  have hop : (pack op.code ra rb low).toNat / 4096 = op.code := by omega
  have hra' : (pack op.code ra rb low).toNat / 512 % 8 = ra := by omega
  have hrb' : (pack op.code ra rb low).toNat / 64 % 8 = rb := by omega
  have hrc : (pack op.code ra rb low).toNat % 8 = low % 8 := by omega
  have himm : Int.bmod (pack op.code ra rb low).toNat 32 = Int.bmod low 32 := by
    rw [Int.bmod, Int.bmod]
    omega
  rw [decode?]
  simp only [hop, hra', hrb', hrc, himm, Opcode.ofCode?_code, Option.map_some]
  cases op <;> rfl

theorem bmod_immField {v : Int} (h : immMin ≤ v ∧ v ≤ immMax) : Int.bmod (immField v) 32 = v := by
  rw [immMin, immMax] at h
  rw [immField, Int.bmod]
  omega

theorem immField_lt (v : Int) : immField v < 64 := by
  rw [immField]
  omega

theorem decode?_encode {i : Instruction} (fits : ∀ o ∈ i.operands, o.Fits) :
    decode? i.encode = some i := by
  cases i <;> simp only [operands, List.forall_mem_cons] at fits <;> rw [encode, opcode]
  case alu op ra rb rc =>
    have low : rc % 8 < 64 := by omega
    have hrc : rc < 8 := fits.2.2.1
    rw [decode?_pack fits.1 fits.2.1 low, ofFields, Nat.mod_mod, Nat.mod_eq_of_lt hrc]
  case addi ra rb imm =>
    rw [decode?_pack fits.1 fits.2.1 (immField_lt imm), ofFields, bmod_immField fits.2.2.1]
  case lw ra rb disp =>
    rw [decode?_pack fits.1 fits.2.1 (immField_lt disp), ofFields, bmod_immField fits.2.2.1]
  case sw ra rb disp =>
    rw [decode?_pack fits.1 fits.2.1 (immField_lt disp), ofFields, bmod_immField fits.2.2.1]
  case branch cond ra rb offset =>
    rw [decode?_pack fits.1 fits.2.1 (immField_lt offset), ofFields, bmod_immField fits.2.2.1]
  case jalr ra rb =>
    rw [decode?_pack fits.1 fits.2.1 (by decide), ofFields]
  case lea ra offset =>
    rw [decode?_pack fits.1 (by decide) (immField_lt offset), ofFields, bmod_immField fits.2.1]
  case halt =>
    rw [decode?_pack (by decide) (by decide) (by decide), ofFields]

end Instruction

def Opcode.unusedBits : Opcode → Word
  | .alu _ => 0x0038
  | .addi => 0x0020
  | .lw => 0x0020
  | .sw => 0x0020
  | .branch _ => 0x0020
  | .jalr => 0x003F
  | .lea => 0x01E0
  | .halt => 0x0FFF

theorem and_field (n low width : Nat) :
    n &&& ((2 ^ width - 1) * 2 ^ low) = n / 2 ^ low % 2 ^ width * 2 ^ low := by
  apply Nat.eq_of_testBit_eq
  intro i
  rw [Nat.testBit_and, Nat.testBit_mul_two_pow, Nat.testBit_mul_two_pow, Nat.testBit_mod_two_pow,
    Nat.testBit_div_two_pow, Nat.testBit_two_pow_sub_one]
  by_cases h : low ≤ i
  · simp [h, Bool.and_comm, Nat.sub_add_cancel]
  · simp [h]

theorem toNat_and_not (w mask : Word) :
    (w &&& ~~~mask).toNat = w.toNat - (w.toNat &&& mask.toNat) := by
  have parts : w = (w &&& ~~~mask) + (w &&& mask) := by
    apply UInt16.toBitVec_inj.mp
    rw [UInt16.toBitVec_add, UInt16.toBitVec_and, UInt16.toBitVec_and, UInt16.toBitVec_not,
      BitVec.add_eq_or_of_and_eq_zero]
    · grind
    · grind
  have sum := congrArg UInt16.toNat parts
  have rest := (w &&& ~~~mask).toNat_lt
  have masked : w.toNat &&& mask.toNat ≤ w.toNat := Nat.and_le_left
  rw [UInt16.toNat_add, UInt16.toNat_and w mask] at sum
  have small := w.toNat_lt
  omega

theorem Opcode.eq_code_of_ofCode? {n : Nat} {op : Opcode} (h : ofCode? n = some op) :
    n = op.code := by
  rw [ofCode?.eq_def] at h
  split at h <;> cases h <;> rfl

namespace Instruction

theorem immField_bmod (n : Nat) : immField (Int.bmod n 32) = n % 32 := by
  rw [immField, Int.bmod]
  omega

theorem pack_eq_and_not {op : Opcode} {w mask : Word} {ra rb low k n : Nat}
    (code : w.toNat / 4096 = op.code) (run : mask.toNat = (2 ^ n - 1) * 2 ^ k) (small : low < 64)
    (fields : w.toNat % 4096 =
      ra % 8 * 512 + rb % 8 * 64 + low + w.toNat / 2 ^ k % 2 ^ n * 2 ^ k) :
    pack op.code ra rb low = w &&& ~~~mask := by
  apply UInt16.toNat_inj.mp
  rw [toNat_and_not, run, and_field, toNat_pack small]
  omega

theorem encode_of_decode? {w : Word} {i : Instruction} (h : decode? w = some i) :
    i.encode = w &&& ~~~i.opcode.unusedBits := by
  obtain ⟨op, code, rfl⟩ := decode?_eq_some.mp h
  have code := Opcode.eq_code_of_ofCode? code
  cases op with
  | alu op => exact pack_eq_and_not (k := 3) (n := 3) code rfl (by omega) (by omega)
  | addi | lw | sw | branch =>
    simp only [ofFields, encode, immField_bmod]
    exact pack_eq_and_not (k := 5) (n := 1) code rfl (by omega) (by omega)
  | jalr => exact pack_eq_and_not (k := 0) (n := 6) code rfl (by omega) (by omega)
  | lea =>
    simp only [ofFields, encode, immField_bmod]
    exact pack_eq_and_not (k := 5) (n := 4) code rfl (by omega) (by omega)
  | halt => exact pack_eq_and_not (k := 0) (n := 12) code rfl (by omega) (by omega)

end Instruction

end Backstep.Isa
