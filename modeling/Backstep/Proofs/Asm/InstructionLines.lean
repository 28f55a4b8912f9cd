import Backstep.Proofs.Asm.Resolution
import Backstep.Proofs.Asm.WrittenLines

namespace Backstep.Asm

open Isa Text

variable {labels : Labels} {index : Nat}

def dataOperation (w : Word) : Operation :=
  ⟨Operation.wordDirective, ['0' :: 'x' :: (wordHex w).toList]⟩

theorem isPlain_data (w : Word) :
    Operation.isPlain ('0' :: 'x' :: (wordHex w).toList) = true := by
  have each : ∀ d : Fin 16, Operation.isPlain [upperDigit d] = true := by decide
  have digit {d : Nat} (h : d < 16) : Operation.IsPlain (upperDigit d) :=
    (Operation.isPlain_iff.mp (each ⟨d, h⟩)).2 _ List.mem_cons_self
  have mark : Operation.isPlain ['0', 'x'] = true := by decide
  have first : w.toNat / 4096 < 16 := by
    have small := w.toNat_lt
    omega
  rw [Operation.isPlain_iff] at mark ⊢
  simp only [wordHex, String.toList_ofList, List.forall_mem_cons] at mark ⊢
  exact ⟨by simp, mark.2.1, mark.2.2.1, digit first, digit (Nat.mod_lt _ (by decide)),
    digit (Nat.mod_lt _ (by decide)), digit (Nat.mod_lt _ (by decide)), by simp⟩

theorem plain_dataOperation (w : Word) : (dataOperation w).Plain where
  mnemonic := (by decide : Operation.isPlain ".word".toList = true)
  lower := (by decide : ".word".toList.map Char.toLower = ".word".toList)
  operands := by
    intro token mem
    obtain rfl := List.mem_singleton.mp mem
    exact isPlain_data w

theorem written_dataOperation (w : Word) :
    (dataOperation w).written = s!".word 0x{wordHex w}".toList := by
  have text : s!".word 0x{wordHex w}" = ".word 0x" ++ wordHex w := rfl
  simp [text, Operation.written, dataOperation, Operation.wordDirective]

theorem word_wordHex (w : Word) : labels.word ('0' :: 'x' :: (wordHex w).toList) = .ok w := by
  have small := w.toNat_lt
  have numeral : Token.Numeral ('0' :: 'x' :: (wordHex w).toList) w.toNat :=
    .plain (.hexadecimal (.inl rfl) (digits?_eq_some.mp (digits?_wordHex w)))
  have low : wordMin ≤ (w.toNat : Int) := by
    rw [wordMin]
    omega
  have high : (w.toNat : Int) ≤ wordMax := by
    rw [wordMax]
    omega
  have same : ((w.toNat : Int) % 65536).toNat = w.toNat := by omega
  rw [Labels.word_of_numeral numeral low high, same, UInt16.ofNat_toNat]

theorem resolve_dataOperation (w : Word) :
    (dataOperation w).resolve labels index = .ok (.literal w) := by
  rw [dataOperation, resolve_directive, word_wordHex]
  rfl

theorem register?_text {r : Nat} (fits : (Operand.reg r).Fits) :
    Token.register? (Operand.reg r).text.toList = some r := by
  have each : ∀ r : Fin registerCount,
      Token.register? (Operand.reg r).text.toList = some r.val := by decide
  exact each ⟨r, fits⟩

theorem exists_eq_sub {v : Int} (fits : (Operand.imm v).Fits) : ∃ k : Fin 32, v = k.val - 16 := by
  obtain ⟨low, high⟩ := fits
  rw [immMin] at low
  rw [immMax] at high
  exact ⟨⟨(v + 16).toNat, by omega⟩, by simp; omega⟩

theorem number?_text {v : Int} (fits : (Operand.imm v).Fits) :
    Token.number? (Operand.imm v).text.toList = some v := by
  have each : ∀ k : Fin 32, Token.number? (Operand.imm (k.val - 16)).text.toList =
      some (k.val - 16 : Int) := by decide
  obtain ⟨k, rfl⟩ := exists_eq_sub fits
  exact each k

theorem isPlain_text {o : Operand} (fits : o.Fits) : Operation.isPlain o.text.toList = true := by
  cases o with
  | reg r =>
    have each : ∀ r : Fin registerCount, Operation.isPlain (Operand.reg r).text.toList = true := by
      decide
    exact each ⟨r, fits⟩
  | imm v =>
    have each : ∀ k : Fin 32, Operation.isPlain (Operand.imm (k.val - 16)).text.toList = true := by
      decide
    obtain ⟨k, rfl⟩ := exists_eq_sub fits
    exact each k

theorem operand_text {kind : OperandKind} {o : Operand} (suits : o.Suits kind) :
    labels.operand index o.text.toList kind = .ok o := by
  cases suits with
  | register fits => rw [Labels.operand, register?_text fits]
  | @value _ v number fits =>
    have value : labels.value index kind (Operand.imm v).text.toList = .ok v := by
      rw [Labels.value, number?_text fits]
    have fitted : fitImmediate v = .ok v := fitImmediate_eq_ok.mpr ⟨rfl, fits⟩
    rw [operand_of_ne_reg number, value, ok_bind, fitted, ok_bind, pure_eq_ok]

theorem operands_text {kinds : List OperandKind} {os : List Operand}
    (suits : List.Forall₂ Operand.Suits kinds os) :
    ((os.map (·.text.toList)).zip kinds).mapM
      (fun (token, kind) => labels.operand index token kind) = .ok os := by
  rw [mapM_eq_ok]
  induction suits with
  | nil => exact .nil
  | cons first _ ih => exact .cons (operand_text first) ih

end Backstep.Asm

namespace Backstep.Isa

open Asm Text

namespace Instruction

variable {labels : Labels} {index : Nat} {i : Instruction}

def toOperation (i : Instruction) : Operation :=
  ⟨i.opcode.mnemonic, i.operands.map (·.text.toList)⟩

theorem plain_mnemonic (op : Opcode) :
    Operation.isPlain op.mnemonic.toList = true ∧
      op.mnemonic.toList.map Char.toLower = op.mnemonic.toList := by
  cases op with
  | alu op => cases op <;> decide
  | branch cond => cases cond <;> decide
  | _ => decide

theorem operandTexts_eq (i : Instruction) : i.operandTexts = i.operands.map (·.text) := by
  cases i <;> rfl

theorem text_eq_written (i : Instruction) : i.text.toList = i.toOperation.written := by
  rw [text, operandTexts_eq, Operation.written, toOperation]
  cases i.operands with
  | nil => rfl
  | cons o os => simp [String.toList_intercalate, Function.comp_def]

theorem suits_operands (fits : ∀ o ∈ i.operands, o.Fits) :
    List.Forall₂ Operand.Suits i.opcode.operandKinds i.operands := by
  cases i <;> simp only [operands, List.forall_mem_cons] at fits
  case alu => exact .cons (.register fits.1) (.cons (.register fits.2.1)
    (.cons (.register fits.2.2.1) .nil))
  case jalr => exact .cons (.register fits.1) (.cons (.register fits.2.1) .nil)
  case lea => exact .cons (.register fits.1) (.cons (.value (by decide) fits.2.1) .nil)
  case halt => exact .nil
  all_goals exact .cons (.register fits.1) (.cons (.register fits.2.1)
    (.cons (.value (by decide) fits.2.2.1) .nil))

theorem plain_toOperation (fits : ∀ o ∈ i.operands, o.Fits) : i.toOperation.Plain where
  mnemonic := (plain_mnemonic i.opcode).1
  lower := (plain_mnemonic i.opcode).2
  operands := by
    intro token among
    obtain ⟨o, mem, rfl⟩ := List.mem_map.mp among
    exact isPlain_text (fits o mem)

theorem eq_halt_of_operands (none : i.operands = []) : i = .halt := by
  cases i with
  | halt => rfl
  | _ => cases none

theorem resolveInstruction_toOperation (fits : ∀ o ∈ i.operands, o.Fits) :
    i.toOperation.resolveInstruction labels index =
      .ok (.instruction i.opcode.mnemonic i.operands) := by
  have suits := suits_operands fits
  have arity : (i.operands.map (·.text.toList)).length = i.opcode.operandKinds.length := by
    rw [List.length_map, suits.length_eq]
  have named : i.opcode.mnemonic = i.toOperation.mnemonic := rfl
  have spread : Spread i.opcode.operandKinds i.toOperation.operands
      (i.operands.map (·.text.toList)) := .written arity
  rw [resolveInstruction_of_spread named spread, operands_text suits, ok_bind, pure_eq_ok, named]

theorem encode_eq_encode (fits : ∀ o ∈ i.operands, o.Fits) (some : i.operands ≠ []) :
    Isa.encode i.opcode.mnemonic i.operands = .ok i.encode := by
  have made : ofOperands i.opcode i.operands = .ok i := ofOperands_eq_ok.mpr ⟨rfl, rfl, fits⟩
  rw [Isa.encode.eq_def, Opcode.ofMnemonic?_mnemonic]
  split
  case h_1 none _ => exact absurd none some
  case h_2 =>
    dsimp only
    rw [made]
    rfl

theorem resolve_toOperation (fits : ∀ o ∈ i.operands, o.Fits) :
    ∃ r, i.toOperation.resolve labels index = .ok r ∧ r.encode = .ok i.encode := by
  by_cases none : i.operands = []
  · obtain rfl := eq_halt_of_operands none
    exact ⟨.literal 0xE000, rfl, rfl⟩
  · have plain : i.toOperation.operands = [] → pseudoOp? i.toOperation.mnemonic = Option.none :=
      fun empty => absurd (List.map_eq_nil_iff.mp empty) none
    refine ⟨.instruction i.opcode.mnemonic i.operands, ?_, encode_eq_encode fits none⟩
    rw [resolve_of_ne_pseudoOp (ne_wordDirective i.opcode) plain]
    exact resolveInstruction_toOperation fits

end Instruction

end Backstep.Isa
