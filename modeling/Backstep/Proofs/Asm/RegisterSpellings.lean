import Backstep.Proofs.Asm.ImmediateNumerals

namespace Backstep.Asm

open Isa Text

/-- An optional dollar sign, `r` or `R`, the sign, and decimal digits that make the number of a
register. -/
inductive SpellsRegister (sign : List Char) : Token → Nat → Prop
  | mk {dollar digits : List Char} {mark : Char} {r : Nat} : dollar = [] ∨ dollar = ['$'] →
      mark = 'r' ∨ mark = 'R' → Decimal digits r → r < 8 →
      SpellsRegister sign (dollar ++ mark :: (sign ++ digits)) r

variable {token : Token} {r : Nat}

namespace Token

theorem Register.spelled (h : token.Register r) :
    SpellsRegister [] token r ∨ SpellsRegister ['+'] token r := by
  cases h with
  | plain named =>
    obtain ⟨mark, rfl | rfl, written, small⟩ := named
    · exact .inl (.mk (.inl rfl) mark (writes_ten.mp written) small)
    · exact .inr (.mk (.inl rfl) mark (writes_ten.mp written) small)
  | dollar named =>
    obtain ⟨mark, rfl | rfl, written, small⟩ := named
    · exact .inl (.mk (.inr rfl) mark (writes_ten.mp written) small)
    · exact .inr (.mk (.inr rfl) mark (writes_ten.mp written) small)

theorem Register.of_spelled {sign : List Char} (plus : sign = [] ∨ sign = ['+'])
    (h : SpellsRegister sign token r) : token.Register r := by
  obtain @⟨dollar, digits, mark, r, before, letter, decimal, small⟩ := h
  have behind : sign ++ digits = digits ∨ sign ++ digits = '+' :: digits := by
    obtain rfl | rfl := plus
    · exact .inl rfl
    · exact .inr rfl
  have named := RegisterName.mk letter behind (writes_ten.mpr decimal) small
  obtain rfl | rfl := before
  · exact .plain named
  · exact .dollar named

theorem register_iff :
    token.Register r ↔ SpellsRegister [] token r ∨ SpellsRegister ['+'] token r := by
  refine ⟨Register.spelled, ?_⟩
  rintro (spelled | spelled)
  · exact .of_spelled (.inl rfl) spelled
  · exact .of_spelled (.inr rfl) spelled

theorem mem_of_spelled (h : SpellsRegister ['+'] token r) : '+' ∈ token := by
  obtain ⟨-, -, -, -⟩ := h
  simp

theorem not_mem_of_spelled (h : SpellsRegister [] token r) : '+' ∉ token := by
  obtain @⟨dollar, digits, mark, r, before, letter, decimal, -⟩ := h
  have plain : '+' ∉ digits := fun mem =>
    absurd ((writes_ten.mpr decimal).isSome_digit? _ mem) (by decide)
  obtain rfl | rfl := before <;> obtain rfl | rfl := letter <;> simp [plain]

end Token

theorem address_eq_notANumber_iff_spelled {labels : Labels} (named : token.isLabelName = true) :
    labels.address token = .error (.notANumber (String.ofList token)) ↔
      ∃ r, SpellsRegister [] token r := by
  have unsigned (r : Nat) : ¬ SpellsRegister ['+'] token r := by
    intro spelled
    have rest := Token.isNameRest_of_isLabelName named _ (Token.mem_of_spelled spelled)
    exact absurd rest (by decide)
  rw [Labels.address_eq_notANumber_iff named]
  simp only [Token.register_iff, unsigned, or_false]

theorem exists_register_of_assemble {source : String} {words : List Word} {index k : Nat}
    {opcode : Opcode} {operands tokens : List Token} (assembled : assemble source = .ok words)
    (stands : (statements source)[index]? = some ⟨opcode.mnemonic, operands⟩)
    (spread : Spread opcode.operandKinds operands tokens)
    (at_k : opcode.operandKinds[k]? = some .reg) (token_k : tokens[k]? = some token) :
    ∃ w i r, words[index]? = some w ∧ Instruction.decode? w = some i ∧ i.opcode = opcode ∧
      i.operands[k]? = some (.reg r) ∧
      (SpellsRegister [] token r ∨ SpellsRegister ['+'] token r) := by
  obtain ⟨layout, made, operations, -⟩ := layout_of_assemble assembled
  rw [← operations] at stands
  obtain ⟨w, there, r, resolved, encoded⟩ := Layout.getElem?_assemble made stands
  obtain ⟨i, o, decoded, same, holds, means⟩ := exists_operand_of_encode resolved encoded rfl spread
    at_k token_k
  rw [Labels.operand] at means
  split at means
  case h_1 r' read =>
    cases means
    exact ⟨w, i, r', there, decoded, same, holds, Token.Register.spelled (.of_register? read)⟩
  case h_2 => cases means

/-- A token names a register just if it is spelled as one. Of the names, these and no others are
refused as references, and they have no sign; and every register in the word of an accepted text is
the one that the token in its place names. -/
theorem registers_by_spelling (token : Token) :
    (∀ r, token.register? = some r ↔ SpellsRegister [] token r ∨ SpellsRegister ['+'] token r) ∧
    ('+' ∉ token → ∀ r, token.register? = some r ↔ SpellsRegister [] token r) ∧
    (token.isLabelName = true → ∀ labels : Labels,
      labels.address token = .error (.notANumber (String.ofList token)) ↔
        ∃ r, SpellsRegister [] token r) ∧
    ∀ source words, assemble source = .ok words →
      ∀ (index k : Nat) (opcode : Opcode) (operands tokens : List Token),
        (statements source)[index]? = some ⟨opcode.mnemonic, operands⟩ →
        Spread opcode.operandKinds operands tokens → opcode.operandKinds[k]? = some .reg →
        tokens[k]? = some token →
        ∃ w i r, words[index]? = some w ∧ Instruction.decode? w = some i ∧ i.opcode = opcode ∧
          i.operands[k]? = some (.reg r) ∧
          (SpellsRegister [] token r ∨ SpellsRegister ['+'] token r) := by
  have spelled (r : Nat) : token.register? = some r ↔
      SpellsRegister [] token r ∨ SpellsRegister ['+'] token r :=
    Token.register?_eq_some.trans Token.register_iff
  refine ⟨spelled, fun unsigned r => ?_, fun named labels => ?_, fun source words assembled => ?_⟩
  · rw [spelled, or_iff_left (mt Token.mem_of_spelled unsigned)]
  · exact address_eq_notANumber_iff_spelled named
  · intro index k opcode operands tokens stands spread at_k token_k
    exact exists_register_of_assemble assembled stands spread at_k token_k

theorem registers_by_spelling_of_zeros :
    (∃ w i r, ([0x0E43] : List Word)[0]? = some w ∧ Instruction.decode? w = some i ∧
      i.opcode = .alu .add ∧ i.operands[0]? = some (.reg r) ∧
      (SpellsRegister [] "$R007".toList r ∨ SpellsRegister ['+'] "$R007".toList r)) ∧
    Labels.address [] "r08".toList ≠ .error (.notANumber "r08") ∧
    Labels.address [] "R00".toList = .error (.notANumber "R00") ∧
    SpellsRegister [] "$R007".toList 7 := by
  have assembled : assemble "add $R007, r+1, r3" = .ok [0x0E43] := rfl
  have zeros : SpellsRegister [] (['$'] ++ 'R' :: ([] ++ ['0', '0', '7'])) 7 :=
    .mk (.inr rfl) (.inr rfl) (writes_ten.mp (digits?_eq_some.mp rfl)) (by decide)
  have zero : SpellsRegister [] ([] ++ 'R' :: ([] ++ ['0', '0'])) 0 :=
    .mk (.inl rfl) (.inr rfl) (writes_ten.mp (digits?_eq_some.mp rfl)) (by decide)
  refine ⟨?_, ?_, ?_, zeros⟩
  · exact (registers_by_spelling "$R007".toList).2.2.2 _ _ assembled 0 0 (.alu .add) _ _ rfl
      (.written rfl) rfl rfl
  · intro refused
    obtain ⟨r, spelled⟩ := ((registers_by_spelling "r08".toList).2.2.1 (by decide) []).mp refused
    have none : Token.register? "r08".toList = none := by decide
    cases none.symm.trans (((registers_by_spelling "r08".toList).1 r).mpr (.inl spelled))
  · exact ((registers_by_spelling "R00".toList).2.2.1 (by decide) []).mpr ⟨0, zero⟩

theorem signed_register_accepted :
    Token.register? "r+1".toList = some 1 ∧ (∀ r, ¬ SpellsRegister [] "r+1".toList r) ∧
      assemble "add r+1, r2, r3" = .ok [0x0283] ∧ assemble "add r1, r2, r3" = .ok [0x0283] :=
  ⟨by decide, fun _ spelled => Token.not_mem_of_spelled spelled (by decide), rfl, rfl⟩

end Backstep.Asm
