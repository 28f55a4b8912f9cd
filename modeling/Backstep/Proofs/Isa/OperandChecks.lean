import Backstep.Proofs.Isa.EncodingLaws

namespace Backstep.Isa

namespace Operand

inductive Misfits : OperandKind → Operand → EncodeError → Prop
  | absent {r : Nat} : ¬ r < registerCount → Misfits .reg (.reg r) (.expectedRegister s!"r{r}")
  | number {v : Int} : Misfits .reg (.imm v) (.expectedRegister (toString v))
  | register {kind : OperandKind} {r : Nat} : kind ≠ .reg →
      Misfits kind (.reg r) (.expectedImmediate s!"r{r}")
  | outside {kind : OperandKind} {v : Int} : kind ≠ .reg → ¬ (immMin ≤ v ∧ v ≤ immMax) →
      Misfits kind (.imm v) (.offsetTooLarge v)

inductive MisfitsFirst : List OperandKind → List Operand → EncodeError → Prop
  | here {kind : OperandKind} {kinds : List OperandKind} {o : Operand} {os : List Operand}
      {e : EncodeError} : Misfits kind o e → MisfitsFirst (kind :: kinds) (o :: os) e
  | later {kind : OperandKind} {kinds : List OperandKind} {o : Operand} {os : List Operand}
      {e : EncodeError} : Suits kind o → MisfitsFirst kinds os e →
      MisfitsFirst (kind :: kinds) (o :: os) e

variable {kind : OperandKind} {kinds : List OperandKind} {o : Operand} {os : List Operand}
  {e : EncodeError}

theorem Misfits.register_eq_error (h : Misfits .reg o e) : o.register = .error e := by
  cases h with
  | absent large => exact if_neg large
  | number => rfl
  | register number => exact absurd rfl number
  | outside number => exact absurd rfl number

theorem Misfits.immediate_eq_error (h : Misfits kind o e) (number : kind ≠ .reg) :
    o.immediate = .error e := by
  cases h with
  | absent => exact absurd rfl number
  | number => exact absurd rfl number
  | register => rfl
  | outside _ large => exact if_neg large

theorem suits_or_misfits (kind : OperandKind) (o : Operand) :
    Suits kind o ∨ ∃ e, Misfits kind o e := by
  by_cases place : kind = .reg
  · subst place
    cases o with
    | imm v => exact .inr ⟨_, .number⟩
    | reg r =>
      by_cases small : r < registerCount
      · exact .inl (.register small)
      · exact .inr ⟨_, .absent small⟩
  · cases o with
    | reg r => exact .inr ⟨_, .register place⟩
    | imm v =>
      by_cases fits : immMin ≤ v ∧ v ≤ immMax
      · exact .inl (.value place fits)
      · exact .inr ⟨_, .outside place fits⟩

theorem suits_or_misfitsFirst (arity : os.length = kinds.length) :
    List.Forall₂ Suits kinds os ∨ ∃ e, MisfitsFirst kinds os e := by
  induction kinds generalizing os with
  | nil =>
    obtain rfl := List.length_eq_zero_iff.mp arity
    exact .inl .nil
  | cons kind kinds ih =>
    cases os with
    | nil => cases arity
    | cons o os =>
      obtain suits | ⟨e, misfits⟩ := suits_or_misfits kind o
      · obtain rest | ⟨e, misfits⟩ := ih (Nat.succ.inj arity)
        · exact .inl (.cons suits rest)
        · exact .inr ⟨e, .later suits misfits⟩
      · exact .inr ⟨e, .here misfits⟩

end Operand

namespace Instruction

variable {op : Opcode} {operands : List Operand} {e : EncodeError}

theorem ofOperands_of_length_ne (arity : operands.length ≠ op.operandKinds.length) :
    ofOperands op operands =
      .error (.arityMismatch op.mnemonic op.operandKinds.length operands.length) := by
  rw [ofOperands.eq_def]
  split
  case h_9 => rfl
  all_goals exact absurd rfl arity

theorem ofOperands_of_misfitsFirst (arity : operands.length = op.operandKinds.length)
    (h : Operand.MisfitsFirst op.operandKinds operands e) : ofOperands op operands = .error e := by
  cases op with
  | halt => cases h
  | jalr =>
    obtain ⟨a, b, rfl⟩ := List.length_eq_two.mp arity
    obtain first | ⟨ha, second | ⟨-, ⟨⟩⟩⟩ := h
    · simp [ofOperands, first.register_eq_error]
    · obtain ⟨ra, ha⟩ := ha.exists_register
      simp [ofOperands, ha, second.register_eq_error]
  | lea =>
    obtain ⟨a, b, rfl⟩ := List.length_eq_two.mp arity
    obtain first | ⟨ha, second | ⟨-, ⟨⟩⟩⟩ := h
    · simp [ofOperands, first.register_eq_error]
    · obtain ⟨ra, ha⟩ := ha.exists_register
      simp [ofOperands, ha, second.immediate_eq_error]
  | alu =>
    obtain ⟨a, b, c, rfl⟩ := List.length_eq_three.mp arity
    obtain first | ⟨ha, second | ⟨hb, third | ⟨-, ⟨⟩⟩⟩⟩ := h
    · simp [ofOperands, first.register_eq_error]
    · obtain ⟨ra, ha⟩ := ha.exists_register
      simp [ofOperands, ha, second.register_eq_error]
    · obtain ⟨ra, ha⟩ := ha.exists_register
      obtain ⟨rb, hb⟩ := hb.exists_register
      simp [ofOperands, ha, hb, third.register_eq_error]
  | addi | lw | sw | branch =>
    obtain ⟨a, b, c, rfl⟩ := List.length_eq_three.mp arity
    obtain first | ⟨ha, second | ⟨hb, third | ⟨-, ⟨⟩⟩⟩⟩ := h
    · simp [ofOperands, first.register_eq_error]
    · obtain ⟨ra, ha⟩ := ha.exists_register
      simp [ofOperands, ha, second.register_eq_error]
    · obtain ⟨ra, ha⟩ := ha.exists_register
      obtain ⟨rb, hb⟩ := hb.exists_register
      simp [ofOperands, ha, hb, third.immediate_eq_error]

end Instruction

variable {mnemonic : String} {operands : List Operand} {e : EncodeError}

theorem encode_mnemonic (op : Opcode) (operands : List Operand) :
    encode op.mnemonic operands = (Instruction.ofOperands op operands).map (·.encode) := by
  rw [encode.eq_def]
  split
  case h_1 word pseudo =>
    obtain ⟨noop, -⟩ | ⟨halt, rfl⟩ := pseudoOp?_eq_some.mp pseudo
    · have absent : Opcode.ofMnemonic? "noop" = none := rfl
      rw [Opcode.ofMnemonic?_eq_some.mpr noop] at absent
      cases absent
    · have found : Opcode.ofMnemonic? "halt" = some .halt := rfl
      rw [Opcode.ofMnemonic?_eq_some.mpr halt] at found
      cases found
      rfl
  case h_2 => rw [Opcode.ofMnemonic?_mnemonic]

/-- What stands in the instruction table, or is one of the two words with a name of their own. -/
inductive Tabled : String → List Operand → Prop
  | pseudoOp {mnemonic : String} : mnemonic = "noop" ∨ mnemonic = "halt" → Tabled mnemonic []
  | instruction {op : Opcode} {operands : List Operand} :
      List.Forall₂ Operand.Suits op.operandKinds operands → Tabled op.mnemonic operands

/-- Why there is no word: the mnemonic, else the number of operands, else the first that does not
fit. -/
inductive Untabled : String → List Operand → EncodeError → Prop
  | unknown {mnemonic : String} {operands : List Operand} :
      (∀ op : Opcode, op.mnemonic ≠ mnemonic) → ¬ (mnemonic = "noop" ∧ operands = []) →
      Untabled mnemonic operands (.unrecognizedInstruction mnemonic)
  | arity {op : Opcode} {operands : List Operand} : operands.length ≠ op.operandKinds.length →
      Untabled op.mnemonic operands
        (.arityMismatch op.mnemonic op.operandKinds.length operands.length)
  | operand {op : Opcode} {operands : List Operand} {e : EncodeError} :
      operands.length = op.operandKinds.length →
      Operand.MisfitsFirst op.operandKinds operands e → Untabled op.mnemonic operands e

theorem tabled_or_untabled (mnemonic : String) (operands : List Operand) :
    Tabled mnemonic operands ∨ ∃ e, Untabled mnemonic operands e := by
  cases found : Opcode.ofMnemonic? mnemonic with
  | none =>
    by_cases noop : mnemonic = "noop" ∧ operands = []
    · obtain ⟨rfl, rfl⟩ := noop
      exact .inl (.pseudoOp (.inl rfl))
    · exact .inr ⟨_, .unknown (Opcode.ofMnemonic?_eq_none.mp found) noop⟩
  | some op =>
    obtain rfl := Opcode.ofMnemonic?_eq_some.mp found
    by_cases arity : operands.length = op.operandKinds.length
    · obtain suits | ⟨e, misfits⟩ := Operand.suits_or_misfitsFirst arity
      · exact .inl (.instruction suits)
      · exact .inr ⟨e, .operand arity misfits⟩
    · exact .inr ⟨_, .arity arity⟩

theorem Tabled.exists_encode (h : Tabled mnemonic operands) :
    ∃ w, encode mnemonic operands = .ok w := by
  cases h with
  | pseudoOp named => obtain rfl | rfl := named <;> exact ⟨_, rfl⟩
  | instruction suits =>
    obtain ⟨i, made⟩ := Instruction.exists_ofOperands_eq_ok suits
    exact ⟨i.encode, by rw [encode_mnemonic, made]; rfl⟩

theorem Untabled.encode_eq_error (h : Untabled mnemonic operands e) :
    encode mnemonic operands = .error e := by
  cases h with
  | unknown absent noop =>
    rw [encode.eq_def]
    split
    case h_1 word pseudo =>
      obtain ⟨rfl, -⟩ | ⟨rfl, -⟩ := pseudoOp?_eq_some.mp pseudo
      · exact absurd ⟨rfl, rfl⟩ noop
      · exact absurd rfl (absent .halt)
    case h_2 => rw [Opcode.ofMnemonic?_eq_none.mpr absent]
  | arity wrong => rw [encode_mnemonic, Instruction.ofOperands_of_length_ne wrong]; rfl
  | operand arity misfits =>
    rw [encode_mnemonic, Instruction.ofOperands_of_misfitsFirst arity misfits]
    rfl

theorem Instruction.encode_and_unusedBits {i : Instruction} (fits : ∀ o ∈ i.operands, o.Fits) :
    i.encode &&& i.opcode.unusedBits = 0 := by
  have cleared := encode_of_decode? (decode?_encode fits)
  rw [cleared, UInt16.and_assoc, UInt16.not_and_self, UInt16.and_zero]

theorem Tabled.holds {w : Word} (h : Tabled mnemonic operands)
    (encoded : encode mnemonic operands = .ok w) : ∃ i, Instruction.decode? w = some i ∧
      w &&& i.opcode.unusedBits = 0 ∧
        (i.opcode.mnemonic = mnemonic ∧ i.operands = operands ∨
          mnemonic = "noop" ∧ operands = [] ∧ i = .alu .add 0 0 0) := by
  cases h with
  | pseudoOp named =>
    obtain rfl | rfl := named
    · cases encoded
      exact ⟨.alu .add 0 0 0, rfl, rfl, .inr ⟨rfl, rfl, rfl⟩⟩
    · cases encoded
      exact ⟨.halt, rfl, rfl, .inl ⟨rfl, rfl⟩⟩
  | instruction suits =>
    rw [encode_mnemonic] at encoded
    obtain ⟨i, made, rfl⟩ := map_eq_ok.mp encoded
    obtain ⟨rfl, rfl, fits⟩ := Instruction.ofOperands_eq_ok.mp made
    exact ⟨i, Instruction.decode?_encode fits, Instruction.encode_and_unusedBits fits,
      .inl ⟨rfl, rfl⟩⟩

/-- Encoding accepts just what stands in the instruction table. The word decodes to the instruction
with the operands as they were given, and its unused bits are zero. Everything else is refused: for
an unknown mnemonic, else for the number of operands, else for the leftmost one that does not fit. -/
theorem encode_by_table (mnemonic : String) (operands : List Operand) :
    ((∃ w, encode mnemonic operands = .ok w) ↔ Tabled mnemonic operands) ∧
    (∀ w, encode mnemonic operands = .ok w → ∃ i, Instruction.decode? w = some i ∧
      w &&& i.opcode.unusedBits = 0 ∧
        (i.opcode.mnemonic = mnemonic ∧ i.operands = operands ∨
          mnemonic = "noop" ∧ operands = [] ∧ i = .alu .add 0 0 0)) ∧
    ∀ e, encode mnemonic operands = .error e ↔ Untabled mnemonic operands e := by
  have total := tabled_or_untabled mnemonic operands
  refine ⟨?_, fun w encoded => ?_, fun e => ?_⟩
  · exact exists_eq_ok_iff_of_rules total Tabled.exists_encode fun e => Untabled.encode_eq_error
  · obtain tabled | ⟨e, untabled⟩ := total
    · exact tabled.holds encoded
    · cases encoded.symm.trans untabled.encode_eq_error
  · exact eq_error_iff_of_rules total Tabled.exists_encode fun e => Untabled.encode_eq_error

theorem encode_by_table_of_misfits :
    Untabled "addi" [.reg 1, .reg 9, .imm 16] (.expectedRegister "r9") ∧
    Untabled "addi" [.reg 9, .imm 16] (.arityMismatch "addi" 3 2) ∧
    Untabled "noop" [.reg 9] (.unrecognizedInstruction "noop") ∧
    Tabled "lw" [.reg 1, .reg 7, .imm (-16)] ∧
    ∃ w i, encode "lw" [.reg 1, .reg 7, .imm (-16)] = .ok w ∧ Instruction.decode? w = some i ∧
      w &&& i.opcode.unusedBits = 0 := by
  have made : encode "lw" [.reg 1, .reg 7, .imm (-16)] = .ok 0x63D0 := rfl
  obtain ⟨i, decoded, unused, -⟩ := (encode_by_table _ _).2.1 _ made
  exact ⟨((encode_by_table _ _).2.2 _).mp rfl, ((encode_by_table _ _).2.2 _).mp rfl,
    ((encode_by_table _ _).2.2 _).mp rfl, (encode_by_table _ _).1.mp ⟨_, made⟩, _, i, made, decoded,
    unused⟩

end Backstep.Isa
