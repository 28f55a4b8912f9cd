import Backstep.Proofs.Asm.Meaning

namespace Backstep.Asm

open Isa Text

namespace Token

def Number (token : Token) (value : Int) : Prop :=
  token.Numeral value ∧ value.natAbs ≤ magnitudeMax

/-- What can refer to a label: a name that does not read as a register. -/
def Symbol (token : Token) : Prop := token.isLabelName = true ∧ ∀ r, ¬ token.Register r

end Token

variable (rows : List (List Char)) (index : Nat)

inductive Value (kind : OperandKind) (token : Token) : Int → Prop
  | number {value : Int} : token.Number value → Value kind token value
  | relative {a : Nat} : kind = .pcRel → token.Symbol → LabelAt rows token a →
      Value kind token (a - index - 1)
  | absolute {a : Nat} : kind ≠ .pcRel → token.Symbol → LabelAt rows token a → Value kind token a

inductive Admits : OperandKind → Token → Prop
  | register {token : Token} {r : Nat} : token.Register r → Admits .reg token
  | value {kind : OperandKind} {token : Token} {value : Int} : kind ≠ .reg →
      Value rows index kind token value → immMin ≤ value → value ≤ immMax → Admits kind token

inductive Rejects : OperandKind → Token → Cause → Prop
  | register {token : Token} : (∀ r, ¬ token.Register r) →
      Rejects .reg token (.expectedRegister (String.ofList token))
  | notNumber {kind : OperandKind} {token : Token} : kind ≠ .reg → (∀ value, ¬ token.Number value) →
      ¬ token.Symbol → Rejects kind token (.notANumber (String.ofList token))
  | undefined {kind : OperandKind} {token : Token} : kind ≠ .reg → token.Symbol →
      (∀ a, ¬ LabelAt rows token a) → Rejects kind token (.undefinedLabel (String.ofList token))
  | tooLarge {kind : OperandKind} {token : Token} {value : Int} : kind ≠ .reg →
      Value rows index kind token value → ¬ (immMin ≤ value ∧ value ≤ immMax) →
      Rejects kind token (.offsetTooLarge value)

inductive RejectsFirst : List OperandKind → List Token → Cause → Prop
  | here {kind : OperandKind} {kinds : List OperandKind} {token : Token} {tokens : List Token}
      {cause : Cause} : Rejects rows index kind token cause →
      RejectsFirst (kind :: kinds) (token :: tokens) cause
  | later {kind : OperandKind} {kinds : List OperandKind} {token : Token} {tokens : List Token}
      {cause : Cause} : Admits rows index kind token → RejectsFirst kinds tokens cause →
      RejectsFirst (kind :: kinds) (token :: tokens) cause

inductive Accepts : Operation → Prop
  | number {token : Token} {value : Int} : token.Numeral value → wordMin ≤ value →
      value ≤ wordMax → Accepts ⟨Operation.wordDirective, [token]⟩
  | label {token : Token} {a : Nat} : token.Symbol → LabelAt rows token a →
      Accepts ⟨Operation.wordDirective, [token]⟩
  | pseudoOp {mnemonic : String} : mnemonic = "noop" ∨ mnemonic = "halt" → Accepts ⟨mnemonic, []⟩
  | instruction {op : Operation} {opcode : Opcode} {tokens : List Token} :
      opcode.mnemonic = op.mnemonic → Spread opcode.operandKinds op.operands tokens →
      List.Forall₂ (Admits rows index) opcode.operandKinds tokens → Accepts op

inductive Refuses : Operation → Cause → Prop
  | wordArity {operands : List Token} : operands.length ≠ 1 →
      Refuses ⟨Operation.wordDirective, operands⟩
        (.arityMismatch Operation.wordDirective 1 operands.length)
  | notNumber {token : Token} :
      (∀ value, token.Numeral value → ¬ (wordMin ≤ value ∧ value ≤ wordMax)) → ¬ token.Symbol →
      Refuses ⟨Operation.wordDirective, [token]⟩ (.notANumber (String.ofList token))
  | undefined {token : Token} : token.Symbol → (∀ a, ¬ LabelAt rows token a) →
      Refuses ⟨Operation.wordDirective, [token]⟩ (.undefinedLabel (String.ofList token))
  | unknown {op : Operation} : op.mnemonic ≠ Operation.wordDirective → op ≠ ⟨"noop", []⟩ →
      (∀ opcode : Opcode, opcode.mnemonic ≠ op.mnemonic) →
      Refuses op (.unrecognizedInstruction op.mnemonic)
  | arity {op : Operation} {opcode : Opcode} : opcode.mnemonic = op.mnemonic →
      (∀ tokens, ¬ Spread opcode.operandKinds op.operands tokens) →
      Refuses op (.arityMismatch op.mnemonic opcode.operandKinds.length op.operands.length)
  | operand {op : Operation} {opcode : Opcode} {tokens : List Token} {cause : Cause} :
      opcode.mnemonic = op.mnemonic → Spread opcode.operandKinds op.operands tokens →
      RejectsFirst rows index opcode.operandKinds tokens cause → Refuses op cause

variable {token : Token} {kind : OperandKind} {kinds : List OperandKind} {tokens : List Token}
  {value : Int}

theorem Token.symbol_iff :
    token.Symbol ↔ (token.isLabelName && token.register?.isNone) = true := by
  rw [Symbol, Bool.and_eq_true, Option.isNone_iff_eq_none, register?_eq_none]

theorem Token.Symbol.not_number (h : token.Symbol) (value : Int) : ¬ token.Number value := by
  rintro ⟨numeral, -⟩
  simpa [numeral.isLabelName] using h.1

theorem Token.number?_eq_none : token.number? = none ↔ ∀ value, ¬ token.Number value := by
  simp only [Option.eq_none_iff_forall_not_mem, Option.mem_def, number?_eq_some, Number]

theorem admits_or_rejects (kind : OperandKind) (token : Token) :
    Admits rows index kind token ∨ ∃ cause, Rejects rows index kind token cause := by
  by_cases register : kind = .reg
  · subst register
    by_cases name : ∃ r, token.Register r
    · obtain ⟨r, name⟩ := name
      exact .inl (.register name)
    · exact .inr ⟨_, .register (not_exists.mp name)⟩
  by_cases stands : ∃ value, Value rows index kind token value
  · obtain ⟨value, stands⟩ := stands
    by_cases fits : immMin ≤ value ∧ value ≤ immMax
    · exact .inl (.value register stands fits.1 fits.2)
    · exact .inr ⟨_, .tooLarge register stands fits⟩
  have none (value : Int) (number : token.Number value) : False := stands ⟨_, .number number⟩
  by_cases symbol : token.Symbol
  · refine .inr ⟨_, .undefined register symbol fun a there => stands ?_⟩
    by_cases relative : kind = .pcRel
    · exact ⟨_, .relative relative symbol there⟩
    · exact ⟨_, .absolute relative symbol there⟩
  · exact .inr ⟨_, .notNumber register none symbol⟩

theorem admits_or_rejectsFirst (arity : tokens.length = kinds.length) :
    List.Forall₂ (Admits rows index) kinds tokens ∨
      ∃ cause, RejectsFirst rows index kinds tokens cause := by
  induction kinds generalizing tokens with
  | nil =>
    obtain rfl := List.length_eq_zero_iff.mp arity
    exact .inl .nil
  | cons kind kinds ih =>
    cases tokens with
    | nil => cases arity
    | cons token tokens =>
      obtain admitted | ⟨cause, rejected⟩ := admits_or_rejects rows index kind token
      · obtain rest | ⟨cause, rejected⟩ := ih (Nat.succ.inj arity)
        · exact .inl (.cons admitted rest)
        · exact .inr ⟨cause, .later admitted rejected⟩
      · exact .inr ⟨cause, .here rejected⟩

theorem accepts_or_refuses (op : Operation) :
    Accepts rows index op ∨ ∃ cause, Refuses rows index op cause := by
  obtain ⟨mnemonic, operands⟩ := op
  by_cases directive : mnemonic = Operation.wordDirective
  · subst directive
    match operands with
    | [] | _ :: _ :: _ => exact .inr ⟨_, .wordArity (by simp)⟩
    | [token] =>
      by_cases fits : ∃ value, token.Numeral value ∧ wordMin ≤ value ∧ value ≤ wordMax
      · obtain ⟨value, numeral, low, high⟩ := fits
        exact .inl (.number numeral low high)
      by_cases symbol : token.Symbol
      · by_cases there : ∃ a, LabelAt rows token a
        · obtain ⟨a, there⟩ := there
          exact .inl (.label symbol there)
        · exact .inr ⟨_, .undefined symbol (not_exists.mp there)⟩
      · refine .inr ⟨_, .notNumber (fun value numeral within => ?_) symbol⟩
        exact fits ⟨value, numeral, within⟩
  by_cases noop : (⟨mnemonic, operands⟩ : Operation) = ⟨"noop", []⟩
  · cases noop
    exact .inl (.pseudoOp (.inl rfl))
  cases found : Opcode.ofMnemonic? mnemonic with
  | none => exact .inr ⟨_, .unknown directive noop (Opcode.ofMnemonic?_eq_none.mp found)⟩
  | some opcode =>
    have named := Opcode.ofMnemonic?_eq_some.mp found
    by_cases spread : ∃ tokens, Spread opcode.operandKinds operands tokens
    · obtain ⟨tokens, spread⟩ := spread
      obtain admitted | ⟨cause, rejected⟩ := admits_or_rejectsFirst rows index spread.length_eq
      · exact .inl (.instruction named spread admitted)
      · exact .inr ⟨cause, .operand named spread rejected⟩
    · exact .inr ⟨_, .arity named (not_exists.mp spread)⟩

end Backstep.Asm
