import Backstep.Asm.Layout

namespace Backstep.Asm

open Isa

inductive Resolved where
  | literal (word : Word)
  | instruction (mnemonic : String) (operands : List Operand)
  deriving DecidableEq

def Resolved.encode : Resolved → Except EncodeError Word
  | literal word => .ok word
  | instruction mnemonic operands => Isa.encode mnemonic operands

def Labels.address (labels : Labels) (token : Token) : Except Cause Nat :=
  if token.isLabelName && token.register?.isNone then
    match labels.lookup token with
    | some address => .ok address
    | none => .error (.undefinedLabel (String.ofList token))
  else .error (.notANumber (String.ofList token))

def fitImmediate (value : Int) : Except Cause Int :=
  if immMin ≤ value ∧ value ≤ immMax then .ok value else .error (.offsetTooLarge value)

def wordMin : Int := -32768

def wordMax : Int := 65535

/-- The word of a number is taken modulo 2¹⁶, and so is that of an address. -/
def Labels.word (labels : Labels) (token : Token) : Except Cause Word :=
  match token.number? with
  | some value =>
    if wordMin ≤ value ∧ value ≤ wordMax then .ok (UInt16.ofNat (value % 65536).toNat)
    else .error (.notANumber (String.ofList token))
  | none => (labels.address token).map (UInt16.ofNat ·)

def Labels.value (labels : Labels) (index : Nat) (kind : OperandKind) (token : Token) :
    Except Cause Int :=
  match token.number? with
  | some value => .ok value
  | none => do
    let address : Nat ← labels.address token
    return if kind = .pcRel then (address : Int) - index - 1 else address

def Labels.operand (labels : Labels) (index : Nat) (token : Token) (kind : OperandKind) :
    Except Cause Operand :=
  match kind with
  | .reg =>
    match token.register? with
    | some r => .ok (.reg r)
    | none => .error (.expectedRegister (String.ofList token))
  | kind => do return .imm (← fitImmediate (← labels.value index kind token))

def spreadDisplacement (kinds : List OperandKind) (tokens : List Token) : List Token :=
  if kinds.getLast? = some .disp ∧ tokens.length + 1 = kinds.length then
    match tokens.getLast?.bind Token.displacement? with
    | some (disp, base) => tokens.dropLast ++ [base, disp]
    | none => tokens
  else tokens

namespace Operation

def resolveInstruction (labels : Labels) (index : Nat) (op : Operation) : Except Cause Resolved :=
  match Opcode.ofMnemonic? op.mnemonic with
  | none => .error (.unrecognizedInstruction op.mnemonic)
  | some opcode =>
    let kinds := opcode.operandKinds
    let tokens := spreadDisplacement kinds op.operands
    if tokens.length = kinds.length then do
      return .instruction op.mnemonic
        (← (tokens.zip kinds).mapM fun (token, kind) => labels.operand index token kind)
    else .error (.arityMismatch op.mnemonic kinds.length tokens.length)

def resolve (labels : Labels) (index : Nat) (op : Operation) : Except Cause Resolved :=
  if op.mnemonic == wordDirective then
    match op.operands with
    | [token] => (labels.word token).map .literal
    | operands => .error (.arityMismatch wordDirective 1 operands.length)
  else
    match op.operands, pseudoOp? op.mnemonic with
    | [], some word => .ok (.literal word)
    | _, _ => op.resolveInstruction labels index

end Operation

def onLine {α : Type} (line : Nat) : Except Cause α → Except Error α
  | .ok a => .ok a
  | .error cause => .error ⟨line, cause⟩

def Statement.resolve (labels : Labels) (index : Nat) (s : Statement) : Except Error Resolved :=
  onLine s.line (s.toOperation.resolve labels index)

end Backstep.Asm
