import Backstep.Isa.Opcode

/-!
Instructions, their words and their text. The opcode is in the top four bits of a word, `ra` in the
next three, `rb` in the three after them, and `rc` or a five-bit two's complement number at the
bottom. Bits that a format does not use are written as zero and ignored when read.
-/

namespace Backstep.Isa

/-- Register numbers and immediates are those of the text and may be too large for a word. -/
inductive Instruction where
  | alu (op : AluOp) (ra rb rc : Nat)
  | addi (ra rb : Nat) (imm : Int)
  | lw (ra rb : Nat) (disp : Int)
  | sw (ra rb : Nat) (disp : Int)
  | branch (cond : Condition) (ra rb : Nat) (offset : Int)
  | jalr (ra rb : Nat)
  | lea (ra : Nat) (offset : Int)
  | halt
  deriving DecidableEq

def immMin : Int := -16

def immMax : Int := 15

namespace Instruction

def opcode : Instruction → Opcode
  | alu op _ _ _ => .alu op
  | addi _ _ _ => .addi
  | lw _ _ _ => .lw
  | sw _ _ _ => .sw
  | branch cond _ _ _ => .branch cond
  | jalr _ _ => .jalr
  | lea _ _ => .lea
  | halt => .halt

def operandTexts : Instruction → List String
  | alu _ ra rb rc => [s!"r{ra}", s!"r{rb}", s!"r{rc}"]
  | addi ra rb imm => [s!"r{ra}", s!"r{rb}", toString imm]
  | lw ra rb disp => [s!"r{ra}", s!"r{rb}", toString disp]
  | sw ra rb disp => [s!"r{ra}", s!"r{rb}", toString disp]
  | branch _ ra rb offset => [s!"r{ra}", s!"r{rb}", toString offset]
  | jalr ra rb => [s!"r{ra}", s!"r{rb}"]
  | lea ra offset => [s!"r{ra}", toString offset]
  | halt => []

def text (i : Instruction) : String :=
  match i.operandTexts with
  | [] => i.opcode.mnemonic
  | operands => i.opcode.mnemonic ++ " " ++ ", ".intercalate operands

def immField (imm : Int) : Nat := (imm % 32).toNat

def pack (code ra rb low : Nat) : Word :=
  UInt16.ofNat (code * 4096 + ra % 8 * 512 + rb % 8 * 64 + low)

def encode (i : Instruction) : Word :=
  let code := i.opcode.code
  match i with
  | alu _ ra rb rc => pack code ra rb (rc % 8)
  | addi ra rb imm => pack code ra rb (immField imm)
  | lw ra rb disp => pack code ra rb (immField disp)
  | sw ra rb disp => pack code ra rb (immField disp)
  | branch _ ra rb offset => pack code ra rb (immField offset)
  | jalr ra rb => pack code ra rb 0
  | lea ra offset => pack code ra 0 (immField offset)
  | halt => pack code 0 0 0

def decode? (word : Word) : Option Instruction :=
  let n := word.toNat
  let ra := n / 512 % 8
  let rb := n / 64 % 8
  let imm := Int.bmod n 32
  (Opcode.ofCode? (n / 4096)).map fun
    | .alu op => alu op ra rb (n % 8)
    | .addi => addi ra rb imm
    | .lw => lw ra rb imm
    | .sw => sw ra rb imm
    | .branch cond => branch cond ra rb imm
    | .jalr => jalr ra rb
    | .lea => lea ra imm
    | .halt => halt

end Instruction

inductive Operand where
  | reg (index : Nat)
  | imm (value : Int)
  deriving DecidableEq

inductive EncodeError where
  | unrecognizedInstruction (mnemonic : String)
  | arityMismatch (mnemonic : String) (expected actual : Nat)
  | expectedRegister (token : String)
  | expectedImmediate (token : String)
  | offsetTooLarge (offset : Int)
  deriving DecidableEq

def EncodeError.message : EncodeError → String
  | unrecognizedInstruction mnemonic => s!"unrecognized instruction `{mnemonic}`"
  | arityMismatch mnemonic expected actual =>
    s!"`{mnemonic}` takes {expected} operand(s), got {actual}"
  | expectedRegister token => s!"expected register, got `{token}`"
  | expectedImmediate token => s!"expected immediate, got `{token}`"
  | offsetTooLarge offset => s!"offset {offset} does not fit in the range -16..=15"

namespace Operand

def text : Operand → String
  | reg index => s!"r{index}"
  | imm value => toString value

def register : Operand → Except EncodeError Nat
  | reg index =>
    if index < registerCount then .ok index else .error (.expectedRegister (reg index).text)
  | imm value => .error (.expectedRegister (imm value).text)

def immediate : Operand → Except EncodeError Int
  | imm value => if immMin ≤ value ∧ value ≤ immMax then .ok value else .error (.offsetTooLarge value)
  | reg index => .error (.expectedImmediate (reg index).text)

end Operand

def Instruction.ofOperands : Opcode → List Operand → Except EncodeError Instruction
  | .alu op, [a, b, c] => return .alu op (← a.register) (← b.register) (← c.register)
  | .addi, [a, b, i] => return .addi (← a.register) (← b.register) (← i.immediate)
  | .lw, [a, b, d] => return .lw (← a.register) (← b.register) (← d.immediate)
  | .sw, [a, b, d] => return .sw (← a.register) (← b.register) (← d.immediate)
  | .branch cond, [a, b, o] => return .branch cond (← a.register) (← b.register) (← o.immediate)
  | .jalr, [a, b] => return .jalr (← a.register) (← b.register)
  | .lea, [a, o] => return .lea (← a.register) (← o.immediate)
  | .halt, [] => return .halt
  | op, operands =>
    .error (.arityMismatch op.mnemonic op.operandKinds.length operands.length)

def encode (mnemonic : String) (operands : List Operand) : Except EncodeError Word :=
  match operands, pseudoOp? mnemonic with
  | [], some word => .ok word
  | _, _ =>
    match Opcode.ofMnemonic? mnemonic with
    | none => .error (.unrecognizedInstruction mnemonic)
    | some op => (Instruction.ofOperands op operands).map (·.encode)

end Backstep.Isa
