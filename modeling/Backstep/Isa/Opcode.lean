namespace Backstep.Isa

abbrev Word := UInt16

def registerCount : Nat := 8

inductive OperandKind where | reg | imm | pcRel | disp
  deriving DecidableEq

inductive AluOp where | add | sub | and | or | nand
  deriving DecidableEq

inductive Condition where | equal | notEqual | less
  deriving DecidableEq

inductive Opcode where
  | alu (op : AluOp)
  | addi
  | lw
  | sw
  | branch (cond : Condition)
  | jalr
  | lea
  | halt
  deriving DecidableEq

namespace Opcode

def all : List Opcode :=
  [.alu .add, .alu .sub, .alu .and, .alu .or, .alu .nand, .addi, .lw, .sw,
   .branch .equal, .branch .notEqual, .branch .less, .jalr, .lea, .halt]

def code : Opcode → Nat
  | .alu .add => 0x0
  | .alu .sub => 0x1
  | .alu .and => 0x2
  | .alu .or => 0x3
  | .alu .nand => 0x4
  | .addi => 0x5
  | .lw => 0x6
  | .sw => 0x7
  | .branch .equal => 0x8
  | .branch .notEqual => 0x9
  | .branch .less => 0xA
  | .jalr => 0xB
  | .lea => 0xC
  | .halt => 0xE

def mnemonic : Opcode → String
  | .alu .add => "add"
  | .alu .sub => "sub"
  | .alu .and => "and"
  | .alu .or => "or"
  | .alu .nand => "nand"
  | .addi => "addi"
  | .lw => "lw"
  | .sw => "sw"
  | .branch .equal => "beq"
  | .branch .notEqual => "bne"
  | .branch .less => "blt"
  | .jalr => "jalr"
  | .lea => "lea"
  | .halt => "halt"

def operandKinds : Opcode → List OperandKind
  | .alu _ => [.reg, .reg, .reg]
  | .addi => [.reg, .reg, .imm]
  | .lw => [.reg, .reg, .disp]
  | .sw => [.reg, .reg, .disp]
  | .branch _ => [.reg, .reg, .pcRel]
  | .jalr => [.reg, .reg]
  | .lea => [.reg, .pcRel]
  | .halt => []

def ofCode? : Nat → Option Opcode
  | 0x0 => some (.alu .add)
  | 0x1 => some (.alu .sub)
  | 0x2 => some (.alu .and)
  | 0x3 => some (.alu .or)
  | 0x4 => some (.alu .nand)
  | 0x5 => some .addi
  | 0x6 => some .lw
  | 0x7 => some .sw
  | 0x8 => some (.branch .equal)
  | 0x9 => some (.branch .notEqual)
  | 0xA => some (.branch .less)
  | 0xB => some .jalr
  | 0xC => some .lea
  | 0xE => some .halt
  | _ => none

@[simp] theorem ofCode?_code (op : Opcode) : ofCode? op.code = some op := by
  cases op with
  | alu f => cases f <;> rfl
  | branch cond => cases cond <;> rfl
  | _ => rfl

def ofMnemonic? (mnemonic : String) : Option Opcode := all.find? (·.mnemonic == mnemonic)

end Opcode

def pseudoOps : List (String × Word) := [("noop", 0x0000), ("halt", 0xE000)]

def pseudoOp? (mnemonic : String) : Option Word :=
  (pseudoOps.find? (·.1 == mnemonic)).map (·.2)

def pseudoName? (word : Word) : Option String :=
  (pseudoOps.find? (·.2 == word)).map (·.1)

end Backstep.Isa
