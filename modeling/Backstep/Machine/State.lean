import Backstep.Error
import Backstep.Isa.Instruction
import Backstep.Image

namespace Backstep.Machine

open Isa

structure Registers where
  words : Vector Word registerCount
  deriving DecidableEq

namespace Registers

def zero : Registers := ⟨Vector.replicate registerCount 0⟩

def get (regs : Registers) (r : Nat) : Except Fault Word :=
  match regs.words[r]? with
  | some word => .ok word
  | none => .error (.invalidRegister r)

def set (regs : Registers) (r : Nat) (value : Word) : Except Fault Registers :=
  if h : r < registerCount then
    .ok (if r = 0 then regs else ⟨regs.words.set r value h⟩)
  else .error (.invalidRegister r)

end Registers

structure State where
  registers : Registers
  memory : Memory
  pc : Nat
  deriving DecidableEq

inductive Flow where
  | next
  | jump (target : Int)
  | halt
  deriving DecidableEq

def AluOp.apply : AluOp → Word → Word → Word
  | .add, b, c => b + c
  | .sub, b, c => b - c
  | .and, b, c => b &&& c
  | .or, b, c => b ||| c
  | .nand, b, c => ~~~(b &&& c)

def signed (word : Word) : Int := Int.bmod word.toNat 65536

def Condition.holds : Condition → Word → Word → Bool
  | .equal, a, b => a == b
  | .notEqual, a, b => a != b
  | .less, a, b => signed a < signed b

def wrap (n : Int) : Word := UInt16.ofNat (n % 65536).toNat

def decodeAt (word : Word) (address : Nat) : Except Fault Instruction :=
  match Instruction.decode? word with
  | some instruction => .ok instruction
  | none => .error (.invalidInstruction word address)

namespace State

def zero (capacity : Nat) : State := ⟨.zero, .zero capacity, 0⟩

def setRegister (s : State) (r : Nat) (value : Word) : Except Fault State := do
  return { s with registers := ← s.registers.set r value }

def nextPc (s : State) : Int := s.pc + 1

def execute (s : State) : Instruction → Except Fault (State × Flow)
  | .alu op ra rb rc => do
    let b ← s.registers.get rb
    let c ← s.registers.get rc
    return (← s.setRegister ra (AluOp.apply op b c), .next)
  | .addi ra rb imm => do
    let b ← s.registers.get rb
    return (← s.setRegister ra (b + wrap imm), .next)
  | .lw ra rb disp => do
    let base ← s.registers.get rb
    let value ← s.memory.read (base.toNat + disp)
    return (← s.setRegister ra value, .next)
  | .sw ra rb disp => do
    let base ← s.registers.get rb
    let value ← s.registers.get ra
    return ({ s with memory := ← s.memory.write (base.toNat + disp) value }, .next)
  | .branch cond ra rb offset => do
    let a ← s.registers.get ra
    let b ← s.registers.get rb
    return (s, if Condition.holds cond a b then .jump (s.nextPc + offset) else .next)
  | .jalr ra rb => do
    let target ← s.registers.get rb
    return (← s.setRegister ra (wrap s.nextPc), .jump target.toNat)
  | .lea ra offset => do
    return (← s.setRegister ra (wrap (s.nextPc + offset)), .next)
  | .halt => return (s, .halt)

def fetch (s : State) : Except Fault Instruction := do
  decodeAt (← s.memory.read s.pc) s.pc

def target (s : State) : Flow → Int
  | .jump target => target
  | _ => s.nextPc

/-- The state after the instruction at `pc`, and whether that was `halt`. The new `pc` may be one
past the end of memory. -/
def advance (s : State) : Except Fault (State × Bool) := do
  let instruction ← s.fetch
  let (after, flow) ← s.execute instruction
  let target := s.target flow
  if 0 ≤ target ∧ target ≤ s.memory.capacity then
    return ({ after with pc := target.toNat }, flow == .halt)
  else .error (.addressOutOfBounds target)

end State

end Backstep.Machine
