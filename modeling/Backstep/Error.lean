import Backstep.Isa.Instruction
import Backstep.Isa.Opcode
import Backstep.Text.Input

namespace Backstep.Asm

open Isa

inductive Cause where
  | offsetTooLarge (offset : Int)
  | unrecognizedInstruction (mnemonic : String)
  | notANumber (token : String)
  | duplicateLabel (label : String)
  | undefinedLabel (label : String)
  | expectedRegister (token : String)
  | arityMismatch (mnemonic : String) (expected actual : Nat)
  deriving DecidableEq

namespace Cause

def message : Cause → String
  | offsetTooLarge offset => s!"offset {offset} does not fit in the range -16..=15"
  | unrecognizedInstruction mnemonic => s!"unrecognized instruction `{mnemonic}`"
  | notANumber token => s!"`{token}` is not a number"
  | duplicateLabel label => s!"duplicate label `{label}`"
  | undefinedLabel label => s!"undefined label `{label}`"
  | expectedRegister token => s!"expected register, got `{token}`"
  | arityMismatch mnemonic expected actual =>
    s!"`{mnemonic}` takes {expected} operand(s), got {actual}"

def ofEncode : EncodeError → Cause
  | .unrecognizedInstruction mnemonic => unrecognizedInstruction mnemonic
  | .arityMismatch mnemonic expected actual => arityMismatch mnemonic expected actual
  | .expectedRegister token => expectedRegister token
  | .expectedImmediate token => notANumber token
  | .offsetTooLarge offset => offsetTooLarge offset

end Cause

structure Error where
  line : Nat
  cause : Cause
  deriving DecidableEq

def Error.ofEncode (line : Nat) (e : EncodeError) : Error := ⟨line, .ofEncode e⟩

def Error.message (e : Error) : String := s!"line {e.line}: {e.cause.message}"

end Backstep.Asm

namespace Backstep.Machine

open Isa Text

inductive Fault where
  | invalidInstruction (word : Word) (address : Nat)
  | addressOutOfBounds (address : Int)
  | programTooLarge (words capacity : Nat)
  | invalidToken (token : String) (index : Nat)
  | invalidRegister (index : Nat)
  | io (path cause : String)
  deriving DecidableEq

def Fault.message : Fault → String
  | invalidInstruction word address =>
    s!"invalid instruction {addressHex word.toNat} at address {addressHex address}"
  | addressOutOfBounds address => s!"address {address} is outside of memory"
  | programTooLarge words capacity =>
    s!"program of {words} words does not fit in {capacity} words of memory"
  | invalidToken token index => s!"invalid token '{token}' at word {index} of memory image"
  | invalidRegister index => s!"register index {index} out of bounds"
  | io path cause => s!"io error on {path}: {cause}"

end Backstep.Machine

namespace Backstep

inductive Error where
  | assembly (error : Asm.Error)
  | machine (fault : Machine.Fault)
  deriving DecidableEq

namespace Error

def message : Error → String
  | assembly error => error.message
  | machine fault => fault.message

def source : Error → String
  | assembly error => error.message
  | machine fault => fault.message

end Error

end Backstep
