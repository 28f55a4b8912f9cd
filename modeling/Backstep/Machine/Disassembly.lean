import Backstep.Machine.Processor

namespace Backstep.Machine

open Isa Text

structure Disassembly where
  address : Nat
  word : Word
  text : String
  deriving DecidableEq

def wordText (word : Word) : String :=
  match pseudoName? word with
  | some name => name
  | none =>
    match Instruction.decode? word with
    | some instruction => instruction.text
    | none => s!".word 0x{wordHex word}"

def Disassembly.line (d : Disassembly) : String :=
  let decimal := padLeft 6 ' ' (toString d.word.toNat)
  s!"{addressHex d.address}: {wordHex d.word} {decimal}  {d.text}"

/-- Addresses are 64-bit words, looked up as the signed numbers that they are in two's complement. -/
def Processor.disassemble (cpu : Processor) (address : Nat) : Except Fault Disassembly := do
  let word ← cpu.state.memory.read (Int.bmod address 0x10000000000000000)
  return ⟨address, word, wordText word⟩

end Backstep.Machine
