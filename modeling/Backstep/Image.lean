import Backstep.Error
import Backstep.Text.Input

namespace Backstep.Machine

open Isa

structure Memory where
  words : Array Word
  deriving DecidableEq

namespace Memory

def zero (capacity : Nat) : Memory := ⟨Array.replicate capacity 0⟩

def capacity (memory : Memory) : Nat := memory.words.size

def read (memory : Memory) (address : Int) : Except Fault Word :=
  if 0 ≤ address then
    match memory.words[address.toNat]? with
    | some word => .ok word
    | none => .error (.addressOutOfBounds address)
  else .error (.addressOutOfBounds address)

def write (memory : Memory) (address : Int) (value : Word) : Except Fault Memory :=
  if h : 0 ≤ address ∧ address.toNat < memory.words.size then
    .ok ⟨memory.words.set address.toNat value h.2⟩
  else .error (.addressOutOfBounds address)

def load (memory : Memory) (program : List Word) : Except Fault Memory :=
  if program.length ≤ memory.capacity then
    .ok ⟨(program ++ List.replicate (memory.capacity - program.length) 0).toArray⟩
  else .error (.programTooLarge program.length memory.capacity)

end Memory

end Backstep.Machine

namespace Backstep.Image

open Isa Machine Text

def render (words : List Word) : String := " ".intercalate (words.map wordHex)

def fileText (words : List Word) : String := render words ++ "\n"

def wordMax : Nat := 0xFFFF

def word? (token : List Char) : Option Word :=
  ((digits? 16 token).filter (· ≤ wordMax)).map (UInt16.ofNat ·)

def parseChars (cs : List Char) : Except Fault (List Word) :=
  (words cs).zipIdx.mapM fun (token, index) =>
    match word? token with
    | some word => .ok word
    | none => .error (.invalidToken (String.ofList token) index)

def parse (text : String) : Except Fault (List Word) := parseChars text.toList

end Backstep.Image
