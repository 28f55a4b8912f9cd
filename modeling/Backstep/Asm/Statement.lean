import Backstep.Text.Input
import Backstep.Isa.Opcode
import Backstep.Error

namespace Backstep.Asm

open Text

abbrev Token := List Char

namespace Token

def isNameStart (c : Char) : Bool := c.isAlpha || c == '_' || c == '.'

def isNameRest (c : Char) : Bool := c.isAlphanum || c == '_' || c == '.'

def isLabelName : Token → Bool
  | [] => false
  | c :: cs => isNameStart c && cs.all isNameRest

def dropDollar : Token → Token
  | '$' :: cs => cs
  | cs => cs

def register? (token : Token) : Option Nat :=
  match dropDollar token with
  | 'r' :: cs => natural? 10 (Isa.registerCount - 1) cs
  | 'R' :: cs => natural? 10 (Isa.registerCount - 1) cs
  | _ => none

def magnitudeMax : Nat := 0x7FFFFFFF

def magnitude? (cs : List Char) : Option Nat :=
  let value? := match afterHexMark? cs with
    | some hex => digits? 16 hex
    | none => digits? 10 cs
  value?.filter (· ≤ magnitudeMax)

def number? : Token → Option Int
  | '-' :: cs => (magnitude? cs).map fun n : Nat => -(n : Int)
  | '+' :: cs => (magnitude? cs).map fun n : Nat => (n : Int)
  | cs => (magnitude? cs).map fun n : Nat => (n : Int)

/-- The displacement and the base of `disp(base)`. No displacement means zero. -/
def displacement? (token : Token) : Option (Token × Token) :=
  match cutFirst? (· == '(') token with
  | none => none
  | some (disp, rest) =>
    if rest.getLast? = some ')' then
      let disp := trim disp
      some (if disp.isEmpty then ['0'] else disp, trim rest.dropLast)
    else none

end Token

structure SourceLine where
  line : Nat
  code : List Char
  deriving DecidableEq

def stripComment (line : List Char) : List Char := line.takeWhile (· != '#')

def codeLines (source : List Char) : List SourceLine :=
  (lines source).zipIdx.filterMap fun (raw, i) =>
    let code := trim (stripComment raw)
    if code.isEmpty then none else some ⟨i + 1, code⟩

structure Operation where
  mnemonic : String
  operands : List Token
  deriving DecidableEq

structure Statement extends Operation where
  line : Nat
  deriving DecidableEq

def splitLabel? (code : List Char) : Option (Token × List Char) :=
  match cutFirst? (· == ':') code with
  | some (name, rest) => if Token.isLabelName name then some (name, trim rest) else none
  | none => none

def leadingLabel (code : List Char) : Except Cause (Option Token × List Char) :=
  match splitLabel? code with
  | none => .ok (none, code)
  | some (name, rest) =>
    match splitLabel? rest with
    | none => .ok (some name, rest)
    | some (second, _) => .error (.duplicateLabel (String.ofList second))

namespace Operation

def ofCode? (code : List Char) : Option Operation :=
  if code.isEmpty then none
  else some {
    mnemonic := String.ofList ((code.takeWhile (!isBlank ·)).map Char.toLower)
    operands := fields (fun c => c == ',' || isBlank c) (code.dropWhile (!isBlank ·)) }

def wordDirective : String := ".word"

def loadAddress : String := "la"

def ignoredDirectives : List String := [".org", ".orig", ".block", ".blkw"]

def isIgnored (op : Operation) : Bool := ignoredDirectives.contains op.mnemonic

/-- `la reg, symbol` branches over a word that holds the address and loads it from there. -/
def loadAddressBody (reg symbol : Token) : List Operation :=
  [⟨"beq", [['r', '0'], ['r', '0'], ['1']]⟩,
   ⟨wordDirective, [symbol]⟩,
   ⟨"lea", [reg, ['-', '2']]⟩,
   ⟨"lw", [reg, reg, ['0']]⟩]

def expand (op : Operation) : Except Cause (List Operation) :=
  if op.mnemonic == loadAddress then
    match op.operands with
    | [reg, symbol] => .ok (loadAddressBody reg symbol)
    | operands => .error (.arityMismatch loadAddress 2 operands.length)
  else .ok [op]

end Operation

end Backstep.Asm
