namespace Backstep.Text

/-- Closed ranges of the code points with the White_Space property. -/
def blankRanges : List (Nat × Nat) :=
  [(0x09, 0x0D), (0x20, 0x20), (0x85, 0x85), (0xA0, 0xA0), (0x1680, 0x1680), (0x2000, 0x200A),
   (0x2028, 0x2029), (0x202F, 0x202F), (0x205F, 0x205F), (0x3000, 0x3000)]

def isBlank (c : Char) : Bool :=
  blankRanges.any fun (first, last) => first ≤ c.toNat && c.toNat ≤ last

def trimStart (cs : List Char) : List Char := cs.dropWhile isBlank

def trimEnd (cs : List Char) : List Char := (cs.reverse.dropWhile isBlank).reverse

def trim (cs : List Char) : List Char := trimEnd (trimStart cs)

def byteCount (cs : List Char) : Nat := cs.foldr (fun c n => c.utf8Size + n) 0

/-- The pieces between the characters that satisfy `p`: one more than there are such characters. -/
def cut (p : Char → Bool) (cs : List Char) : List (List Char) :=
  cs.foldr (fun c pieces =>
    if p c then [] :: pieces
    else match pieces with
      | [] => [[c]]
      | piece :: rest => (c :: piece) :: rest) [[]]

def fields (p : Char → Bool) (cs : List Char) : List (List Char) :=
  (cut p cs).filter (!·.isEmpty)

def words (cs : List Char) : List (List Char) := fields isBlank cs

def cutFirst? (p : Char → Bool) (cs : List Char) : Option (List Char × List Char) :=
  match cs.dropWhile (!p ·) with
  | [] => none
  | _ :: after => some (cs.takeWhile (!p ·), after)

def dropReturn (line : List Char) : List Char :=
  if line.getLast? = some '\r' then line.dropLast else line

/-- A newline closes a line. Text after the last one is a line too, and is kept as it stands. -/
def lines (cs : List Char) : List (List Char) :=
  let pieces := cut (· == '\n') cs
  pieces.dropLast.map dropReturn ++ pieces.getLast?.toList.filter (!·.isEmpty)

def decodeLine (closed : Bool) (bytes : List UInt8) : Option String :=
  match String.fromUTF8? ⟨bytes.toArray⟩ with
  | none => none
  | some text => some (if closed then String.ofList (dropReturn text.toList) else text)

def inputLines (line : List UInt8) (lines : List (Option String)) :
    List UInt8 → List (Option String)
  | [] => (if line.isEmpty then lines else decodeLine false line.reverse :: lines).reverse
  | byte :: rest =>
    if byte == 10 then inputLines [] (decodeLine true line.reverse :: lines) rest
    else inputLines (byte :: line) lines rest

def digit? (base : Nat) (c : Char) : Option Nat :=
  let value? :=
    if '0' ≤ c ∧ c ≤ '9' then some (c.toNat - '0'.toNat)
    else if 'a' ≤ c ∧ c ≤ 'f' then some (c.toNat - 'a'.toNat + 10)
    else if 'A' ≤ c ∧ c ≤ 'F' then some (c.toNat - 'A'.toNat + 10)
    else none
  value?.filter (· < base)

def digits? (base : Nat) : List Char → Option Nat
  | [] => none
  | cs => cs.foldlM (fun n c => (digit? base c).map (base * n + ·)) 0

/-- Digits with an optional plus sign, for a number up to `bound`. -/
def natural? (base bound : Nat) : List Char → Option Nat
  | '+' :: cs => (digits? base cs).filter (· ≤ bound)
  | cs => (digits? base cs).filter (· ≤ bound)

def afterHexMark? : List Char → Option (List Char)
  | '0' :: 'x' :: cs => some cs
  | '0' :: 'X' :: cs => some cs
  | _ => none

def padLeft (width : Nat) (c : Char) (text : String) : String :=
  String.ofList (text.toList.leftpad width c)

def addressHex (n : Nat) : String :=
  "0x" ++ padLeft 4 '0' (String.ofList (Nat.toDigits 16 n))

def upperDigit (n : Nat) : Char :=
  if n < 10 then Char.ofNat (48 + n) else Char.ofNat (55 + n)

def wordHex (w : UInt16) : String :=
  let n := w.toNat
  String.ofList [upperDigit (n / 4096), upperDigit (n / 256 % 16), upperDigit (n / 16 % 16),
    upperDigit (n % 16)]

end Backstep.Text
