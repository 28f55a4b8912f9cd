import Backstep.Text.Hidden
import Backstep.Text.Input

namespace Backstep.ErrorType

open Text

inductive Delimiter where | paren | brace | bracket
  deriving DecidableEq

/-- Only the value of a string literal counts; any other literal is kept as it was written. -/
inductive Literal where
  | text (value : List Char)
  | number (written : List Char)
  | other (written : List Char)
  deriving DecidableEq

inductive Token where
  | ident (name : String)
  | punct (c : Char)
  | literal (literal : Literal)
  | opening (d : Delimiter)
  | closing (d : Delimiter)
  deriving DecidableEq

def Delimiter.openingChar : Delimiter → Char
  | paren => '('
  | brace => '\x7b'
  | bracket => '['

def Delimiter.closingChar : Delimiter → Char
  | paren => ')'
  | brace => '\x7d'
  | bracket => ']'

def isOctalDigit (c : Char) : Bool := '0' ≤ c && c ≤ '7'

def escapeChar (c : Char) (rest : List Char) : List Char :=
  if c = '"' then ['\\', '"']
  else if c = '\\' then ['\\', '\\']
  else if c = '\n' then ['\\', 'n']
  else if c = '\t' then ['\\', 't']
  else if c = '\r' then ['\\', 'r']
  else if c.toNat = 0 then
    if rest.head?.any isOctalDigit then ['\\', 'x', '0', '0'] else ['\\', '0']
  else if Text.isHidden c then ['\\', 'u', '\x7b'] ++ Nat.toDigits 16 c.toNat ++ ['\x7d']
  else [c]

def escape : List Char → List Char
  | [] => []
  | c :: rest => escapeChar c rest ++ escape rest

def Literal.chars : Literal → List Char
  | text value => ['"'] ++ escape value ++ ['"']
  | number written => written
  | other written => written

def Token.chars : Token → List Char
  | ident name => name.toList
  | punct c => [c]
  | literal l => l.chars
  | opening d => [d.openingChar]
  | closing d => [d.closingChar]

def Token.render (tokens : List Token) : String :=
  " ".intercalate (tokens.map fun t => String.ofList t.chars)

/-- The blank characters, and the two marks that turn the direction of writing. -/
def isCodeBlank (c : Char) : Bool := isBlank c || c == '\u200e' || c == '\u200f'

def isIdentStart (c : Char) : Bool :=
  c.isAlpha || c == '_' || (127 < c.toNat && !isCodeBlank c)

def isIdentRest (c : Char) : Bool := isIdentStart c || c.isDigit

def afterSuffix : List Char → List Char
  | [] => []
  | c :: rest => if isIdentStart c then rest.dropWhile isIdentRest else c :: rest

def unicodeEscape (cs : List Char) : List Char × List Char :=
  let digits := (cs.takeWhile (· != '\x7d')).filter (fun c => c != '_' && c != '\x7b')
  ([Char.ofNat ((digits? 16 digits).getD 0)], (cs.dropWhile (· != '\x7d')).drop 1)

def isContinuation (c : Char) : Bool := c == ' ' || c == '\t' || c == '\n' || c == '\r'

def unescape : List Char → List Char × List Char
  | 'n' :: rest => (['\n'], rest)
  | 't' :: rest => (['\t'], rest)
  | 'r' :: rest => (['\r'], rest)
  | '0' :: rest => ([Char.ofNat 0], rest)
  | 'x' :: a :: b :: rest => ([Char.ofNat ((digits? 16 [a, b]).getD 0)], rest)
  | 'u' :: rest => unicodeEscape rest
  | '\n' :: rest => ([], rest.dropWhile isContinuation)
  | '\r' :: '\n' :: rest => ([], rest.dropWhile isContinuation)
  | c :: rest => ([c], rest)
  | [] => ([], [])

def quoted : Nat → List Char → List Char → List Char × List Char
  | 0, value, rest => (value.reverse, rest)
  | _, value, [] => (value.reverse, [])
  | _, value, '"' :: rest => (value.reverse, rest)
  | fuel + 1, value, '\\' :: rest =>
    let (chars, rest) := unescape rest
    quoted fuel (chars.reverse ++ value) rest
  | fuel + 1, value, '\r' :: '\n' :: rest => quoted fuel ('\n' :: value) rest
  | fuel + 1, value, c :: rest => quoted fuel (c :: value) rest

def rawQuoted (hashes : Nat) : List Char → List Char → List Char × List Char
  | value, [] => (value.reverse, [])
  | value, c :: rest =>
    if c == '"' && (List.replicate hashes '#').isPrefixOf rest then
      (value.reverse, rest.drop hashes)
    else rawQuoted hashes (c :: value) rest

def rawLiteral? (cs : List Char) : Option (List Char × List Char) :=
  let hashes := (cs.takeWhile (· == '#')).length
  match cs.drop hashes with
  | '"' :: rest => some (rawQuoted hashes [] rest)
  | _ => none

def afterQuote (quote : Char) : List Char → List Char
  | [] => []
  | '\\' :: _ :: rest => afterQuote quote rest
  | c :: rest => if c == quote then rest else afterQuote quote rest

def isDecimalRest (c : Char) : Bool := c.isDigit || c == '_'

def afterExponent? (cs : List Char) : Option (List Char) :=
  let signed := cs.dropWhile (· == '_')
  let digits := match signed with
    | '+' :: rest => rest
    | '-' :: rest => rest
    | rest => rest
  if (digits.takeWhile isDecimalRest).any Char.isDigit then some (digits.dropWhile isDecimalRest)
  else none

/-- What follows a number with a point or an exponent. A point before another point or a name is not
one of the number, and letters that are not a whole exponent are a suffix. -/
def afterFraction? (cs : List Char) : Option (List Char) :=
  match cs.dropWhile isDecimalRest with
  | '.' :: rest =>
    if rest.head?.any fun c => c == '.' || isIdentStart c then none
    else
      let after := rest.dropWhile isDecimalRest
      match after with
      | 'e' :: exponent => some ((afterExponent? exponent).getD after)
      | 'E' :: exponent => some ((afterExponent? exponent).getD after)
      | _ => some after
  | 'e' :: exponent => afterExponent? exponent
  | 'E' :: exponent => afterExponent? exponent
  | _ => none

def afterNumber (cs : List Char) : List Char :=
  match afterFraction? cs with
  | some rest => afterSuffix rest
  | none => cs.dropWhile isIdentRest

end Backstep.ErrorType
