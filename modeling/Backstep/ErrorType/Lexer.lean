import Backstep.ErrorType.Token
import Backstep.Text.Input

/-!
From the text of Rust code to its tokens. Comments are blanks, except that a documentation comment
is the attribute that it stands for. The text is taken to be well formed.
-/

namespace Backstep.ErrorType

open Text

def documentation (text : List Char) : List Token :=
  [.punct '#', .opening .bracket, .ident "doc", .punct '=', .literal (.text text),
   .closing .bracket]

def afterBlockComment : Nat → List Char → List Char
  | _, [] => []
  | 0, cs => cs
  | depth + 1, '*' :: '/' :: rest => afterBlockComment depth rest
  | depth + 1, '/' :: '*' :: rest => afterBlockComment (depth + 2) rest
  | depth + 1, _ :: rest => afterBlockComment (depth + 1) rest

def consumed (cs rest : List Char) : List Char := cs.take (cs.length - rest.length)

def lineComment (cs : List Char) : List Token × List Char :=
  let rest := cs.dropWhile (· != '\n')
  match cs with
  | '/' :: '/' :: _ => ([], rest)
  | '/' :: text => (documentation (dropReturn (text.takeWhile (· != '\n'))), rest)
  | _ => ([], rest)

/-- A comment in stars, after the first one. A second one makes it documentation, unless a third one
or the end of the comment follows. -/
def blockComment (cs : List Char) : List Token × List Char :=
  let rest := afterBlockComment 1 cs
  match cs with
  | '*' :: '*' :: _ => ([], rest)
  | '*' :: '/' :: _ => ([], rest)
  | '*' :: text => (documentation (consumed text rest).dropLast.dropLast, rest)
  | _ => ([], rest)

def identifier (cs : List Char) : List Token × List Char :=
  ([.ident (String.ofList (cs.takeWhile isIdentRest))], cs.dropWhile isIdentRest)

def number (cs : List Char) : List Token × List Char :=
  ([.literal (.number (consumed cs (afterNumber cs)))], afterNumber cs)

def textLiteral : List Char × List Char → List Token × List Char
  | (value, rest) => ([.literal (.text value)], afterSuffix rest)

def writtenLiteral (cs rest : List Char) : List Token × List Char :=
  ([.literal (.other (consumed cs (afterSuffix rest)))], afterSuffix rest)

def writtenRaw (letters : Nat) (cs : List Char) : List Token × List Char :=
  match rawLiteral? (cs.drop letters) with
  | some (_, rest) => writtenLiteral cs rest
  | none => identifier cs

def delimiter? : Char → Option Token
  | '(' => some (.opening .paren)
  | ')' => some (.closing .paren)
  | '[' => some (.opening .bracket)
  | ']' => some (.closing .bracket)
  | '\x7b' => some (.opening .brace)
  | '\x7d' => some (.closing .brace)
  | _ => none

def lexeme : List Char → List Token × List Char
  | [] => ([], [])
  | '/' :: '/' :: rest => lineComment rest
  | '/' :: '*' :: rest => blockComment rest
  | '"' :: rest => textLiteral (quoted rest.length [] rest)
  | 'r' :: '"' :: rest => textLiteral (rawQuoted 0 [] rest)
  | 'r' :: '#' :: rest =>
    match rawLiteral? ('#' :: rest) with
    | some found => textLiteral found
    | none =>
      ([.ident (String.ofList ('r' :: '#' :: rest.takeWhile isIdentRest))], rest.dropWhile isIdentRest)
  | 'b' :: '"' :: rest => writtenLiteral ('b' :: '"' :: rest) (afterQuote '"' rest)
  | 'b' :: '\'' :: rest => writtenLiteral ('b' :: '\'' :: rest) (afterQuote '\'' rest)
  | 'c' :: '"' :: rest => writtenLiteral ('c' :: '"' :: rest) (afterQuote '"' rest)
  | 'b' :: 'r' :: '"' :: rest => writtenRaw 2 ('b' :: 'r' :: '"' :: rest)
  | 'b' :: 'r' :: '#' :: rest => writtenRaw 2 ('b' :: 'r' :: '#' :: rest)
  | 'c' :: 'r' :: '"' :: rest => writtenRaw 2 ('c' :: 'r' :: '"' :: rest)
  | 'c' :: 'r' :: '#' :: rest => writtenRaw 2 ('c' :: 'r' :: '#' :: rest)
  | '\'' :: '\\' :: rest => writtenLiteral ('\'' :: '\\' :: rest) (afterQuote '\'' ('\\' :: rest))
  | '\'' :: c :: '\'' :: rest => writtenLiteral ('\'' :: c :: '\'' :: rest) rest
  | c :: rest =>
    if isCodeBlank c then ([], rest)
    else if c.isDigit then number (c :: rest)
    else if isIdentStart c then identifier (c :: rest)
    else match delimiter? c with
      | some token => ([token], rest)
      | none => ([.punct c], rest)

/-- Each lexeme is at least one character, so the length of the text is fuel enough. -/
def lexWith : Nat → List Char → List Token
  | 0, _ => []
  | _, [] => []
  | fuel + 1, cs =>
    let (tokens, rest) := lexeme cs
    tokens ++ lexWith fuel rest

def lex : List Char → List Token
  | '\ufeff' :: cs => lexWith cs.length cs
  | cs => lexWith cs.length cs

def code (text : String) : List Token := lex text.toList

end Backstep.ErrorType
