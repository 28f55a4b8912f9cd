import Backstep.ErrorType.Nesting

/-!
The variants of an enumeration and their discriminants. A discriminant is any expression, so a comma
ends a variant only if it is not one of the expression's own: between generic arguments or between
the parameters of a closure. Whether `<` opens generic arguments or compares shows in what stands
before it.
-/

namespace Backstep.ErrorType

inductive Place where
  | variant
  | operator
  | less
  | bar
  | dash
  | parameters
  | operand
  | colon
  | path
  | typeHead
  | type
  deriving DecidableEq

namespace Place

def keywords : List String :=
  ["async", "break", "const", "else", "for", "if", "in", "let", "loop", "match", "move", "mut", "ref",
   "return", "static", "unsafe", "while", "yield"]

def typeKeywords : List String :=
  ["const", "dyn", "extern", "fn", "for", "impl", "mut", "unsafe"]

def opensAngles : Place → Bool
  | operator | bar | dash | path | typeHead | type => true
  | _ => false

def afterBrackets : Place → Place
  | variant => variant
  | parameters => parameters
  | typeHead | type => type
  | _ => operand

def afterWord (word : String) : Place → Place
  | variant => variant
  | parameters => parameters
  | typeHead => if typeKeywords.contains word then typeHead else type
  | type =>
    if word == "as" || typeKeywords.contains word then typeHead
    else if keywords.contains word then operator
    else type
  | _ =>
    if word == "as" then typeHead else if keywords.contains word then operator else operand

def afterLiteral : Place → Place
  | variant => variant
  | parameters => parameters
  | typeHead => typeHead
  | _ => operand

def afterPunct (c : Char) : Place → Place
  | variant => if c == '=' then operator else variant
  | parameters => if c == '|' then operator else parameters
  | operand =>
    match c with
    | ':' => colon
    | '?' => operand
    | '<' => less
    | '|' => bar
    | _ => operator
  | colon | path => if c == ':' then path else operator
  | typeHead => typeHead
  | type =>
    match c with
    | ':' => type
    | '\'' => type
    | '-' => dash
    | '|' => bar
    | _ => operator
  | dash =>
    match c with
    | '>' => typeHead
    | '|' => parameters
    | '-' => dash
    | _ => operator
  | bar => operator
  | operator | less =>
    match c with
    | '|' => parameters
    | '-' => dash
    | _ => operator

end Place

structure VariantScan where
  place : Place
  nesting : Nesting
  deriving DecidableEq

namespace VariantScan

def isOutside (s : VariantScan) : Bool := s.nesting.isOutside && s.place != .parameters

def inside (s : VariantScan) (t : Token) : VariantScan :=
  let nesting := s.nesting.next t
  ⟨if nesting.isOutside then s.place.afterBrackets else s.place, nesting⟩

def next (s : VariantScan) (t : Token) : VariantScan :=
  if s.nesting.isOutside then
    match t with
    | .opening _ => s.inside t
    | .closing _ => s
    | .ident word => ⟨s.place.afterWord word, .outside⟩
    | .literal _ => ⟨s.place.afterLiteral, .outside⟩
    | .punct c =>
      if c == '<' && s.place.opensAngles then s.inside t else ⟨s.place.afterPunct c, .outside⟩
  else s.inside t

end VariantScan

def variantScan : Scan VariantScan :=
  ⟨⟨.variant, .outside⟩, VariantScan.next, VariantScan.isOutside⟩

end Backstep.ErrorType
