import Backstep.ErrorType.Token
import Backstep.ErrorType.Discriminant

namespace Backstep.ErrorType

inductive Argument where
  | none
  | list (tokens : List Token)
  | value
  deriving DecidableEq

structure Attribute where
  name : Option String
  argument : Argument
  deriving DecidableEq

structure Field where
  attributes : List Attribute
  type : List Token
  deriving DecidableEq

inductive Fields where
  | unit
  | tuple (fields : List Field)
  | named (fields : List (String × Field))
  deriving DecidableEq

structure Variant where
  attributes : List Attribute
  name : String
  fields : Fields
  deriving DecidableEq

inductive ParamKind where | lifetime | type | const
  deriving DecidableEq

/-- A generic parameter without its default: the tokens of its attributes, its name, its bounds or,
for a constant, its type, and whether a comma follows it. -/
structure Param where
  attributes : List Token
  kind : ParamKind
  name : String
  bounds : List Token
  comma : Bool
  deriving DecidableEq

structure Generics where
  params : List Param
  predicates : List Token
  deriving DecidableEq

inductive Body where
  | enum (variants : List Variant)
  | struct (fields : Fields)
  | union
  deriving DecidableEq

structure Declaration where
  attributes : List Attribute
  name : String
  generics : Generics
  body : Body
  deriving DecidableEq

def Field.has (f : Field) (mark : String) : Bool := f.attributes.any (·.name == some mark)

def Field.isFrom (f : Field) : Bool := f.has "from"

def Field.isCause (f : Field) : Bool := f.has "from" || f.has "source"

def Attribute.ofTokens : List Token → Attribute
  | [.ident name] => ⟨some name, .none⟩
  | .ident name :: .opening _ :: rest => ⟨some name, .list (group rest).1⟩
  | .ident name :: .punct '=' :: _ => ⟨some name, .value⟩
  | _ => ⟨none, .none⟩

def attributes : Nat → List Token → List Attribute × List Token
  | fuel + 1, .punct '#' :: .opening .bracket :: rest =>
    let (inside, after) := group rest
    let (more, after) := attributes fuel after
    (Attribute.ofTokens inside :: more, after)
  | _, ts => ([], ts)

def leadingAttributes (ts : List Token) : List Attribute × List Token := attributes ts.length ts

def isRestriction : List Token → Bool
  | [.ident name] => name == "crate" || name == "self" || name == "super"
  | .ident name :: _ => name == "in"
  | _ => false

def afterVisibility : List Token → List Token
  | .ident "pub" :: .opening .paren :: rest =>
    let (inside, after) := group rest
    if isRestriction inside then after else .opening .paren :: rest
  | .ident "pub" :: rest => rest
  | ts => ts

def Field.ofTokens (ts : List Token) : Field :=
  let (attributes, rest) := leadingAttributes ts
  ⟨attributes, afterVisibility rest⟩

def namedField? (ts : List Token) : Option (String × Field) :=
  let (attributes, rest) := leadingAttributes ts
  match afterVisibility rest with
  | .ident name :: .punct ':' :: type => some (name, ⟨attributes, type⟩)
  | _ => none

def tupleFields (ts : List Token) : Fields :=
  .tuple ((pieces typeScan ts).map fun piece => Field.ofTokens piece.tokens)

def namedFields (ts : List Token) : Fields :=
  .named ((pieces typeScan ts).filterMap fun piece => namedField? piece.tokens)

def leadingFields : List Token → Fields × List Token
  | .opening .paren :: rest => let (inside, after) := group rest; (tupleFields inside, after)
  | .opening .brace :: rest => let (inside, after) := group rest; (namedFields inside, after)
  | ts => (.unit, ts)

def variant? (ts : List Token) : Option Variant :=
  let (attributes, rest) := leadingAttributes ts
  match afterVisibility rest with
  | .ident name :: rest => some ⟨attributes, name, (leadingFields rest).1⟩
  | _ => none

def variants (ts : List Token) : List Variant :=
  (pieces variantScan ts).filterMap fun piece => variant? piece.tokens

def boundsOf : List Token → List Token
  | .punct ':' :: rest => (breakAt (· == .punct '=') .outside rest).1
  | _ => []

def param? (piece : Piece) : Option Param :=
  let rest := (leadingAttributes piece.tokens).2
  let attributes := piece.tokens.take (piece.tokens.length - rest.length)
  match rest with
  | .punct '\'' :: .ident name :: rest =>
    some ⟨attributes, .lifetime, name, boundsOf rest, piece.comma⟩
  | .ident "const" :: .ident name :: rest =>
    some ⟨attributes, .const, name, boundsOf rest, piece.comma⟩
  | .ident name :: rest => some ⟨attributes, .type, name, boundsOf rest, piece.comma⟩
  | _ => none

def leadingParams : List Token → List Param × List Token
  | .punct '<' :: rest =>
    let (inside, after) := breakAt (· == .punct '>') .outside rest
    ((pieces typeScan inside).filterMap param?, after.drop 1)
  | ts => ([], ts)

def leadingPredicates : List Token → List Token × List Token
  | .ident "where" :: rest =>
    breakAt (fun t => t == .opening .brace || t == .punct ';') .outside rest
  | ts => ([], ts)

def enumBody : List Token → Body
  | .opening .brace :: rest => .enum (variants (group rest).1)
  | _ => .enum []

def bodyOf (kind : String) (ts : List Token) : Option (Body × List Token) :=
  let (before, rest) := leadingPredicates ts
  if kind == "enum" then some (enumBody rest, before)
  else if kind == "union" then some (.union, before)
  else if kind == "struct" then
    let (fields, rest) := leadingFields rest
    some (.struct fields, before ++ (leadingPredicates rest).1)
  else none

def Declaration.ofTokens? (ts : List Token) : Option Declaration :=
  let (attributes, rest) := leadingAttributes ts
  match afterVisibility rest with
  | .ident kind :: .ident name :: rest =>
    let (params, rest) := leadingParams rest
    (bodyOf kind rest).map fun (body, predicates) => ⟨attributes, name, ⟨params, predicates⟩, body⟩
  | _ => none

end Backstep.ErrorType
