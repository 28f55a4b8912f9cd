import Backstep.ErrorType.Token

namespace Backstep.ErrorType

/-- How deep a token stands in delimiters and, outside of them, in angle brackets. A bracket after a
dash is the head of an arrow. -/
structure Nesting where
  delimiters : Nat
  angles : Nat
  dash : Bool
  deriving DecidableEq

namespace Nesting

def outside : Nesting := ⟨0, 0, false⟩

def isOutside (n : Nesting) : Bool := n.delimiters == 0 && n.angles == 0

def next (n : Nesting) : Token → Nesting
  | .opening _ => ⟨n.delimiters + 1, n.angles, false⟩
  | .closing _ => ⟨n.delimiters - 1, n.angles, false⟩
  | .punct '<' => ⟨n.delimiters, if n.delimiters == 0 then n.angles + 1 else n.angles, false⟩
  | .punct '>' =>
    ⟨n.delimiters, if n.delimiters == 0 && !n.dash then n.angles - 1 else n.angles, false⟩
  | .punct '-' => ⟨n.delimiters, n.angles, true⟩
  | _ => ⟨n.delimiters, n.angles, false⟩

def endsAt (p : Token → Bool) (n : Nesting) (t : Token) : Bool :=
  n.isOutside && !(n.dash && t == .punct '>') && p t

end Nesting

def breakAt (p : Token → Bool) : Nesting → List Token → List Token × List Token
  | _, [] => ([], [])
  | n, t :: ts =>
    if n.endsAt p t then ([], t :: ts)
    else
      let (before, after) := breakAt p (n.next t) ts
      (t :: before, after)

structure Piece where
  tokens : List Token
  comma : Bool
  deriving DecidableEq

/-- A way to go through the tokens of a list that knows where its commas can be. -/
structure Scan (σ : Type) where
  start : σ
  next : σ → Token → σ
  isOutside : σ → Bool

def typeScan : Scan Nesting := ⟨.outside, Nesting.next, Nesting.isOutside⟩

def piecesFrom {σ : Type} (scan : Scan σ) : σ → List Token → List Token → List Piece
  | _, piece, [] => if piece.isEmpty then [] else [⟨piece.reverse, false⟩]
  | s, piece, t :: ts =>
    if scan.isOutside s && t == .punct ',' then
      ⟨piece.reverse, true⟩ :: piecesFrom scan scan.start [] ts
    else piecesFrom scan (scan.next s t) (t :: piece) ts

def pieces {σ : Type} (scan : Scan σ) (ts : List Token) : List Piece :=
  piecesFrom scan scan.start [] ts

def throughClosing : Nat → List Token → List Token × List Token
  | _, [] => ([], [])
  | depth, t :: ts =>
    let deeper := match t with
      | .opening _ => depth + 1
      | .closing _ => depth - 1
      | _ => depth
    if deeper == 0 then ([], ts)
    else
      let (inside, after) := throughClosing deeper ts
      (t :: inside, after)

def group (ts : List Token) : List Token × List Token := throughClosing 1 ts

def commaTokens : List Token := [.punct ',']

def Piece.withComma (p : Piece) : List Token := p.tokens ++ if p.comma then commaTokens else []

/-- The lifetimes and then the others. A comma that followed a piece still does, and one is put
between the lifetimes and the others if there is none. -/
def lifetimesFirst (lifetimes others : List Piece) : List Token :=
  let between :=
    match lifetimes.getLast? with
    | some last => if last.comma || others.isEmpty then [] else commaTokens
    | none => []
  lifetimes.flatMap Piece.withComma ++ between ++ others.flatMap Piece.withComma

def Piece.isLifetime (p : Piece) : Bool :=
  match p.tokens with
  | [.punct '\'', .ident _] => true
  | _ => false

def arrangedArguments (content : List Token) : List Token :=
  let (lifetimes, others) := (pieces typeScan content).partition Piece.isLifetime
  lifetimesFirst lifetimes others

structure Opened where
  bracket : Token
  before : List Token
  deriving DecidableEq

def Opened.rejoin (o : Opened) (inner : List Token) : List Token := inner ++ o.bracket :: o.before

/-- Angle brackets that a delimiter leaves open are operators. -/
def closeDelimiter (t : Token) : List Opened → List Token → List Opened × List Token
  | [], inner => ([], t :: inner)
  | o :: outer, inner =>
    if o.bracket == .punct '<' then closeDelimiter t outer (o.rejoin inner)
    else (outer, o.rejoin (t :: inner))

def closeAngle : List Opened → List Token → List Opened × List Token
  | [], inner => ([], .punct '>' :: inner)
  | o :: outer, inner =>
    if o.bracket == .punct '<' then
      (outer, o.rejoin (.punct '>' :: (arrangedArguments inner.reverse).reverse))
    else (o :: outer, .punct '>' :: inner)

def arrangeFrom : List Opened → List Token → List Token → List Token
  | opened, inner, [] => (opened.foldl (fun inner o => o.rejoin inner) inner).reverse
  | opened, inner, t :: ts =>
    let isArrow := t == .punct '>' && inner.head? == some (.punct '-')
    match t with
    | .opening _ => arrangeFrom (⟨t, inner⟩ :: opened) [] ts
    | .closing _ =>
      let (opened, inner) := closeDelimiter t opened inner
      arrangeFrom opened inner ts
    | t =>
      if t == .punct '<' then arrangeFrom (⟨t, inner⟩ :: opened) [] ts
      else if t == .punct '>' && !isArrow then
        let (opened, inner) := closeAngle opened inner
        arrangeFrom opened inner ts
      else arrangeFrom opened (t :: inner) ts

def arranged (ts : List Token) : List Token := arrangeFrom [] [] ts

end Backstep.ErrorType
