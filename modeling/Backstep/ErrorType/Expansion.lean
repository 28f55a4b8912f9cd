import Backstep.ErrorType.Declaration

namespace Backstep.ErrorType

def occurs (needle : List Char) : List Char → Bool
  | [] => needle.isEmpty
  | c :: cs => needle.isPrefixOf (c :: cs) || occurs needle cs

/-- The text with each occurrence replaced, from the left, without overlaps. First so many characters
are passed over as parts of an occurrence. -/
def replaceFrom (needle replacement : List Char) : Nat → List Char → List Char
  | _, [] => []
  | skip + 1, _ :: cs => replaceFrom needle replacement skip cs
  | 0, c :: cs =>
    if needle.isPrefixOf (c :: cs) then
      replacement ++ replaceFrom needle replacement (needle.length - 1) cs
    else c :: replaceFrom needle replacement 0 cs

def replaceAll (needle replacement text : List Char) : List Char :=
  replaceFrom needle replacement 0 text

def plainHole (argument : List Char) : List Char := '\x7b' :: argument ++ ['\x7d']

def formatHole (argument : List Char) : List Char := '\x7b' :: argument ++ [':']

def mentions (message argument : List Char) : Bool :=
  occurs (plainHole argument) message || occurs (formatHole argument) message

def position (i : Nat) : List Char := Nat.toDigits 10 i

def positionName (i : Nat) : List Char := 'f' :: position i

def namePosition (message : List Char) (i : Nat) : List Char :=
  let message := replaceAll (plainHole (position i)) (plainHole (positionName i)) message
  replaceAll (formatHole (position i)) (formatHole (positionName i)) message

def namePositions (message : List Char) (n : Nat) : List Char :=
  (List.range n).reverse.foldl namePosition message

inductive Refusal where
  | notADeclaration
  | union
  | noMessage (target : String)
  | messageNotListed
  | messageNotLiteral
  | messageNotText
  | severalFields
  deriving DecidableEq

def Refusal.message : Refusal → String
  | notADeclaration => "expected one of: `struct`, `enum`, `union`"
  | union => "Error derive does not support unions"
  | noMessage target =>
    s!"missing #[error(\"...\")] attribute on {target}; every error variant must declare a display message"
  | messageNotListed =>
    "invalid #[error] attribute; use #[error(\"message\")] to describe the error"
  | messageNotLiteral =>
    "failed to parse #[error] attribute; expected a string literal like #[error(\"line \x7bline\x7d: not a number\")]"
  | messageNotText =>
    "invalid #[error] attribute: message must be a string literal, e.g. #[error(\"invalid word: \x7b0\x7d\")]"
  | severalFields => "#[from] requires the variant to have exactly one field"

/-- The value of a single literal. Truth values and negative numbers are literals too. -/
def messageOfTokens : List Token → Except Refusal (List Char)
  | [.literal (.text value)] => .ok value
  | [.literal _] => .error .messageNotText
  | [.punct '-', .literal (.number _)] => .error .messageNotText
  | [.ident name] =>
    .error (if name == "true" || name == "false" then .messageNotText else .messageNotLiteral)
  | _ => .error .messageNotLiteral

def messageOf (attributes : List Attribute) (target : String) : Except Refusal (List Char) :=
  match attributes.find? (·.name == some "error") with
  | none => .error (.noMessage target)
  | some ⟨_, .list tokens⟩ => messageOfTokens tokens
  | some _ => .error .messageNotListed

inductive Pattern where
  | unit
  | tuple (binders : List (Option String))
  | named (binders : List String)
  deriving DecidableEq

/-- The arm that writes a variant, or the type itself: `arguments` are the names bound by the pattern
that the message uses. -/
structure DisplayArm where
  variant : Option String
  pattern : Pattern
  message : List Char
  arguments : List String
  deriving DecidableEq

structure SourceArm where
  variant : String
  pattern : Pattern
  binder : String
  deriving DecidableEq

structure FromImpl where
  variant : String
  field : Option String
  type : List Token
  deriving DecidableEq

structure VariantCode where
  display : DisplayArm
  source : Option SourceArm
  fromImpl : Option FromImpl
  deriving DecidableEq

inductive Expansion where
  | enum (variants : List VariantCode)
  | struct (display : DisplayArm)
  deriving DecidableEq

def positionBinder (message : List Char) (i : Nat) : Option String :=
  if mentions message (position i) then some (String.ofList (positionName i)) else none

def displayArm (variant : Option String) (message : List Char) : Fields → DisplayArm
  | .unit => ⟨variant, .unit, message, []⟩
  | .tuple fields =>
    let binders := (List.range fields.length).map (positionBinder message)
    ⟨variant, .tuple binders, namePositions message fields.length, binders.filterMap id⟩
  | .named fields =>
    let used := (fields.map (·.1)).filter fun name => mentions message name.toList
    ⟨variant, .named used, message, used⟩

def causeBinder : String := "source"

def sourceArm? (variant : String) : Fields → Option SourceArm
  | .unit => none
  | .tuple fields =>
    (fields.findIdx? (·.isCause)).map fun index =>
      let binders := (List.range fields.length).map fun i =>
        if i = index then some causeBinder else none
      ⟨variant, .tuple binders, causeBinder⟩
  | .named fields =>
    (fields.find? (·.2.isCause)).map fun (name, _) => ⟨variant, .named [name], name⟩

def fromImpl? (variant : String) : Fields → Except Refusal (Option FromImpl)
  | .unit => .ok none
  | .tuple fields =>
    match fields.find? (·.isFrom) with
    | none => .ok none
    | some field =>
      if fields.length = 1 then .ok (some ⟨variant, none, field.type⟩) else .error .severalFields
  | .named fields =>
    match fields.find? (·.2.isFrom) with
    | none => .ok none
    | some (name, field) =>
      if fields.length = 1 then .ok (some ⟨variant, some name, field.type⟩)
      else .error .severalFields

def Variant.expand (v : Variant) : Except Refusal VariantCode := do
  let message ← messageOf v.attributes s!"variant `{v.name}`"
  return ⟨displayArm (some v.name) message v.fields, sourceArm? v.name v.fields,
    ← fromImpl? v.name v.fields⟩

def Declaration.expand (d : Declaration) : Except Refusal Expansion :=
  match d.body with
  | .enum variants => return .enum (← variants.mapM Variant.expand)
  | .struct fields => do
    let message ← messageOf d.attributes s!"type `{d.name}`"
    return .struct (displayArm none message fields)
  | .union => .error .union

end Backstep.ErrorType
