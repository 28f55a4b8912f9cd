import Backstep.Asm.Statement

/-!
The layout of a source text: which statement stands at which address, and where the labels are. A
statement emits one word, so its address is the number of statements before it.
-/

namespace Backstep.Asm

abbrev Labels := List (Token × Nat)

structure SkippedDirective where
  line : Nat
  directive : String
  deriving DecidableEq

def SkippedDirective.message (s : SkippedDirective) : String :=
  s!"line {s.line}: directive `{s.directive}` is not supported, skipping"

inductive LineBody where
  | nothing
  | ignored (directive : String)
  | operations (ops : List Operation)
  deriving DecidableEq

def LineBody.read (code : List Char) : Except Cause LineBody :=
  match Operation.ofCode? code with
  | none => .ok .nothing
  | some op => if op.isIgnored then .ok (.ignored op.mnemonic) else op.expand.map .operations

structure LineContent where
  label : Option Token
  body : LineBody
  deriving DecidableEq

def Labels.checkNew (labels : Labels) : Option Token → Except Cause Unit
  | none => .ok ()
  | some name =>
    match labels.lookup name with
    | none => .ok ()
    | some _ => .error (.duplicateLabel (String.ofList name))

def LineContent.read (labels : Labels) (code : List Char) : Except Cause LineContent := do
  let (label, rest) ← leadingLabel code
  labels.checkNew label
  return ⟨label, ← LineBody.read rest⟩

structure Layout where
  labels : Labels
  statements : Array Statement
  skipped : Array SkippedDirective
  deriving DecidableEq

namespace Layout

def empty : Layout := ⟨[], #[], #[]⟩

def define (layout : Layout) : Option Token → Layout
  | none => layout
  | some name => { layout with labels := (name, layout.statements.size) :: layout.labels }

def place (layout : Layout) (line : Nat) : LineBody → Layout
  | .nothing => layout
  | .ignored directive => { layout with skipped := layout.skipped.push ⟨line, directive⟩ }
  | .operations ops => { layout with statements := layout.statements ++ ops.map (Statement.mk · line) }

def add (layout : Layout) (line : Nat) (content : LineContent) : Layout :=
  (layout.define content.label).place line content.body

def addLines (layout : Layout) : List SourceLine → Layout × Option Error
  | [] => (layout, none)
  | source :: rest =>
    match LineContent.read layout.labels source.code with
    | .ok content => (layout.add source.line content).addLines rest
    | .error cause => (layout, some ⟨source.line, cause⟩)

def ofSource (source : List Char) : Layout × Option Error := empty.addLines (codeLines source)

end Layout

end Backstep.Asm
