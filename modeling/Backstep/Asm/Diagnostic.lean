import Backstep.Asm.Resolve
import Backstep.Text.Input

namespace Backstep.Asm

open Isa Text

def Layout.resolve (layout : Layout) : Except Error (List (Nat × Resolved)) :=
  layout.statements.toList.zipIdx.mapM fun (s, index) => do
    return (s.line, ← s.resolve layout.labels index)

def encodeAll (resolved : List (Nat × Resolved)) : Except Error (List Word) :=
  resolved.mapM fun (line, r) => r.encode.mapError (.ofEncode line)

def Layout.assemble (layout : Layout) : Except Error (List Word) := do
  encodeAll (← layout.resolve)

def assembleChars (source : List Char) : Except Error (List Word) :=
  match Layout.ofSource source with
  | (_, some error) => .error error
  | (layout, none) => layout.assemble

def assemble (source : String) : Except Error (List Word) := assembleChars source.toList

def skippedDirectives (source : String) : List SkippedDirective :=
  (Layout.ofSource source.toList).1.skipped.toList

def caretRow (line : List Char) : String :=
  let indent := byteCount line - byteCount (trimStart line)
  let width := max 1 (byteCount (trim line))
  String.ofList (List.replicate indent ' ' ++ List.replicate width '^')

def diagnostic (file source : String) (e : Error) : String :=
  let head := s!"error: {e.message}\n --> {file}:{e.line}\n"
  match (lines source.toList)[e.line - 1]? with
  | none => head
  | some raw =>
    let line := (raw.reverse.dropWhile (· == '\r')).reverse
    let number := padLeft 4 ' ' (toString e.line)
    head ++ s!"     |\n{number} | {String.ofList line}\n     | {caretRow line}"

end Backstep.Asm
