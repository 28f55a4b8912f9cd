import Backstep.Asm.Diagnostic
import Backstep.Proofs.ExceptLaws

namespace Backstep.Asm

def SourceLine.renumber (f : Nat → Nat) (s : SourceLine) : SourceLine := { s with line := f s.line }

def Statement.renumber (f : Nat → Nat) (s : Statement) : Statement := { s with line := f s.line }

def SkippedDirective.renumber (f : Nat → Nat) (s : SkippedDirective) : SkippedDirective :=
  { s with line := f s.line }

def Error.renumber (f : Nat → Nat) (e : Error) : Error := { e with line := f e.line }

namespace Layout

def renumber (f : Nat → Nat) (layout : Layout) : Layout where
  labels := layout.labels
  statements := layout.statements.map (·.renumber f)
  skipped := layout.skipped.map (·.renumber f)

variable (f : Nat → Nat) {layout : Layout} {line : Nat} {content : LineContent}

theorem define_renumber (label : Option Token) :
    (layout.renumber f).define label = (layout.define label).renumber f := by
  cases label with
  | none => rfl
  | some name => simp [define, renumber]

theorem place_renumber (body : LineBody) :
    (layout.renumber f).place (f line) body = (layout.place line body).renumber f := by
  cases body with
  | nothing => rfl
  | ignored directive => simp [place, renumber, SkippedDirective.renumber]
  | operations ops =>
    simp only [place, renumber, mk.injEq, true_and, and_true]
    exact Array.ext' (by simp [Statement.renumber, Function.comp_def])

theorem add_renumber :
    (layout.renumber f).add (f line) content = (layout.add line content).renumber f := by
  rw [add, define_renumber, place_renumber, add]

theorem addLines_renumber (sources : List SourceLine) :
    (layout.renumber f).addLines (sources.map (·.renumber f)) =
      ((layout.addLines sources).1.renumber f, (layout.addLines sources).2.map (·.renumber f)) := by
  induction sources generalizing layout with
  | nil => rfl
  | cons source sources ih =>
    have labels : (layout.renumber f).labels = layout.labels := rfl
    rw [List.map_cons, addLines, addLines, labels]
    simp only [SourceLine.renumber]
    cases LineContent.read layout.labels source.code with
    | error cause => rfl
    | ok content =>
      dsimp only
      rw [add_renumber]
      exact ih

theorem resolve_renumber : (layout.renumber f).resolve =
    (layout.resolve.map (List.map (Prod.map f id))).mapError (·.renumber f) := by
  have statements : (layout.renumber f).statements.toList =
      layout.statements.toList.map (·.renumber f) := Array.toList_map
  rw [resolve, resolve, statements, List.zipIdx_map]
  refine mapM_map_of_forall ?_ _
  rintro ⟨s, index⟩
  have labels : (layout.renumber f).labels = layout.labels := rfl
  simp only [Prod.map, Statement.renumber, Statement.resolve, labels, id_eq]
  cases s.toOperation.resolve layout.labels index <;> rfl

theorem encodeAll_renumber (resolved : List (Nat × Resolved)) :
    encodeAll (resolved.map (Prod.map f id)) = (encodeAll resolved).mapError (·.renumber f) := by
  have unchanged : ((encodeAll resolved).map (List.map id)) = encodeAll resolved := by
    cases encodeAll resolved <;> simp [Except.map]
  rw [← unchanged]
  refine mapM_map_of_forall ?_ _
  rintro ⟨line, r⟩
  cases encoded : r.encode <;>
    simp [encoded, Except.mapError, Except.map, Error.ofEncode, Error.renumber]

theorem assemble_renumber :
    (layout.renumber f).assemble = layout.assemble.mapError (·.renumber f) := by
  rw [assemble, assemble, resolve_renumber]
  cases layout.resolve with
  | error e => rfl
  | ok resolved => exact encodeAll_renumber f resolved

end Layout

theorem assembleChars_of_renumber {f : Nat → Nat} {source target : List Char}
    (same : codeLines target = (codeLines source).map (·.renumber f)) :
    assembleChars target = (assembleChars source).mapError (·.renumber f) := by
  have laid := @Layout.addLines_renumber f .empty (codeLines source)
  have start : Layout.empty.renumber f = .empty := by simp [Layout.renumber, Layout.empty]
  rw [start, ← same] at laid
  rw [assembleChars, assembleChars, Layout.ofSource, Layout.ofSource, laid]
  rcases Layout.empty.addLines (codeLines source) with ⟨layout, _ | e⟩
  · exact Layout.assemble_renumber f
  · rfl

end Backstep.Asm
