import Mathlib.Data.List.DropRight
import Mathlib.Data.Nat.Digits.Defs
import Backstep.Asm.Diagnostic
import Backstep.Proofs.Asm.CodeLines
import Backstep.Proofs.Asm.Refusals

namespace Backstep.Asm

open Isa Text

variable {source : String} {rows : List (List Char)} {row raw : List Char} {cause : Cause} {e : Error}

section Places

theorem lineBody_of_lineCode_eq_nil (bare : lineCode row = []) : lineBody row = [] := by
  rw [lineBody, bare]
  rfl

theorem lineLabel?_of_lineCode_eq_nil (bare : lineCode row = []) : lineLabel? row = none := by
  rw [lineLabel?, bare]
  rfl

theorem lineOperation?_of_lineCode_eq_nil (bare : lineCode row = []) :
    lineOperation? row = none := by
  rw [lineOperation?, lineBody_of_lineCode_eq_nil bare]
  rfl

theorem Misplaced.lineCode_ne_nil (misplaced : Misplaced rows row cause) : lineCode row ≠ [] := by
  intro bare
  have unlabelled := lineLabel?_of_lineCode_eq_nil bare
  cases misplaced with
  | second two => simp [secondLabel?_of_lineLabel? unlabelled] at two
  | again _ named => simp [unlabelled] at named
  | load _ _ stands => simp [lineOperation?_of_lineCode_eq_nil bare] at stands

theorem exists_row_of_statement {s : Statement} (mem : s ∈ statementsOf rows) :
    ∃ j row, rows[j]? = some row ∧ s.line = j + 1 ∧ lineCode row ≠ [] := by
  rw [statementsOf, List.mem_flatMap] at mem
  obtain ⟨⟨row, j⟩, at_j, mem⟩ := mem
  obtain ⟨op, stands, rfl⟩ := List.mem_map.mp mem
  refine ⟨j, row, List.mk_mem_zipIdx_iff_getElem?.mp at_j, rfl, fun bare => ?_⟩
  simp [lineOperations, lineOperation?_of_lineCode_eq_nil bare] at stands

theorem exists_row_of_error (refused : assemble source = .error e) :
    ∃ j row, (lines source.toList)[j]? = some row ∧ e.line = j + 1 ∧ lineCode row ≠ [] := by
  obtain laid | ⟨layout, laid, failed⟩ := assemble_eq_error_iff.mp refused
  · obtain ⟨j, row, at_j, -, misplaced, line⟩ := Layout.ofRows_eq_some_iff.mp laid
    exact ⟨j, row, at_j, line, misplaced.lineCode_ne_nil⟩
  · obtain ⟨i, s, at_i, -, -, line⟩ := (Layout.resolve_eq_error_iff_refused laid).mp failed
    rw [line]
    exact exists_row_of_statement (List.mem_of_getElem? at_i)

end Places

def shown (raw : List Char) : List Char := raw.rdropWhile (· == '\r')

def numberColumn (n : Nat) : List Char := (padLeft 4 ' ' (toString n)).toList

def bar : List Char := [' ', '|', ' ']

def excerpt (n : Nat) (line marks : List Char) : List Char :=
  '\n' :: (numberColumn n ++ bar ++ line ++ '\n' :: marks)

def markRow (column indent width : Nat) : List Char :=
  List.replicate column ' ' ++ bar ++ List.replicate indent ' ' ++ List.replicate width '^'

def underline (n : Nat) (line : List Char) : List Char :=
  markRow (numberColumn n).length (line.takeWhile isBlank).length (trim line).length

section Rows

theorem exists_shown (raw : List Char) :
    ∃ returns, (∀ c ∈ returns, isBlank c = true) ∧ raw = shown raw ++ returns := by
  refine ⟨raw.rtakeWhile (· == '\r'), fun c mem => ?_, List.rdropWhile_append_rtakeWhile.symm⟩
  obtain rfl : c = '\r' := by simpa using List.mem_rtakeWhile_imp mem
  rfl

theorem trim_shown : trim (shown raw) = trim raw := by
  obtain ⟨returns, blank, eq⟩ := exists_shown raw
  conv_rhs => rw [eq, trim_append_blanks blank]

theorem exists_visible (some : trim row ≠ []) : ∃ c ∈ row, isBlank c = false := by
  by_contra! all
  have blank : ∀ c ∈ row, isBlank c = true := by simpa using all
  have bare : trim row = trim [] := @trim_append_blanks [] row blank
  exact some bare

theorem takeWhile_shown (some : trim raw ≠ []) :
    (shown raw).takeWhile isBlank = raw.takeWhile isBlank := by
  obtain ⟨returns, -, eq⟩ := exists_shown raw
  have full : trim (shown raw) ≠ [] := trim_shown.trans_ne some
  obtain ⟨c, mem, visible⟩ := exists_visible full
  conv_rhs => rw [eq, List.takeWhile_append]
  split
  case isFalse => rfl
  case isTrue whole =>
    have all := List.takeWhile_eq_self_iff.mp ((List.takeWhile_prefix _).eq_of_length whole)
    simp [all c mem] at visible

theorem trim_ne_nil_of_lineCode (code : lineCode raw ≠ []) : trim raw ≠ [] := by
  obtain ⟨c, mem, visible⟩ := exists_visible code
  exact List.ne_nil_of_mem (mem_trim ((List.takeWhile_sublist _).mem mem) visible)

theorem newline_not_mem_shown (inside : '\n' ∉ raw) : '\n' ∉ shown raw :=
  fun mem => inside ((List.rdropWhile_prefix _ raw).subset mem)

theorem newline_not_mem_markRow {column indent width : Nat} :
    '\n' ∉ markRow column indent width := by
  simp [markRow, bar]

theorem byteCount_sub_trimStart (cs : List Char) :
    byteCount cs - byteCount (trimStart cs) = byteCount (cs.takeWhile isBlank) := by
  have whole : byteCount (cs.takeWhile isBlank) + byteCount (trimStart cs) = byteCount cs := by
    rw [← byteCount_append, trimStart, List.takeWhile_append_dropWhile]
  omega

theorem caretRow_shown (some : trim raw ≠ []) : (caretRow (shown raw)).toList =
    List.replicate (byteCount (raw.takeWhile isBlank)) ' ' ++
      List.replicate (byteCount (trim raw)) '^' := by
  have wide : 1 ≤ byteCount (trim raw) :=
    (List.length_pos_iff.mpr some).trans_le (length_le_byteCount _)
  rw [caretRow, byteCount_sub_trimStart, takeWhile_shown some, trim_shown, Nat.max_eq_right wide,
    String.toList_ofList]

theorem excerpt_isSuffix (file : String) (found : (lines source.toList)[e.line - 1]? = some raw)
    (some : trim raw ≠ []) : excerpt e.line (shown raw)
      (markRow 4 (byteCount (raw.takeWhile isBlank)) (byteCount (trim raw))) <:+
        (diagnostic file source e).toList := by
  refine ⟨s!"error: {e.message}\n --> {file}:{e.line}\n     |".toList, ?_⟩
  have plain (text : String) : toString text = text := rfl
  have line : (raw.reverse.dropWhile (· == '\r')).reverse = shown raw := rfl
  simp [diagnostic, found, line, plain, caretRow_shown some, excerpt, markRow, numberColumn, bar]

theorem markRow_inj {column indent width column' indent' width' : Nat} :
    markRow column indent width = markRow column' indent' width' ↔
      column = column' ∧ indent = indent' ∧ width = width' := by
  refine ⟨fun same => ?_, by rintro ⟨rfl, rfl, rfl⟩; rfl⟩
  have carets := congrArg (List.count '^') same
  have before := congrArg (List.idxOf '|') same
  have whole := congrArg List.length same
  simp [markRow, bar, List.count_replicate, List.idxOf_append] at carets before whole
  omega

theorem length_numberColumn {n : Nat} : (numberColumn n).length = 4 ↔ n ≤ 9999 := by
  rw [numberColumn, padLeft, String.toList_ofList, List.length_leftpad, Nat.toString_eq_repr,
    Nat.toList_repr, max_eq_left_iff, Nat.length_toDigits_le_iff (by decide) (by decide)]
  omega

theorem markRow_eq_underline_iff {n : Nat} :
    markRow 4 (byteCount (raw.takeWhile isBlank)) (byteCount (trim raw)) = underline n raw ↔
      n ≤ 9999 ∧ ∀ c ∈ raw.takeWhile isBlank ++ trim raw, c.toNat < 128 := by
  rw [underline, markRow_inj, eq_comm, length_numberColumn, byteCount_eq_length_iff,
    byteCount_eq_length_iff, ← List.forall_mem_append]

/-- The line of an error is a line of the source with code on it. A diagnostic ends with that line
and a row of marks, a space for each byte of its first blanks and a caret for each byte of the rest.
That is a caret under each character just on the lines up to 9999 that are ASCII so far. -/
theorem diagnostic_points_at_code (refused : assemble source = .error e) (file : String) :
    1 ≤ e.line ∧ e.line ≤ (lines source.toList).length ∧
    ∃ raw marks, (lines source.toList)[e.line - 1]? = some raw ∧ lineCode raw ≠ [] ∧
      excerpt e.line (shown raw) marks <:+ (diagnostic file source e).toList ∧
      '\n' ∉ shown raw ∧ '\n' ∉ marks ∧
      marks = markRow 4 (byteCount (raw.takeWhile isBlank)) (byteCount (trim raw)) ∧
      (marks = underline e.line raw ↔
        e.line ≤ 9999 ∧ ∀ c ∈ raw.takeWhile isBlank ++ trim raw, c.toNat < 128) := by
  obtain ⟨j, raw, at_j, line, code⟩ := exists_row_of_error refused
  have inside : j < (lines source.toList).length := (List.getElem?_eq_some_iff.mp at_j).1
  have found : (lines source.toList)[e.line - 1]? = some raw := by
    rw [line, Nat.add_sub_cancel, at_j]
  have closed : '\n' ∉ raw := newline_not_mem_of_lines (List.mem_of_getElem? at_j)
  refine ⟨by omega, by omega, raw, _, found, code, ?_, newline_not_mem_shown closed,
    newline_not_mem_markRow, rfl, markRow_eq_underline_iff⟩
  exact excerpt_isSuffix file found (trim_ne_nil_of_lineCode code)

theorem diagnostic_points_at_code_of_branch :
    assemble "noop\n  beq r0, r0, far" = .error ⟨2, .undefinedLabel "far"⟩ ∧
    excerpt 2 "  beq r0, r0, far".toList "     |   ^^^^^^^^^^^^^^^".toList <:+
      (diagnostic "prog.s" "noop\n  beq r0, r0, far" ⟨2, .undefinedLabel "far"⟩).toList := by
  have refused : assemble "noop\n  beq r0, r0, far" = .error ⟨2, .undefinedLabel "far"⟩ := rfl
  obtain ⟨-, -, raw, marks, line, -, ends, -, -, -, placed⟩ :=
    diagnostic_points_at_code refused "prog.s"
  obtain rfl : raw = "  beq r0, r0, far".toList := (Option.some.inj line).symm
  have early : 2 ≤ 9999 := by omega
  rw [placed.mpr ⟨early, byteCount_eq_length_iff.mp rfl⟩] at ends
  exact ⟨refused, ends⟩

theorem carets_under_bytes :
    assemble "é" = .error ⟨1, .unrecognizedInstruction "é"⟩ ∧ lines "é".toList = [['é']] ∧
    underline 1 ['é'] = "     | ^".toList ∧
    ¬ excerpt 1 ['é'] "     | ^".toList <:+
      (diagnostic "p.s" "é" ⟨1, .unrecognizedInstruction "é"⟩).toList ∧
    excerpt 1 ['é'] "     | ^^".toList <:+
      (diagnostic "p.s" "é" ⟨1, .unrecognizedInstruction "é"⟩).toList :=
  ⟨rfl, rfl, rfl, by decide, by decide⟩

end Rows

end Backstep.Asm
