import Backstep.Proofs.Asm.SourceLines
import Backstep.Proofs.Text.SplitLaws

namespace Backstep.Asm

open Text

variable {row blanks text : List Char}

theorem stripComment_append_comment : stripComment (row ++ '#' :: text) = stripComment row := by
  rw [stripComment, List.takeWhile_append, stripComment]
  split
  case isTrue whole =>
    rw [(List.takeWhile_prefix _).eq_of_length whole]
    simp
  case isFalse => rfl

theorem lineCode_append_comment : lineCode (row ++ '#' :: text) = lineCode row := by
  rw [lineCode, stripComment_append_comment, lineCode]

theorem ne_comment {c : Char} (blank : isBlank c = true) : (c != '#') = true := by
  rw [bne_iff_ne]
  rintro rfl
  cases blank

theorem lineCode_append_blanks (all : ∀ c ∈ blanks, isBlank c = true) :
    lineCode (row ++ blanks) = lineCode row := by
  rw [lineCode, lineCode, stripComment, stripComment, List.takeWhile_append]
  split
  case isFalse => rfl
  case isTrue whole =>
    rw [(List.takeWhile_prefix _).eq_of_length whole,
      List.takeWhile_eq_self_iff.mpr fun c mem => ne_comment (all c mem), trim_append_blanks all]

theorem lineCode_blanks_append (all : ∀ c ∈ blanks, isBlank c = true) :
    lineCode (blanks ++ row) = lineCode row := by
  rw [lineCode, lineCode, stripComment, stripComment,
    List.takeWhile_append_of_pos fun c mem => ne_comment (all c mem), trim_blanks_append all]

theorem isBlank_return : ∀ c ∈ ['\r'], isBlank c = true := by
  rw [List.forall_mem_singleton]
  rfl

theorem lineCode_dropReturn : lineCode (dropReturn row) = lineCode row := by
  rw [dropReturn]
  split
  case isFalse => rfl
  case isTrue last =>
    obtain ⟨front, rfl⟩ := List.getLast?_eq_some_iff.mp last
    rw [List.dropLast_concat, lineCode_append_blanks isBlank_return]

namespace Layout

theorem codeLine?_dropReturn {i : Nat} : codeLine? (dropReturn row, i) = codeLine? (row, i) := by
  rw [codeLine?, lineCode_dropReturn, codeLine?]

theorem filterMap_codeLine?_lines (source : List Char) (start : Nat) :
    ((lines source).zipIdx start).filterMap codeLine? =
      ((cut (· == '\n') source).zipIdx start).filterMap codeLine? := by
  obtain ⟨front, last, pieces⟩ := exists_cut_eq_concat (· == '\n') source
  have rows : lines source = front.map dropReturn ++ [last].filter (!·.isEmpty) := by
    rw [lines, pieces]
    simp
  have final (k : Nat) : (([last].filter (!·.isEmpty)).zipIdx k).filterMap codeLine? =
      ([last].zipIdx k).filterMap codeLine? := by
    cases last <;> rfl
  rw [rows, pieces, List.zipIdx_append, List.zipIdx_append, List.filterMap_append,
    List.filterMap_append, final, List.zipIdx_map, List.filterMap_map, List.length_map]
  simp only [Function.comp_def, Prod.map, codeLine?_dropReturn, id_eq]

theorem ofSource_eq_ofRows_cut (source : List Char) :
    ofSource source = ofRows (cut (· == '\n') source) :=
  congrArg (addLines .empty) (filterMap_codeLine?_lines source 0)

theorem ofRows_concat_nil (rows : List (List Char)) : ofRows (rows ++ [[]]) = ofRows rows := by
  have bare (i : Nat) : codeLine? ([], i) = none := rfl
  simp [ofRows, List.zipIdx_append, bare]

end Layout

theorem codeLines_append (first second : List Char) : ∃ start,
    codeLines (first ++ '\n' :: second) =
      codeLines first ++ ((lines second).zipIdx start).filterMap Layout.codeLine? := by
  have found (source : List Char) : codeLines source =
      (cut (· == '\n') source).zipIdx.filterMap Layout.codeLine? :=
    Layout.filterMap_codeLine?_lines source 0
  refine ⟨(cut (· == '\n') first).length, ?_⟩
  rw [found, found, cut_append_cons rfl, List.zipIdx_append, List.filterMap_append, Nat.zero_add,
    Layout.filterMap_codeLine?_lines]

end Backstep.Asm
