import Backstep.Proofs.Asm.CodeLines
import Backstep.Proofs.Asm.Renumbering

namespace Backstep.Asm

open Text

inductive NoCode : List Char → Prop
  | blank {blanks : List Char} : (∀ c ∈ blanks, isBlank c = true) → NoCode blanks
  | comment {blanks text : List Char} : (∀ c ∈ blanks, isBlank c = true) →
      NoCode (blanks ++ '#' :: text)

def StartsLine (before : List Char) : Prop := before = [] ∨ before.getLast? = some '\n'

inductive EndsLine : List Char → Prop
  | last : EndsLine []
  | newline {after : List Char} : EndsLine ('\n' :: after)
  | carriageReturn {after : List Char} : EndsLine ('\r' :: '\n' :: after)

def withReturns (text : List Char) : List Char :=
  text.flatMap fun c => if c = '\n' then ['\r', '\n'] else [c]

/-- One change of a text that leaves its code as it is, and the new number of each line. -/
inductive Change : List Char → List Char → (Nat → Nat) → Prop
  | insert {before row after : List Char} : StartsLine before → NoCode row → '\n' ∉ row →
      Change (before ++ after) (before ++ row ++ '\n' :: after)
        fun line => if line ≤ before.count '\n' then line else line + 1
  | append {text row : List Char} : NoCode row → '\n' ∉ row → Change text (text ++ '\n' :: row) id
  | comment {before text after : List Char} : EndsLine after → '\n' ∉ text →
      Change (before ++ after) (before ++ '#' :: text ++ after) id
  | blanks {before blanks after : List Char} : StartsLine before ∨ EndsLine after →
      (∀ c ∈ blanks, isBlank c = true) → '\n' ∉ blanks →
      Change (before ++ after) (before ++ blanks ++ after) id
  | returns {text : List Char} : Change text (withReturns text) id

inductive Changes : List Char → List Char → (Nat → Nat) → Prop
  | none {source : List Char} : Changes source source id
  | more {source middle target : List Char} {f g : Nat → Nat} : Changes source middle f →
      Change middle target g → Changes source target (g ∘ f)

def lineCodes (source : List Char) : List (List Char) := (cut (· == '\n') source).map lineCode

def numbered (codes : List (List Char)) : List SourceLine :=
  codes.zipIdx.filterMap fun (code, i) => if code.isEmpty then none else some ⟨i + 1, code⟩

theorem codeLines_eq_numbered (source : List Char) :
    codeLines source = numbered (lineCodes source) := by
  rw [numbered, lineCodes, List.zipIdx_map, List.filterMap_map]
  exact Layout.filterMap_codeLine?_lines source 0

theorem numbered_insert (front back : List (List Char)) :
    numbered (front ++ [] :: back) = (numbered (front ++ back)).map
      (·.renumber fun line => if line ≤ front.length then line else line + 1) := by
  rw [numbered, numbered, List.map_filterMap, List.zipIdx_append, List.zipIdx_append,
    List.filterMap_append, List.filterMap_append, List.zipIdx_cons, List.filterMap_cons,
    List.zipIdx_succ, List.filterMap_map]
  congr 1
  · refine List.filterMap_congr ?_
    rintro ⟨code, i⟩ mem
    have before : i + 1 ≤ front.length := by
      have := List.snd_lt_of_mem_zipIdx mem
      omega
    dsimp only
    split
    · rfl
    · simp [SourceLine.renumber, before]
  · refine List.filterMap_congr ?_
    rintro ⟨code, i⟩ mem
    have after : ¬ i + 1 ≤ front.length := by
      have := List.le_snd_of_mem_zipIdx mem
      omega
    dsimp only [Function.comp_apply]
    split
    · rfl
    · simp [SourceLine.renumber, after]

theorem numbered_concat_nil (codes : List (List Char)) :
    numbered (codes ++ [[]]) = numbered codes := by
  simp [numbered, List.zipIdx_append]

theorem NoCode.lineCode_eq_nil {row : List Char} (h : NoCode row) : lineCode row = [] := by
  have empty {blanks : List Char} (all : ∀ c ∈ blanks, isBlank c = true) : lineCode blanks = [] := by
    rw [← List.append_nil blanks, lineCode_blanks_append all]
    rfl
  cases h with
  | blank all => exact empty all
  | comment all => rw [lineCode_append_comment, empty all]

theorem StartsLine.exists_cut {before : List Char} (h : StartsLine before) :
    ∃ front, front.length = before.count '\n' ∧
      ∀ after, cut (· == '\n') (before ++ after) = front ++ cut (· == '\n') after := by
  obtain rfl | last := h
  · exact ⟨[], rfl, fun after => rfl⟩
  · obtain ⟨front, rfl⟩ := List.getLast?_eq_some_iff.mp last
    refine ⟨cut (· == '\n') front, ?_, fun after => ?_⟩
    · rw [length_cut, List.count_append, List.count_singleton_self]
    · rw [List.append_assoc, List.singleton_append, cut_append_cons rfl]

theorem EndsLine.exists_cut {after : List Char} (h : EndsLine after) :
    ∃ blanks back, (∀ c ∈ blanks, isBlank c = true) ∧ ∀ before front last,
      cut (· == '\n') before = front ++ [last] →
        cut (· == '\n') (before ++ after) = front ++ (last ++ blanks) :: back := by
  cases h with
  | last => exact ⟨[], [], by simp, fun before front last eq => by simpa using eq⟩
  | @newline after =>
    refine ⟨[], cut (· == '\n') after, by simp, fun before front last eq => ?_⟩
    rw [cut_append_cons rfl, eq]
    simp
  | @carriageReturn after =>
    refine ⟨['\r'], cut (· == '\n') after, isBlank_return, fun before front last eq => ?_⟩
    rw [List.append_cons, cut_append_cons rfl, cut_append_inside (by simp) eq]
    simp

section Codes

variable {before after row blanks text : List Char}

theorem lineCodes_insert (starts : StartsLine before) (bare : NoCode row) (inside : '\n' ∉ row) :
    ∃ front back, front.length = before.count '\n' ∧
      lineCodes (before ++ after) = front ++ back ∧
      lineCodes (before ++ row ++ '\n' :: after) = front ++ [] :: back := by
  obtain ⟨front, length, pieces⟩ := starts.exists_cut
  refine ⟨front.map lineCode, lineCodes after, ?_, ?_, ?_⟩
  · rw [List.length_map, length]
  · rw [lineCodes, pieces, List.map_append, lineCodes]
  · rw [lineCodes, List.append_assoc, pieces, cut_append (ne_separator inside) rfl, List.map_append,
      List.map_cons, bare.lineCode_eq_nil, lineCodes]

theorem lineCodes_append (bare : NoCode row) (inside : '\n' ∉ row) :
    lineCodes (text ++ '\n' :: row) = lineCodes text ++ [[]] := by
  rw [lineCodes, cut_append_cons rfl, cut_eq_singleton (ne_separator inside), List.map_append,
    List.map_singleton, bare.lineCode_eq_nil, lineCodes]

theorem lineCodes_behind (ends : EndsLine after) (inside : '\n' ∉ text)
    (same : ∀ last blanks, (∀ c ∈ blanks, isBlank c = true) →
      lineCode (last ++ text ++ blanks) = lineCode last) :
    lineCodes (before ++ text ++ after) = lineCodes (before ++ after) := by
  obtain ⟨blanks, back, all, ends⟩ := ends.exists_cut
  obtain ⟨front, last, pieces⟩ := exists_cut_eq_concat (· == '\n') before
  have longer := cut_append_inside (ne_separator inside) pieces
  rw [lineCodes, lineCodes, ends _ _ _ longer, ends _ _ _ pieces, List.map_append, List.map_append,
    List.map_cons, List.map_cons, same last blanks all, lineCode_append_blanks all]

theorem lineCodes_before (starts : StartsLine before) (inside : '\n' ∉ blanks)
    (all : ∀ c ∈ blanks, isBlank c = true) :
    lineCodes (before ++ blanks ++ after) = lineCodes (before ++ after) := by
  obtain ⟨front, -, pieces⟩ := starts.exists_cut
  obtain ⟨first, rest, eq⟩ := exists_cut_eq_cons (· == '\n') after
  rw [lineCodes, lineCodes, List.append_assoc, pieces, pieces,
    cut_inside_append (ne_separator inside) eq, eq, List.map_append, List.map_append, List.map_cons,
    List.map_cons, lineCode_blanks_append all]

theorem lineCodes_cons (inside : '\n' ∉ row) :
    lineCodes (row ++ '\n' :: text) = lineCode row :: lineCodes text := by
  rw [lineCodes, cut_append (ne_separator inside) rfl, List.map_cons, lineCodes]

theorem withReturns_append : withReturns (row ++ text) = withReturns row ++ withReturns text :=
  List.flatMap_append

theorem withReturns_eq_self (inside : '\n' ∉ row) : withReturns row = row := by
  induction row with
  | nil => rfl
  | cons c row ih =>
    rw [List.mem_cons, not_or] at inside
    rw [withReturns, List.flatMap_cons, if_neg (Ne.symm inside.1), List.singleton_append,
      ← withReturns, ih inside.2]

theorem lineCodes_withReturns (text : List Char) : lineCodes (withReturns text) = lineCodes text := by
  -- The induction is on the lines of the text, which are put together again.
  have rows (pieces : List (List Char)) (inside : ∀ row ∈ pieces, '\n' ∉ row) :
      lineCodes (withReturns (['\n'].intercalate pieces)) = lineCodes (['\n'].intercalate pieces) := by
    induction pieces with
    | nil => rfl
    | cons row rest ih =>
      rw [List.forall_mem_cons] at inside
      obtain ⟨plain, inside⟩ := inside
      cases rest with
      | nil => rw [List.intercalate_singleton, withReturns_eq_self plain]
      | cons next rest =>
        have closed : '\n' ∉ row ++ ['\r'] := by simpa using plain
        rw [List.intercalate_cons_cons, withReturns_append, withReturns_append,
          withReturns_eq_self plain, show withReturns ['\n'] = ['\r'] ++ ['\n'] from rfl,
          ← List.append_assoc, List.append_assoc (row ++ ['\r']), List.singleton_append,
          lineCodes_cons closed, lineCode_append_blanks isBlank_return, ih inside,
          List.append_assoc row, List.singleton_append, lineCodes_cons plain]
  rw [← intercalate_cut '\n' text]
  refine rows _ fun row mem newline => ?_
  cases not_of_mem_cut mem _ newline

end Codes

theorem SourceLine.map_renumber_id (sources : List SourceLine) :
    sources.map (·.renumber id) = sources :=
  List.map_id _

theorem Change.codeLines_eq {source target : List Char} {f : Nat → Nat}
    (h : Change source target f) :
    codeLines target = (codeLines source).map (·.renumber f) := by
  have unmoved {target : List Char} (same : lineCodes target = lineCodes source) :
      codeLines target = (codeLines source).map (·.renumber id) := by
    rw [codeLines_eq_numbered, same, SourceLine.map_renumber_id, codeLines_eq_numbered]
  cases h with
  | insert starts bare inside =>
    obtain ⟨front, back, length, old, new⟩ := lineCodes_insert starts bare inside
    rw [codeLines_eq_numbered, codeLines_eq_numbered, old, new, numbered_insert, length]
  | append bare inside =>
    rw [codeLines_eq_numbered, lineCodes_append bare inside, numbered_concat_nil,
      SourceLine.map_renumber_id, codeLines_eq_numbered]
  | comment ends inside =>
    refine unmoved (lineCodes_behind ends ?_ fun last blanks _ => ?_)
    · simpa using inside
    · rw [List.append_assoc, List.cons_append, lineCode_append_comment]
  | blanks side all inside =>
    obtain starts | ends := side
    · exact unmoved (lineCodes_before starts inside all)
    · refine unmoved (lineCodes_behind ends inside fun last blanks more => ?_)
      rw [lineCode_append_blanks more, lineCode_append_blanks all]
  | returns => exact unmoved (lineCodes_withReturns _)

theorem Changes.codeLines_eq {source target : List Char} {f : Nat → Nat}
    (h : Changes source target f) :
    codeLines target = (codeLines source).map (·.renumber f) := by
  induction h with
  | none => exact (SourceLine.map_renumber_id _).symm
  | more _ change ih =>
    rw [change.codeLines_eq, ih, List.map_map]
    rfl

/-- A changed text makes the same words, or the same error at the line that has moved. -/
theorem assemble_of_changes {source target : String} {f : Nat → Nat}
    (h : Changes source.toList target.toList f) :
    (∀ words, assemble target = .ok words ↔ assemble source = .ok words) ∧
      ∀ e, assemble source = .error e → assemble target = .error { e with line := f e.line } := by
  rw [assemble, assemble, assembleChars_of_renumber h.codeLines_eq]
  cases assembleChars source.toList with
  | error e => simp [Except.mapError, Error.renumber]
  | ok words => simp [Except.mapError]

theorem assemble_of_changes_of_heading :
    (∃ e, assemble "noop\nx: bogus r1\n" = .error e ∧ e.line = 2) ∧
      ∃ e, assemble "# heading\r\nnoop# once\r\n x: bogus r1\r\n" = .error e ∧ e.line = 3 := by
  have heading := @Change.insert [] "# heading".toList "noop\nx: bogus r1\n".toList (.inl rfl)
    (@NoCode.comment [] _ (by simp)) (by decide)
  have comment := @Change.comment "# heading\nnoop".toList " once".toList
    "\nx: bogus r1\n".toList .newline (by decide)
  have indent := @Change.blanks "# heading\nnoop# once\n".toList " ".toList
    "x: bogus r1\n".toList (.inl (.inr rfl)) (List.forall_mem_singleton.mpr rfl) (by decide)
  have changes : Changes "noop\nx: bogus r1\n".toList
      "# heading\r\nnoop# once\r\n x: bogus r1\r\n".toList _ :=
    (((Changes.none.more heading).more comment).more indent).more .returns
  obtain ⟨e, fails, line⟩ : ∃ e, assemble "noop\nx: bogus r1\n" = .error e ∧ e.line = 2 :=
    ⟨_, rfl, rfl⟩
  refine ⟨⟨e, fails, line⟩, _, (assemble_of_changes changes).2 e fails, ?_⟩
  simp [line]

end Backstep.Asm
