import Mathlib.Data.List.Induction
import Backstep.Proofs.Asm.Resolution

/-!
Which source texts are accepted, and the error of every other one. A text is first laid out line by
line, then its statements are resolved in order, so no statement is blamed as long as some line
cannot stand where it does. What was resolved is never refused afterwards.
-/

namespace Backstep.Asm

open Isa Text

def definedLabels (rows : List (List Char)) : List Token := rows.filterMap lineLabel?

structure LaidOut (rows : List (List Char)) : Prop where
  single : ∀ row ∈ rows, secondLabel? row = none
  distinct : (definedLabels rows).Nodup
  loads : ∀ row ∈ rows, ∀ operands, lineOperation? row = some ⟨Operation.loadAddress, operands⟩ →
    operands.length = 2

/-- Why a line cannot stand after the earlier ones. -/
inductive Misplaced (earlier : List (List Char)) (row : List Char) : Cause → Prop
  | second {name : Token} : secondLabel? row = some name →
      Misplaced earlier row (.duplicateLabel (String.ofList name))
  | again {name : Token} : secondLabel? row = none → lineLabel? row = some name →
      name ∈ definedLabels earlier → Misplaced earlier row (.duplicateLabel (String.ofList name))
  | load {operands : List Token} : secondLabel? row = none →
      (∀ name, lineLabel? row = some name → name ∉ definedLabels earlier) →
      lineOperation? row = some ⟨Operation.loadAddress, operands⟩ → operands.length ≠ 2 →
      Misplaced earlier row (.arityMismatch Operation.loadAddress 2 operands.length)

def FirstMisplaced (rows : List (List Char)) (e : Error) : Prop :=
  ∃ j row, rows[j]? = some row ∧ LaidOut (rows.take j) ∧ Misplaced (rows.take j) row e.cause ∧
    e.line = j + 1

def statementsOf (rows : List (List Char)) : List Statement :=
  rows.zipIdx.flatMap fun (row, j) => (lineOperations row).map (Statement.mk · (j + 1))

def FirstRefused (rows : List (List Char)) (e : Error) : Prop :=
  ∃ i s, (statementsOf rows)[i]? = some s ∧
    (∀ j t, j < i → (statementsOf rows)[j]? = some t → Accepts rows j t.toOperation) ∧
    Refuses rows i s.toOperation e.cause ∧ e.line = s.line

variable {rows : List (List Char)} {row : List Char} {name : Token} {cause : Cause} {e : Error}
  {labels : Labels} {layout : Layout}

theorem mem_definedLabels : name ∈ definedLabels rows ↔ ∃ a, LabelAt rows name a := by
  rw [definedLabels, List.mem_filterMap]
  constructor
  · rintro ⟨row, mem, named⟩
    obtain ⟨j, hj, rfl⟩ := List.mem_iff_getElem.mp mem
    exact ⟨_, j, rows[j], List.getElem?_eq_getElem hj, named, rfl⟩
  · rintro ⟨_, j, row, at_j, named, -⟩
    exact ⟨row, List.mem_of_getElem? at_j, named⟩

theorem definedLabels_concat :
    definedLabels (rows ++ [row]) = definedLabels rows ++ (lineLabel? row).toList := by
  rw [definedLabels, List.filterMap_append, definedLabels]
  cases named : lineLabel? row <;> simp [named]

theorem statementsOf_concat : statementsOf (rows ++ [row]) =
    statementsOf rows ++ (lineOperations row).map (Statement.mk · (rows.length + 1)) := by
  simp [statementsOf, List.zipIdx_append]

theorem laidOut_concat :
    LaidOut (rows ++ [row]) ↔ LaidOut rows ∧ ∀ cause, ¬ Misplaced rows row cause := by
  constructor
  · intro h
    obtain ⟨distinct, -, new⟩ := List.nodup_append.mp (definedLabels_concat ▸ h.distinct)
    refine ⟨⟨fun r mem => h.single r (by simp [mem]), distinct,
      fun r mem => h.loads r (by simp [mem])⟩, ?_⟩
    intro cause misplaced
    cases misplaced with
    | second two => simp [h.single row (by simp)] at two
    | @again name _ named mem => exact new name mem name (by simp [named]) rfl
    | load _ _ stands arity => exact arity (h.loads row (by simp) _ stands)
  · rintro ⟨h, placed⟩
    have single : secondLabel? row = none := by
      by_contra two
      obtain ⟨name, two⟩ := Option.ne_none_iff_exists'.mp two
      exact placed _ (.second two)
    have new (name : Token) (named : lineLabel? row = some name) :
        name ∉ definedLabels rows := fun mem => placed _ (.again single named mem)
    refine ⟨?_, ?_, ?_⟩
    · simpa [or_imp, forall_and, single] using h.single
    · rw [definedLabels_concat, List.nodup_append]
      refine ⟨h.distinct, ?_, ?_⟩
      · cases lineLabel? row <;> simp
      · rintro a mem b named rfl
        exact new a (by simpa using named) mem
    · intro r mem operands stands
      obtain mem | mem := List.mem_append.mp mem
      · exact h.loads r mem operands stands
      · obtain rfl := List.mem_singleton.mp mem
        by_contra arity
        exact placed _ (.load single new stands arity)

theorem firstMisplaced_concat : FirstMisplaced (rows ++ [row]) e ↔ FirstMisplaced rows e ∨
    LaidOut rows ∧ Misplaced rows row e.cause ∧ e.line = rows.length + 1 := by
  constructor
  · rintro ⟨j, found, at_j, before, misplaced, line⟩
    obtain early | late := Nat.lt_or_ge j rows.length
    · rw [List.getElem?_append_left early] at at_j
      rw [List.take_append_of_le_length early.le] at before misplaced
      exact .inl ⟨j, found, at_j, before, misplaced, line⟩
    · obtain ⟨inside, rfl⟩ := List.getElem?_eq_some_iff.mp at_j
      obtain rfl : j = rows.length := by
        simp only [List.length_append, List.length_singleton] at inside
        omega
      rw [List.take_left' rfl] at before misplaced
      rw [List.getElem_concat_length rfl] at misplaced
      exact .inr ⟨before, misplaced, line⟩
  · rintro (⟨j, found, at_j, before, misplaced, line⟩ | ⟨before, misplaced, line⟩)
    · have early : j < rows.length := (List.getElem?_eq_some_iff.mp at_j).1
      refine ⟨j, found, by rw [List.getElem?_append_left early, at_j], ?_⟩
      rw [List.take_append_of_le_length early.le]
      exact ⟨before, misplaced, line⟩
    · refine ⟨rows.length, row, by simp, ?_⟩
      rw [List.take_left' rfl]
      exact ⟨before, misplaced, line⟩

theorem secondLabel?_of_lineLabel? (unlabelled : lineLabel? row = none) :
    secondLabel? row = none := by
  have first : splitLabel? (lineCode row) = none := Option.map_eq_none_iff.mp unlabelled
  rw [secondLabel?, lineBody, first]
  exact unlabelled

theorem Operation.expand_eq_error {op : Operation} : op.expand = .error cause ↔
    op.mnemonic = loadAddress ∧ op.operands.length ≠ 2 ∧
      cause = .arityMismatch loadAddress 2 op.operands.length := by
  rw [expand]
  by_cases load : op.mnemonic = loadAddress
  · rw [if_pos (beq_iff_eq.mpr load)]
    split
    case h_1 reg symbol two => simp [two]
    case h_2 other =>
      have arity : op.operands.length ≠ 2 := by
        intro two
        obtain ⟨reg, symbol, two⟩ := List.length_eq_two.mp two
        exact other reg symbol two
      simp [load, arity, eq_comm]
  · simp [load]

theorem LineBody.read_eq_error_iff : read (lineBody row) = .error cause ↔
    ∃ operands, lineOperation? row = some ⟨Operation.loadAddress, operands⟩ ∧
      operands.length ≠ 2 ∧
        cause = .arityMismatch Operation.loadAddress 2 operands.length := by
  rw [read, lineOperation?]
  cases Operation.ofCode? (lineBody row) with
  | none => simp
  | some op =>
    by_cases ignored : op.isIgnored
    · have other : op.mnemonic ≠ Operation.loadAddress := by
        rintro load
        simp [Operation.isIgnored, load, Operation.ignoredDirectives, Operation.loadAddress] at ignored
      obtain ⟨mnemonic, operands⟩ := op
      simp [ignored, other]
    · simp only [ignored, Bool.false_eq_true, if_false, map_eq_error, Operation.expand_eq_error]
      obtain ⟨mnemonic, operands⟩ := op
      simp

theorem Labels.checkNew_eq_error {label : Option Token} : labels.checkNew label = .error cause ↔
    ∃ name a, label = some name ∧ labels.lookup name = some a ∧
      cause = .duplicateLabel (String.ofList name) := by
  cases label with
  | none => simp [checkNew]
  | some name => cases found : labels.lookup name <;> simp [checkNew, found, eq_comm]

theorem LineContent.read_eq_error_iff
    (known : ∀ name, (∃ a, labels.lookup name = some a) ↔ name ∈ definedLabels rows) :
    read labels (lineCode row) = .error cause ↔ Misplaced rows row cause := by
  have fresh (name : Token) : labels.lookup name = none ↔ name ∉ definedLabels rows := by
    simp [← known, Option.eq_none_iff_forall_ne_some]
  rw [read, leadingLabel_lineCode]
  cases two : secondLabel? row with
  | some name =>
    simp only [error_bind, Except.error.injEq]
    constructor
    · rintro rfl
      exact .second two
    · intro h
      cases h with
      | second two' => simp_all
      | again none | load none => simp [none] at two
  | none =>
    simp only [ok_bind, bind_eq_error, Labels.checkNew_eq_error, Labels.checkNew_eq_ok, fresh,
      LineBody.read_eq_error_iff, pure_eq_ok, reduceCtorEq, and_false, exists_false, or_false]
    constructor
    · rintro (⟨name, a, named, found, rfl⟩ | ⟨-, new, operands, stands, arity, rfl⟩)
      · exact .again two named ((known name).mp ⟨a, found⟩)
      · exact .load two new stands arity
    · intro h
      cases h with
      | second two' => simp [two] at two'
      | again _ named mem =>
        obtain ⟨a, found⟩ := (known _).mpr mem
        exact .inl ⟨_, a, named, found, rfl⟩
      | load _ new stands arity => exact .inr ⟨(), new, _, stands, arity, rfl⟩

namespace Layout

theorem addLines_append (xs ys : List SourceLine) : layout.addLines (xs ++ ys) =
    match layout.addLines xs with
    | (final, none) => final.addLines ys
    | refused => refused := by
  induction xs generalizing layout with
  | nil => rfl
  | cons x xs ih =>
    rw [List.cons_append, addLines, addLines]
    split
    case h_1 => exact ih
    case h_2 => rfl

theorem ofRows_concat : ofRows (rows ++ [row]) =
    match ofRows rows with
    | (layout, none) =>
      match LineContent.read layout.labels (lineCode row) with
      | .ok content => (layout.add (rows.length + 1) content, none)
      | .error cause => (layout, some ⟨rows.length + 1, cause⟩)
    | refused => refused := by
  rw [ofRows, List.zipIdx_append, List.filterMap_append, addLines_append, ← ofRows]
  split
  case h_1 layout _ =>
    rw [List.zipIdx_singleton, Nat.zero_add, addLines_codeLine]
    rfl
  case h_2 => rfl

theorem refusal_concat (h : ofRows rows = (layout, none)) :
    (ofRows (rows ++ [row])).2 = some e ↔
      Misplaced rows row e.cause ∧ e.line = rows.length + 1 := by
  have known (name : Token) :
      (∃ a, layout.labels.lookup name = some a) ↔ name ∈ definedLabels rows := by
    simp only [lookup_of_ofRows h, mem_definedLabels]
  obtain ⟨line, cause⟩ := e
  rw [ofRows_concat, h, ← LineContent.read_eq_error_iff known]
  dsimp only
  cases LineContent.read layout.labels (lineCode row) with
  | ok content => simp
  | error cause => simp [and_comm, eq_comm]

theorem ofRows_eq_none_iff : (ofRows rows).2 = none ↔ LaidOut rows := by
  induction rows using List.reverseRecOn with
  | nil => exact ⟨fun _ => ⟨by simp, .nil, by simp⟩, fun _ => rfl⟩
  | append_singleton rows row ih =>
    rw [laidOut_concat, ← ih]
    rcases h : ofRows rows with ⟨layout, _ | e⟩
    · simp only [Option.eq_none_iff_forall_ne_some, ne_eq, refusal_concat h]
      refine ⟨fun none => ⟨by simp, fun cause misplaced => ?_⟩, fun none e failed => ?_⟩
      · exact none ⟨_, cause⟩ ⟨misplaced, rfl⟩
      · exact none.2 _ failed.1
    · simp [ofRows_concat, h]

theorem ofRows_eq_some_iff : (ofRows rows).2 = some e ↔ FirstMisplaced rows e := by
  induction rows using List.reverseRecOn with
  | nil => simp [ofRows, addLines, FirstMisplaced]
  | append_singleton rows row ih =>
    rw [firstMisplaced_concat, ← ih, ← ofRows_eq_none_iff]
    rcases h : ofRows rows with ⟨layout, _ | e⟩
    · simp [refusal_concat h]
    · simp [ofRows_concat, h]

theorem statements_of_ofRows (h : ofRows rows = (layout, none)) :
    layout.statements.toList = statementsOf rows := by
  induction rows using List.reverseRecOn generalizing layout with
  | nil =>
    cases h
    rfl
  | append_singleton rows row ih =>
    rw [ofRows_concat] at h
    rcases before : ofRows rows with ⟨earlier, _ | e⟩
    · rw [before] at h
      dsimp only at h
      split at h
      case h_1 content read =>
        cases h
        obtain ⟨-, -, ops, -⟩ := LineContent.read_eq_ok read
        rw [statements_add, ih before, statementsOf_concat, ops]
      case h_2 => cases h
    · rw [before] at h
      cases h

end Layout

variable {source : String}

theorem exists_assemble_eq_ok_iff : (∃ words, assemble source = .ok words) ↔
    ∃ layout, Layout.ofRows (lines source.toList) = (layout, none) ∧
      ∃ resolved, layout.resolve = .ok resolved := by
  rw [assemble, assembleChars, Layout.ofSource_eq_ofRows]
  rcases Layout.ofRows (lines source.toList) with ⟨layout, _ | e⟩
  · simp [Layout.exists_assemble_iff]
  · simp

theorem assemble_eq_error_iff : assemble source = .error e ↔
    (Layout.ofRows (lines source.toList)).2 = some e ∨
      ∃ layout, Layout.ofRows (lines source.toList) = (layout, none) ∧
        layout.resolve = .error e := by
  rw [assemble, assembleChars, Layout.ofSource_eq_ofRows]
  rcases Layout.ofRows (lines source.toList) with ⟨layout, _ | e'⟩
  · simp only [Layout.assemble, bind_eq_error, Prod.mk.injEq, and_true, exists_eq_left',
      reduceCtorEq, false_or]
    refine or_iff_left ?_
    rintro ⟨resolved, h, refused⟩
    obtain ⟨words, encoded⟩ := Layout.exists_encodeAll_of_resolve h
    simp [encoded] at refused
  · simp

namespace Layout

variable (h : ofRows rows = (layout, none))
include h

theorem exists_resolve_iff_accepts : (∃ resolved, layout.resolve = .ok resolved) ↔
    ∀ i s, (statementsOf rows)[i]? = some s → Accepts rows i s.toOperation := by
  simp only [exists_resolve_iff, statements_of_ofRows h,
    Asm.exists_resolve_iff (lookup_of_ofRows h)]

theorem resolve_eq_error_iff_refused : layout.resolve = .error e ↔ FirstRefused rows e := by
  simp only [resolve_eq_error_iff, statements_of_ofRows h,
    Asm.exists_resolve_iff (lookup_of_ofRows h), Asm.resolve_eq_error_iff (lookup_of_ofRows h),
    FirstRefused]

end Layout

theorem exists_ofRows_iff :
    (∃ layout, Layout.ofRows rows = (layout, none)) ↔ LaidOut rows := by
  rw [← Layout.ofRows_eq_none_iff]
  rcases Layout.ofRows rows with ⟨layout, refusal⟩
  simp

/-- A text is accepted just if its lines can stand where they do and every statement is accepted.
Else the error is that of the first misplaced line, or of the first refused statement if there is
no such line. What was resolved is never refused when it is encoded. -/
theorem assemble_reports (source : String) :
    ((∃ words, assemble source = .ok words) ↔
      LaidOut (lines source.toList) ∧ ∀ i s, (statementsOf (lines source.toList))[i]? = some s →
        Accepts (lines source.toList) i s.toOperation) ∧
    (∀ e, assemble source = .error e ↔ FirstMisplaced (lines source.toList) e ∨
      LaidOut (lines source.toList) ∧ FirstRefused (lines source.toList) e) ∧
    ∀ layout resolved, Layout.ofSource source.toList = (layout, none) →
      layout.resolve = .ok resolved → ∃ words, encodeAll resolved = .ok words := by
  refine ⟨?_, fun e => ?_, fun layout resolved _ => Layout.exists_encodeAll_of_resolve⟩
  · rw [exists_assemble_eq_ok_iff, ← exists_ofRows_iff]
    constructor
    · rintro ⟨layout, laid, resolves⟩
      exact ⟨⟨layout, laid⟩, (Layout.exists_resolve_iff_accepts laid).mp resolves⟩
    · rintro ⟨⟨layout, laid⟩, accepts⟩
      exact ⟨layout, laid, (Layout.exists_resolve_iff_accepts laid).mpr accepts⟩
  · rw [assemble_eq_error_iff, Layout.ofRows_eq_some_iff, ← exists_ofRows_iff]
    refine or_congr_right ?_
    constructor
    · rintro ⟨layout, laid, failed⟩
      exact ⟨⟨layout, laid⟩, (Layout.resolve_eq_error_iff_refused laid).mp failed⟩
    · rintro ⟨⟨layout, laid⟩, refused⟩
      exact ⟨layout, laid, (Layout.resolve_eq_error_iff_refused laid).mpr refused⟩

theorem assemble_reports_of_displacement :
    assemble "lw r1, 16(r2)\nx: y: noop" = .error ⟨2, .duplicateLabel "y"⟩ ∧
    FirstMisplaced (lines "lw r1, 16(r2)\nx: y: noop".toList) ⟨2, .duplicateLabel "y"⟩ ∧
    assemble "lw r1, 16(r2)\nx: noop" = .error ⟨1, .offsetTooLarge 16⟩ ∧
    FirstRefused (lines "lw r1, 16(r2)\nx: noop".toList) ⟨1, .offsetTooLarge 16⟩ ∧
    LaidOut (lines "lw r1, x(r2)\nx: noop".toList) := by
  have crowded : assemble "lw r1, 16(r2)\nx: y: noop" = .error ⟨2, .duplicateLabel "y"⟩ := rfl
  have far : assemble "lw r1, 16(r2)\nx: noop" = .error ⟨1, .offsetTooLarge 16⟩ := rfl
  have fine : assemble "lw r1, x(r2)\nx: noop" = .ok [0x6281, 0] := rfl
  refine ⟨crowded, ?_, far, ?_, ((assemble_reports _).1.mp ⟨_, fine⟩).1⟩
  · obtain misplaced | ⟨laid, -⟩ := ((assemble_reports _).2.1 _).mp crowded
    · exact misplaced
    · cases laid.single "x: y: noop".toList (by decide)
  · obtain ⟨_, _, _, _, misplaced, _⟩ | ⟨-, refused⟩ := ((assemble_reports _).2.1 _).mp far
    · cases misplaced
    · exact refused

end Backstep.Asm
