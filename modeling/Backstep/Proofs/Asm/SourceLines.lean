import Mathlib.Algebra.Order.Ring.Nat
import Backstep.Asm.Diagnostic
import Backstep.Proofs.ExceptLaws

namespace Backstep.Asm

open Text

def lineCode (row : List Char) : List Char := trim (stripComment row)

def lineLabel? (row : List Char) : Option Token := (splitLabel? (lineCode row)).map (·.1)

def lineBody (row : List Char) : List Char :=
  match splitLabel? (lineCode row) with
  | some (_, rest) => rest
  | none => lineCode row

def secondLabel? (row : List Char) : Option Token := (splitLabel? (lineBody row)).map (·.1)

def lineOperation? (row : List Char) : Option Operation := Operation.ofCode? (lineBody row)

def lineOperations (row : List Char) : List Operation :=
  match lineOperation? row with
  | none => []
  | some op =>
    if op.isIgnored then []
    else if op.mnemonic = Operation.loadAddress then
      match op.operands with
      | [reg, symbol] => Operation.loadAddressBody reg symbol
      | _ => []
    else [op]

def lineWidth (row : List Char) : Nat :=
  match lineOperation? row with
  | none => 0
  | some op =>
    if op.isIgnored then 0 else if op.mnemonic = Operation.loadAddress then 4 else 1

def wordsBefore (rows : List (List Char)) (count : Nat) : Nat :=
  ((rows.take count).map lineWidth).sum

/-- The label stands on a line, after as many words as its address says. -/
def LabelAt (rows : List (List Char)) (name : Token) (address : Nat) : Prop :=
  ∃ j row, rows[j]? = some row ∧ lineLabel? row = some name ∧ address = wordsBefore rows j

variable {rows : List (List Char)} {row : List Char} {name : Token} {address : Nat}

@[simp] theorem wordsBefore_zero : wordsBefore rows 0 = 0 := rfl

@[simp] theorem wordsBefore_cons_succ (j : Nat) :
    wordsBefore (row :: rows) (j + 1) = lineWidth row + wordsBefore rows j := by
  simp [wordsBefore]

theorem labelAt_nil : ¬ LabelAt [] name address := by
  rintro ⟨j, row, at_j, -⟩
  cases at_j

theorem labelAt_cons :
    LabelAt (row :: rows) name address ↔
      lineLabel? row = some name ∧ address = 0 ∨
        ∃ later, LabelAt rows name later ∧ address = lineWidth row + later := by
  constructor
  · rintro ⟨j, found, at_j, named, rfl⟩
    cases j with
    | zero =>
      cases at_j
      exact .inl ⟨named, wordsBefore_zero⟩
    | succ j => exact .inr ⟨_, ⟨j, found, at_j, named, rfl⟩, wordsBefore_cons_succ j⟩
  · rintro (⟨named, rfl⟩ | ⟨_, ⟨j, found, at_j, named, rfl⟩, rfl⟩)
    · exact ⟨0, row, rfl, named, wordsBefore_zero.symm⟩
    · exact ⟨j + 1, found, at_j, named, (wordsBefore_cons_succ j).symm⟩

theorem getElem?_flatMap_lineOperations {j k : Nat}
    (widths : ∀ row ∈ rows, (lineOperations row).length = lineWidth row)
    (at_j : rows[j]? = some row) (hk : k < (lineOperations row).length) :
    (rows.flatMap lineOperations)[wordsBefore rows j + k]? = (lineOperations row)[k]? := by
  induction rows generalizing j with
  | nil => cases at_j
  | cons first rest ih =>
    rw [List.flatMap_cons]
    cases j with
    | zero =>
      cases at_j
      rw [wordsBefore_zero, Nat.zero_add, List.getElem?_append_left hk]
    | succ j =>
      have first_width := widths first List.mem_cons_self
      rw [wordsBefore_cons_succ, Nat.add_assoc, ← first_width,
        List.getElem?_append_right (Nat.le_add_right ..), Nat.add_sub_cancel_left]
      exact ih (fun row mem => widths row (List.mem_cons_of_mem _ mem)) at_j

theorem length_flatMap_lineOperations
    (widths : ∀ row ∈ rows, (lineOperations row).length = lineWidth row) :
    (rows.flatMap lineOperations).length = (rows.map lineWidth).sum := by
  rw [List.length_flatMap, List.map_congr_left widths]

theorem leadingLabel_lineCode : leadingLabel (lineCode row) =
    match secondLabel? row with
    | none => .ok (lineLabel? row, lineBody row)
    | some name => .error (.duplicateLabel (String.ofList name)) := by
  rw [leadingLabel, secondLabel?, lineLabel?, lineBody]
  cases first : splitLabel? (lineCode row) with
  | none => simp [first]
  | some parts =>
    obtain ⟨name, rest⟩ := parts
    dsimp only
    cases splitLabel? rest <;> rfl

theorem leadingLabel_eq_ok {rest : List Char} {label : Option Token}
    (h : leadingLabel (lineCode row) = .ok (label, rest)) :
    label = lineLabel? row ∧ rest = lineBody row := by
  rw [leadingLabel_lineCode] at h
  split at h <;> cases h
  exact ⟨rfl, rfl⟩

theorem lineOperations_eq_word {symbol : Token}
    (stands : lineOperation? row = some ⟨Operation.wordDirective, [symbol]⟩) :
    lineOperations row = [⟨Operation.wordDirective, [symbol]⟩] := by
  rw [lineOperations, stands]
  rfl

theorem lineOperations_eq_loadAddressBody {reg symbol : Token}
    (stands : lineOperation? row = some ⟨Operation.loadAddress, [reg, symbol]⟩) :
    lineOperations row = Operation.loadAddressBody reg symbol := by
  rw [lineOperations, stands]
  rfl

def LineBody.emitted : LineBody → List Operation
  | .operations ops => ops
  | _ => []

theorem Operation.expand_eq_ok {op : Operation} {ops : List Operation} (h : op.expand = .ok ops) :
    (ops = if op.mnemonic = loadAddress then
        match op.operands with
        | [reg, symbol] => loadAddressBody reg symbol
        | _ => []
      else [op]) ∧ ops.length = if op.mnemonic = loadAddress then 4 else 1 := by
  obtain ⟨mnemonic, operands⟩ := op
  rw [expand] at h
  by_cases load : mnemonic = loadAddress
  · rw [if_pos (beq_iff_eq.mpr load)] at h
    rw [if_pos load, if_pos load]
    match operands with
    | [reg, symbol] =>
      cases h
      exact ⟨rfl, rfl⟩
    | [] | [_] | _ :: _ :: _ :: _ => cases h
  · rw [if_neg (mt beq_iff_eq.mp load)] at h
    cases h
    rw [if_neg load, if_neg load]
    exact ⟨rfl, rfl⟩

theorem LineBody.read_eq_ok {body : LineBody} (h : read (lineBody row) = .ok body) :
    body.emitted = lineOperations row ∧ body.emitted.length = lineWidth row := by
  rw [lineOperations, lineWidth, lineOperation?]
  rw [read] at h
  cases found : Operation.ofCode? (lineBody row) with
  | none =>
    rw [found] at h
    cases h
    exact ⟨rfl, rfl⟩
  | some op =>
    rw [found] at h
    dsimp only at h ⊢
    by_cases ignored : op.isIgnored
    · rw [if_pos ignored] at h
      cases h
      simp [ignored, emitted]
    · rw [if_neg ignored] at h
      obtain ⟨ops, expanded, rfl⟩ := map_eq_ok.mp h
      rw [if_neg ignored, if_neg ignored, emitted]
      exact Operation.expand_eq_ok expanded

theorem Labels.checkNew_eq_ok {labels : Labels} {label : Option Token} {u : Unit} :
    labels.checkNew label = .ok u ↔ ∀ name, label = some name → labels.lookup name = none := by
  cases label with
  | none => simp [checkNew]
  | some name =>
    rw [checkNew]
    simp only [Option.some.injEq, forall_eq']
    cases labels.lookup name <;> simp

theorem LineContent.read_eq_ok {labels : Labels} {content : LineContent}
    (h : read labels (lineCode row) = .ok content) :
    content.label = lineLabel? row ∧
      (∀ name, content.label = some name → labels.lookup name = none) ∧
      content.body.emitted = lineOperations row ∧
      content.body.emitted.length = lineWidth row := by
  obtain ⟨⟨label, rest⟩, leading, h⟩ := bind_eq_ok.mp h
  obtain ⟨⟨⟩, new, h⟩ := bind_eq_ok.mp h
  obtain ⟨body, hbody, h⟩ := bind_eq_ok.mp h
  cases h
  obtain ⟨rfl, rfl⟩ := leadingLabel_eq_ok leading
  exact ⟨rfl, Labels.checkNew_eq_ok.mp new, LineBody.read_eq_ok hbody⟩

namespace Layout

variable {layout final : Layout} {line : Nat} {content : LineContent}

def operations (layout : Layout) : List Operation :=
  layout.statements.toList.map (·.toOperation)

theorem length_operations : layout.operations.length = layout.statements.size := by
  simp [operations]

theorem statements_add {line : Nat} {content : LineContent} :
    (layout.add line content).statements.toList =
      layout.statements.toList ++ content.body.emitted.map (Statement.mk · line) := by
  obtain ⟨label, body⟩ := content
  have defined : (layout.define label).statements = layout.statements := by cases label <;> rfl
  cases body <;> simp [add, place, LineBody.emitted, defined]

theorem operations_add :
    (layout.add line content).operations = layout.operations ++ content.body.emitted := by
  rw [operations, statements_add, List.map_append, List.map_map]
  simp [operations, Function.comp_def]

theorem labels_add : (layout.add line content).labels = (layout.define content.label).labels := by
  cases content with
  | mk label body => cases body <;> rfl

theorem lookup_add (new : ∀ name, content.label = some name → layout.labels.lookup name = none) :
    (layout.add line content).labels.lookup name = some address ↔
      layout.labels.lookup name = some address ∨
        content.label = some name ∧ address = layout.statements.size := by
  rw [labels_add]
  cases named : content.label with
  | none => simp [define]
  | some label =>
    rw [define, List.lookup_cons]
    by_cases same : name = label
    · subst same
      simp [new name named, eq_comm]
    · have other : (name == label) = false := beq_false_of_ne same
      have other' : label ≠ name := Ne.symm same
      simp [other, other']

inductive Lays : Layout → List (List Char) → Layout → Prop
  | nil {layout : Layout} : Lays layout [] layout
  | cons {layout final : Layout} {row : List Char} {rows : List (List Char)} {line : Nat}
      {content : LineContent} : LineContent.read layout.labels (lineCode row) = .ok content →
      Lays (layout.add line content) rows final → Lays layout (row :: rows) final

theorem Lays.operations (lays : Lays layout rows final) :
    final.operations = layout.operations ++ rows.flatMap lineOperations := by
  induction lays with
  | nil => simp
  | cons read _ ih =>
    obtain ⟨-, -, ops, -⟩ := LineContent.read_eq_ok read
    rw [ih, operations_add, ops, List.flatMap_cons, List.append_assoc]

theorem Lays.widths (lays : Lays layout rows final) :
    ∀ row ∈ rows, (lineOperations row).length = lineWidth row := by
  induction lays with
  | nil => simp
  | cons read _ ih =>
    obtain ⟨-, -, ops, width⟩ := LineContent.read_eq_ok read
    rw [List.forall_mem_cons]
    exact ⟨ops ▸ width, ih⟩

theorem Lays.lookup (lays : Lays layout rows final) :
    final.labels.lookup name = some address ↔
      layout.labels.lookup name = some address ∨
        ∃ later, LabelAt rows name later ∧ address = layout.statements.size + later := by
  induction lays with
  | nil => simp [labelAt_nil]
  | @cons layout final row rows line content read _ ih =>
    obtain ⟨label, new, -, width⟩ := LineContent.read_eq_ok read
    have size : (layout.add line content).statements.size =
        layout.statements.size + lineWidth row := by
      rw [← length_operations, operations_add, List.length_append, width, length_operations]
    -- What the rest of the rows defines lies after the words of this one.
    rw [ih, lookup_add new, size, label, or_assoc]
    refine or_congr_right ?_
    simp only [labelAt_cons, or_and_right, exists_or]
    refine or_congr ?_ ?_
    · constructor
      · rintro ⟨named, rfl⟩
        exact ⟨0, ⟨named, rfl⟩, rfl⟩
      · rintro ⟨_, ⟨named, rfl⟩, rfl⟩
        exact ⟨named, rfl⟩
    · constructor
      · rintro ⟨later, standing, rfl⟩
        exact ⟨_, ⟨later, standing, rfl⟩, Nat.add_assoc ..⟩
      · rintro ⟨_, ⟨later, standing, rfl⟩, rfl⟩
        exact ⟨later, standing, (Nat.add_assoc ..).symm⟩

def codeLine? : List Char × Nat → Option SourceLine
  | (row, i) => if (lineCode row).isEmpty then none else some ⟨i + 1, lineCode row⟩

theorem addLines_codeLine {i : Nat} {rest : List (List Char × Nat)} :
    layout.addLines (((row, i) :: rest).filterMap codeLine?) =
      match LineContent.read layout.labels (lineCode row) with
      | .ok content => (layout.add (i + 1) content).addLines (rest.filterMap codeLine?)
      | .error cause => (layout, some ⟨i + 1, cause⟩) := by
  rw [List.filterMap_cons, codeLine?]
  by_cases blank : lineCode row = []
  · rw [blank]
    rfl
  · rw [if_neg (by simpa using blank)]
    rfl

theorem lays_of_addLines {start : Nat}
    (h : layout.addLines ((rows.zipIdx start).filterMap codeLine?) = (final, none)) :
    Lays layout rows final := by
  induction rows generalizing layout start with
  | nil =>
    cases h
    exact .nil
  | cons row rows ih =>
    rw [List.zipIdx_cons, addLines_codeLine] at h
    split at h
    case h_1 content read => exact .cons read (ih h)
    case h_2 => cases h

def ofRows (rows : List (List Char)) : Layout × Option Error :=
  empty.addLines (rows.zipIdx.filterMap codeLine?)

theorem ofSource_eq_ofRows (source : List Char) : ofSource source = ofRows (lines source) := rfl

theorem lays_of_ofRows (h : ofRows rows = (final, none)) : Lays empty rows final :=
  lays_of_addLines h

theorem lays_of_ofSource {source : List Char} (h : ofSource source = (final, none)) :
    Lays empty (lines source) final := lays_of_ofRows h

theorem lookup_of_ofRows (h : ofRows rows = (final, none)) (name : Token) (a : Nat) :
    final.labels.lookup name = some a ↔ LabelAt rows name a := by
  rw [(lays_of_ofRows h).lookup]
  simp [empty]

end Layout

end Backstep.Asm
