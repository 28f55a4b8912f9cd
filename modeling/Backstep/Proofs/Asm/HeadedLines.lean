import Backstep.Proofs.Asm.CodeLines
import Backstep.Proofs.Asm.WrittenLines

namespace Backstep.Asm

open Text

inductive Heading : List Char → Option Token → Prop
  | bare {blanks : List Char} : (∀ c ∈ blanks, isBlank c = true) → Heading blanks none
  | label {blanks gap : List Char} {name : Token} : (∀ c ∈ blanks, isBlank c = true) →
      name.isLabelName = true → (∀ c ∈ gap, isBlank c = true) →
      Heading (blanks ++ name ++ ':' :: gap) (some name)

def EndsMnemonic (rest : List Char) : Prop := ∀ c ∈ rest.head?, isBlank c = true ∨ c = '#'

structure Reads (row : List Char) (label : Option Token) (op : Operation) : Prop where
  label : lineLabel? row = label
  single : secondLabel? row = none
  stands : lineOperation? row = some op

variable {head name rest tail row blanks : List Char} {label : Option Token} {op : Operation}

theorem stripComment_append (free : '#' ∉ row) :
    stripComment (row ++ rest) = row ++ stripComment rest := by
  have kept : ∀ c ∈ row, (c != '#') = true := by
    intro c mem
    simpa using ne_of_mem_of_not_mem mem free
  rw [stripComment, List.takeWhile_append_of_pos kept, stripComment]

theorem head_stripComment {p : Char → Bool} (h : ∀ c ∈ rest.head?, p c = true ∨ c = '#') :
    ∀ c ∈ (stripComment rest).head?, p c = true := by
  cases rest with
  | nil => simp [stripComment]
  | cons d rest =>
    intro c mem
    rw [stripComment, List.takeWhile_cons] at mem
    split at mem
    case isFalse => cases mem
    case isTrue kept =>
      cases mem
      obtain holds | rfl := h d rfl
      · exact holds
      · cases kept

theorem EndsMnemonic.blank (h : EndsMnemonic rest) :
    ∀ c ∈ (trimEnd (stripComment rest)).head?, isBlank c = true := by
  obtain ⟨blanks, -, eq⟩ := exists_trimEnd (stripComment rest)
  intro c mem
  refine head_stripComment h c ?_
  rw [eq, List.head?_append, Option.mem_def.mp mem]
  rfl

theorem splitLabel?_append (plain : Operation.isPlain name = true)
    (ends : ∀ c ∈ tail.head?, isBlank c = true) : splitLabel? (name ++ tail) = none := by
  have inside : ∀ c ∈ name, (c == ':') = false := fun c mem =>
    beq_false_of_ne ((Operation.isPlain_iff.mp plain).2 c mem).2.2.1
  cases tail with
  | nil => rw [List.append_nil, splitLabel?, cutFirst?_eq_none inside]
  | cons b tail =>
    have blank : isBlank b = true := ends b rfl
    have ends_name : (b == ':') = false := by
      rw [beq_eq_false_iff_ne]
      rintro rfl
      cases blank
    have inside : ∀ c ∈ name ++ [b], (c == ':') = false := by
      rw [List.forall_mem_append, List.forall_mem_singleton]
      exact ⟨inside, ends_name⟩
    rw [splitLabel?, List.append_cons, cutFirst?_inside_append inside]
    cases cutFirst? (· == ':') tail with
    | none => rfl
    | some parts =>
      have unnamed : ¬ Token.isLabelName (name ++ [b] ++ parts.1) := by
        intro named
        have rest := Token.isNameRest_of_isLabelName named b (by simp)
        simp [(Operation.IsPlain.of_isNameRest rest).1] at blank
      exact if_neg unnamed

theorem lineCode_append (full : row ≠ []) (plain : ∀ c ∈ row.head?, Operation.IsPlain c)
    (last : ∀ c ∈ row.getLast?, Operation.IsPlain c) (free : '#' ∉ row) (rest : List Char) :
    lineCode (row ++ rest) = row ++ trimEnd (stripComment rest) := by
  rw [lineCode, stripComment_append free]
  exact trim_append full (fun c mem => (plain c mem).1) (fun c mem => (last c mem).1) _

section Headed

variable (plain : Operation.isPlain name = true)
include plain

theorem lineCode_of_label {first : Token} {gap : List Char}
    (all : ∀ c ∈ blanks, isBlank c = true) (named : first.isLabelName = true)
    (spaced : ∀ c ∈ gap, isBlank c = true) (rest : List Char) :
    lineCode (blanks ++ first ++ ':' :: gap ++ name ++ rest) =
      first ++ ':' :: (gap ++ (name ++ trimEnd (stripComment rest))) := by
  obtain ⟨full, whole⟩ := Operation.isPlain_iff.mp plain
  have inside : ∀ c ∈ first, Operation.IsPlain c := fun c mem =>
    .of_isNameRest (Token.isNameRest_of_isLabelName named c mem)
  have free : '#' ∉ first ++ ':' :: gap ++ name := by
    simp only [List.mem_append, List.mem_cons, not_or]
    exact ⟨⟨fun mem => (inside _ mem).2.2.2 rfl, by decide,
      fun mem => absurd (spaced _ mem) (by decide)⟩, fun mem => (whole _ mem).2.2.2 rfl⟩
  have opens : ∀ c ∈ (first ++ ':' :: gap ++ name).head?, Operation.IsPlain c := by
    cases first with
    | nil => cases named
    | cons c first =>
      rintro _ ⟨⟩
      exact inside c List.mem_cons_self
  have ends : ∀ c ∈ (first ++ ':' :: gap ++ name).getLast?, Operation.IsPlain c := by
    rw [List.getLast?_append_of_ne_nil _ full]
    exact fun c mem => whole c (List.mem_of_mem_getLast? mem)
  calc lineCode (blanks ++ first ++ ':' :: gap ++ name ++ rest)
    _ = lineCode (blanks ++ (first ++ ':' :: gap ++ name ++ rest)) := by simp
    _ = first ++ ':' :: gap ++ name ++ trimEnd (stripComment rest) := by
      rw [lineCode_blanks_append all, lineCode_append (by simp) opens ends free]
    _ = first ++ ':' :: (gap ++ (name ++ trimEnd (stripComment rest))) := by simp

theorem splitLabel?_of_label {first : Token} {gap : List Char} (named : first.isLabelName = true)
    (spaced : ∀ c ∈ gap, isBlank c = true) (rest : List Char) :
    splitLabel? (first ++ ':' :: (gap ++ (name ++ trimEnd rest))) =
      some (first, name ++ trimEnd rest) := by
  have inside : ∀ c ∈ first, (c == ':') = false := fun c mem => beq_false_of_ne
    (Operation.IsPlain.of_isNameRest (Token.isNameRest_of_isLabelName named c mem)).2.2.1
  obtain ⟨full, whole⟩ := Operation.isPlain_iff.mp plain
  rw [splitLabel?, cutFirst?_append inside rfl]
  dsimp only
  rw [if_pos named, trim_blanks_append spaced, trim_append_trimEnd full
    (fun c mem => (whole c (List.mem_of_mem_head? mem)).1)
    (fun c mem => (whole c (List.mem_of_mem_getLast? mem)).1)]

theorem reads_of_lineBody (ends : EndsMnemonic rest) (first : lineLabel? row = label)
    (body : lineBody row = name ++ trimEnd (stripComment rest)) : Reads row label
      ⟨String.ofList (name.map Char.toLower), fields isSeparator (stripComment rest)⟩ := by
  refine ⟨first, ?_, ?_⟩
  · rw [secondLabel?, body, splitLabel?_append plain ends.blank]
    rfl
  · obtain ⟨blanks, all, eq⟩ := exists_trimEnd (stripComment rest)
    have operands : fields isSeparator (stripComment rest) =
        fields isSeparator (trimEnd (stripComment rest)) := by
      conv_lhs => rw [eq]
      exact fields_append_separators fun c mem => by simp [isSeparator, all c mem]
    rw [lineOperation?, body, Operation.ofCode?_append plain ends.blank, operands]

theorem Heading.reads (heading : Heading head label) (ends : EndsMnemonic rest) :
    Reads (head ++ name ++ rest) label
      ⟨String.ofList (name.map Char.toLower), fields isSeparator (stripComment rest)⟩ := by
  cases heading with
  | bare all =>
    obtain ⟨full, whole⟩ := Operation.isPlain_iff.mp plain
    have line : lineCode (head ++ name ++ rest) = name ++ trimEnd (stripComment rest) := by
      rw [List.append_assoc, lineCode_blanks_append all]
      exact lineCode_append full (fun c mem => whole c (List.mem_of_mem_head? mem))
        (fun c mem => whole c (List.mem_of_mem_getLast? mem)) (fun mem => (whole _ mem).2.2.2 rfl) _
    have unlabelled := splitLabel?_append plain ends.blank
    refine reads_of_lineBody plain ends ?_ ?_
    · rw [lineLabel?, line, unlabelled]
      rfl
    · rw [lineBody, line, unlabelled]
  | @label blanks gap first all named spaced =>
    have line := lineCode_of_label plain all named spaced rest
    have split := splitLabel?_of_label plain named spaced (stripComment rest)
    refine reads_of_lineBody plain ends ?_ ?_
    · rw [lineLabel?, line, split]
      rfl
    · rw [lineBody, line, split]

end Headed

end Backstep.Asm
