import Backstep.Proofs.Asm.SourceLines
import Backstep.Proofs.Asm.TokenLaws
import Backstep.Proofs.Text.SplitLaws

namespace Backstep.Asm

open Text

def isSeparator (c : Char) : Bool := c == ',' || isBlank c

namespace Operation

def written (op : Operation) : List Char :=
  match op.operands with
  | [] => op.mnemonic.toList
  | operands => op.mnemonic.toList ++ ' ' :: [',', ' '].intercalate operands

def IsPlain (c : Char) : Prop := isBlank c = false ∧ c ≠ ',' ∧ c ≠ ':' ∧ c ≠ '#'

def isPlain (token : Token) : Bool :=
  !token.isEmpty && token.all fun c => !isBlank c && c != ',' && c != ':' && c != '#'

theorem isPlain_iff {token : Token} :
    isPlain token = true ↔ token ≠ [] ∧ ∀ c ∈ token, IsPlain c := by
  simp [isPlain, IsPlain, and_assoc]

theorem IsPlain.of_isNameRest {c : Char} (h : Token.isNameRest c = true) : IsPlain c := by
  have each : ∀ k : Fin 128, Token.isNameRest (Char.ofNat k) = true →
      isPlain [Char.ofNat k] = true := by decide
  have plain := each ⟨c.toNat, Token.toNat_lt_of_isNameRest h⟩
  rw [Char.ofNat_toNat] at plain
  exact (isPlain_iff.mp (plain h)).2 c List.mem_cons_self

structure Plain (op : Operation) : Prop where
  mnemonic : isPlain op.mnemonic.toList = true
  lower : op.mnemonic.toList.map Char.toLower = op.mnemonic.toList
  operands : ∀ token ∈ op.operands, isPlain token = true

variable {op : Operation} {c : Char}

theorem Plain.plain_mnemonic (h : op.Plain) :
    op.mnemonic.toList ≠ [] ∧ ∀ c ∈ op.mnemonic.toList, IsPlain c := isPlain_iff.mp h.mnemonic

theorem Plain.plain_operand (h : op.Plain) {token : Token} (among : token ∈ op.operands) :
    token ≠ [] ∧ ∀ c ∈ token, IsPlain c := isPlain_iff.mp (h.operands token among)

theorem Plain.mem_written (h : op.Plain) (mem : c ∈ op.written) :
    IsPlain c ∨ c = ' ' ∨ c = ',' := by
  rw [written] at mem
  split at mem
  case h_1 => exact .inl (h.plain_mnemonic.2 c mem)
  case h_2 =>
    rw [List.mem_append, List.mem_cons] at mem
    obtain mem | rfl | mem := mem
    · exact .inl (h.plain_mnemonic.2 c mem)
    · exact .inr (.inl rfl)
    · obtain mem | ⟨token, among, mem⟩ := mem_intercalate mem
      · exact .inr (by simpa [or_comm] using mem)
      · exact .inl ((h.plain_operand among).2 c mem)

theorem Plain.head_written (h : op.Plain) : ∀ c ∈ op.written.head?, isBlank c = false := by
  obtain ⟨first, rest, eq⟩ := List.exists_cons_of_ne_nil h.plain_mnemonic.1
  have visible : isBlank first = false := (h.plain_mnemonic.2 first (by simp [eq])).1
  have head : op.written.head? = some first := by
    rw [written]
    split <;> simp [eq]
  simpa [head] using visible

theorem Plain.last_written (h : op.Plain) : ∀ c ∈ op.written.getLast?, isBlank c = false := by
  obtain ⟨front, last, eq, some, visible⟩ : ∃ front last, op.written = front ++ last ∧ last ≠ [] ∧
      ∀ c ∈ last, IsPlain c := by
    rw [written]
    split
    case h_1 => exact ⟨[], _, rfl, h.plain_mnemonic⟩
    case h_2 operands some =>
      obtain ⟨front, last, mem, eq⟩ := exists_intercalate_eq_append [',', ' '] some
      exact ⟨op.mnemonic.toList ++ ' ' :: front, last, by simp [eq], h.plain_operand mem⟩
  intro c mem
  rw [eq, List.getLast?_append_of_ne_nil _ some] at mem
  exact (visible c (List.mem_of_getLast? mem)).1

theorem Plain.lineCode_written (h : op.Plain) : lineCode op.written = op.written := by
  have whole : stripComment op.written = op.written := by
    rw [stripComment, List.takeWhile_eq_self_iff]
    intro c mem
    obtain plain | rfl | rfl := h.mem_written mem
    · simpa using plain.2.2.2
    · rfl
    · rfl
  rw [lineCode, whole, trim_eq_self h.head_written h.last_written]

theorem Plain.splitLabel?_written (h : op.Plain) : splitLabel? op.written = none := by
  have open_end : cutFirst? (· == ':') op.written = none := by
    apply cutFirst?_eq_none
    intro c mem
    obtain plain | rfl | rfl := h.mem_written mem
    · simpa using plain.2.2.1
    · rfl
    · rfl
  rw [splitLabel?, open_end]

theorem isSeparator_of_plain (plain : IsPlain c) : isSeparator c = false := by
  simp [isSeparator, plain.1, plain.2.1]

theorem Plain.exists_written_eq (h : op.Plain) : ∃ rest, op.written = op.mnemonic.toList ++ rest ∧
    (∀ c ∈ rest.head?, isBlank c = true) ∧ fields isSeparator rest = op.operands := by
  have apart : ∀ token ∈ op.operands, token ≠ [] ∧ ∀ c ∈ token, isSeparator c = false := by
    intro token mem
    obtain ⟨full, plain⟩ := h.plain_operand mem
    exact ⟨full, fun c among => isSeparator_of_plain (plain c among)⟩
  rw [written]
  split
  case h_1 none => exact ⟨[], by simp, by simp, by rw [none]; rfl⟩
  case h_2 operands some =>
    refine ⟨_, rfl, by rintro c ⟨⟩; rfl, ?_⟩
    have blank : isSeparator ' ' = true := rfl
    have comma : isSeparator ',' = true := rfl
    rw [← List.singleton_append, fields_separators (by simp [blank]),
      fields_intercalate (by simp) (by simp [blank, comma]) apart]

theorem Plain.line_written (h : op.Plain) :
    op.written ≠ [] ∧ '\n' ∉ op.written ∧ dropReturn op.written = op.written := by
  obtain ⟨rest, eq, -⟩ := h.exists_written_eq
  refine ⟨?_, ?_, ?_⟩
  · rw [eq]
    exact List.append_ne_nil_of_left_ne_nil h.plain_mnemonic.1 _
  · intro mem
    obtain plain | blank | comma := h.mem_written mem
    · exact absurd plain.1 (by decide)
    · cases blank
    · cases comma
  · rw [dropReturn, if_neg]
    intro last
    exact absurd (h.last_written '\r' last) (by decide)

theorem ofCode?_append {name tail : List Char} (plain : isPlain name = true)
    (ends : ∀ c ∈ tail.head?, isBlank c = true) : ofCode? (name ++ tail) =
      some ⟨String.ofList (name.map Char.toLower), fields isSeparator tail⟩ := by
  obtain ⟨full, plain⟩ := isPlain_iff.mp plain
  have visible : ∀ c ∈ name, (!isBlank c) = true := by
    intro c mem
    simpa using (plain c mem).1
  have mnemonic : (name ++ tail).takeWhile (!isBlank ·) = name := by
    rw [List.takeWhile_append_of_pos visible]
    cases tail with
    | nil => simp
    | cons c tail => simpa using ends
  have operands : (name ++ tail).dropWhile (!isBlank ·) = tail := by
    rw [List.dropWhile_append_of_pos visible]
    exact dropWhile_eq_self (by simpa using ends)
  rw [ofCode?, if_neg (by simp [full]), mnemonic, operands]
  rfl

theorem Plain.ofCode?_written (h : op.Plain) : ofCode? op.written = some op := by
  obtain ⟨rest, eq, ends, parts⟩ := h.exists_written_eq
  rw [eq, ofCode?_append h.mnemonic ends, parts, h.lower, String.ofList_toList]

theorem Plain.lineOperation?_written (h : op.Plain) :
    lineLabel? op.written = none ∧ lineOperation? op.written = some op := by
  rw [lineLabel?, lineOperation?, lineBody, h.lineCode_written, h.splitLabel?_written]
  exact ⟨rfl, h.ofCode?_written⟩

end Operation

end Backstep.Asm
