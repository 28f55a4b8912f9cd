import Backstep.Proofs.Asm.References
import Backstep.Proofs.Asm.Resolution

namespace Backstep.Asm

open Isa Text

variable {source : String} {words : List Word} {labels : Labels} {name token : Token} {value : Int}
  {index : Nat}

def HoldsAddress (rows : List (List Char)) (words : List Word) (index : Nat) (name : Token) :
    Prop :=
  ∃ w a, words[index]? = some w ∧ (∀ b, LabelAt rows name b ↔ b = a) ∧ w.toNat = a % 65536

theorem Labels.fits_of_word {w : Word} (h : labels.word token = .ok w)
    (numeral : token.Numeral value) : wordMin ≤ value ∧ value ≤ wordMax := by
  rw [Labels.word] at h
  split at h
  case h_1 read =>
    obtain rfl := numeral.unique (.of_number? read)
    split at h
    case isTrue fits => exact fits
    case isFalse => cases h
  case h_2 =>
    rw [Labels.address, numeral.isLabelName] at h
    cases h

section Accepted

variable (h : assemble source = .ok words)
include h

theorem holdsAddress_of_word
    (at_index : (statements source)[index]? = some ⟨Operation.wordDirective, [name]⟩)
    (label : name.isLabelName = true) : HoldsAddress (lines source.toList) words index name := by
  obtain ⟨w, value, written, denotes, eq⟩ := word_of_symbol h at_index
  cases denotes with
  | numeral read => simp [read.isLabelName] at label
  | label there => exact ⟨w, _, written, there.iff_eq h, by omega⟩

theorem fits_of_word
    (at_index : (statements source)[index]? = some ⟨Operation.wordDirective, [token]⟩)
    (numeral : token.Numeral value) : wordMin ≤ value ∧ value ≤ wordMax := by
  obtain ⟨layout, assembled, operations, -⟩ := layout_of_assemble h
  rw [← operations] at at_index
  obtain ⟨-, -, r, resolved, -⟩ := Layout.getElem?_assemble assembled at_index
  obtain ⟨w, read, -⟩ := map_eq_ok.mp resolved
  exact Labels.fits_of_word read numeral

/-- The words of `.word` and of `la` that embed a label hold its address modulo 2¹⁶, while a number
is one that fits. -/
theorem embedded_mod :
    (∀ (index : Nat) (name : Token),
      (statements source)[index]? = some ⟨Operation.wordDirective, [name]⟩ →
      name.isLabelName = true → HoldsAddress (lines source.toList) words index name) ∧
    (∀ (j : Nat) (row : List Char) (reg name : Token), (lines source.toList)[j]? = some row →
      lineOperation? row = some ⟨Operation.loadAddress, [reg, name]⟩ → name.isLabelName = true →
      HoldsAddress (lines source.toList) words (wordsBefore (lines source.toList) j + 1) name) ∧
    ∀ (index : Nat) (token : Token) (value : Int),
      (statements source)[index]? = some ⟨Operation.wordDirective, [token]⟩ →
      token.Numeral value → -32768 ≤ value ∧ value ≤ 65535 := by
  refine ⟨fun index name => holdsAddress_of_word h, ?_, fun index token value => fits_of_word h⟩
  intro j row reg name at_j stands
  exact holdsAddress_of_word h (statements_of_loadAddress h at_j stands rfl)

end Accepted

theorem embedded_mod_of_data :
    assemble "la r1, end\nend: .word end\n.word -32768" =
        .ok [0x8001, 0x0004, 0xC21E, 0x6240, 0x0004, 0x8000] ∧
      HoldsAddress (lines "la r1, end\nend: .word end\n.word -32768".toList)
        [0x8001, 0x0004, 0xC21E, 0x6240, 0x0004, 0x8000] 4 "end".toList ∧
      HoldsAddress (lines "la r1, end\nend: .word end\n.word -32768".toList)
        [0x8001, 0x0004, 0xC21E, 0x6240, 0x0004, 0x8000] 1 "end".toList ∧
      (-32768 : Int) ≤ -32768 ∧ (-32768 : Int) ≤ 65535 := by
  have assembled : assemble "la r1, end\nend: .word end\n.word -32768" =
      .ok [0x8001, 0x0004, 0xC21E, 0x6240, 0x0004, 0x8000] := rfl
  obtain ⟨word, pool, fits⟩ := embedded_mod assembled
  exact ⟨assembled, word 4 _ rfl rfl, pool 0 "la r1, end".toList "r1".toList _ rfl rfl rfl,
    fits 5 "-32768".toList _ rfl (.of_number? rfl)⟩

theorem Layout.addLines_replicate {row : List Char} {body : LineBody}
    (read : ∀ labels, LineContent.read labels (lineCode row) = .ok ⟨none, body⟩) (n start : Nat)
    (layout : Layout) (rest : List (List Char × Nat)) :
    ∃ final : Layout, final.labels = layout.labels ∧
      layout.addLines (((List.replicate n row).zipIdx start ++ rest).filterMap codeLine?) =
        final.addLines (rest.filterMap codeLine?) := by
  induction n generalizing start layout with
  | zero => exact ⟨layout, rfl, rfl⟩
  | succ n ih =>
    obtain ⟨final, labels, added⟩ := ih (start + 1) (layout.add (start + 1) ⟨none, body⟩)
    refine ⟨final, labels.trans labels_add, ?_⟩
    rw [List.replicate_succ, List.zipIdx_cons, List.cons_append, addLines_codeLine, read]
    exact added

def endRows (n : Nat) : List (List Char) :=
  List.replicate n "noop".toList ++ [".word end".toList, "end:".toList]

def endSource (n : Nat) : String := String.ofList ((endRows n).flatMap (· ++ ['\n']))

theorem lines_endSource (n : Nat) : lines (endSource n).toList = endRows n := by
  rw [endSource, String.toList_ofList]
  refine lines_flatMap ?_
  intro row mem
  rw [endRows, List.mem_append] at mem
  obtain mem | mem := mem
  · obtain rfl := List.eq_of_mem_replicate mem
    decide
  · obtain rfl | rfl : row = ".word end".toList ∨ row = "end:".toList := by simpa using mem
    all_goals decide

theorem exists_layout_endSource (n : Nat) :
    ∃ layout, Layout.ofSource (endSource n).toList = (layout, none) := by
  have noop (labels : Labels) : LineContent.read labels (lineCode "noop".toList) =
      .ok ⟨none, .operations [⟨"noop", []⟩]⟩ := rfl
  have word (labels : Labels) : LineContent.read labels (lineCode ".word end".toList) =
      .ok ⟨none, .operations [⟨".word", ["end".toList]⟩]⟩ := rfl
  have last : LineContent.read [] (lineCode "end:".toList) =
      .ok ⟨some "end".toList, .nothing⟩ := rfl
  -- The rows before the last one define nothing, so its label is new.
  obtain ⟨first, labels, added⟩ := Layout.addLines_replicate noop n 0 .empty
    [(".word end".toList, n), ("end:".toList, n + 1)]
  have laid : Layout.ofSource (endSource n).toList =
      Layout.addLines .empty ((lines (endSource n).toList).zipIdx.filterMap Layout.codeLine?) := rfl
  rw [laid, lines_endSource, endRows, List.zipIdx_append]
  simp only [List.length_replicate, Nat.zero_add, List.zipIdx_cons, List.zipIdx_nil]
  rw [added, Layout.addLines_codeLine, word]
  dsimp only
  rw [Layout.addLines_codeLine, Layout.labels_add, Layout.define, labels, Layout.empty]
  dsimp only
  rw [last]
  exact ⟨_, rfl⟩

theorem statements_endSource (n : Nat) : statements (endSource n) =
    List.replicate n ⟨"noop", []⟩ ++ [⟨Operation.wordDirective, ["end".toList]⟩] := by
  have noop : lineOperations "noop".toList = [⟨"noop", []⟩] := rfl
  rw [statements, lines_endSource, endRows, List.flatMap_append, List.flatMap_replicate, noop,
    List.flatten_replicate_singleton]
  rfl

theorem labelAt_endSource (n : Nat) :
    LabelAt (lines (endSource n).toList) "end".toList (n + 1) := by
  have noop : lineWidth ['n', 'o', 'o', 'p'] = 1 := rfl
  have word : lineWidth ['.', 'w', 'o', 'r', 'd', ' ', 'e', 'n', 'd'] = 1 := rfl
  rw [lines_endSource, endRows]
  refine ⟨n + 1, "end:".toList, by simp, rfl, ?_⟩
  simp [wordsBefore, List.take_append, noop, word]

theorem exists_assemble_endSource (n : Nat) : ∃ words, assemble (endSource n) = .ok words := by
  obtain ⟨layout, laid⟩ := exists_layout_endSource n
  rw [assemble, assembleChars, laid]
  refine Layout.exists_assemble_of_resolve fun i op at_i => ?_
  apply Accepts.exists_resolve (fun _ _ => lookup_of_ofSource laid)
  rw [operations_of_ofSource laid, statements_endSource] at at_i
  obtain mem | mem := List.mem_append.mp (List.mem_of_getElem? at_i)
  · obtain rfl := List.eq_of_mem_replicate mem
    exact .pseudoOp (.inl rfl)
  · obtain rfl := List.mem_singleton.mp mem
    exact .label (Token.symbol_iff.mpr rfl) (labelAt_endSource n)

theorem getElem?_statements_endSource (n : Nat) :
    (statements (endSource n))[n]? = some ⟨Operation.wordDirective, ["end".toList]⟩ := by
  rw [statements_endSource]
  simp

theorem length_endSource {n : Nat} (h : assemble (endSource n) = .ok words) :
    words.length = n + 1 := by
  rw [← length_statements h, statements_endSource]
  simp

theorem embedded_ne_address : ∃ words, assemble (endSource 65535) = .ok words ∧
    words.length = 65536 ∧
    (statements (endSource 65535))[65535]? = some ⟨Operation.wordDirective, ["end".toList]⟩ ∧
    LabelAt (lines (endSource 65535).toList) "end".toList 65536 ∧ words[65535]? = some 0 := by
  obtain ⟨words, assembled⟩ := exists_assemble_endSource 65535
  have stands := getElem?_statements_endSource 65535
  have there := labelAt_endSource 65535
  obtain ⟨w, a, written, only, eq⟩ := holdsAddress_of_word assembled stands rfl
  obtain rfl := (only 65536).mp there
  obtain rfl : w = 0 := UInt16.toNat_inj.mp eq
  exact ⟨words, assembled, length_endSource assembled, stands, there, written⟩

end Backstep.Asm
