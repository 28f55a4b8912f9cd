import Backstep.Image
import Backstep.Proofs.ExceptLaws
import Backstep.Proofs.Text.NumeralLaws
import Backstep.Proofs.Text.SplitLaws

namespace Backstep

open Isa Machine Text

theorem Text.wordHex_visible (w : Word) :
    (wordHex w).toList ≠ [] ∧ ∀ c ∈ (wordHex w).toList, isBlank c = false := by
  have each : ∀ d : Fin 16, isBlank (upperDigit d) = false := by decide
  have digit {d : Nat} (h : d < 16) : isBlank (upperDigit d) = false := each ⟨d, h⟩
  have first : w.toNat / 4096 < 16 := by
    have small := w.toNat_lt
    omega
  have later (n : Nat) : isBlank (upperDigit (n % 16)) = false := digit (Nat.mod_lt _ (by decide))
  simp [wordHex, digit first, later]

namespace Image

theorem word?_wordHex (w : Word) : word? (wordHex w).toList = some w := by
  have small := w.toNat_lt
  have fits : w.toNat ≤ wordMax := by
    rw [wordMax]
    omega
  simp [word?, digits?_wordHex, fits]

theorem words_fileText (ws : List Word) :
    Text.words (fileText ws).toList = ws.map fun w => (wordHex w).toList := by
  have text : (fileText ws).toList =
      [' '].intercalate (ws.map fun w => (wordHex w).toList) ++ ['\n'] := by
    simp [fileText, render, String.toList_intercalate, List.map_map, Function.comp_def]
  have blank : isBlank ' ' = true := rfl
  rw [text, Text.words, fields_concat rfl]
  refine fields_intercalate (by simp) (by simp [blank]) ?_
  rintro _ mem
  obtain ⟨w, -, rfl⟩ := List.mem_map.mp mem
  exact wordHex_visible w

theorem parse_fileText (ws : List Word) : parse (fileText ws) = .ok ws := by
  rw [parse, parseChars, words_fileText]
  generalize 0 = start
  induction ws generalizing start with
  | nil => rfl
  | cons w ws ih =>
    rw [List.map_cons, List.zipIdx_cons, List.mapM_cons, ih]
    simp [word?_wordHex]

/-- Hexadecimal digits, in any number and with nothing before them, that make a word. -/
def Spells (token : List Char) (w : Word) : Prop :=
  token ≠ [] ∧ ∃ ds, List.Forall₂ HexDigit token ds ∧ Nat.ofDigits 16 ds.reverse = w.toNat

def FirstBad (tokens : List (List Char)) (token : List Char) (index : Nat) : Prop :=
  tokens[index]? = some token ∧ (∀ w, ¬ Spells token w) ∧
    ∀ (j : Nat) t, j < index → tokens[j]? = some t → ∃ w, Spells t w

variable {token : List Char} {tokens : List (List Char)} {w : Word}

theorem word?_eq_some : word? token = some w ↔ Spells token w := by
  have digits : digits? 16 token = some w.toNat ↔ Spells token w := by
    simp only [digits?_eq_some_iff, digit?_sixteen, Spells]
  rw [← digits, word?, Option.map_eq_some_iff]
  simp only [Option.filter_eq_some_iff, decide_eq_true_eq]
  constructor
  · rintro ⟨n, ⟨read, small⟩, rfl⟩
    rw [UInt16.toNat_ofNat_of_lt' (Nat.lt_succ_of_le small), read]
  · intro read
    exact ⟨w.toNat, ⟨read, Nat.le_of_lt_succ w.toNat_lt⟩, UInt16.ofNat_toNat⟩

theorem word?_eq_none : word? token = none ↔ ∀ w, ¬ Spells token w := by
  simp only [Option.eq_none_iff_forall_ne_some, ne_eq, word?_eq_some]

def readWord (token : List Char) (index : Nat) : Except Fault Word :=
  match word? token with
  | some w => .ok w
  | none => .error (.invalidToken (String.ofList token) index)

theorem parse_eq (text : String) : parse text =
    (Text.words text.toList).zipIdx.mapM fun (token, index) => readWord token index := rfl

theorem readWord_eq_ok {index : Nat} : readWord token index = .ok w ↔ Spells token w := by
  rw [readWord, ← word?_eq_some]
  cases word? token <;> simp

theorem readWord_eq_error {index : Nat} {fault : Fault} : readWord token index = .error fault ↔
    (∀ w, ¬ Spells token w) ∧ fault = .invalidToken (String.ofList token) index := by
  rw [readWord, ← word?_eq_none]
  cases word? token <;> simp [eq_comm]

/-- A text is an image just if all its tokens are words, and then it holds these words. Else it is
refused for the first token that is none. -/
theorem parse_decides (text : String) :
    ∃ tokens, (∀ ts, Fields isBlank text.toList ts ↔ ts = tokens) ∧
      (∀ ws, parse text = .ok ws ↔ List.Forall₂ Spells tokens ws) ∧
      ∀ fault, parse text = .error fault ↔ ∃ token index, FirstBad tokens token index ∧
        fault = .invalidToken (String.ofList token) index := by
  refine ⟨Text.words text.toList, fun ts => fields_iff, fun ws => ?_, fun fault => ?_⟩
  · rw [parse_eq, mapM_eq_ok]
    simp only [readWord_eq_ok]
    rw [← List.forall₂_map_left_iff, List.zipIdx_map_fst]
  · rw [parse_eq, mapM_eq_error]
    simp only [readWord_eq_ok, readWord_eq_error, List.getElem?_zipIdx, Nat.zero_add,
      Option.map_eq_some_iff, FirstBad]
    constructor
    · rintro ⟨index, _, ⟨token, at_index, rfl⟩, earlier, none, rfl⟩
      exact ⟨token, index, ⟨at_index, none, fun j t hj at_j => earlier j _ hj ⟨t, at_j, rfl⟩⟩, rfl⟩
    · rintro ⟨token, index, ⟨at_index, none, earlier⟩, rfl⟩
      refine ⟨index, _, ⟨token, at_index, rfl⟩, ?_, none, rfl⟩
      rintro j _ hj ⟨t, at_j, rfl⟩
      exact earlier j t hj at_j

end Image

end Backstep
