import Mathlib.Data.List.Forall2
import Mathlib.Data.List.Induction
import Mathlib.Data.Nat.Digits.Defs
import Backstep.Text.Input

namespace Backstep.Text

variable {base : Nat} {c : Char} {cs : List Char} {n : Nat}

inductive Writes (base : Nat) : List Char → Nat → Prop
  | digit {c : Char} {d : Nat} : digit? base c = some d → Writes base [c] d
  | snoc {cs : List Char} {n : Nat} {c : Char} {d : Nat} :
      Writes base cs n → digit? base c = some d → Writes base (cs ++ [c]) (base * n + d)

def HexDigit (c : Char) (d : Nat) : Prop :=
  d < 16 ∧ (c = Nat.digitChar d ∨ c = (Nat.digitChar d).toUpper)

def DecimalDigit (c : Char) (d : Nat) : Prop := d < 10 ∧ c = Nat.digitChar d

def Decimal (cs : List Char) (n : Nat) : Prop :=
  cs ≠ [] ∧ ∃ ds, List.Forall₂ DecimalDigit cs ds ∧ Nat.ofDigits 10 ds.reverse = n

def Hexadecimal (cs : List Char) (n : Nat) : Prop :=
  cs ≠ [] ∧ ∃ ds, List.Forall₂ HexDigit cs ds ∧ Nat.ofDigits 16 ds.reverse = n

theorem digits?_singleton : digits? base [c] = digit? base c := by
  simp [digits?]

theorem digits?_append_singleton (h : cs ≠ []) :
    digits? base (cs ++ [c]) =
      (digits? base cs).bind fun n => (digit? base c).map (base * n + ·) := by
  cases cs with
  | nil => exact absurd rfl h
  | cons first rest => simp [digits?, List.foldlM_append, Option.bind_assoc]

theorem digits?_eq_some : digits? base cs = some n ↔ Writes base cs n := by
  constructor
  · intro h
    induction cs using List.reverseRecOn generalizing n with
    | nil => cases h
    | append_singleton cs c ih =>
      by_cases empty : cs = []
      · subst empty
        rw [List.nil_append, digits?_singleton] at h
        exact .digit h
      · rw [digits?_append_singleton empty, Option.bind_eq_some_iff] at h
        obtain ⟨m, hm, h⟩ := h
        obtain ⟨d, hd, rfl⟩ := Option.map_eq_some_iff.mp h
        exact .snoc (ih hm) hd
  · intro h
    induction h with
    | digit hd => rw [digits?_singleton, hd]
    | snoc hcs hd ih =>
      rename_i cs n c d
      have nonempty : cs ≠ [] := by rintro rfl; cases ih
      rw [digits?_append_singleton nonempty, ih, Option.bind_some, hd, Option.map_some]

theorem Writes.unique {m : Nat} (h : Writes base cs n) (h' : Writes base cs m) : n = m :=
  Option.some.inj ((digits?_eq_some.mpr h).symm.trans (digits?_eq_some.mpr h'))

theorem Writes.isSome_digit? (h : Writes base cs n) : ∀ c ∈ cs, (digit? base c).isSome := by
  induction h with
  | digit hd => simp [hd]
  | snoc _ hd ih =>
    intro c mem
    obtain earlier | last := List.mem_append.mp mem
    · exact ih c earlier
    · obtain rfl := List.mem_singleton.mp last
      simp [hd]

theorem isDigit_of_digit? (h : (digit? 10 c).isSome) : c.isDigit := by
  obtain ⟨d, h⟩ := Option.isSome_iff_exists.mp h
  obtain ⟨found, small⟩ := Option.filter_eq_some_iff.mp h
  have small : d < 10 := by simpa using small
  split at found
  case isTrue decimal =>
    simp only [Char.isDigit, Bool.and_eq_true, decide_eq_true_eq]
    exact decimal
  -- A letter stands for ten or more.
  split at found
  case isTrue =>
    cases found
    omega
  split at found
  case isTrue =>
    cases found
    omega
  case isFalse => cases found

theorem Writes.of_natural? {bound : Nat} (h : natural? base bound cs = some n) :
    n ≤ bound ∧ ∃ digits, (cs = digits ∨ cs = '+' :: digits) ∧ Writes base digits n := by
  rw [natural?.eq_def] at h
  split at h
  case h_1 digits =>
    obtain ⟨written, small⟩ := Option.filter_eq_some_iff.mp h
    exact ⟨by simpa using small, digits, .inr rfl, digits?_eq_some.mp written⟩
  case h_2 =>
    obtain ⟨written, small⟩ := Option.filter_eq_some_iff.mp h
    exact ⟨by simpa using small, cs, .inl rfl, digits?_eq_some.mp written⟩

theorem not_writes_plus : ¬ Writes base ('+' :: cs) n := by
  intro written
  have sign : digit? base '+' = none := rfl
  simpa [sign] using written.isSome_digit? '+' (by simp)

theorem natural?_eq_some {bound : Nat} : natural? base bound cs = some n ↔
    n ≤ bound ∧ ∃ digits, (cs = digits ∨ cs = '+' :: digits) ∧ Writes base digits n := by
  refine ⟨Writes.of_natural?, ?_⟩
  rintro ⟨small, digits, rfl | rfl, written⟩
  · have read : (digits? base cs).filter (· ≤ bound) = some n := by
      rw [digits?_eq_some.mpr written]
      simp [small]
    rw [natural?.eq_def]
    split
    case h_1 => exact absurd written not_writes_plus
    case h_2 => exact read
  · rw [natural?, digits?_eq_some.mpr written]
    simp [small]

theorem afterHexMark?_eq_some {hex : List Char} :
    afterHexMark? cs = some hex ↔ ∃ mark, (mark = 'x' ∨ mark = 'X') ∧ cs = '0' :: mark :: hex := by
  constructor
  · intro h
    rw [afterHexMark?.eq_def] at h
    split at h <;> cases h
    case h_1 => exact ⟨'x', .inl rfl, rfl⟩
    case h_2 => exact ⟨'X', .inr rfl, rfl⟩
  · rintro ⟨mark, rfl | rfl, rfl⟩
    · rfl
    · rfl

theorem not_writes_hexMark {mark : Char} (h : mark = 'x' ∨ mark = 'X') :
    ¬ Writes 10 ('0' :: mark :: cs) n := by
  intro written
  obtain rfl | rfl := h
  · exact absurd (written.isSome_digit? 'x' (by simp)) (by decide)
  · exact absurd (written.isSome_digit? 'X' (by simp)) (by decide)

theorem Writes.afterHexMark?_eq_none (h : Writes 10 cs n) : afterHexMark? cs = none := by
  cases marked : afterHexMark? cs with
  | none => rfl
  | some hex =>
    obtain ⟨mark, letter, rfl⟩ := afterHexMark?_eq_some.mp marked
    exact absurd h (not_writes_hexMark letter)

theorem foldlM_digits_eq_some {start : Nat} :
    cs.foldlM (fun n c => (digit? base c).map (base * n + ·)) start = some n ↔
      ∃ ds, List.Forall₂ (fun c d => digit? base c = some d) cs ds ∧
        ds.foldl (base * · + ·) start = n := by
  induction cs generalizing start with
  | nil => simp
  | cons c cs ih =>
    simp only [List.foldlM_cons, Option.bind_eq_bind, Option.bind_eq_some_iff,
      Option.map_eq_some_iff, ih, List.forall₂_cons_left_iff]
    constructor
    · rintro ⟨_, ⟨d, read, rfl⟩, ds, each, value⟩
      exact ⟨d :: ds, ⟨d, ds, read, each, rfl⟩, value⟩
    · rintro ⟨_, ⟨d, ds, read, each, rfl⟩, value⟩
      exact ⟨_, ⟨d, read, rfl⟩, ds, each, value⟩

theorem digits?_eq_some_iff : digits? base cs = some n ↔ cs ≠ [] ∧ ∃ ds,
    List.Forall₂ (fun c d => digit? base c = some d) cs ds ∧ Nat.ofDigits base ds.reverse = n := by
  have value (ds : List Nat) : Nat.ofDigits base ds.reverse = ds.foldl (base * · + ·) 0 := by
    simp [Nat.ofDigits_eq_foldr, Nat.add_comm]
  simp only [value]
  cases cs with
  | nil => simp [digits?]
  | cons c cs =>
    rw [digits?.eq_def]
    dsimp only
    rw [foldlM_digits_eq_some]
    simp only [ne_eq, reduceCtorEq, not_false_eq_true, true_and]

theorem exists_ofNat_eq (first count : Nat) (low : first ≤ c.toNat)
    (high : c.toNat < first + count) : ∃ k : Fin count, c = Char.ofNat (first + k) := by
  refine ⟨⟨c.toNat - first, by omega⟩, ?_⟩
  rw [Nat.add_sub_cancel' low, Char.ofNat_toNat]

theorem digit?_sixteen {d : Nat} : digit? 16 c = some d ↔ HexDigit c d := by
  constructor
  · intro h
    obtain ⟨found, small⟩ := Option.filter_eq_some_iff.mp h
    refine ⟨by simpa using small, ?_⟩
    split at found
    case isTrue decimal =>
      obtain ⟨k, rfl⟩ := exists_ofNat_eq 48 10 decimal.1 (Nat.lt_succ_of_le decimal.2)
      cases found
      revert k
      decide
    split at found
    case isTrue lower =>
      obtain ⟨k, rfl⟩ := exists_ofNat_eq 97 6 lower.1 (Nat.lt_succ_of_le lower.2)
      cases found
      revert k
      decide
    split at found
    case isTrue upper =>
      obtain ⟨k, rfl⟩ := exists_ofNat_eq 65 6 upper.1 (Nat.lt_succ_of_le upper.2)
      cases found
      revert k
      decide
    case isFalse => cases found
  · have each : ∀ d : Fin 16, digit? 16 (Nat.digitChar d) = some d.val ∧
        digit? 16 (Nat.digitChar d).toUpper = some d.val := by decide
    rintro ⟨small, rfl | rfl⟩
    · exact (each ⟨d, small⟩).1
    · exact (each ⟨d, small⟩).2

theorem digit?_ten {d : Nat} : digit? 10 c = some d ↔ DecimalDigit c d := by
  have each : ∀ d : Fin 10, digit? 10 (Nat.digitChar d) = some d.val := by decide
  have same : ∀ d : Fin 10, Char.ofNat (48 + d) = Nat.digitChar d := by decide
  constructor
  · intro h
    have digit := isDigit_of_digit? (Option.isSome_of_eq_some h)
    have range : 48 ≤ c.toNat ∧ c.toNat ≤ 57 := by
      simpa [Char.isDigit, UInt32.le_iff_toNat_le] using digit
    obtain ⟨k, rfl⟩ := exists_ofNat_eq 48 10 range.1 (Nat.lt_succ_of_le range.2)
    rw [same, each, Option.some.injEq] at h
    exact ⟨h ▸ k.isLt, h ▸ same k⟩
  · rintro ⟨small, rfl⟩
    exact each ⟨d, small⟩

theorem writes_ten : Writes 10 cs n ↔ Decimal cs n := by
  rw [← digits?_eq_some, digits?_eq_some_iff]
  simp only [digit?_ten, Decimal]

theorem writes_sixteen : Writes 16 cs n ↔ Hexadecimal cs n := by
  rw [← digits?_eq_some, digits?_eq_some_iff]
  simp only [digit?_sixteen, Hexadecimal]

theorem digit?_upperDigit {d : Nat} (h : d < 16) : digit? 16 (upperDigit d) = some d := by
  have each : ∀ d : Fin 16, digit? 16 (upperDigit d) = some d.val := by decide
  exact each ⟨d, h⟩

theorem digits?_wordHex (w : UInt16) : digits? 16 (wordHex w).toList = some w.toNat := by
  have small := w.toNat_lt
  have first : w.toNat / 4096 < 16 := by omega
  rw [wordHex, String.toList_ofList]
  simp only [digits?, List.foldlM_cons, List.foldlM_nil, digit?_upperDigit first,
    digit?_upperDigit (Nat.mod_lt _ (by decide : 16 > 0)), Option.map_some, Option.bind_eq_bind,
    Option.bind_some, Option.pure_def, Option.some.injEq]
  omega

end Backstep.Text
