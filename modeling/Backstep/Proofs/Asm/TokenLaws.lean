import Mathlib.Data.List.Basic
import Backstep.Asm.Statement
import Backstep.Proofs.Text.NumeralLaws
import Backstep.Proofs.Text.SplitLaws

namespace Backstep.Asm

open Text

namespace Token

inductive Magnitude : List Char → Nat → Prop
  | decimal {cs : List Char} {n : Nat} : Writes 10 cs n → Magnitude cs n
  | hexadecimal {mark : Char} {cs : List Char} {n : Nat} :
      mark = 'x' ∨ mark = 'X' → Writes 16 cs n → Magnitude ('0' :: mark :: cs) n

inductive Numeral : Token → Int → Prop
  | plain {cs : List Char} {n : Nat} : Magnitude cs n → Numeral cs n
  | plus {cs : List Char} {n : Nat} : Magnitude cs n → Numeral ('+' :: cs) n
  | minus {cs : List Char} {n : Nat} : Magnitude cs n → Numeral ('-' :: cs) (-n)

/-- `r` and the number of a register, which may have a plus sign. -/
inductive RegisterName : List Char → Nat → Prop
  | mk {mark : Char} {cs digits : List Char} {r : Nat} :
      mark = 'r' ∨ mark = 'R' → cs = digits ∨ cs = '+' :: digits → Writes 10 digits r →
      r < Isa.registerCount → RegisterName (mark :: cs) r

inductive Register : Token → Nat → Prop
  | plain {name : List Char} {r : Nat} : RegisterName name r → Register name r
  | dollar {name : List Char} {r : Nat} : RegisterName name r → Register ('$' :: name) r

/-- The token is a displacement and a base register in parentheses. No displacement means zero. -/
inductive Displacement : Token → Token → Token → Prop
  | full {disp base : List Char} : trim disp ≠ [] →
      Displacement (disp ++ '(' :: (base ++ [')'])) (trim disp) (trim base)
  | zero {disp base : List Char} : trim disp = [] →
      Displacement (disp ++ '(' :: (base ++ [')'])) ['0'] (trim base)

variable {token : Token} {cs : List Char} {n r : Nat} {value : Int}

theorem toNat_lt_of_isNameRest {c : Char} (h : isNameRest c = true) : c.toNat < 128 := by
  have small {bound : Char} (le : c.val ≤ bound.val) (ascii : bound.toNat < 128) : c.toNat < 128 :=
    Nat.lt_of_le_of_lt le ascii
  rw [isNameRest, Bool.or_eq_true, Bool.or_eq_true, beq_iff_eq, beq_iff_eq] at h
  obtain (letter_or_digit | rfl) | rfl := h
  · obtain letter | digit := Bool.or_eq_true_iff.mp letter_or_digit
    · obtain upper | lower := Bool.or_eq_true_iff.mp letter
      · exact small (of_decide_eq_true upper).2 (by decide)
      · exact small (of_decide_eq_true (Bool.and_eq_true_iff.mp lower).2) (by decide)
    · exact small (of_decide_eq_true (Bool.and_eq_true_iff.mp digit).2) (by decide)
  · decide
  · decide

theorem isNameRest_of_isLabelName (h : token.isLabelName = true) :
    ∀ c ∈ token, isNameRest c = true := by
  cases token with
  | nil => cases h
  | cons c cs =>
    obtain ⟨start, rest⟩ := Bool.and_eq_true_iff.mp h
    refine List.forall_mem_cons.mpr ⟨?_, List.all_eq_true.mp rest⟩
    simp only [isNameStart, isNameRest, Char.isAlphanum, Bool.or_eq_true] at start ⊢
    tauto

theorem Magnitude.of_magnitude? (h : magnitude? cs = some n) : Magnitude cs n := by
  rw [magnitude?] at h
  have read := (Option.filter_eq_some_iff.mp h).1
  split at read
  case h_1 hex marked =>
    obtain ⟨mark, letter, rfl⟩ := afterHexMark?_eq_some.mp marked
    exact .hexadecimal letter (digits?_eq_some.mp read)
  case h_2 => exact .decimal (digits?_eq_some.mp read)

theorem Numeral.of_number? (h : token.number? = some value) : token.Numeral value := by
  rw [number?.eq_def] at h
  split at h <;> obtain ⟨n, read, rfl⟩ := Option.map_eq_some_iff.mp h
  case h_1 => exact .minus (.of_magnitude? read)
  case h_2 => exact .plus (.of_magnitude? read)
  case h_3 => exact .plain (.of_magnitude? read)

theorem RegisterName.of_natural? {mark : Char} (hmark : mark = 'r' ∨ mark = 'R')
    (h : natural? 10 (Isa.registerCount - 1) cs = some r) : RegisterName (mark :: cs) r := by
  obtain ⟨small, digits, spelled, written⟩ := Writes.of_natural? h
  exact .mk hmark spelled written (Nat.lt_of_le_pred (by decide) small)

theorem Register.of_register? (h : token.register? = some r) : token.Register r := by
  have name : RegisterName (dropDollar token) r := by
    rw [register?.eq_def] at h
    split at h
    case h_1 cs rest =>
      rw [rest]
      exact .of_natural? (.inl rfl) h
    case h_2 cs rest =>
      rw [rest]
      exact .of_natural? (.inr rfl) h
    case h_3 => cases h
  rw [dropDollar.eq_def] at name
  split at name
  case h_1 => exact .dollar name
  case h_2 => exact .plain name

theorem Displacement.of_displacement? {disp base : Token}
    (h : token.displacement? = some (disp, base)) : Displacement token disp base := by
  rw [displacement?] at h
  split at h
  case h_1 => cases h
  case h_2 before rest parts =>
    obtain ⟨c, opens, rfl⟩ := cutFirst?_eq_some parts
    obtain rfl := beq_iff_eq.mp opens
    split at h
    case isFalse => cases h
    case isTrue closes =>
      have close : rest.dropLast ++ [')'] = rest := List.dropLast_append_getLast? ')' closes
      cases h
      rw [← close, List.dropLast_concat]
      split
      case isTrue blank => exact .zero (List.isEmpty_iff.mp blank)
      case isFalse full => exact .full fun blank => full (List.isEmpty_iff.mpr blank)

theorem Magnitude.unique {m : Nat} (h : Magnitude cs n) (h' : Magnitude cs m) : n = m := by
  cases h with
  | decimal written =>
    cases h' with
    | decimal written' => exact written.unique written'
    | hexadecimal mark => exact absurd written (not_writes_hexMark mark)
  | hexadecimal mark written =>
    cases h' with
    | decimal written' => exact absurd written' (not_writes_hexMark mark)
    | hexadecimal _ written' => exact written.unique written'

theorem Magnitude.isDigit_head {c : Char} (h : Magnitude (c :: cs) n) : c.isDigit := by
  cases h with
  | decimal written => exact isDigit_of_digit? (written.isSome_digit? c (by simp))
  | hexadecimal => rfl

theorem Numeral.unique {other : Int} (h : token.Numeral value) (h' : token.Numeral other) :
    value = other := by
  cases h with
  | plain read =>
    cases h' with
    | plain read' => rw [read.unique read']
    | plus => exact absurd read.isDigit_head (by decide)
    | minus => exact absurd read.isDigit_head (by decide)
  | plus read =>
    cases h' with
    | plain read' => exact absurd read'.isDigit_head (by decide)
    | plus read' => rw [read.unique read']
  | minus read =>
    cases h' with
    | plain read' => exact absurd read'.isDigit_head (by decide)
    | minus read' => rw [read.unique read']

theorem isNameStart_of_isDigit {c : Char} (h : c.isDigit) : isNameStart c = false := by
  have underscore : c ≠ '_' := by
    rintro rfl
    cases h
  have point : c ≠ '.' := by
    rintro rfl
    cases h
  have small : c.val ≤ '9'.val := of_decide_eq_true (Bool.and_eq_true_iff.mp h).2
  have upper : c.isUpper = false := decide_eq_false fun large =>
    absurd (UInt32.le_trans large.1 small) (by decide)
  have lower : c.isLower = false := Bool.and_eq_false_iff.mpr <| .inl <|
    decide_eq_false fun large => absurd (UInt32.le_trans large small) (by decide)
  have letter : c.isAlpha = false := Bool.or_eq_false_iff.mpr ⟨upper, lower⟩
  simp [isNameStart, underscore, point, letter]

theorem Numeral.isLabelName (h : token.Numeral value) : token.isLabelName = false := by
  cases h with
  | plus => rfl
  | minus => rfl
  | plain read =>
    cases token with
    | nil => rfl
    | cons c cs => simp [Token.isLabelName, isNameStart_of_isDigit read.isDigit_head]

theorem RegisterName.unique {name : List Char} {q : Nat} (h : RegisterName name r)
    (h' : RegisterName name q) : r = q := by
  obtain ⟨-, spelled, written, -⟩ := h
  obtain ⟨-, spelled', written', -⟩ := h'
  rcases spelled with rfl | rfl <;> rcases spelled' with rfl | same
  · exact written.unique written'
  · exact absurd (same ▸ written) not_writes_plus
  · exact absurd written' not_writes_plus
  · obtain rfl := List.tail_eq_of_cons_eq same
    exact written.unique written'

theorem Register.unique {q : Nat} (h : token.Register r) (h' : token.Register q) : r = q := by
  have undressed {cs : List Char} {n : Nat} : ¬ RegisterName ('$' :: cs) n := by
    rintro ⟨mark, -⟩
    exact absurd mark (by decide)
  cases h with
  | plain name =>
    cases h' with
    | plain name' => exact name.unique name'
    | dollar => exact absurd name undressed
  | dollar name =>
    cases h' with
    | plain name' => exact absurd name' undressed
    | dollar name' => exact name.unique name'

theorem magnitude?_eq_some : magnitude? cs = some n ↔ Magnitude cs n ∧ n ≤ magnitudeMax := by
  constructor
  · intro h
    exact ⟨.of_magnitude? h, by simpa using (Option.filter_eq_some_iff.mp h).2⟩
  · rintro ⟨written, small⟩
    rw [magnitude?, Option.filter_eq_some_iff]
    refine ⟨?_, by simpa using small⟩
    cases written with
    | decimal written =>
      rw [written.afterHexMark?_eq_none]
      exact digits?_eq_some.mpr written
    | hexadecimal mark written =>
      obtain rfl | rfl := mark
      · exact digits?_eq_some.mpr written
      · exact digits?_eq_some.mpr written

theorem number?_eq_some :
    token.number? = some value ↔ token.Numeral value ∧ value.natAbs ≤ magnitudeMax := by
  constructor
  · intro h
    refine ⟨.of_number? h, ?_⟩
    rw [number?.eq_def] at h
    split at h <;> obtain ⟨n, read, rfl⟩ := Option.map_eq_some_iff.mp h <;>
      simpa using (magnitude?_eq_some.mp read).2
  · rintro ⟨numeral, small⟩
    cases numeral with
    | minus written =>
      rw [Int.natAbs_neg, Int.natAbs_natCast] at small
      simp [number?, magnitude?_eq_some.mpr ⟨written, small⟩]
    | plus written => simp [number?, magnitude?_eq_some.mpr ⟨written, small⟩]
    | plain written =>
      rw [number?.eq_def]
      split
      case h_1 => exact absurd written.isDigit_head (by decide)
      case h_2 => exact absurd written.isDigit_head (by decide)
      case h_3 => simp [magnitude?_eq_some.mpr ⟨written, small⟩]

theorem register?_eq_some : token.register? = some r ↔ token.Register r := by
  refine ⟨.of_register?, ?_⟩
  have read {name : List Char} {r : Nat} (h : RegisterName name r) : register? name = some r := by
    obtain ⟨rfl | rfl, spelled, written, small⟩ := h
    · exact natural?_eq_some.mpr ⟨Nat.le_pred_of_lt small, _, spelled, written⟩
    · exact natural?_eq_some.mpr ⟨Nat.le_pred_of_lt small, _, spelled, written⟩
  intro h
  cases h with
  | plain name => exact read name
  | dollar name =>
    have same := read name
    obtain ⟨rfl | rfl, -⟩ := name
    · exact same
    · exact same

theorem register?_eq_none : token.register? = none ↔ ∀ r, ¬ token.Register r := by
  simp only [Option.eq_none_iff_forall_not_mem, Option.mem_def, register?_eq_some]

theorem Register.lt (h : token.Register r) : r < Isa.registerCount := by
  obtain ⟨-, -, -, small⟩ | ⟨-, -, -, small⟩ := h <;> exact small

theorem displacement?_eq_some {disp base : Token} :
    token.displacement? = some (disp, base) ↔ token.Displacement disp base ∧ '(' ∉ disp := by
  have visible : isBlank '(' = false := by decide
  constructor
  · intro h
    refine ⟨.of_displacement? h, ?_⟩
    rw [displacement?] at h
    split at h
    case h_1 => cases h
    case h_2 before rest parts =>
      have first := not_of_cutFirst? parts
      split at h <;> cases h
      intro mem
      split at mem
      case isTrue => simp at mem
      case isFalse => simpa using first _ (mem_of_mem_trim mem)
  · rintro ⟨written, first⟩
    have inside {disp : List Char} (free : '(' ∉ trim disp) : ∀ d ∈ disp, (d == '(') = false := by
      intro d mem
      rw [beq_eq_false_iff_ne]
      rintro rfl
      exact free (mem_trim mem visible)
    cases written with
    | full full =>
      rw [displacement?, cutFirst?_append (inside first) (by simp)]
      simp [full]
    | zero blank =>
      rw [displacement?, cutFirst?_append (inside (by simp [blank])) (by simp)]
      simp [blank]

inductive Unsigned : List Char → Nat → Prop
  | decimal {digits : List Char} {n : Nat} : Decimal digits n → Unsigned digits n
  | hexadecimal {mark : Char} {digits : List Char} {n : Nat} : mark = 'x' ∨ mark = 'X' →
      Hexadecimal digits n → Unsigned ('0' :: mark :: digits) n

inductive Signed : Token → Int → Prop
  | bare {digits : List Char} {n : Nat} : Unsigned digits n → Signed digits n
  | plus {digits : List Char} {n : Nat} : Unsigned digits n → Signed ('+' :: digits) n
  | minus {digits : List Char} {n : Nat} : Unsigned digits n → Signed ('-' :: digits) (-n)

variable {digits : List Char}

theorem magnitude_iff : Magnitude digits n ↔ Unsigned digits n := by
  constructor
  · rintro (written | ⟨mark, written⟩)
    · exact .decimal (writes_ten.mp written)
    · exact .hexadecimal mark (writes_sixteen.mp written)
  · rintro (written | ⟨mark, written⟩)
    · exact .decimal (writes_ten.mpr written)
    · exact .hexadecimal mark (writes_sixteen.mpr written)

theorem numeral_iff : token.Numeral value ↔ token.Signed value := by
  constructor
  · rintro (written | written | written)
    · exact .bare (magnitude_iff.mp written)
    · exact .plus (magnitude_iff.mp written)
    · exact .minus (magnitude_iff.mp written)
  · rintro (written | written | written)
    · exact .plain (magnitude_iff.mpr written)
    · exact .plus (magnitude_iff.mpr written)
    · exact .minus (magnitude_iff.mpr written)

theorem toInt_ofNat (small : n ≤ 2147483647) : (Int32.ofNat n).toInt = n :=
  Int32.toInt_ofNat_of_lt (Nat.lt_succ_of_le small)

theorem toInt_neg_ofNat (small : n ≤ 2147483647) : (-Int32.ofNat n).toInt = -n := by
  rw [Int32.toInt_neg, toInt_ofNat small]
  exact Int.bmod_eq_of_le (by omega) (by omega)

/-- A token is a number just if it is written like one, without regard to anything else that tokens can
be, and is small enough. Then it is read as the number that is written, which 32 bits hold with either
sign, and it is no name of a label. -/
theorem number?_iff_signed (token : Token) :
    (∀ value, token.number? = some value ↔ token.Signed value ∧ value.natAbs ≤ 2147483647) ∧
    ∀ value, token.number? = some value →
      (Int32.ofInt value).toInt = value ∧ (-Int32.ofNat value.natAbs).toInt = -value.natAbs ∧
        token.isLabelName = false := by
  refine ⟨fun value => ?_, fun value read => ?_⟩
  · rw [number?_eq_some, numeral_iff]
    rfl
  · obtain ⟨numeral, small⟩ := number?_eq_some.mp read
    replace small : value.natAbs ≤ 2147483647 := small
    refine ⟨Int32.toInt_ofInt_of_le (by omega) (by omega), toInt_neg_ofNat small,
      numeral.isLabelName⟩

theorem number?_iff_signed_of_least : number? "-0x7FFFFFFf".toList = some (-2147483647) ∧
    (-Int32.ofNat (Int.natAbs (-2147483647))).toInt = -2147483647 := by
  have digits : Hexadecimal "7FFFFFFf".toList 2147483647 :=
    writes_sixteen.mp (digits?_eq_some.mp (by decide))
  have signed : Signed "-0x7FFFFFFf".toList (-2147483647) :=
    .minus (.hexadecimal (.inl rfl) digits)
  have read := ((number?_iff_signed _).1 _).mpr ⟨signed, by decide⟩
  exact ⟨read, ((number?_iff_signed _).2 _ read).2.1⟩

end Token

end Backstep.Asm
