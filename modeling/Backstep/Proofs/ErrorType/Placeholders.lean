import Mathlib.Data.List.Basic
import Backstep.ErrorType.Expansion

/-!
Placeholders found and renamed as parts of a text: which arguments a message mentions, and what is
left of it when its positions have been replaced by names. However many replacements are made after
each other, they come to one pass over the opening braces.
-/

namespace Backstep.ErrorType

def afterBraces : List Char → List (List Char)
  | [] => []
  | c :: cs => if c = '\x7b' then cs :: afterBraces cs else afterBraces cs

/-- The text with an `f` behind each opening brace before a rest that satisfies `p`. -/
def marked (p : List Char → Bool) : List Char → List Char
  | [] => []
  | c :: cs => if c = '\x7b' ∧ p cs = true then c :: 'f' :: marked p cs else c :: marked p cs

def opens (argument rest : List Char) : Bool :=
  (argument ++ ['\x7d']).isPrefixOf rest || (argument ++ [':']).isPrefixOf rest

variable {p q : List Char → Bool} {c : Char} {front rest text tail needle argument : List Char}
  {i : Nat}

section Marked

theorem marked_brace (here : p rest = true) :
    marked p ('\x7b' :: rest) = '\x7b' :: 'f' :: marked p rest := by
  rw [marked, if_pos ⟨rfl, here⟩]

theorem marked_brace_of_not (other : p rest = false) :
    marked p ('\x7b' :: rest) = '\x7b' :: marked p rest := by
  rw [marked, if_neg (by simp [other])]

theorem marked_cons (plain : c ≠ '\x7b') : marked p (c :: rest) = c :: marked p rest := by
  rw [marked, if_neg (by simp [plain])]

theorem marked_append (plain : '\x7b' ∉ front) :
    marked p (front ++ rest) = front ++ marked p rest := by
  induction front with
  | nil => rfl
  | cons c front ih =>
    rw [List.mem_cons, not_or] at plain
    rw [List.cons_append, marked_cons (Ne.symm plain.1), ih plain.2, List.cons_append]

theorem isPrefixOf_marked (plain : '\x7b' ∉ needle) :
    needle.isPrefixOf (marked p text) = needle.isPrefixOf text := by
  induction needle generalizing text with
  | nil => rfl
  | cons d needle ih =>
    rw [List.mem_cons, not_or] at plain
    cases text with
    | nil => rfl
    | cons c text =>
      by_cases brace : c = '\x7b'
      · subst brace
        have apart : (d == '\x7b') = false := beq_false_of_ne (Ne.symm plain.1)
        cases here : p text with
        | true => rw [marked_brace here, List.isPrefixOf_cons_cons, List.isPrefixOf_cons_cons, apart]; rfl
        | false =>
          rw [marked_brace_of_not here, List.isPrefixOf_cons_cons, List.isPrefixOf_cons_cons, apart]; rfl
      · rw [marked_cons brace, List.isPrefixOf_cons_cons, List.isPrefixOf_cons_cons, ih plain.2]

theorem marked_marked (kept : ∀ rest, p (marked q rest) = p rest)
    (fresh : ∀ rest, p ('f' :: rest) = false) :
    marked p (marked q text) = marked (fun rest => q rest || p rest) text := by
  induction text with
  | nil => rfl
  | cons c text ih =>
    by_cases brace : c = '\x7b'
    · subst brace
      cases here : q text with
      | true =>
        rw [marked_brace here, marked_brace_of_not (fresh _), marked_cons (by decide), ih,
          marked_brace (by simp [here])]
      | false =>
        cases later : p text with
        | true =>
          rw [marked_brace_of_not here, marked_brace (by rw [kept, later]), ih,
            marked_brace (by simp [later])]
        | false =>
          rw [marked_brace_of_not here, marked_brace_of_not (by rw [kept, later]), ih,
            marked_brace_of_not (by simp [here, later])]
    · rw [marked_cons brace, marked_cons brace, marked_cons brace, ih]

theorem marked_never : marked (fun _ => false) text = text := by
  induction text with
  | nil => rfl
  | cons c text ih => rw [marked, if_neg (by simp), ih]

theorem length_le_marked (p : List Char → Bool) (text : List Char) :
    text.length ≤ (marked p text).length := by
  induction text with
  | nil => exact Nat.zero_le _
  | cons c text ih =>
    rw [marked]
    split <;> simp only [List.length_cons] <;> omega

theorem marked_eq_self_iff {text : List Char} :
    marked p text = text ↔ (afterBraces text).any p = false := by
  induction text with
  | nil => simp [marked, afterBraces]
  | cons c text ih =>
    by_cases brace : c = '\x7b'
    · subst brace
      cases here : p text with
      | true =>
        have longer := length_le_marked p text
        rw [marked_brace here]
        simp only [afterBraces, if_true, List.any_cons, here, Bool.true_or, reduceCtorEq, iff_false]
        intro same
        have := congrArg List.length same
        simp only [List.length_cons] at this
        omega
      | false => simp [marked_brace_of_not here, afterBraces, here, ih]
    · simp [marked_cons brace, afterBraces, brace, ih]

end Marked

section Replaced

theorem isPrefixOf_brace_iff : ('\x7b' :: tail).isPrefixOf (c :: text) = true ↔
    c = '\x7b' ∧ tail.isPrefixOf text = true := by
  rw [List.isPrefixOf_cons_cons, Bool.and_eq_true, beq_iff_eq, eq_comm]

theorem replaceFrom_eq (plain : '\x7b' ∉ tail) (skip : Nat) :
    replaceFrom ('\x7b' :: tail) ('\x7b' :: 'f' :: tail) skip text =
      marked tail.isPrefixOf (text.drop skip) := by
  induction text generalizing skip with
  | nil => cases skip <;> rfl
  | cons c text ih =>
    cases skip with
    | succ skip => rw [replaceFrom, ih, List.drop_succ_cons]
    | zero =>
      rw [replaceFrom, List.drop_zero]
      split
      case isTrue found =>
        -- What is passed over next holds no brace, so a pass over it would leave it as it is.
        obtain ⟨rfl, front⟩ := isPrefixOf_brace_iff.mp found
        obtain ⟨rest, rfl⟩ := List.isPrefixOf_iff_prefix.mp front
        rw [ih, marked_brace front, marked_append plain, List.length_cons, Nat.add_sub_cancel,
          List.drop_left]
        rfl
      case isFalse other =>
        rw [ih, List.drop_zero, marked, if_neg (mt isPrefixOf_brace_iff.mpr other)]

theorem replaceAll_eq (plain : '\x7b' ∉ tail) :
    replaceAll ('\x7b' :: tail) ('\x7b' :: 'f' :: tail) text = marked tail.isPrefixOf text :=
  replaceFrom_eq plain 0

theorem occurs_iff : occurs needle text = true ↔ needle <:+: text := by
  induction text with
  | nil => simp [occurs]
  | cons c text ih =>
    rw [occurs, Bool.or_eq_true, List.isPrefixOf_iff_prefix, ih, List.infix_cons_iff]

theorem occurs_eq : occurs ('\x7b' :: tail) text = (afterBraces text).any tail.isPrefixOf := by
  induction text with
  | nil => rfl
  | cons c text ih =>
    rw [occurs, afterBraces, ih, List.isPrefixOf_cons_cons]
    by_cases brace : c = '\x7b'
    · simp [brace]
    · simp [brace, Ne.symm brace]

theorem mentions_eq : mentions text argument = (afterBraces text).any (opens argument) := by
  rw [mentions, plainHole, formatHole, List.cons_append, List.cons_append, occurs_eq, occurs_eq]
  induction afterBraces text with
  | nil => rfl
  | cons rest later ih =>
    rw [List.any_cons, List.any_cons, List.any_cons, ← ih, opens]
    ac_rfl

theorem mentions_iff : mentions text argument = true ↔
    plainHole argument <:+: text ∨ formatHole argument <:+: text := by
  rw [mentions, Bool.or_eq_true, occurs_iff, occurs_iff]

theorem opens_iff : opens argument rest = true ↔
    ∃ close later, (close = '\x7d' ∨ close = ':') ∧ rest = argument ++ close :: later := by
  rw [opens, Bool.or_eq_true, List.isPrefixOf_iff_prefix, List.isPrefixOf_iff_prefix]
  constructor
  · rintro (⟨later, rfl⟩ | ⟨later, rfl⟩)
    · exact ⟨_, later, .inl rfl, List.append_assoc _ _ _⟩
    · exact ⟨_, later, .inr rfl, List.append_assoc _ _ _⟩
  · rintro ⟨_, later, rfl | rfl, rfl⟩
    · exact .inl ⟨later, List.append_assoc _ _ _⟩
    · exact .inr ⟨later, List.append_assoc _ _ _⟩

end Replaced

section Positions

theorem isDigit_of_mem_position (mem : c ∈ position i) : c.isDigit = true :=
  Nat.isDigit_of_mem_toDigits (by decide) (by decide) mem

theorem brace_not_mem_position : '\x7b' ∉ position i := by
  intro mem
  cases isDigit_of_mem_position mem

theorem exists_position_eq (i : Nat) : ∃ d ds, position i = d :: ds ∧ d.isDigit = true := by
  obtain ⟨d, ds, eq⟩ := List.exists_cons_of_ne_nil (@Nat.toDigits_ne_nil i 10)
  have first : d ∈ position i := by
    rw [position, eq]
    exact List.mem_cons_self
  exact ⟨d, ds, eq, isDigit_of_mem_position first⟩

theorem position_inj {j : Nat} (same : position i = position j) : i = j := by
  have value := congrArg (Nat.ofDigitChars 10 · 0) same
  simpa [position] using value

theorem position_isPrefixOf_name : (position i ++ tail).isPrefixOf ('f' :: rest) = false := by
  obtain ⟨d, ds, eq, digit⟩ := exists_position_eq i
  have apart : (d == 'f') = false := by
    rw [beq_eq_false_iff_ne]
    rintro rfl
    cases digit
  rw [eq, List.cons_append, List.isPrefixOf_cons_cons, apart]
  rfl

theorem opens_position_name : opens (position i) ('f' :: rest) = false := by
  rw [opens, position_isPrefixOf_name, position_isPrefixOf_name]
  rfl

theorem opens_marked (plain : '\x7b' ∉ argument) : opens argument (marked p rest) = opens argument rest := by
  rw [opens, isPrefixOf_marked (by simp [plain]), isPrefixOf_marked (by simp [plain]), opens]

theorem namePosition_eq : namePosition text i = marked (opens (position i)) text := by
  have closed (close : Char) (plain : close ≠ '\x7b') : '\x7b' ∉ position i ++ [close] := by
    simp [brace_not_mem_position, Ne.symm plain]
  rw [namePosition, plainHole, plainHole, formatHole, formatHole, positionName]
  simp only [List.cons_append]
  rw [replaceAll_eq (closed _ (by decide)), replaceAll_eq (closed _ (by decide)),
    marked_marked (fun _ => isPrefixOf_marked (closed _ (by decide)))
      fun _ => position_isPrefixOf_name]
  rfl

theorem foldl_namePosition (positions : List Nat) : positions.foldl namePosition text =
    marked (fun rest => positions.any fun i => opens (position i) rest) text := by
  induction positions generalizing text with
  | nil => exact marked_never.symm
  | cons i positions ih =>
    rw [List.foldl_cons, ih, namePosition_eq, marked_marked]
    · rfl
    · intro rest
      simp only [opens_marked brace_not_mem_position]
    · intro rest
      simp [opens_position_name]

theorem namePositions_eq (n : Nat) : namePositions text n =
    marked (fun rest => (List.range n).any fun i => opens (position i) rest) text := by
  rw [namePositions, foldl_namePosition]
  simp only [List.any_reverse]

end Positions

end Backstep.ErrorType
