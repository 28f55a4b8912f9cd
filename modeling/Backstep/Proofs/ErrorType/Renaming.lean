import Backstep.Proofs.ErrorType.Placeholders

namespace Backstep.ErrorType

/-- One pass over a text from the left. A key that stands there is passed over and its value written,
and a character at which there is none is copied. -/
inductive Rewritten (Rule : List Char → List Char → Prop) : List Char → List Char → Prop
  | done : Rewritten Rule [] []
  | replaced {key value text result : List Char} : Rule key value → Rewritten Rule text result →
      Rewritten Rule (key ++ text) (value ++ result)
  | copied {c : Char} {text result : List Char} : (∀ key value, Rule key value → ¬ key <+: c :: text) →
      Rewritten Rule text result → Rewritten Rule (c :: text) (c :: result)

/-- The numeral of a position below `n` in braces, or up to the colon of a format, and what is written
for it. -/
inductive Naming (n : Nat) : List Char → List Char → Prop
  | hole {i : Nat} {close : Char} : i < n → close = '\x7d' ∨ close = ':' →
      Naming n ('\x7b' :: (Nat.toDigits 10 i ++ [close]))
        ('\x7b' :: 'f' :: (Nat.toDigits 10 i ++ [close]))

def opensPosition (n : Nat) (rest : List Char) : Bool :=
  (List.range n).any fun i => opens (position i) rest

variable {n : Nat} {c : Char} {text rest result hole named : List Char}

section Opening

theorem opensPosition_iff : opensPosition n rest = true ↔
    ∃ i < n, ∃ close later, (close = '\x7d' ∨ close = ':') ∧ rest = position i ++ close :: later := by
  simp only [opensPosition, List.any_eq_true, List.mem_range, opens_iff]

theorem opensPosition_iff_naming : opensPosition n rest = true ↔
    ∃ hole named, Naming n hole named ∧ hole <+: '\x7b' :: rest := by
  rw [opensPosition_iff]
  constructor
  · rintro ⟨i, small, close, later, closes, rfl⟩
    exact ⟨_, _, .hole small closes, later, by simp [position]⟩
  · rintro ⟨_, _, @⟨i, close, small, closes⟩, later, eq⟩
    exact ⟨i, small, close, later, closes, by simpa [position] using eq.symm⟩

theorem Naming.exists_tail (naming : Naming n hole named) :
    ∃ tail, hole = '\x7b' :: tail ∧ named = '\x7b' :: 'f' :: tail ∧ '\x7b' ∉ tail := by
  obtain @⟨i, close, -, closes⟩ := naming
  refine ⟨_, rfl, rfl, ?_⟩
  rw [List.mem_append, List.mem_singleton, not_or]
  exact ⟨brace_not_mem_position, by rintro rfl; simp at closes⟩

theorem Naming.found {tail : List Char} (naming : Naming n ('\x7b' :: tail) named)
    (front : tail <+: rest) : opensPosition n rest = true :=
  opensPosition_iff_naming.mpr ⟨_, named, naming, List.cons_prefix_cons.mpr ⟨rfl, front⟩⟩

theorem opensPosition_marked (p : List Char → Bool) :
    opensPosition n (marked p rest) = opensPosition n rest := by
  simp only [opensPosition, opens_marked brace_not_mem_position]

theorem opensPosition_name : opensPosition n ('f' :: rest) = false := by
  simp [opensPosition, opens_position_name]

end Opening

section Pass

theorem marked_hole (naming : Naming n hole named) :
    marked (opensPosition n) (hole ++ rest) = named ++ marked (opensPosition n) rest := by
  obtain ⟨tail, rfl, rfl, plain⟩ := naming.exists_tail
  have opened : opensPosition n (tail ++ rest) = true := naming.found ⟨rest, rfl⟩
  rw [List.cons_append, marked_brace opened, marked_append plain, List.cons_append, List.cons_append]

theorem marked_copied (none : ∀ hole named, Naming n hole named → ¬ hole <+: c :: rest) :
    marked (opensPosition n) (c :: rest) = c :: marked (opensPosition n) rest := by
  rw [marked, if_neg]
  rintro ⟨rfl, opened⟩
  obtain ⟨hole, named, naming, here⟩ := opensPosition_iff_naming.mp opened
  exact none hole named naming here

theorem Rewritten.marked_eq (h : Rewritten (Naming n) text result) :
    marked (opensPosition n) text = result := by
  induction h with
  | done => rfl
  | replaced naming _ ih => rw [marked_hole naming, ih]
  | copied none _ ih => rw [marked_copied none, ih]

theorem rewritten_marked (text : List Char) :
    Rewritten (Naming n) text (marked (opensPosition n) text) := by
  -- A key is passed over as a whole, so the induction is on the length and not on the characters.
  induction length : text.length using Nat.strongRecOn generalizing text with
  | ind length ih =>
    subst length
    cases text with
    | nil => exact .done
    | cons c text =>
      by_cases here : ∃ hole named, Naming n hole named ∧ hole <+: c :: text
      · obtain ⟨hole, named, naming, later, eq⟩ := here
        have shorter : later.length < (c :: text).length := by
          obtain ⟨tail, rfl, -, -⟩ := naming.exists_tail
          simp only [← eq, List.length_append, List.length_cons]
          omega
        rw [← eq, marked_hole naming]
        exact .replaced naming (ih _ shorter later rfl)
      · have none : ∀ hole named, Naming n hole named → ¬ hole <+: c :: text :=
          fun hole named naming stands => here ⟨hole, named, naming, stands⟩
        rw [marked_copied none]
        exact .copied none (ih _ (Nat.lt_succ_self _) text rfl)

theorem rewritten_iff : Rewritten (Naming n) text result ↔ marked (opensPosition n) text = result := by
  constructor
  · exact Rewritten.marked_eq
  · rintro rfl
    exact rewritten_marked text

theorem marked_opensPosition_twice : marked (opensPosition n) (marked (opensPosition n) text) =
    marked (opensPosition n) text := by
  rw [marked_marked (fun _ => opensPosition_marked _) fun _ => opensPosition_name]
  simp only [Bool.or_self]

theorem Naming.not_isInfix (naming : Naming n hole named)
    (none : (afterBraces text).any (opensPosition n) = false) : ¬ hole <:+: text := by
  obtain ⟨tail, rfl, -, -⟩ := naming.exists_tail
  rw [← occurs_iff, occurs_eq, List.any_eq_true]
  rintro ⟨rest, mem, front⟩
  have opened : opensPosition n rest = true := naming.found (List.isPrefixOf_iff_prefix.mp front)
  exact List.any_eq_false.mp none rest mem opened

end Pass

section Order

theorem foldl_namePosition_eq {order : List Nat} (below : ∀ i, i ∈ order ↔ i < n) :
    order.foldl namePosition text = marked (opensPosition n) text := by
  have same : (fun rest => order.any fun i => opens (position i) rest) = opensPosition n := by
    funext rest
    rw [Bool.eq_iff_iff, opensPosition, List.any_eq_true, List.any_eq_true]
    simp only [below, List.mem_range]
  rw [foldl_namePosition, same]

/-- All the replacements come to one pass from the left, the order in which the positions are taken
makes no difference, and no placeholder of a position is left that a second round could find. -/
theorem namePositions_simultaneous (message : List Char) (n : Nat) :
    (∀ result, namePositions message n = result ↔ Rewritten (Naming n) message result) ∧
    (∀ order : List Nat, (∀ i, i ∈ order ↔ i < n) →
      order.foldl namePosition message = namePositions message n) ∧
    (∀ hole named, Naming n hole named → ¬ hole <:+: namePositions message n) ∧
    namePositions (namePositions message n) n = namePositions message n := by
  have once (text : List Char) : namePositions text n = marked (opensPosition n) text :=
    namePositions_eq n
  simp only [once]
  refine ⟨fun result => rewritten_iff.symm, fun order below => foldl_namePosition_eq below,
    fun hole named naming => naming.not_isInfix ?_, marked_opensPosition_twice⟩
  exact marked_eq_self_iff.mp marked_opensPosition_twice

theorem namePositions_simultaneous_of_nested : (∀ i, i ∈ List.range 11 ↔ i < 11) ∧
    Naming 11 "\x7b1\x7d".toList "\x7bf1\x7d".toList ∧
    namePositions "\x7b\x7b0:\x7b1\x7d\x7b10\x7d\x7b11\x7d".toList 11 =
      "\x7b\x7bf0:\x7bf1\x7d\x7bf10\x7d\x7b11\x7d".toList ∧
    (List.range 11).foldl namePosition "\x7b\x7b0:\x7b1\x7d\x7b10\x7d\x7b11\x7d".toList =
      "\x7b\x7bf0:\x7bf1\x7d\x7bf10\x7d\x7b11\x7d".toList ∧
    ¬ "\x7b1\x7d".toList <:+: "\x7b\x7bf0:\x7bf1\x7d\x7bf10\x7d\x7b11\x7d".toList := by
  obtain ⟨-, order, none, -⟩ :=
    namePositions_simultaneous "\x7b\x7b0:\x7b1\x7d\x7b10\x7d\x7b11\x7d".toList 11
  have renamed : namePositions "\x7b\x7b0:\x7b1\x7d\x7b10\x7d\x7b11\x7d".toList 11 =
      "\x7b\x7bf0:\x7bf1\x7d\x7bf10\x7d\x7b11\x7d".toList := by decide
  have below : ∀ i, i ∈ List.range 11 ↔ i < 11 := fun _ => List.mem_range
  have one : Naming 11 "\x7b1\x7d".toList "\x7bf1\x7d".toList :=
    @Naming.hole 11 1 '\x7d' (by decide) (.inl rfl)
  rw [renamed] at order none
  exact ⟨below, one, renamed, order _ below, none _ _ one⟩

end Order

end Backstep.ErrorType
