import Mathlib.Data.List.TakeWhile
import Backstep.Text.Input

namespace Backstep.Text

variable {p : Char → Bool} {c : Char} {cs before after piece separators : List Char}

theorem cutFirst?_eq_some (h : cutFirst? p cs = some (before, after)) :
    ∃ c, p c = true ∧ cs = before ++ c :: after := by
  rw [cutFirst?] at h
  split at h
  case h_1 => cases h
  case h_2 c rest drop =>
    cases h
    have stops := List.head?_dropWhile_not (!p ·) cs
    have whole := List.takeWhile_append_dropWhile (p := (!p ·)) (l := cs)
    rw [drop] at stops whole
    exact ⟨c, by simpa using stops, whole.symm⟩

theorem not_of_cutFirst? (h : cutFirst? p cs = some (before, after)) :
    ∀ d ∈ before, p d = false := by
  rw [cutFirst?] at h
  split at h
  case h_1 => cases h
  case h_2 =>
    cases h
    intro d mem
    simpa using List.mem_takeWhile_imp mem

theorem cutFirst?_append (inside : ∀ d ∈ before, p d = false) (separator : p c = true) :
    cutFirst? p (before ++ c :: after) = some (before, after) := by
  have inside : ∀ d ∈ before, (!p d) = true := by simpa using inside
  rw [cutFirst?, List.dropWhile_append_of_pos inside, List.takeWhile_append_of_pos inside,
    List.dropWhile_cons_of_neg (by simp [separator]), List.takeWhile_cons_of_neg (by simp [separator])]
  simp

theorem cutFirst?_inside_append (inside : ∀ d ∈ piece, p d = false) :
    cutFirst? p (piece ++ cs) = (cutFirst? p cs).map fun (before, after) => (piece ++ before, after) := by
  have inside : ∀ d ∈ piece, (!p d) = true := by simpa using inside
  rw [cutFirst?, cutFirst?, List.dropWhile_append_of_pos inside, List.takeWhile_append_of_pos inside]
  cases cs.dropWhile (!p ·) <;> rfl

theorem cutFirst?_eq_none (inside : ∀ d ∈ cs, p d = false) : cutFirst? p cs = none := by
  have all : cs.dropWhile (!p ·) = [] := by
    simpa [List.dropWhile_eq_nil_iff] using inside
  rw [cutFirst?, all]

theorem mem_dropWhile (mem : c ∈ cs) (kept : p c = false) : c ∈ cs.dropWhile p := by
  rw [← List.takeWhile_append_dropWhile (p := p) (l := cs), List.mem_append] at mem
  obtain dropped | rest := mem
  · rw [List.mem_takeWhile_imp dropped] at kept
    cases kept
  · exact rest

theorem mem_trim (mem : c ∈ cs) (visible : isBlank c = false) : c ∈ trim cs := by
  rw [trim, trimEnd, List.mem_reverse]
  exact mem_dropWhile (List.mem_reverse.mpr (mem_dropWhile mem visible)) visible

theorem mem_of_mem_trim (mem : c ∈ trim cs) : c ∈ cs := by
  rw [trim, trimEnd, List.mem_reverse] at mem
  have kept := (List.dropWhile_sublist _).mem mem
  exact (List.dropWhile_sublist _).mem (List.mem_reverse.mp kept)

theorem dropWhile_eq_self (first : ∀ c ∈ cs.head?, p c = false) : cs.dropWhile p = cs := by
  cases cs with
  | nil => rfl
  | cons c cs => rw [List.dropWhile_cons_of_neg (by simpa using first)]

theorem trim_eq_self (first : ∀ c ∈ cs.head?, isBlank c = false)
    (last : ∀ c ∈ cs.getLast?, isBlank c = false) : trim cs = cs := by
  rw [← List.head?_reverse] at last
  rw [trim, trimStart, dropWhile_eq_self first, trimEnd, dropWhile_eq_self last,
    List.reverse_reverse]

theorem trimEnd_concat (blank : isBlank c = true) : trimEnd (cs ++ [c]) = trimEnd cs := by
  rw [trimEnd, List.reverse_concat, List.dropWhile_cons_of_pos blank, trimEnd]

theorem trim_concat (blank : isBlank c = true) : trim (cs ++ [c]) = trim cs := by
  rw [trim, trimStart, List.dropWhile_append, trim, trimStart]
  split
  case isTrue empty =>
    rw [List.dropWhile_cons_of_pos blank, List.isEmpty_iff.mp empty]
    rfl
  case isFalse => exact trimEnd_concat blank

theorem exists_trimEnd (cs : List Char) :
    ∃ blanks, (∀ c ∈ blanks, isBlank c = true) ∧ cs = trimEnd cs ++ blanks := by
  refine ⟨(cs.reverse.takeWhile isBlank).reverse, fun c mem => ?_, ?_⟩
  · exact List.mem_takeWhile_imp (List.mem_reverse.mp mem)
  · rw [trimEnd, ← List.reverse_append, List.takeWhile_append_dropWhile, List.reverse_reverse]

theorem isBlank_getLast?_trimEnd : ∀ c ∈ (trimEnd cs).getLast?, isBlank c = false := by
  intro c mem
  rw [trimEnd, List.getLast?_reverse] at mem
  have stops := List.head?_dropWhile_not isBlank cs.reverse
  rw [mem] at stops
  simpa using stops

theorem trim_append_blanks (blanks : ∀ c ∈ after, isBlank c = true) :
    trim (cs ++ after) = trim cs := by
  induction after generalizing cs with
  | nil => rw [List.append_nil]
  | cons c after ih =>
    rw [List.forall_mem_cons] at blanks
    rw [List.append_cons, ih blanks.2, trim_concat blanks.1]

section Visible

variable (full : cs ≠ []) (first : ∀ c ∈ cs.head?, isBlank c = false)
  (last : ∀ c ∈ cs.getLast?, isBlank c = false)
include full first last

theorem trim_append_trimEnd (after : List Char) :
    trim (cs ++ trimEnd after) = cs ++ trimEnd after := by
  refine trim_eq_self ?_ fun c mem => ?_
  · obtain ⟨c, rest, rfl⟩ := List.exists_cons_of_ne_nil full
    exact first
  · rw [List.getLast?_append] at mem
    cases behind : (trimEnd after).getLast? with
    | none => exact last c (by simpa [behind] using mem)
    | some d =>
      obtain rfl : d = c := by simpa [behind] using mem
      exact isBlank_getLast?_trimEnd d behind

theorem trim_append (after : List Char) : trim (cs ++ after) = cs ++ trimEnd after := by
  obtain ⟨blanks, all, eq⟩ := exists_trimEnd after
  calc trim (cs ++ after)
    _ = trim (cs ++ trimEnd after ++ blanks) := by rw [List.append_assoc, ← eq]
    _ = cs ++ trimEnd after := by
      rw [trim_append_blanks all, trim_append_trimEnd full first last]

end Visible

theorem trim_blanks_append (blanks : ∀ c ∈ before, isBlank c = true) :
    trim (before ++ cs) = trim cs := by
  rw [trim, trimStart, List.dropWhile_append_of_pos blanks, trim, trimStart]

theorem cut_ne_nil : cut p cs ≠ [] := by
  cases cs with
  | nil => simp [cut]
  | cons c cs =>
    rw [cut, List.foldr_cons]
    split
    · simp
    · split <;> simp

theorem exists_cut_eq_cons (p : Char → Bool) (cs : List Char) :
    ∃ first rest, cut p cs = first :: rest :=
  List.exists_cons_of_ne_nil cut_ne_nil

theorem exists_cut_eq_concat (p : Char → Bool) (cs : List Char) :
    ∃ front last, cut p cs = front ++ [last] :=
  ⟨_, _, (List.dropLast_concat_getLast cut_ne_nil).symm⟩

theorem ne_separator (inside : c ∉ cs) : ∀ d ∈ cs, (d == c) = false := by
  intro d mem
  exact beq_false_of_ne (ne_of_mem_of_not_mem mem inside)

theorem cut_cons (separator : p c = true) : cut p (c :: cs) = [] :: cut p cs := by
  simp [cut, separator]

theorem cut_cons_inside (inside : p c = false) : cut p (c :: cs) =
    match cut p cs with
    | [] => [[c]]
    | piece :: rest => (c :: piece) :: rest := by
  rw [cut, List.foldr_cons, if_neg (by simp [inside])]
  rfl

theorem cut_append_cons (separator : p c = true) (before : List Char) :
    cut p (before ++ c :: cs) = cut p before ++ cut p cs := by
  induction before with
  | nil => exact cut_cons separator
  | cons d before ih =>
    rw [List.cons_append]
    cases stops : p d with
    | true => rw [cut_cons stops, cut_cons stops, ih, List.cons_append]
    | false =>
      obtain ⟨piece, rest, eq⟩ := exists_cut_eq_cons p before
      rw [cut_cons_inside stops, cut_cons_inside stops, ih, eq]
      rfl

theorem cut_eq_singleton (inside : ∀ d ∈ piece, p d = false) : cut p piece = [piece] := by
  induction piece with
  | nil => rfl
  | cons d piece ih =>
    rw [List.forall_mem_cons] at inside
    rw [cut_cons_inside inside.1, ih inside.2]

theorem cut_append (inside : ∀ d ∈ piece, p d = false)
    (separator : p c = true) : cut p (piece ++ c :: cs) = piece :: cut p cs := by
  rw [cut_append_cons separator, cut_eq_singleton inside, List.singleton_append]

theorem cut_append_inside {pieces : List (List Char)} (inside : ∀ d ∈ piece, p d = false)
    (eq : cut p cs = pieces ++ [before]) : cut p (cs ++ piece) = pieces ++ [before ++ piece] := by
  induction cs generalizing pieces before with
  | nil =>
    obtain ⟨rfl, rfl⟩ : pieces = [] ∧ before = [] := by
      cases pieces <;> simp_all [cut]
    exact cut_eq_singleton inside
  | cons d cs ih =>
    obtain ⟨next, rest, pair⟩ := exists_cut_eq_cons p cs
    rw [List.cons_append]
    cases stops : p d with
    | true =>
      rw [cut_cons stops] at eq ⊢
      cases pieces with
      | nil => exact absurd (List.cons.inj eq).2 cut_ne_nil
      | cons first pieces =>
        obtain ⟨rfl, later⟩ := List.cons.inj eq
        rw [ih later, List.cons_append]
    | false =>
      rw [cut_cons_inside stops, pair] at eq
      rw [cut_cons_inside stops]
      cases pieces with
      | nil =>
        obtain ⟨rfl, rfl⟩ := List.cons.inj eq
        have whole : cut p cs = [] ++ [next] := pair
        rw [ih whole]
        rfl
      | cons first pieces =>
        obtain ⟨rfl, rfl⟩ := List.cons.inj eq
        have whole : cut p cs = next :: pieces ++ [before] := pair
        rw [ih whole]
        rfl

theorem cut_inside_append {pieces : List (List Char)} (inside : ∀ d ∈ piece, p d = false)
    (eq : cut p cs = after :: pieces) : cut p (piece ++ cs) = (piece ++ after) :: pieces := by
  induction piece with
  | nil => exact eq
  | cons d piece ih =>
    rw [List.forall_mem_cons] at inside
    rw [List.cons_append, cut_cons_inside inside.1, ih inside.2]
    rfl

theorem length_cut (c : Char) (cs : List Char) : (cut (· == c) cs).length = cs.count c + 1 := by
  induction cs with
  | nil => rfl
  | cons d cs ih =>
    cases same : d == c with
    | true =>
      rw [cut_cons (p := (· == c)) same, List.length_cons, ih, List.count_cons, same, if_pos rfl]
    | false =>
      obtain ⟨first, rest, pair⟩ := exists_cut_eq_cons (· == c) cs
      rw [cut_cons_inside (p := (· == c)) same, List.count_cons, same]
      rw [pair] at ih ⊢
      exact ih

theorem not_of_mem_cut (mem : piece ∈ cut p cs) : ∀ d ∈ piece, p d = false := by
  induction cs generalizing piece with
  | nil => simp_all [cut]
  | cons d cs ih =>
    cases stops : p d with
    | true =>
      rw [cut_cons stops, List.mem_cons] at mem
      obtain rfl | mem := mem
      · simp
      · exact ih mem
    | false =>
      obtain ⟨next, rest, pair⟩ := exists_cut_eq_cons p cs
      rw [cut_cons_inside stops, pair, List.mem_cons] at mem
      obtain rfl | mem := mem
      · rw [List.forall_mem_cons]
        exact ⟨stops, ih (by simp [pair])⟩
      · exact ih (by simp [pair, mem])

theorem fields_append (full : piece ≠ []) (inside : ∀ d ∈ piece, p d = false)
    (separator : p c = true) : fields p (piece ++ c :: cs) = piece :: fields p (c :: cs) := by
  rw [fields, cut_append inside separator, fields, cut_cons separator]
  simp [full]

theorem fields_separators (all : ∀ d ∈ separators, p d = true) :
    fields p (separators ++ cs) = fields p cs := by
  induction separators with
  | nil => rfl
  | cons d separators ih =>
    rw [List.forall_mem_cons] at all
    rw [List.cons_append, fields, cut_cons all.1, ← ih all.2]
    simp [fields]

theorem fields_concat (separator : p c = true) : fields p (cs ++ [c]) = fields p cs := by
  rw [fields, cut_append_cons separator, List.filter_append, fields]
  exact List.append_nil _

theorem fields_append_separators (all : ∀ d ∈ separators, p d = true) :
    fields p (cs ++ separators) = fields p cs := by
  induction separators generalizing cs with
  | nil => rw [List.append_nil]
  | cons d separators ih =>
    rw [List.forall_mem_cons] at all
    rw [List.append_cons, ih all.2, fields_concat all.1]

theorem fields_gap (some : separators ≠ []) (all : ∀ d ∈ separators, p d = true) :
    fields p (before ++ separators ++ after) = fields p before ++ fields p after := by
  obtain ⟨c, rest, rfl⟩ := List.exists_cons_of_ne_nil some
  rw [List.forall_mem_cons] at all
  rw [List.append_assoc, List.cons_append, fields, cut_append_cons all.1, List.filter_append,
    ← fields, ← fields, fields_separators all.2]

theorem fields_eq_singleton (full : piece ≠ []) (inside : ∀ d ∈ piece, p d = false) :
    fields p piece = [piece] := by
  rw [fields, cut_eq_singleton inside]
  simp [full]

theorem fields_piece (full : piece ≠ []) (inside : ∀ d ∈ piece, p d = false)
    (ends : ∀ d ∈ after.head?, p d = true) : fields p (piece ++ after) = piece :: fields p after := by
  cases after with
  | nil =>
    rw [List.append_nil, fields_eq_singleton full inside]
    rfl
  | cons c after => exact fields_append full inside (ends c rfl)

/-- The pieces between the separators of a text, in order, each as long as it can be. -/
inductive Fields (p : Char → Bool) : List Char → List (List Char) → Prop
  | none {separators : List Char} : (∀ d ∈ separators, p d = true) → Fields p separators []
  | piece {separators piece rest : List Char} {pieces : List (List Char)} :
      (∀ d ∈ separators, p d = true) → piece ≠ [] → (∀ d ∈ piece, p d = false) →
      (∀ d ∈ rest.head?, p d = true) → Fields p rest pieces →
      Fields p (separators ++ piece ++ rest) (piece :: pieces)

theorem Fields.fields_eq {pieces : List (List Char)} (h : Fields p cs pieces) :
    fields p cs = pieces := by
  induction h with
  | none all =>
    have nothing := @fields_separators p [] _ all
    rwa [List.append_nil] at nothing
  | @piece separators piece rest pieces all full inside ends _ ih =>
    rw [List.append_assoc, fields_separators all, fields_piece full inside ends, ih]

theorem exists_fields (p : Char → Bool) (cs : List Char) : ∃ pieces, Fields p cs pieces := by
  induction cs with
  | nil => exact ⟨[], .none (by simp)⟩
  | cons c cs ih =>
    obtain ⟨pieces, h⟩ := ih
    cases stops : p c with
    | true =>
      cases h with
      | none all => exact ⟨[], .none (List.forall_mem_cons.mpr ⟨stops, all⟩)⟩
      | piece all full inside ends rest =>
        exact ⟨_, .piece (List.forall_mem_cons.mpr ⟨stops, all⟩) full inside ends rest⟩
    | false =>
      have alone : ∀ d ∈ [c], p d = false := List.forall_mem_singleton.mpr stops
      have start {cs : List Char} {pieces : List (List Char)} (ends : ∀ d ∈ cs.head?, p d = true)
          (h : Fields p cs pieces) : Fields p (c :: cs) ([c] :: pieces) :=
        @Fields.piece p [] _ _ _ (by simp) (by simp) alone ends h
      cases h with
      | none all => exact ⟨_, start (fun d mem => all d (List.mem_of_mem_head? mem)) (.none all)⟩
      | @piece separators piece rest pieces all full inside ends later =>
        -- The character opens a piece of its own if a separator follows, and else the next piece.
        cases separators with
        | nil =>
          exact ⟨_, @Fields.piece p [] (c :: piece) _ _ (by simp) (by simp)
            (List.forall_mem_cons.mpr ⟨stops, inside⟩) ends later⟩
        | cons s separators =>
          have ended : ∀ d ∈ (s :: separators ++ piece ++ rest).head?, p d = true := by
            simpa using (List.forall_mem_cons.mp all).1
          exact ⟨_, start ended (.piece all full inside ends later)⟩

theorem fields_iff {pieces : List (List Char)} : Fields p cs pieces ↔ pieces = fields p cs := by
  constructor
  · intro h
    exact h.fields_eq.symm
  · rintro rfl
    obtain ⟨pieces, h⟩ := exists_fields p cs
    rwa [h.fields_eq]

theorem mem_intercalate {pieces : List (List Char)}
    (mem : c ∈ separators.intercalate pieces) : c ∈ separators ∨ ∃ piece ∈ pieces, c ∈ piece := by
  induction pieces with
  | nil => cases mem
  | cons piece pieces ih =>
    cases pieces with
    | nil => exact .inr ⟨piece, by simp, by simpa using mem⟩
    | cons next pieces =>
      rw [List.intercalate_cons_cons, List.append_assoc, List.mem_append, List.mem_append] at mem
      obtain mem | mem | mem := mem
      · exact .inr ⟨piece, by simp, mem⟩
      · exact .inl mem
      · exact (ih mem).imp_right fun ⟨piece, later, mem⟩ => ⟨piece, by simp [later], mem⟩

theorem exists_intercalate_eq_append (separators : List Char) {pieces : List (List Char)}
    (some : pieces ≠ []) :
    ∃ front, ∃ last ∈ pieces, separators.intercalate pieces = front ++ last := by
  induction pieces with
  | nil => exact absurd rfl some
  | cons piece pieces ih =>
    cases pieces with
    | nil => exact ⟨[], piece, by simp⟩
    | cons next pieces =>
      obtain ⟨front, last, mem, eq⟩ := ih (by simp)
      refine ⟨piece ++ separators ++ front, last, by simp [mem], ?_⟩
      rw [List.intercalate_cons_cons, eq, List.append_assoc, List.append_assoc, List.append_assoc]

theorem fields_intercalate {pieces : List (List Char)} (some : separators ≠ [])
    (all : ∀ d ∈ separators, p d = true)
    (plain : ∀ piece ∈ pieces, piece ≠ [] ∧ ∀ d ∈ piece, p d = false) :
    fields p (separators.intercalate pieces) = pieces := by
  obtain ⟨c, rest, rfl⟩ := List.exists_cons_of_ne_nil some
  induction pieces with
  | nil => rfl
  | cons piece pieces ih =>
    rw [List.forall_mem_cons] at plain
    obtain ⟨⟨full, inside⟩, plain⟩ := plain
    cases pieces with
    | nil => rw [List.intercalate_singleton, fields_eq_singleton full inside]
    | cons next pieces =>
      rw [List.intercalate_cons_cons, List.append_assoc, List.cons_append,
        fields_append full inside (all c List.mem_cons_self), ← List.cons_append,
        fields_separators all, ih plain]

theorem intercalate_cut (c : Char) (cs : List Char) : [c].intercalate (cut (· == c) cs) = cs := by
  induction cs with
  | nil => rfl
  | cons d cs ih =>
    obtain ⟨piece, rest, eq⟩ := exists_cut_eq_cons (· == c) cs
    by_cases same : d = c
    · have separator : (d == c) = true := beq_iff_eq.mpr same
      rw [cut_cons (p := (· == c)) separator, eq, List.intercalate_cons_cons, ← eq, ih, same]
      rfl
    · have inside : (d == c) = false := beq_false_of_ne same
      rw [cut_cons_inside (p := (· == c)) inside, eq]
      rw [eq] at ih
      cases rest with
      | nil => simpa using ih
      | cons next rest =>
        rw [List.intercalate_cons_cons] at ih ⊢
        simpa using ih

theorem cut_intercalate {pieces : List (List Char)} (some : pieces ≠ []) (separator : p c = true)
    (plain : ∀ piece ∈ pieces, ∀ d ∈ piece, p d = false) :
    cut p ([c].intercalate pieces) = pieces := by
  induction pieces with
  | nil => exact absurd rfl some
  | cons piece pieces ih =>
    rw [List.forall_mem_cons] at plain
    cases pieces with
    | nil => rw [List.intercalate_singleton, cut_eq_singleton plain.1]
    | cons next pieces =>
      rw [List.intercalate_cons_cons, List.append_assoc, List.singleton_append,
        cut_append plain.1 separator, ih (by simp) plain.2]

theorem lines_append {row : List Char} (inside : '\n' ∉ row) :
    lines (row ++ '\n' :: cs) = dropReturn row :: lines cs := by
  rw [lines, cut_append (ne_separator inside) (beq_self_eq_true _), List.dropLast_cons_of_ne_nil cut_ne_nil,
    List.getLast?_cons_of_ne_nil cut_ne_nil]
  rfl

theorem lines_eq_singleton (full : piece ≠ []) (inside : '\n' ∉ piece) : lines piece = [piece] := by
  rw [lines, cut_eq_singleton (ne_separator inside)]
  simp [full]

theorem lines_flatMap {rows : List (List Char)}
    (plain : ∀ row ∈ rows, '\n' ∉ row ∧ dropReturn row = row) :
    lines (rows.flatMap (· ++ ['\n'])) = rows := by
  induction rows with
  | nil => rfl
  | cons row rows ih =>
    rw [List.forall_mem_cons] at plain
    obtain ⟨⟨inside, kept⟩, plain⟩ := plain
    rw [List.flatMap_cons, List.append_assoc, List.singleton_append, lines_append inside, kept,
      ih plain]

theorem lines_intercalate {rows : List (List Char)}
    (plain : ∀ row ∈ rows, row ≠ [] ∧ '\n' ∉ row ∧ dropReturn row = row) :
    lines (['\n'].intercalate rows) = rows := by
  induction rows with
  | nil => rfl
  | cons row rows ih =>
    rw [List.forall_mem_cons] at plain
    obtain ⟨⟨full, inside, kept⟩, plain⟩ := plain
    cases rows with
    | nil => rw [List.intercalate_singleton, lines_eq_singleton full inside]
    | cons next rows =>
      rw [List.intercalate_cons_cons, List.append_assoc, List.singleton_append, lines_append inside,
        kept, ih plain]

theorem sublist_dropReturn (row : List Char) : (dropReturn row).Sublist row := by
  rw [dropReturn]
  split
  case isTrue => exact List.dropLast_sublist row
  case isFalse => exact .refl row

theorem newline_not_mem_of_lines (mem : piece ∈ lines cs) : '\n' ∉ piece := by
  have inside {row : List Char} (mem : row ∈ cut (· == '\n') cs) : '\n' ∉ row := by
    intro newline
    simpa using not_of_mem_cut mem _ newline
  rw [lines, List.mem_append, List.mem_map] at mem
  obtain ⟨row, closed, rfl⟩ | last := mem
  · intro newline
    exact inside (List.dropLast_subset _ closed) ((sublist_dropReturn row).mem newline)
  · exact inside (List.mem_of_getLast? (by simpa using (List.mem_filter.mp last).1))

section Size

@[simp] theorem byteCount_cons : byteCount (c :: cs) = c.utf8Size + byteCount cs := rfl

@[simp] theorem byteCount_append : byteCount (before ++ after) = byteCount before + byteCount after := by
  induction before with
  | nil => simp [byteCount]
  | cons c before ih => simp [ih, Nat.add_assoc]

theorem length_le_byteCount (cs : List Char) : cs.length ≤ byteCount cs := by
  induction cs with
  | nil => exact Nat.zero_le _
  | cons c cs ih =>
    have := c.utf8Size_pos
    simp only [List.length_cons, byteCount_cons]
    omega

theorem utf8Size_eq_one_iff : c.utf8Size = 1 ↔ c.toNat < 128 := by
  rw [Char.utf8Size_eq_one_iff, UInt32.le_iff_toNat_le]
  exact Nat.lt_succ_iff.symm

theorem byteCount_eq_length_iff : byteCount cs = cs.length ↔ ∀ c ∈ cs, c.toNat < 128 := by
  induction cs with
  | nil => simp [byteCount]
  | cons c cs ih =>
    have first := c.utf8Size_pos
    have rest := length_le_byteCount cs
    rw [List.forall_mem_cons, ← ih, ← utf8Size_eq_one_iff, byteCount_cons, List.length_cons]
    omega

end Size

end Backstep.Text
