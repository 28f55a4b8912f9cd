import Backstep.File.Disk
import Backstep.Proofs.Text.SplitLaws

namespace Backstep.File

open Text

variable {path extension text : List Char} {front others : List (List Char)}

def ways (path : List Char) : List (List Char) := (cut (· == '/') path).dropLast

def lastComponent (path : List Char) : List Char := (cut (· == '/') path).getLast cut_ne_nil

theorem cut_eq_concat (path : List Char) :
    cut (· == '/') path = ways path ++ [lastComponent path] :=
  (List.dropLast_concat_getLast cut_ne_nil).symm

theorem cut_append_plain (plain : '/' ∉ text) :
    cut (· == '/') (path ++ text) = ways path ++ [lastComponent path ++ text] :=
  cut_append_inside (ne_separator plain) (cut_eq_concat path)

@[simp] theorem ways_append (plain : '/' ∉ text) : ways (path ++ text) = ways path := by
  rw [ways, cut_append_plain plain, List.dropLast_concat]

@[simp] theorem lastComponent_append (plain : '/' ∉ text) :
    lastComponent (path ++ text) = lastComponent path ++ text := by
  simp [lastComponent, cut_append_plain plain]

theorem slash_not_mem_lastComponent : '/' ∉ lastComponent path := by
  intro mem
  have piece : lastComponent path ∈ cut (· == '/') path := List.getLast_mem cut_ne_nil
  exact absurd (not_of_mem_cut piece '/' mem) (by decide)

theorem joinComponents_concat (front : List (List Char)) (last : List Char) :
    joinComponents (front ++ [last]) = front.flatMap (· ++ ['/']) ++ last := by
  rw [joinComponents]
  induction front with
  | nil => simp
  | cons first front ih =>
    rw [List.cons_append, List.intercalate_cons_of_ne_nil (by simp), ih]
    simp

theorem eq_append_lastComponent (path : List Char) :
    path = (ways path).flatMap (· ++ ['/']) ++ lastComponent path := by
  rw [← joinComponents_concat, ← cut_eq_concat, joinComponents, intercalate_cut]

def sibling (path name : List Char) : List Char := (ways path).flatMap (· ++ ['/']) ++ name

theorem sibling_lastComponent (path : List Char) : sibling path (lastComponent path) = path :=
  (eq_append_lastComponent path).symm

theorem sibling_append (path name rest : List Char) :
    sibling path (name ++ rest) = sibling path name ++ rest :=
  (List.append_assoc ..).symm

@[simp] theorem ways_sibling (plain : '/' ∉ text) : ways (sibling path text) = ways path := by
  have same := congrArg ways (eq_append_lastComponent path)
  rw [ways_append slash_not_mem_lastComponent] at same
  rw [sibling, ways_append plain, ← same]

@[simp] theorem lastComponent_sibling (plain : '/' ∉ text) :
    lastComponent (sibling path text) = text := by
  have same := congrArg lastComponent (eq_append_lastComponent path)
  rw [lastComponent_append slash_not_mem_lastComponent, List.self_eq_append_left] at same
  rw [sibling, lastComponent_append plain, same, List.nil_append]

theorem mem_lastComponent_of_getLast? (full : lastComponent path ≠ []) {c : Char}
    (last : path.getLast? = some c) : c ∈ lastComponent path := by
  rw [eq_append_lastComponent path, List.getLast?_append, List.getLast?_eq_some_getLast full,
    Option.some_or] at last
  cases last
  exact List.getLast_mem full

theorem take_lastComponent (path : List Char) :
    path.take (path.length - (lastComponent path).length) = (ways path).flatMap (· ++ ['/']) := by
  have whole := eq_append_lastComponent path
  have size := congrArg List.length whole
  rw [List.length_append] at size
  refine (congrArg (List.take _) whole).trans (List.take_left' ?_)
  omega

theorem joinComponents_prefix (some : front ≠ []) :
    joinComponents front <+: joinComponents (front ++ others) := by
  induction front with
  | nil => exact absurd rfl some
  | cons first front ih =>
    cases front with
    | nil =>
      cases others with
      | nil => exact List.prefix_rfl
      | cons next others =>
        rw [joinComponents, joinComponents, List.singleton_append, List.intercalate_cons_cons,
          List.intercalate_singleton, List.append_assoc]
        exact List.prefix_append ..
    | cons next front =>
      have rest := ih (by simp)
      rw [joinComponents, joinComponents, List.cons_append] at rest
      rw [joinComponents, joinComponents, List.cons_append, List.cons_append,
        List.intercalate_cons_cons, List.intercalate_cons_cons]
      exact (List.prefix_append_right_inj _).mpr rest

theorem ne_nil_of_counts {c : List Char} (counts : isSilent c = false) : c ≠ [] := by
  rintro rfl
  cases counts

theorem exists_silent_end (cs : List (List Char)) : ∃ silent,
    cs = (cs.reverse.dropWhile isSilent).reverse ++ silent ∧ ∀ c ∈ silent, isSilent c = true := by
  refine ⟨(cs.reverse.takeWhile isSilent).reverse, ?_, ?_⟩
  · rw [← List.reverse_append, List.takeWhile_append_dropWhile, List.reverse_reverse]
  · intro c mem
    exact List.mem_takeWhile_imp (List.mem_reverse.mp mem)

theorem components_eq (counts : isSilent (lastComponent path) = false) : components path =
    match ways path with
    | [] => (lastComponent path, [])
    | first :: rest => (first, rest ++ [lastComponent path]) := by
  rw [components, cut_eq_concat]
  cases ways path with
  | nil => rfl
  | cons first rest => simp [List.dropWhile_cons_of_neg, counts]

structure Names (path : List Char) : Prop where
  counts : isSilent (lastComponent path) = false
  ordinary : lastComponent path ≠ ['.', '.']

namespace Names

variable (h : Names path)
include h

theorem fileName?_eq : fileName? path = some (lastComponent path) := by
  rw [fileName?, components_eq h.counts]
  cases ways path <;> simp [h.counts, h.ordinary]

theorem nameEnd_eq : nameEnd path = path.length := by
  have joined := intercalate_cut '/' path
  rw [cut_eq_concat] at joined
  rw [nameEnd, components_eq h.counts]
  cases eq : ways path with
  | nil =>
    rw [eq, List.nil_append] at joined
    dsimp only
    rw [joinComponents, joined]
  | cons first rest =>
    rw [eq] at joined
    dsimp only
    rw [joinComponents, ← List.cons_append, joined]

theorem withExtension_eq (extension : List Char) : withExtension path extension =
    sibling path (if (splitExtension (lastComponent path)).1 = ['.'] then ['.', '.']
      else (splitExtension (lastComponent path)).1 ++ '.' :: extension) := by
  rw [withExtension, h.fileName?_eq]
  dsimp only
  rw [h.nameEnd_eq, take_lastComponent, sibling]
  split <;> simp_all

theorem parent?_of_ways {first : List Char} {rest : List (List Char)}
    (eq : ways path = first :: rest) :
    parent? path = some (if first = [] ∧ (rest.reverse.dropWhile isSilent).reverse = [] then ['/']
      else joinComponents (first :: (rest.reverse.dropWhile isSilent).reverse)) := by
  rw [parent?, components_eq h.counts, eq]
  simp only [List.dropLast_concat]
  cases (rest.reverse.dropWhile isSilent).reverse with
  | nil => cases first <;> simp [joinComponents]
  | cons next kept => simp

theorem parent?_eq : parent? path = some [] ∨ ∃ kept silent extra directory,
    parent? path = some directory ∧ directory ≠ [] ∧ directory <+: path ∧
      ways path = kept ++ silent ∧ cut (· == '/') directory = kept ++ extra ∧
      ∀ c ∈ silent ++ extra, isSilent c = true := by
  have whole : joinComponents (ways path ++ [lastComponent path]) = path := by
    rw [← cut_eq_concat, joinComponents, intercalate_cut]
  have plain : ∀ c ∈ ways path, ∀ d ∈ c, (d == '/') = false := fun c mem =>
    not_of_mem_cut (List.dropLast_subset _ mem)
  cases eq : ways path with
  | nil =>
    left
    rw [parent?, components_eq h.counts, eq]
    simp [ne_nil_of_counts h.counts]
  | cons first rest =>
    right
    obtain ⟨later, split, silent⟩ := exists_silent_end rest
    rw [h.parent?_of_ways eq]
    rw [eq] at whole plain
    generalize (rest.reverse.dropWhile isSilent).reverse = kept at split ⊢
    subst split
    by_cases root : first = [] ∧ kept = []
    · obtain ⟨rfl, rfl⟩ := root
      refine ⟨[[]], later, [[]], ['/'], rfl, by simp, ?_, rfl, rfl, ?_⟩
      · rw [← whole, joinComponents, List.nil_append, List.cons_append,
          List.intercalate_cons_of_ne_nil (by simp)]
        exact List.prefix_append ..
      · simpa [or_imp, forall_and] using ⟨silent, rfl⟩
    · have pieces : cut (· == '/') (joinComponents (first :: kept)) = first :: kept := by
        refine cut_intercalate (by simp) (beq_self_eq_true _) ?_
        intro c mem
        exact plain c (List.mem_append_left _ mem)
      refine ⟨first :: kept, later, [], _, by rw [if_neg root], ?_, ?_, rfl, ?_, ?_⟩
      · intro empty
        rw [empty] at pieces
        obtain ⟨rfl, rfl⟩ := List.cons.inj pieces
        exact root ⟨rfl, rfl⟩
      · rw [← whole, ← List.cons_append, List.append_assoc]
        exact joinComponents_prefix (by simp)
      · rw [pieces, List.append_nil]
      · simpa using silent

end Names

structure IsExtension (extension : List Char) : Prop where
  full : extension ≠ []
  slash : '/' ∉ extension
  dot : '.' ∉ extension

theorem IsExtension.slash_not_mem (plain : IsExtension extension) : '/' ∉ '.' :: extension := by
  simp [plain.slash]

theorem splitExtension_append {base : List Char} (plain : IsExtension extension)
    (full : base ≠ []) : splitExtension (base ++ '.' :: extension) = (base, some extension) := by
  have reversed : (base ++ '.' :: extension).reverse =
      extension.reverse ++ '.' :: base.reverse := by
    simp
  have inside : ∀ c ∈ extension.reverse, (c != '.') = true := by
    intro c mem
    exact bne_iff_ne.mpr (ne_of_mem_of_not_mem (List.mem_reverse.mp mem) plain.dot)
  rw [splitExtension, reversed, List.takeWhile_append_of_pos inside,
    List.dropWhile_append_of_pos inside, List.takeWhile_cons_of_neg (by decide),
    List.dropWhile_cons_of_neg (by decide)]
  simp [full]

theorem names_append (plain : IsExtension extension) : Names (path ++ '.' :: extension) := by
  obtain ⟨c, rest, rfl⟩ := List.exists_cons_of_ne_nil plain.full
  constructor
  · rw [lastComponent_append plain.slash_not_mem]
    cases lastComponent path <;> simp [isSilent]
  · rw [lastComponent_append plain.slash_not_mem]
    intro eq
    have dots : c ∈ ['.', '.'] := eq ▸ by simp
    have other : c ≠ '.' := fun same => plain.dot (by simp [same])
    simp [other] at dots

theorem extension?_append (plain : IsExtension extension) (full : lastComponent path ≠ []) :
    extension? (path ++ '.' :: extension) = some extension := by
  rw [extension?, (names_append plain).fileName?_eq, Option.bind_some,
    lastComponent_append plain.slash_not_mem, splitExtension_append plain full]

/-- A name before the extension stays when that is replaced, unless it is a dot alone. -/
theorem withExtension_append (plain : IsExtension extension)
    (counts : isSilent (lastComponent path) = false) (extension' : List Char) :
    withExtension (path ++ '.' :: extension) extension' = path ++ '.' :: extension' := by
  obtain ⟨full, dot⟩ : lastComponent path ≠ [] ∧ lastComponent path ≠ ['.'] := by
    simpa [isSilent] using counts
  have named : Names (path ++ '.' :: extension) := names_append plain
  rw [named.withExtension_eq, lastComponent_append plain.slash_not_mem,
    splitExtension_append plain full, if_neg dot, sibling, ways_append plain.slash_not_mem,
    ← List.append_assoc, ← eq_append_lastComponent]

theorem splitExtension_fst_isPrefix (name : List Char) : (splitExtension name).1 <+: name := by
  rw [splitExtension]
  split
  case isTrue => exact List.prefix_rfl
  case isFalse =>
    refine (List.dropLast_prefix _).trans ?_
    have back : (name.reverse.dropWhile (· != '.')).reverse <+: name.reverse.reverse :=
      List.reverse_prefix.mpr (List.dropWhile_suffix _)
    rwa [List.reverse_reverse] at back

theorem slash_not_mem_stem (path : List Char) : '/' ∉ (splitExtension (lastComponent path)).1 :=
  fun mem => slash_not_mem_lastComponent ((splitExtension_fst_isPrefix _).subset mem)

theorem splitExtension_fst_ne_nil {name : List Char} (full : name ≠ []) :
    (splitExtension name).1 ≠ [] := by
  rw [splitExtension]
  split
  case isTrue => exact full
  case isFalse some => simpa using some

theorem withExtension_of_parent (counts : isSilent (lastComponent path) = false)
    (parent : lastComponent path = ['.', '.']) : withExtension path extension = path := by
  have none : fileName? path = none := by
    rw [fileName?, components_eq counts]
    cases ways path <;> simp [parent]
  rw [withExtension, none]

theorem Names.withExtension_eq_self_iff (h : Names path) (plain : IsExtension extension) :
    withExtension path extension = path ↔
      ∃ base, path = base ++ '.' :: extension ∧ isSilent (lastComponent base) = false := by
  constructor
  · intro same
    have slash := slash_not_mem_stem path
    have full := splitExtension_fst_ne_nil (ne_nil_of_counts h.counts)
    rw [h.withExtension_eq] at same
    generalize (splitExtension (lastComponent path)).1 = stem at same slash full
    split at same
    case isTrue =>
      have last := congrArg lastComponent same
      rw [lastComponent_sibling (by decide)] at last
      exact absurd last.symm h.ordinary
    case isFalse dot =>
      rw [sibling_append] at same
      refine ⟨_, same.symm, ?_⟩
      rw [lastComponent_sibling slash]
      simp [isSilent, full, dot]
  · rintro ⟨base, rfl, counts⟩
    exact withExtension_append plain counts extension

end Backstep.File
