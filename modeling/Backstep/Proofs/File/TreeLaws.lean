import Backstep.File.Disk
import Backstep.Proofs.ExceptLaws
import Backstep.Proofs.File.PathLaws

namespace Backstep.File

open Text

variable {tree after : Tree} {l d place : Location} {entry : Entry} {c : List Char}
  {cs : List (List Char)} {path path' directory : List Char} {text : String}

namespace Location

theorem start_of_front (some : directory ≠ []) (front : directory <+: path) :
    start directory = start path := by
  obtain ⟨rest, rfl⟩ := front
  cases directory with
  | nil => exact absurd rfl some
  | cons first directory => rfl

theorem start_append (some : directory ≠ []) (rest : List Char) :
    start (directory ++ rest) = start directory :=
  (start_of_front some (List.prefix_append ..)).symm

theorem start_sibling {name : List Char} (plain : '/' ∉ name) :
    start (sibling path name) = start path := by
  have begins {name : List Char} (plain : '/' ∉ name) : name.head? ≠ some '/' :=
    fun first => plain (List.mem_of_head? first)
  conv_rhs => rw [eq_append_lastComponent path]
  rw [sibling]
  cases (ways path).flatMap (· ++ ['/']) with
  | nil => simp [start, begins plain, begins slash_not_mem_lastComponent]
  | cons first rest => rfl

theorem length_parent_le (l : Location) : l.parent.names.length ≤ l.names.length := by
  obtain ⟨anchor | _, _ | ⟨name, names⟩⟩ := l <;> simp [parent]

theorem enter_of_isSilent (silent : isSilent c = true) : l.enter c = l := by
  rw [enter, if_pos silent]

theorem enter_lastComponent (h : Names path) :
    l.enter (lastComponent path) = ⟨l.anchor, l.names ++ [lastComponent path]⟩ := by
  rw [enter, if_neg (by simp [h.counts]), if_neg (by simp [h.ordinary])]

end Location

namespace Tree

theorem entry?_put (inside : place.names ≠ []) (l : Location) :
    Tree.entry? (tree.put place entry) l =
      if l = place then some entry else tree.entry? l := by
  by_cases same : l = place
  · subst same
    simp [put, entry?, inside]
  · have other : (place == l) = false := beq_false_of_ne (Ne.symm same)
    have kept : ∀ e : Location × Entry, (decide ((e.1 != place) = true ∧ (e.1 == l) = true)) =
        (e.1 == l) := by
      rintro ⟨l', e⟩
      by_cases here : l' = l
      · subst here
        simp [same]
      · simp [here]
    simp only [put, entry?, List.find?_cons, other, List.find?_filter, kept, if_neg same]

theorem walk_eq_ok : tree.walk d c = .ok l ↔
    tree.entry? d = some .directory ∧ byteCount c ≤ nameBytes ∧ d.enter c = l := by
  rw [walk]
  split
  case h_1 none => simp [none]
  case h_2 file => simp [file]
  case h_3 directory => split <;> simp [*]

theorem walks_of_isSilent (place : tree.entry? l = some .directory)
    (silent : ∀ c ∈ cs, isSilent c = true) : cs.foldlM tree.walk l = .ok l := by
  induction cs with
  | nil => rfl
  | cons c cs ih =>
    rw [List.forall_mem_cons] at silent
    have short : byteCount c ≤ nameBytes := by
      obtain rfl | rfl : c = [] ∨ c = ['.'] := by simpa [isSilent] using silent.1
      all_goals decide
    have stays : tree.walk l c = .ok l :=
      walk_eq_ok.mpr ⟨place, short, Location.enter_of_isSilent silent.1⟩
    rw [List.foldlM_cons, stays, ok_bind, ih silent.2]

theorem eq_of_walks_isSilent (walked : cs.foldlM tree.walk d = .ok l)
    (silent : ∀ c ∈ cs, isSilent c = true) : d = l := by
  induction cs with
  | nil =>
    cases walked
    rfl
  | cons c cs ih =>
    rw [List.forall_mem_cons] at silent
    rw [List.foldlM_cons, bind_eq_ok] at walked
    obtain ⟨next, first, walked⟩ := walked
    obtain ⟨-, -, rfl⟩ := walk_eq_ok.mp first
    rw [Location.enter_of_isSilent silent.1] at walked
    exact ih walked silent.2

theorem checkPath_eq_ok : checkPath path = .ok () ↔
    Char.ofNat 0 ∉ path ∧ path ≠ [] ∧ byteCount path ≤ pathBytes := by
  rw [checkPath]
  split
  case isTrue zero => simp [List.contains_iff_mem.mp zero]
  case isFalse zero =>
    split
    case isTrue empty => simp [List.isEmpty_iff.mp empty]
    case isFalse full => split <;> simp_all

theorem byteCount_le_of_front (front : directory <+: path) :
    byteCount directory ≤ byteCount path := by
  obtain ⟨rest, rfl⟩ := front
  rw [byteCount_append]
  exact Nat.le_add_right _ _

theorem checkPath_of_front (checked : checkPath path = .ok ()) (some : directory ≠ [])
    (front : directory <+: path) : checkPath directory = .ok () := by
  obtain ⟨zero, -, short⟩ := checkPath_eq_ok.mp checked
  refine checkPath_eq_ok.mpr ⟨fun mem => zero (front.subset mem), some, ?_⟩
  exact (byteCount_le_of_front front).trans short

theorem locate_eq_ok : tree.locate path = .ok l ↔ checkPath path = .ok () ∧
    ∃ d, (ways path).foldlM tree.walk (.start path) = .ok d ∧
      tree.walk d (lastComponent path) = .ok l := by
  rw [locate, cut_eq_concat, List.foldlM_append]
  simp only [bind_eq_ok, List.foldlM_cons, List.foldlM_nil, pure_eq_ok, Except.ok.injEq,
    exists_eq_right]
  exact ⟨fun ⟨⟨⟩, checked, rest⟩ => ⟨checked, rest⟩, fun ⟨checked, rest⟩ => ⟨(), checked, rest⟩⟩

theorem locate_names (h : Names path) (located : tree.locate path = .ok l) :
    ∃ d, (ways path).foldlM tree.walk (.start path) = .ok d ∧ tree.entry? d = some .directory ∧
      l = ⟨d.anchor, d.names ++ [lastComponent path]⟩ := by
  obtain ⟨-, d, walked, last⟩ := locate_eq_ok.mp located
  obtain ⟨directory, -, rfl⟩ := walk_eq_ok.mp last
  exact ⟨d, walked, directory, Location.enter_lastComponent h⟩

theorem locate_ne (h : Names path) (h' : Names path') (begins : Location.start path' = .start path)
    (beside : ways path' = ways path) (other : lastComponent path' ≠ lastComponent path)
    (located : tree.locate path = .ok l) : tree.locate path' ≠ tree.locate path := by
  intro same
  obtain ⟨d, walked, -, eq⟩ := locate_names h located
  obtain ⟨d', walked', -, eq'⟩ := locate_names h' (same.trans located)
  rw [begins, beside, walked] at walked'
  cases walked'
  rw [eq, Location.mk.injEq] at eq'
  exact other (List.append_cancel_left eq'.2 |> List.singleton_inj.mp).symm

theorem counts_of_file (located : tree.locate path = .ok l)
    (file : tree.entry? l ≠ some .directory) : isSilent (lastComponent path) = false := by
  obtain ⟨-, d, -, last⟩ := locate_eq_ok.mp located
  obtain ⟨directory, -, rfl⟩ := walk_eq_ok.mp last
  refine Bool.eq_false_iff.mpr fun silent => file ?_
  rwa [Location.enter_of_isSilent silent]

theorem withExtension_eq_of_locate {extension : List Char} (plain : IsExtension extension)
    (located : tree.locate path = .ok l) (file : tree.entry? l ≠ some .directory)
    (same : tree.locate (withExtension path extension) = .ok l) :
    withExtension path extension = path := by
  have counts := counts_of_file located file
  by_cases parent : lastComponent path = ['.', '.']
  · exact withExtension_of_parent counts parent
  have h : Names path := ⟨counts, parent⟩
  have slash := slash_not_mem_stem path
  rw [h.withExtension_eq] at same ⊢
  split at same
  case isTrue =>
    -- The directory above is no place in the directory.
    obtain ⟨d, walked, -, rfl⟩ := locate_names h located
    obtain ⟨-, d', walked', last⟩ := locate_eq_ok.mp same
    rw [ways_sibling (by decide), Location.start_sibling (by decide), walked] at walked'
    cases walked'
    obtain ⟨-, -, entered⟩ := walk_eq_ok.mp last
    rw [lastComponent_sibling (by decide)] at entered
    have shorter := Location.length_parent_le d
    have names := congrArg (fun l : Location => l.names.length) entered
    simp [Location.enter, isSilent] at names
    omega
  case isFalse dot =>
    rw [if_neg dot]
    by_contra other
    have free : '/' ∉ (splitExtension (lastComponent path)).1 ++ '.' :: extension := by
      simp [slash, plain.slash]
    have named : Names (sibling path ((splitExtension (lastComponent path)).1 ++ '.' :: extension)) := by
      rw [sibling_append]
      exact names_append plain
    refine locate_ne h named (Location.start_sibling free) (ways_sibling free) ?_ located
      (same.trans located.symm)
    intro last
    rw [lastComponent_sibling free] at last
    rw [last, sibling_lastComponent] at other
    exact other rfl

theorem find_eq_ok : tree.find path = .ok entry ↔
    ∃ l, tree.locate path = .ok l ∧ tree.entry? l = some entry := by
  rw [find]
  split
  case h_1 failed => simp [failed]
  case h_2 l located => split <;> simp [*]

theorem read_eq_ok : tree.read path = .ok text ↔ ∃ content l, tree.locate path = .ok l ∧
    tree.entry? l = some (.file content) ∧ String.fromUTF8? content = some text := by
  rw [read]
  split
  case h_1 failed =>
    have none : ∀ entry, tree.find path ≠ .ok entry := by simp [failed]
    simp only [ne_eq, find_eq_ok] at none
    simp only [reduceCtorEq, false_iff]
    rintro ⟨content, l, located, found, -⟩
    exact none _ ⟨l, located, found⟩
  case h_2 directory =>
    obtain ⟨l, located, found⟩ := find_eq_ok.mp directory
    simp [located, found]
  case h_3 content file =>
    obtain ⟨l, located, found⟩ := find_eq_ok.mp file
    simp only [located, Except.ok.injEq]
    split <;> simp [*]

theorem contains_of_read (h : tree.read path = .ok text) : tree.contains path = true := by
  obtain ⟨content, l, located, found, -⟩ := read_eq_ok.mp h
  rw [contains, find_eq_ok.mpr ⟨l, located, found⟩]
  rfl

theorem contains_parent (h : Names path) (located : tree.locate path = .ok l)
    (parent : parent? path = some directory) (some : directory ≠ []) :
    tree.contains directory = true := by
  obtain none | ⟨kept, silent, extra, directory', parent', -, front, before, pieces, all⟩ :=
    h.parent?_eq
  · cases parent.symm.trans none
    exact absurd rfl some
  · cases parent.symm.trans parent'
    rw [List.forall_mem_append] at all
    obtain ⟨d, walked, place, -⟩ := locate_names h located
    rw [before, List.foldlM_append, bind_eq_ok] at walked
    obtain ⟨d', walked, stayed⟩ := walked
    cases eq_of_walks_isSilent stayed all.1
    have found : tree.locate directory = .ok d := by
      rw [locate, checkPath_of_front (locate_eq_ok.mp located).1 some front, ok_bind, pieces,
        List.foldlM_append, Location.start_of_front some front, walked, ok_bind,
        walks_of_isSilent place all.2]
    rw [contains, find_eq_ok.mpr ⟨d, found, place⟩]
    rfl

theorem directory_of_walk_nil (walked : tree.walk d [] = .ok l) :
    tree.entry? l = some .directory := by
  obtain ⟨directory, -, rfl⟩ := walk_eq_ok.mp walked
  rwa [Location.enter_of_isSilent rfl]

theorem writable_ne_ok_of_lastComponent (nothing : lastComponent path = []) :
    tree.writable path ≠ .ok l := by
  intro writable
  simp only [Tree.writable, bind_eq_ok] at writable
  obtain ⟨⟨⟩, -, d, -, l', last, rest⟩ := writable
  have silent : (if (path.reverse.dropWhile (· == '/')).reverse == path then
      (cut (· == '/') (path.reverse.dropWhile (· == '/')).reverse).getLast?.getD [] else []) =
        [] := by
    split
    case isTrue same =>
      rw [eq_of_beq same, cut_eq_concat, List.getLast?_concat]
      exact nothing
    case isFalse => rfl
  rw [silent] at last
  rw [directory_of_walk_nil last] at rest
  cases rest

theorem writable_eq_ok : tree.writable path = .ok l ↔
    tree.locate path = .ok l ∧ tree.entry? l ≠ some .directory := by
  by_cases full : lastComponent path = []
  · refine iff_of_false (writable_ne_ok_of_lastComponent full) ?_
    rintro ⟨located, file⟩
    obtain ⟨-, d, -, last⟩ := locate_eq_ok.mp located
    exact file (directory_of_walk_nil (full ▸ last))
  have whole : (path.reverse.dropWhile (· == '/')).reverse = path := by
    rw [dropWhile_eq_self, List.reverse_reverse]
    intro c last
    rw [List.head?_reverse] at last
    exact ne_separator slash_not_mem_lastComponent c (mem_lastComponent_of_getLast? full last)
  rw [writable, locate_eq_ok]
  simp only [whole, beq_self_eq_true, if_true, bind_eq_ok, cut_eq_concat, List.dropLast_concat,
    List.getLast?_concat, Option.getD_some]
  constructor
  · rintro ⟨⟨⟩, checked, d, walked, l', last, rest⟩
    split at rest
    case h_1 => cases rest
    case h_2 file =>
      cases rest
      exact ⟨⟨checked, d, walked, last⟩, file⟩
  · rintro ⟨⟨checked, d, walked, last⟩, file⟩
    refine ⟨(), checked, d, walked, l, last, ?_⟩
    split
    case h_1 directory => exact absurd directory file
    case h_2 => rfl

section Put

variable (inside : place.names ≠ []) (file : tree.entry? place ≠ some .directory)
include inside file

theorem walk_put (h : tree.walk d c = .ok l) : (tree.put place entry).walk d c = .ok l := by
  obtain ⟨directory, short, entered⟩ := walk_eq_ok.mp h
  have other : d ≠ place := fun same => file (same ▸ directory)
  refine walk_eq_ok.mpr ⟨?_, short, entered⟩
  rw [entry?_put inside, if_neg other, directory]

theorem walks_put (h : cs.foldlM tree.walk d = .ok l) :
    cs.foldlM (tree.put place entry).walk d = .ok l := by
  induction cs generalizing d with
  | nil => exact h
  | cons c cs ih =>
    rw [List.foldlM_cons, bind_eq_ok] at h
    obtain ⟨next, first, rest⟩ := h
    rw [List.foldlM_cons, walk_put inside file first, ok_bind, ih rest]

theorem locate_put (h : tree.locate path = .ok l) : (tree.put place entry).locate path = .ok l := by
  obtain ⟨checked, d, walked, last⟩ := locate_eq_ok.mp h
  exact locate_eq_ok.mpr ⟨checked, d, walks_put inside file walked, walk_put inside file last⟩

end Put

theorem write_eq_ok : tree.write path text = (.ok (), after) ↔
    ∃ l, tree.locate path = .ok l ∧ tree.entry? l ≠ some .directory ∧
      after = tree.put l (.file text.toUTF8) := by
  rw [write]
  split
  case h_1 failed =>
    have none : ∀ l, tree.writable path ≠ .ok l := by simp [failed]
    simp only [ne_eq, writable_eq_ok, not_and] at none
    simp only [Prod.mk.injEq, reduceCtorEq, false_and, false_iff]
    rintro ⟨l, located, file, -⟩
    exact none l located file
  case h_2 l writable =>
    obtain ⟨located, file⟩ := writable_eq_ok.mp writable
    simp only [located, Except.ok.injEq, Prod.mk.injEq, true_and, exists_eq_left', ne_eq, file,
      not_false_eq_true]
    exact eq_comm

theorem write_cases (tree : Tree) (path : List Char) (text : String) :
    (∃ error, tree.write path text = (.error error, tree)) ∨
      ∃ after, tree.write path text = (.ok (), after) := by
  rw [write]
  split
  case h_1 error _ => exact .inl ⟨error, rfl⟩
  case h_2 => exact .inr ⟨_, rfl⟩

theorem names_ne_nil_of_file (file : tree.entry? l ≠ some .directory) : l.names ≠ [] := by
  intro top
  have directory : tree.entry? l = some .directory := by simp [top, entry?]
  exact file directory

theorem fromUTF8?_toUTF8 (text : String) : String.fromUTF8? text.toUTF8 = some text := by
  rw [String.fromUTF8?, String.toUTF8_eq_toByteArray, dif_pos text.isValidUTF8]
  rfl

theorem locate_write (written : tree.write path text = (.ok (), after))
    (located : tree.locate path' = .ok l) : after.locate path' = .ok l := by
  obtain ⟨place, -, file, rfl⟩ := write_eq_ok.mp written
  exact locate_put (names_ne_nil_of_file file) file located

/-- The file at one place has become a text, and every other place is as it was. -/
structure Replaced (before after : Tree) (path : List Char) (text : String) (l : Location) : Prop
    where
  located : before.locate path = .ok l
  stays : after.locate path = .ok l
  content : after.entry? l = some (.file text.toUTF8)
  others : ∀ l', l' ≠ l → after.entry? l' = before.entry? l'

theorem replaced_of_write (written : tree.write path text = (.ok (), after)) :
    ∃ l, Replaced tree after path text l := by
  obtain ⟨l, located, file, rfl⟩ := write_eq_ok.mp written
  have inside := names_ne_nil_of_file file
  refine ⟨l, located, locate_put inside file located, ?_, fun l' other => ?_⟩
  · rw [entry?_put inside, if_pos rfl]
  · rw [entry?_put inside, if_neg other]

theorem Replaced.read (h : Replaced tree after path text l) : after.read path = .ok text :=
  read_eq_ok.mpr ⟨text.toUTF8, l, h.stays, h.content, fromUTF8?_toUTF8 text⟩

theorem read_write (written : tree.write path text = (.ok (), after)) :
    after.read path = .ok text := by
  obtain ⟨l, replaced⟩ := replaced_of_write written
  exact replaced.read

theorem read_write_of_ne (written : tree.write path text = (.ok (), after))
    (other : tree.locate path' ≠ tree.locate path) {text' : String}
    (read : tree.read path' = .ok text') : after.read path' = .ok text' := by
  obtain ⟨l, located, file, rfl⟩ := write_eq_ok.mp written
  obtain ⟨content, l', located', found, valid⟩ := read_eq_ok.mp read
  have inside := names_ne_nil_of_file file
  have apart : l' ≠ l := by
    rintro rfl
    exact other (located'.trans located.symm)
  refine read_eq_ok.mpr ⟨content, l', locate_put inside file located', ?_, valid⟩
  rw [entry?_put inside, if_neg apart, found]

section Run

variable {α β : Type}

def run (tree : Tree) (action : StateM Tree α) : α × Tree := action tree

@[simp] theorem run_bind (tree : Tree) (action : StateM Tree α) (next : α → StateM Tree β) :
    tree.run (action >>= next) = (tree.run action).2.run (next (tree.run action).1) := rfl

@[simp] theorem run_contains (tree : Tree) (path : String) :
    tree.run (Disk.contains path) = (tree.contains path.toList, tree) := rfl

@[simp] theorem run_read (tree : Tree) (path : String) :
    tree.run (Disk.read path) = (tree.read path.toList, tree) := rfl

@[simp] theorem run_write (tree : Tree) (path text : String) :
    tree.run (Disk.write path text) = tree.write path.toList text := rfl

end Run

end Tree

theorem run_of_bind {σ α β : Type} {action : StateM σ α} {next : α → StateM σ β} {s s' : σ} {a : α}
    (run : action s = (a, s')) : (action >>= next) s = next a s' := by
  change next (action s).1 (action s).2 = _
  rw [run]

/-- A disk whose files are those of a tree. It can refuse any access. What it reads is what the tree
has, and a write changes nothing or writes everything. -/
class TreeDisk (σ : Type) extends Disk (StateM σ) where
  tree : σ → Tree
  contains_keeps : ∀ path s, ∃ answer, contains path s = (answer, s)
  read_keeps : ∀ path s, ∃ answer, read path s = (answer, s) ∧
    ∀ text, answer = .ok text → (tree s).read path.toList = .ok text
  write_whole : ∀ path text s, (∃ error, write path text s = (.error error, s)) ∨
    ∃ after, write path text s = (.ok (), after) ∧
      (tree s).write path.toList text = (.ok (), tree after)

instance : TreeDisk Tree where
  tree := id
  contains_keeps := fun _ _ => ⟨_, rfl⟩
  read_keeps := fun _ _ => ⟨_, rfl, fun _ read => read⟩
  write_whole := fun path text s =>
    (Tree.write_cases s path.toList text).imp_right fun ⟨after, written⟩ =>
      ⟨after, written, written⟩

inductive Access where | look | read | write

structure Guarded where
  tree : Tree
  refusal? : Access → String → Option FileError

def Guarded.readOnly (tree : Tree) : Guarded where
  tree := tree
  refusal?
    | .write, _ => some (.other "Permission denied (os error 13)")
    | _, _ => none

instance : TreeDisk Guarded where
  tree := Guarded.tree
  contains path := fun s => ((s.refusal? .look path).isNone && s.tree.contains path.toList, s)
  read path := fun s =>
    match s.refusal? .read path with
    | some error => (.error error, s)
    | none => (s.tree.read path.toList, s)
  write path text := fun s =>
    match s.refusal? .write path with
    | some error => (.error error, s)
    | none =>
      let (answer, after) := s.tree.write path.toList text
      (answer, { s with tree := after })
  contains_keeps := fun _ _ => ⟨_, rfl⟩
  read_keeps := by
    intro path s
    cases s.refusal? .read path with
    | some error => exact ⟨.error error, rfl, nofun⟩
    | none => exact ⟨_, rfl, fun _ read => read⟩
  write_whole := by
    intro path text s
    cases s.refusal? .write path with
    | some error => exact .inl ⟨error, rfl⟩
    | none =>
      obtain ⟨error, failed⟩ | ⟨after, written⟩ := s.tree.write_cases path.toList text
      · exact .inl ⟨error, by rw [failed]⟩
      · exact .inr ⟨{ s with tree := after }, by rw [written], written⟩

end Backstep.File
