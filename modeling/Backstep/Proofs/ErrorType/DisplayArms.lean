import Mathlib.Data.List.Nodup
import Mathlib.Tactic.Tauto
import Backstep.Proofs.ErrorType.FormatStrings
import Backstep.Proofs.ErrorType.Placeholders

/-!
What the generated code writes for a message. The generator does not read the message as a format
string. It looks for braces with an argument behind them, and a doubled brace with the same behind it
looks no different.
-/

namespace Backstep.ErrorType

/-- Somewhere behind a doubled brace the argument stands as if the brace opened a placeholder. -/
def Guarded (argument : List Char) (parts : List Part) : Prop :=
  ∃ before after, parts = before ++ .opening :: after ∧ opens argument (render after) = true

variable {part : Part} {parts others : List Part} {message argument rest : List Char} {c : Char}
  {format : Option (List Char)}

theorem guarded_nil : ¬ Guarded argument [] := by
  rintro ⟨before, after, eq, -⟩
  simp at eq

theorem guarded_cons : Guarded argument (part :: parts) ↔
    part = .opening ∧ opens argument (render parts) = true ∨ Guarded argument parts := by
  constructor
  · rintro ⟨before, after, eq, opened⟩
    cases before with
    | nil =>
      obtain ⟨rfl, rfl⟩ := List.cons.inj eq
      exact .inl ⟨rfl, opened⟩
    | cons first before =>
      obtain ⟨rfl, rfl⟩ := List.cons.inj eq
      exact .inr ⟨before, after, rfl, opened⟩
  · rintro (⟨rfl, opened⟩ | ⟨before, after, rfl, opened⟩)
    · exact ⟨[], parts, rfl, opened⟩
    · exact ⟨part :: before, after, rfl, opened⟩

def isNameChar (c : Char) : Bool := isIdentRest c || c == '#'

section Scanning

variable {name : List Char} {p : List Char → Bool}

theorem nameChar_ne (plain : isNameChar c = true) : c ≠ '\x7d' ∧ c ≠ ':' := by
  constructor <;> rintro rfl <;> revert plain <;> decide

theorem opens_interior (plain : ∀ c ∈ name, isNameChar c = true)
    (ident : ∀ c ∈ argument, isIdentRest c = true) :
    opens name (argument ++ (formatChars format ++ '\x7d' :: rest)) = true ↔ name = argument := by
  obtain ⟨close, later, shape, closes⟩ := exists_close format rest
  rw [shape, opens_iff]
  constructor
  · rintro ⟨close', later', closes', eq⟩
    have inside : close ∉ name := by
      intro mem
      have apart := nameChar_ne (plain close mem)
      exact closes.elim apart.1 apart.2
    exact (append_cons_inj (close_not_mem ident closes') inside eq).1.symm
  · rintro rfl
    exact ⟨close, later, closes, rfl⟩

structure Blind (p : List Char → Bool) : Prop where
  brace : ∀ rest, p ('\x7b' :: rest) = false
  align : ∀ align ∈ alignments, ∀ rest, p (align :: rest) = false

theorem blind_opens (plain : ∀ c ∈ name, isNameChar c = true) : Blind (opens name) := by
  have apart (c : Char) (mark : isNameChar c = false ∧ c ≠ '\x7d' ∧ c ≠ ':') (rest : List Char) :
      opens name (c :: rest) = false := by
    rw [← Bool.not_eq_true, opens_iff]
    rintro ⟨close, later, closes, eq⟩
    cases name with
    | nil =>
      obtain ⟨rfl, -⟩ := List.cons.inj eq
      exact closes.elim mark.2.1 mark.2.2
    | cons d name =>
      obtain ⟨rfl, -⟩ := List.cons.inj eq
      simp [plain c List.mem_cons_self] at mark
  refine ⟨apart _ (by decide), fun align mem => apart align ?_⟩
  obtain rfl | rfl | rfl := alignment_cases mem <;> decide

theorem marked_format {f : List Char} (blind : Blind p) (h : IsFormat f) :
    marked p (f ++ '\x7d' :: rest) = f ++ '\x7d' :: marked p rest := by
  have behind {f : List Char} (plain : ∀ c ∈ f, isFormatChar c = true) :
      marked p (f ++ '\x7d' :: rest) = f ++ '\x7d' :: marked p rest := by
    have inside : '\x7b' ∉ f := fun mem => by cases plain _ mem
    rw [marked_append inside, marked_cons (by decide)]
  cases h with
  | plain plain => exact behind plain
  | @filled fill align rest mem plain =>
    have aligned : align ≠ '\x7b' := by
      obtain rfl | rfl | rfl := alignment_cases mem <;> decide
    rw [List.cons_append, List.cons_append, List.cons_append, List.cons_append]
    by_cases brace : fill = '\x7b'
    · subst brace
      rw [marked_brace_of_not (blind.align align mem _), marked_cons aligned, behind plain]
    · rw [marked_cons brace, marked_cons aligned, behind plain]

theorem marked_interior (blind : Blind p) (ident : ∀ c ∈ argument, isIdentRest c = true)
    (formats : ∀ f ∈ format, IsFormat f) :
    marked p (argument ++ (formatChars format ++ '\x7d' :: rest)) =
      argument ++ (formatChars format ++ '\x7d' :: marked p rest) := by
  rw [marked_append fun mem => (ident_ne (ident _ mem)).1 rfl]
  cases format with
  | none =>
    rw [formatChars, List.nil_append, marked_cons (by decide)]
    rfl
  | some f =>
    rw [formatChars, List.cons_append, marked_cons (by decide), marked_format blind (formats f rfl)]
    rfl

theorem any_afterBraces_interior (blind : Blind p) (ident : ∀ c ∈ argument, isIdentRest c = true)
    (formats : ∀ f ∈ format, IsFormat f) :
    (afterBraces (argument ++ (formatChars format ++ '\x7d' :: rest))).any p =
      (afterBraces rest).any p := by
  rw [Bool.eq_iff_iff, ← not_iff_not, Bool.not_eq_true, Bool.not_eq_true, ← marked_eq_self_iff,
    ← marked_eq_self_iff, marked_interior blind ident formats]
  simp

theorem mentions_render (plain : ∀ c ∈ name, isNameChar c = true)
    (wellFormed : ∀ part ∈ parts, part.WellFormed) :
    mentions (render parts) name = true ↔ Guarded name parts ∨ name ∈ holes parts := by
  rw [mentions_eq]
  have blind := blind_opens plain
  induction parts with
  | nil => simp [afterBraces, guarded_nil]
  | cons part parts ih =>
    rw [List.forall_mem_cons] at wellFormed
    obtain ⟨formed, later⟩ := wellFormed
    have mentioned := ih later
    rw [guarded_cons]
    cases formed with
    | text opening closing => simpa [Part.chars, afterBraces, opening, holes] using mentioned
    | closing => simpa [Part.chars, afterBraces, holes] using mentioned
    | opening => simp [Part.chars, afterBraces, blind.brace, mentioned, holes, or_assoc]
    | hole ident formats =>
      rw [render_hole, afterBraces, if_pos rfl, List.any_cons, Bool.or_eq_true,
        opens_interior plain ident, any_afterBraces_interior blind ident formats, holes_hole,
        List.mem_cons]
      simp only [mentioned, reduceCtorEq, false_and, false_or]
      exact or_left_comm

end Scanning

def Part.positionNamed : Part → Part
  | text c => text c
  | opening => opening
  | closing => closing
  | hole argument format => hole ('f' :: argument) format

/-- A name as it is spoken of in a placeholder: the mark of a raw one is no part of it. -/
def spoken (name : String) : List Char :=
  match name.toList with
  | 'r' :: '#' :: rest => rest
  | cs => cs

namespace Fields

def spokenOf : Fields → List (List Char)
  | .unit => []
  | .tuple fields => (List.range fields.length).map position
  | .named fields => fields.map fun (name, _) => spoken name

def renamed : Fields → Part → Part
  | .unit => id
  | .tuple _ => Part.positionNamed
  | .named _ => id

def Proper : Fields → Prop
  | .named fields => (fields.map (·.1)).Nodup ∧
      ∀ name ∈ fields.map (·.1), ∀ c ∈ spoken name, isIdentRest c = true
  | _ => True

end Fields

namespace Pattern

def bound : Pattern → List String
  | .unit => []
  | .tuple binders => binders.filterMap id
  | .named names => names

inductive Binds : Pattern → Fields → List (List Char) → Prop
  | unit {args : List (List Char)} : Binds .unit .unit args
  | tuple {binders : List (Option String)} {fields : List Field} {args : List (List Char)} :
      binders.length = fields.length →
      (∀ i < fields.length, binders[i]? =
        some (if position i ∈ args then some (String.ofList (positionName i)) else none)) →
      Binds (.tuple binders) (.tuple fields) args
  | named {names : List String} {fields : List (String × Field)} {args : List (List Char)} :
      (∀ name, name ∈ names ↔ name ∈ fields.map (·.1) ∧ spoken name ∈ args) →
      Binds (.named names) (.named fields) args

end Pattern

/-- The arm writes a message of these parts: its format string has the same text and the same
placeholders, renamed, and the fields in these are bound and passed on, each once. -/
structure DisplayArm.Prints (arm : DisplayArm) (fields : Fields) (parts : List Part) : Prop where
  message : ∀ others, Reads arm.message others ↔ others = parts.map fields.renamed
  pattern : arm.pattern.Binds fields (holes parts)
  passed : arm.arguments = arm.pattern.bound
  once : arm.arguments.Nodup

/-- Where the generator takes text for a placeholder, or does not know one by its name. -/
inductive Misread : Fields → List Part → Prop
  | position {fields : List Field} {parts : List Part} {i : Nat} : i < fields.length →
      Guarded (position i) parts → Misread (.tuple fields) parts
  | name {fields : List (String × Field)} {parts : List Part} {name : String} :
      name ∈ fields.map (·.1) → Guarded name.toList parts → spoken name ∉ holes parts →
      Misread (.named fields) parts
  | raw {fields : List (String × Field)} {parts : List Part} {name : String} :
      name ∈ fields.map (·.1) → spoken name ∈ holes parts → spoken name ≠ name.toList →
      ¬ Guarded name.toList parts → Misread (.named fields) parts

section Tuples

variable {n i : Nat}

theorem isIdentRest_of_mem_position (mem : c ∈ position i) : isIdentRest c = true := by
  rw [isIdentRest, isDigit_of_mem_position mem, Bool.or_true]

theorem isNameChar_of_mem_position : ∀ c ∈ position i, isNameChar c = true := by
  intro c mem
  rw [isNameChar, isIdentRest_of_mem_position mem, Bool.true_or]

theorem exists_digit (opened : opens (position i) rest = true) :
    ∃ c later, rest = c :: later ∧ c.isDigit = true := by
  obtain ⟨close, later, -, rfl⟩ := opens_iff.mp opened
  obtain ⟨d, ds, eq, digit⟩ := exists_position_eq i
  exact ⟨d, ds ++ close :: later, by rw [eq, List.cons_append], digit⟩

theorem blind_positions : Blind fun rest => (List.range n).any fun i => opens (position i) rest := by
  have each (i : Nat) : Blind (opens (position i)) := blind_opens isNameChar_of_mem_position
  exact ⟨fun rest => by simp [(each _).brace], fun align mem rest => by simp [(each _).align align mem]⟩

theorem render_cons_ne (wellFormed : ∀ part ∈ parts, part.WellFormed)
    (opened : opens (position i) (render parts) = true) :
    'f' :: message ≠ render (parts.map Part.positionNamed) := by
  obtain ⟨c, rest, eq, digit⟩ := exists_digit opened
  have plain : c ≠ '\x7b' ∧ c ≠ '\x7d' := by
    constructor <;> rintro rfl <;> cases digit
  obtain ⟨later, rfl, -⟩ := exists_text wellFormed eq plain
  intro same
  obtain ⟨rfl, -⟩ := List.cons.inj same
  cases digit

theorem namePositions_render (wellFormed : ∀ part ∈ parts, part.WellFormed)
    (known : ∀ argument ∈ holes parts, ∃ i < n, argument = position i) :
    namePositions (render parts) n = render (parts.map Part.positionNamed) ↔
      ∀ i < n, ¬ Guarded (position i) parts := by
  rw [namePositions_eq]
  induction parts with
  | nil => simp [marked, guarded_nil]
  | cons part parts ih =>
    rw [List.forall_mem_cons] at wellFormed
    obtain ⟨formed, later⟩ := wellFormed
    have renamed := ih later fun argument mem => known argument (by cases part <;> simp_all [holes])
    cases formed with
    | text opening =>
      simpa [Part.chars, Part.positionNamed, marked_cons opening, guarded_cons] using renamed
    | closing => simpa [Part.chars, Part.positionNamed, marked_cons, guarded_cons] using renamed
    | opening =>
      have guarded : (∀ i < n, ¬ Guarded (position i) (.opening :: parts)) ↔
          (∀ i < n, opens (position i) (render parts) = false) ∧
            ∀ i < n, ¬ Guarded (position i) parts := by
        simp [guarded_cons, not_or, imp_and, forall_and]
      rw [guarded, ← renamed, List.map_cons, Part.positionNamed, render_cons, render_cons, Part.chars,
        List.cons_append, List.cons_append, marked_brace_of_not (blind_positions.brace _)]
      cases found : (List.range n).any fun i => opens (position i) (render parts) with
      | true =>
        obtain ⟨i, small, opened⟩ : ∃ i < n, opens (position i) (render parts) = true := by
          simpa using found
        rw [List.nil_append, marked_brace found]
        refine iff_of_false (fun same => ?_) fun none => by simp [none.1 i small] at opened
        exact render_cons_ne later opened (by simpa using same)
      | false =>
        have none : ∀ i < n, opens (position i) (render parts) = false := by simpa using found
        rw [List.nil_append, marked_brace_of_not found]
        simpa using fun _ => none
    | @hole argument format ident formats =>
      obtain ⟨i, small, rfl⟩ := known argument (by simp)
      have found : ((List.range n).any fun j => opens (position j)
          (position i ++ (formatChars format ++ '\x7d' :: render parts))) = true := by
        rw [List.any_eq_true]
        exact ⟨i, List.mem_range.mpr small, (opens_interior isNameChar_of_mem_position ident).mpr rfl⟩
      rw [render_hole, marked_brace found, marked_interior blind_positions ident formats,
        List.map_cons, Part.positionNamed, render_hole]
      simpa [guarded_cons] using renamed

end Tuples

section Arms

variable {fields : Fields} {tuple : List Field} {named : List (String × Field)} {name : String}
  {variant : Option String}

theorem reads_of_render (wellFormed : ∀ part ∈ parts, part.WellFormed) (eq : message = render parts) :
    Reads message others ↔ others = parts := by
  have read : Reads message parts := ⟨eq, wellFormed⟩
  exact ⟨read.unique, fun same => same ▸ read⟩

theorem Part.WellFormed.positionNamed (h : part.WellFormed) : part.positionNamed.WellFormed := by
  cases h with
  | text opening closing => exact .text opening closing
  | opening => exact .opening
  | closing => exact .closing
  | hole ident formats => exact .hole (List.forall_mem_cons.mpr ⟨by decide, ident⟩) formats

theorem mentions_position (read : Reads message parts) (i : Nat) :
    mentions message (position i) = true ↔ Guarded (position i) parts ∨ position i ∈ holes parts := by
  rw [read.rendered, mentions_render isNameChar_of_mem_position read.wellFormed]

theorem nodup_positions (message : List Char) (n : Nat) :
    (((List.range n).map (positionBinder message)).filterMap id).Nodup := by
  rw [List.filterMap_map]
  refine List.Nodup.filterMap (fun i j name here there => ?_) List.nodup_range
  have named {i : Nat} (bound : name ∈ positionBinder message i) :
      name = String.ofList (positionName i) := by
    rw [positionBinder] at bound
    split at bound
    case isTrue => exact (Option.some.inj bound).symm
    case isFalse => cases bound
  have same := String.ofList_injective ((named here).symm.trans (named there))
  exact position_inj (List.cons.inj same).2

theorem prints_tuple_iff (read : Reads message parts)
    (known : ∀ argument ∈ holes parts, ∃ i < tuple.length, argument = position i) :
    (displayArm variant message (.tuple tuple)).Prints (.tuple tuple) parts ↔
      ∀ i < tuple.length, ¬ Guarded (position i) parts := by
  have renamed := namePositions_render read.wellFormed known
  rw [← read.rendered] at renamed
  constructor
  · intro prints
    exact renamed.mp ((prints.message _).mpr rfl).rendered
  · intro plain
    refine ⟨fun others => ?_, .tuple (by simp) fun i small => ?_, rfl, nodup_positions message _⟩
    · have formed : ∀ part ∈ parts.map Part.positionNamed, part.WellFormed := by
        rw [List.forall_mem_map]
        exact fun part mem => (read.wellFormed part mem).positionNamed
      exact reads_of_render formed (renamed.mpr plain)
    · have mentioned := mentions_position read i
      simp [small, positionBinder, mentioned, plain i small]

theorem spoken_cases (name : String) :
    name.toList = spoken name ∨ name.toList = 'r' :: '#' :: spoken name := by
  rw [spoken]
  split
  case h_1 rest eq => exact .inr eq
  case h_2 => exact .inl rfl

theorem mem_holes_iff (wellFormed : ∀ part ∈ parts, part.WellFormed) :
    name.toList ∈ holes parts ↔ spoken name ∈ holes parts ∧ spoken name = name.toList := by
  constructor
  · intro mem
    obtain plain | marked := spoken_cases name
    · exact ⟨plain ▸ mem, plain.symm⟩
    · obtain ⟨part, among, argument⟩ := List.mem_filterMap.mp mem
      cases wellFormed part among with
      | hole ident =>
        obtain rfl := Option.some.inj argument
        exact absurd rfl (ident_ne (ident '#' (by simp [marked]))).2.2.2
      | _ => cases argument
  · rintro ⟨mem, plain⟩
    exact plain ▸ mem

theorem mentions_name (read : Reads message parts)
    (ident : ∀ c ∈ spoken name, isIdentRest c = true) :
    mentions message name.toList = true ↔
      Guarded name.toList parts ∨ spoken name ∈ holes parts ∧ spoken name = name.toList := by
  have behind : ∀ c ∈ spoken name, isNameChar c = true := by
    intro c mem
    rw [isNameChar, ident c mem, Bool.true_or]
  have plain : ∀ c ∈ name.toList, isNameChar c = true := by
    obtain plain | marked := spoken_cases name
    · exact plain ▸ behind
    · rw [marked, List.forall_mem_cons, List.forall_mem_cons]
      exact ⟨by decide, by decide, behind⟩
  rw [read.rendered, mentions_render plain read.wellFormed, mem_holes_iff read.wellFormed]

theorem prints_named_iff (read : Reads message parts) (proper : (Fields.named named).Proper) :
    (displayArm variant message (.named named)).Prints (.named named) parts ↔
      ∀ name ∈ named.map (·.1), mentions message name.toList = true ↔ spoken name ∈ holes parts := by
  constructor
  · intro prints name mem
    cases prints.pattern with
    | named binds =>
      have bound := binds name
      rw [List.mem_filter] at bound
      simpa [mem] using bound
  · intro agree
    refine ⟨fun others => ?_, .named fun name => ?_, rfl, proper.1.filter _⟩
    · rw [Fields.renamed, List.map_id]
      exact reads_of_render read.wellFormed read.rendered
    · rw [List.mem_filter]
      exact and_congr_right fun mem => agree name mem

theorem misread_tuple_iff : Misread (.tuple tuple) parts ↔
    ∃ i < tuple.length, Guarded (position i) parts := by
  constructor
  · rintro (⟨small, guarded⟩)
    exact ⟨_, small, guarded⟩
  · rintro ⟨i, small, guarded⟩
    exact .position small guarded

theorem misread_named_iff : Misread (.named named) parts ↔ ∃ name ∈ named.map (·.1),
    Guarded name.toList parts ∧ spoken name ∉ holes parts ∨
      spoken name ∈ holes parts ∧ spoken name ≠ name.toList ∧ ¬ Guarded name.toList parts := by
  constructor
  · rintro (_ | ⟨mem, guarded, free⟩ | ⟨mem, used, marked, plain⟩)
    · exact ⟨_, mem, .inl ⟨guarded, free⟩⟩
    · exact ⟨_, mem, .inr ⟨used, marked, plain⟩⟩
  · rintro ⟨name, mem, ⟨guarded, free⟩ | ⟨used, marked, plain⟩⟩
    · exact .name mem guarded free
    · exact .raw mem used marked plain

/-- For every format string whose placeholders are for fields, the generated arm writes what it says
just if no doubled brace has one of the fields behind it as if it opened a placeholder, and no field
with a raw name is in a placeholder. A field in some placeholder may have its name behind a doubled
brace too. -/
theorem displayArm_prints_iff (variant : Option String) (read : Reads message parts)
    (proper : fields.Proper) (known : ∀ argument ∈ holes parts, argument ∈ fields.spokenOf) :
    (displayArm variant message fields).Prints fields parts ↔ ¬ Misread fields parts := by
  cases fields with
  | unit =>
    have none : holes parts = [] := List.eq_nil_iff_forall_not_mem.mpr fun _ mem => by
      cases known _ mem
    refine iff_of_true ⟨fun others => ?_, .unit, rfl, .nil⟩ (by rintro ⟨⟩)
    rw [Fields.renamed, List.map_id]
    exact reads_of_render read.wellFormed read.rendered
  | tuple tuple =>
    have positions : ∀ argument ∈ holes parts, ∃ i < tuple.length, argument = position i := by
      intro argument mem
      obtain ⟨i, small, rfl⟩ := List.mem_map.mp (known argument mem)
      exact ⟨i, List.mem_range.mp small, rfl⟩
    rw [prints_tuple_iff read positions, misread_tuple_iff]
    simp
  | named named =>
    rw [prints_named_iff read proper, misread_named_iff]
    simp only [not_exists, not_and]
    refine forall_congr' fun name => forall_congr' fun mem => ?_
    rw [mentions_name read (proper.2 name mem)]
    tauto

theorem displayArm_prints_iff_of_positions :
    Reads "\x7b1:>8\x7d of \x7b0\x7d".toList
      [.hole ['1'] (some ['>', '8']), .text ' ', .text 'o', .text 'f', .text ' ', .hole ['0'] none] ∧
    (displayArm none "\x7b1:>8\x7d of \x7b0\x7d".toList (.tuple [⟨[], []⟩, ⟨[], []⟩])).Prints
      (.tuple [⟨[], []⟩, ⟨[], []⟩])
      [.hole ['1'] (some ['>', '8']), .text ' ', .text 'o', .text 'f', .text ' ', .hole ['0'] none] := by
  have read : Reads "\x7b1:>8\x7d of \x7b0\x7d".toList
      [.hole ['1'] (some ['>', '8']), .text ' ', .text 'o', .text 'f', .text ' ', .hole ['0'] none] := by
    refine ⟨rfl, ?_⟩
    simp only [List.forall_mem_cons]
    refine ⟨.hole (List.all_eq_true.mp rfl) fun f mem => ?_, .text ?_ ?_, .text ?_ ?_, .text ?_ ?_,
      .text ?_ ?_, .hole (List.all_eq_true.mp rfl) nofun, nofun⟩
    · obtain rfl := Option.some.inj mem
      exact .plain (List.all_eq_true.mp rfl)
    all_goals decide
  have proper : (Fields.tuple [⟨[], []⟩, ⟨[], []⟩]).Proper := trivial
  refine ⟨read, (displayArm_prints_iff none read proper (by decide)).mpr ?_⟩
  rintro (⟨-, guarded⟩)
  simp [guarded_cons, guarded_nil] at guarded

theorem misread_messages :
    Reads "\x7b\x7b0\x7d\x7d".toList [.opening, .text '0', .closing] ∧
    displayArm none "\x7b\x7b0\x7d\x7d".toList (.tuple [⟨[], []⟩]) =
      ⟨none, .tuple [some "f0"], "\x7b\x7bf0\x7d\x7d".toList, ["f0"]⟩ ∧
    ¬ (displayArm none "\x7b\x7b0\x7d\x7d".toList (.tuple [⟨[], []⟩])).Prints (.tuple [⟨[], []⟩])
      [.opening, .text '0', .closing] ∧
    Reads "\x7btype\x7d".toList [.hole ['t', 'y', 'p', 'e'] none] ∧
    displayArm none "\x7btype\x7d".toList (.named [("r#type", ⟨[], []⟩)]) =
      ⟨none, .named [], "\x7btype\x7d".toList, []⟩ ∧
    ¬ (displayArm none "\x7btype\x7d".toList (.named [("r#type", ⟨[], []⟩)])).Prints
      (.named [("r#type", ⟨[], []⟩)]) [.hole ['t', 'y', 'p', 'e'] none] := by
  have escaped : displayArm none "\x7b\x7b0\x7d\x7d".toList (.tuple [⟨[], []⟩]) =
      ⟨none, .tuple [some "f0"], "\x7b\x7bf0\x7d\x7d".toList, ["f0"]⟩ := by decide
  have raw : displayArm none "\x7btype\x7d".toList (.named [("r#type", ⟨[], []⟩)]) =
      ⟨none, .named [], "\x7btype\x7d".toList, []⟩ := by decide
  refine ⟨⟨rfl, ?_⟩, escaped, fun prints => ?_, ⟨rfl, ?_⟩, raw, fun prints => ?_⟩
  · simp only [List.forall_mem_cons]
    exact ⟨.opening, .text (by decide) (by decide), .closing, nofun⟩
  · have binds := prints.pattern
    rw [escaped] at binds
    cases binds with
    | tuple _ each => exact absurd (each 0 (by decide)) (by decide)
  · simp only [List.forall_mem_cons]
    exact ⟨.hole (List.all_eq_true.mp rfl) nofun, nofun⟩
  · have binds := prints.pattern
    rw [raw] at binds
    cases binds with
    | named each => exact absurd ((each "r#type").mpr (by decide)) (by decide)

end Arms

end Backstep.ErrorType
