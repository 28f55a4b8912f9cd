import Backstep.Proofs.ErrorType.Refusals
import Backstep.Proofs.ErrorType.Sources

namespace Backstep.ErrorType

/-- The names that the pattern binds are apart, they are the arguments, and a pattern for positions has
one for each field. -/
structure DisplayArm.Scoped (arm : DisplayArm) (fields : Fields) : Prop where
  apart : (arm.pattern.bound.map spoken).Nodup
  passed : arm.arguments = arm.pattern.bound
  positions : ∀ tuple, fields = .tuple tuple → ∃ binders, arm.pattern = .tuple binders ∧
    binders.length = tuple.length

/-- The binder that a name in the arm stands for. Without one it stands for what it does outside. -/
def DisplayArm.resolve (arm : DisplayArm) (name : List Char) : Option String :=
  arm.pattern.bound.find? fun binder => spoken binder = name

def Shape.Mentions (shape : Shape) (name : List Char) : Prop :=
  ∃ message fields, FirstNamed "error" shape.attributes (.list [.literal (.text message)]) ∧
    shape.fields = .named fields ∧ ∃ binder ∈ fields.map (·.1), spoken binder = name ∧
      (plainHole binder.toList <:+: message ∨ formatHole binder.toList <:+: message)

section Arms

variable {variant : Option String} {message : List Char} {fields : Fields}
  {tuple : List Field} {named : List (String × Field)} {i : Nat}

theorem spoken_positionName : spoken (String.ofList (positionName i)) = positionName i := by
  simp [spoken, positionName]

theorem positionName_ne_formatter : positionName i ≠ formatter := by
  obtain ⟨d, ds, eq, -⟩ := exists_position_eq i
  simp [positionName, formatter, eq]

theorem positionName_inj : Function.Injective positionName :=
  fun _ _ same => position_inj (List.cons.inj same).2

theorem map_spoken_positions (positions : List Nat) :
    (positions.filterMap (positionBinder message)).map spoken =
      (positions.filter fun i => mentions message (position i)).map positionName := by
  induction positions with
  | nil => rfl
  | cons i positions ih =>
    cases mentioned : mentions message (position i) with
    | true => simp [positionBinder, mentioned, ih, spoken_positionName]
    | false => simp [positionBinder, mentioned, ih]

theorem spoken_tuple : (displayArm variant message (.tuple tuple)).pattern.bound.map spoken =
    ((List.range tuple.length).filter fun i => mentions message (position i)).map positionName := by
  rw [← map_spoken_positions, displayArm, Pattern.bound, List.filterMap_map]
  rfl

theorem displayArm_scoped (distinct : fields.Distinct) :
    (displayArm variant message fields).Scoped fields := by
  cases fields with
  | unit => exact ⟨.nil, rfl, nofun⟩
  | tuple tuple =>
    refine ⟨?_, rfl, ?_⟩
    · rw [spoken_tuple]
      exact (List.nodup_range.filter _).map positionName_inj
    · rintro _ ⟨⟩
      exact ⟨_, rfl, by simp⟩
  | named named =>
    refine ⟨?_, rfl, nofun⟩
    rw [Fields.Distinct] at distinct
    have part : ((displayArm variant message (.named named)).pattern.bound.map spoken).Sublist
        (named.map (spoken ·.1)) := by
      rw [← Function.comp_def, ← List.map_map]
      exact List.filter_sublist.map spoken
    exact distinct.sublist part

theorem resolve_eq_none {arm : DisplayArm} {name : List Char} :
    arm.resolve name = none ↔ name ∉ arm.pattern.bound.map spoken := by
  simp [DisplayArm.resolve]

theorem resolve_formatter : (displayArm variant message fields).resolve formatter = none ↔
    ¬ ∃ named, fields = .named named ∧ ∃ binder ∈ named.map (·.1), spoken binder = formatter ∧
      mentions message binder.toList = true := by
  rw [resolve_eq_none]
  cases fields with
  | unit => simp [displayArm, Pattern.bound]
  | tuple tuple => simp [spoken_tuple, positionName_ne_formatter]
  | named named =>
    refine not_congr (List.mem_map.trans ⟨?_, ?_⟩)
    · rintro ⟨binder, bound, same⟩
      obtain ⟨mem, mentioned⟩ := List.mem_filter.mp bound
      exact ⟨named, rfl, binder, mem, same, mentioned⟩
    · rintro ⟨_, ⟨⟩, binder, mem, same, mentioned⟩
      exact ⟨binder, List.mem_filter.mpr ⟨mem, mentioned⟩, same⟩

end Arms

section Displays

variable {d : Declaration} {expansion : Expansion} {shape : Shape} {message : List Char}

theorem FirstNamed.message_eq {attributes : List Attribute} {message' : List Char}
    (first : FirstNamed "error" attributes (.list [.literal (.text message)]))
    (first' : FirstNamed "error" attributes (.list [.literal (.text message')])) :
    message = message' := by
  have same := (firstNamed_iff.mp first).symm.trans (firstNamed_iff.mp first')
  simpa using same

theorem mentions_formatter_iff
    (first : FirstNamed "error" shape.attributes (.list [.literal (.text message)])) :
    (displayArm shape.variant message shape.fields).resolve formatter = none ↔
      ¬ shape.Mentions formatter := by
  rw [resolve_formatter, Shape.Mentions]
  refine not_congr ⟨?_, ?_⟩
  · rintro ⟨named, fields, binder, mem, same, mentioned⟩
    exact ⟨message, named, first, fields, binder, mem, same, mentions_iff.mp mentioned⟩
  · rintro ⟨message', named, first', fields, binder, mem, same, mentioned⟩
    rw [← first.message_eq first', ← mentions_iff] at mentioned
    exact ⟨named, fields, binder, mem, same, mentioned⟩

theorem displays_of_expand (accepted : d.expand = .ok expansion) :
    List.Forall₂ (fun shape arm => ∃ message,
      FirstNamed "error" shape.attributes (.list [.literal (.text message)]) ∧
        arm = displayArm shape.variant message shape.fields) d.shapes expansion.displays := by
  rw [Declaration.shapes]
  cases body : d.body with
  | enum variants =>
    obtain ⟨codes, rfl, made⟩ := Declaration.expand_enum body accepted
    rw [Expansion.displays]
    simp only [List.forall₂_map_left_iff, List.forall₂_map_right_iff]
    refine (mapM_eq_ok.mp made).imp fun v generated expanded => ?_
    obtain ⟨message, impl?, worded, -, rfl⟩ := Variant.expand_eq_ok expanded
    exact ⟨message, messageOf_eq_ok.mp worded, rfl⟩
  | struct fields =>
    rw [Declaration.expand, body] at accepted
    obtain ⟨message, worded, made⟩ := bind_eq_ok.mp accepted
    cases made
    exact .cons ⟨message, messageOf_eq_ok.mp worded, rfl⟩ .nil
  | union =>
    rw [Declaration.expand, body] at accepted
    cases accepted

/-- In each arm of the generated `fmt` the names that are bound are apart and are just the arguments,
and a pattern for positions has one for each field. The formatter can be written to unless the message
has a field of the name `f` in what looks like a placeholder. -/
theorem display_scoped (distinct : d.Distinct) (accepted : d.expand = .ok expansion) :
    List.Forall₂ (fun shape arm => arm.variant = shape.variant ∧ arm.Scoped shape.fields ∧
      (arm.resolve formatter = none ↔ ¬ shape.Mentions formatter)) d.shapes expansion.displays ∧
    ∀ text, Declaration.ofTokens? (code text) = some d →
      generate text = .ok (Token.render (d.written expansion)) := by
  refine ⟨?_, fun text read => generate_eq read accepted⟩
  have arms := (List.forall₂_and_left _ _).mpr ⟨distinct.fields, displays_of_expand accepted⟩
  refine arms.imp fun shape arm h => ?_
  obtain ⟨apart, message, first, rfl⟩ := h
  refine ⟨?_, displayArm_scoped apart, mentions_formatter_iff first⟩
  cases shape.fields <;> rfl

def positionsThenNames : Declaration where
  attributes := []
  name := "E"
  generics := ⟨[], []⟩
  body := .enum [
    ⟨[⟨some "error", .list [.literal (.text "\x7b1\x7d of \x7b0\x7d".toList)]⟩], "A",
      .tuple [⟨[], [.ident "X"]⟩, ⟨[], [.ident "Y"]⟩]⟩,
    ⟨[⟨some "error", .list [.literal (.text "\x7be\x7d at \x7bf\x7d".toList)]⟩], "B",
      .named [("e", ⟨[], [.ident "X"]⟩), ("f", ⟨[], [.ident "Y"]⟩)]⟩]

theorem display_scoped_of_positions : ∃ expansion arm other, positionsThenNames.Distinct ∧
    positionsThenNames.expand = .ok expansion ∧ expansion.displays = [arm, other] ∧
    arm.Scoped (.tuple [⟨[], [.ident "X"]⟩, ⟨[], [.ident "Y"]⟩]) ∧ arm.resolve formatter = none ∧
    other.Scoped (.named [("e", ⟨[], [.ident "X"]⟩), ("f", ⟨[], [.ident "Y"]⟩)]) ∧
    other.resolve formatter ≠ none := by
  have distinct : positionsThenNames.Distinct := by
    refine ⟨by decide, ?_⟩
    rintro shape (_ | ⟨_, _ | ⟨_, ⟨⟩⟩⟩)
    · trivial
    · show List.Nodup _
      decide
  obtain _ | ⟨⟨-, names, free⟩, _ | ⟨⟨-, names', free'⟩, ⟨⟩⟩⟩ := (display_scoped distinct rfl).1
  refine ⟨_, _, _, distinct, rfl, rfl, names, free.mpr ?_, names', mt free'.mp (not_not.mpr ?_)⟩
  · rintro ⟨_, _, -, ⟨⟩, -⟩
  · exact ⟨_, _, ⟨[], [], rfl, nofun⟩, rfl, "f", by decide, rfl,
      .inl ⟨"\x7be\x7d at ".toList, [], rfl⟩⟩

theorem formatter_hidden : ∃ d expansion arm,
    Declaration.ofTokens? (code "#[error(\"offset \x7bf\x7d\")] struct S \x7b f: i32 \x7d") = some d ∧
    d.Distinct ∧ d.expand = .ok expansion ∧ expansion.displays = [arm] ∧
    arm.resolve formatter = some "f" := by
  refine ⟨⟨[⟨some "error", .list [.literal (.text "offset \x7bf\x7d".toList)]⟩], "S", ⟨[], []⟩,
    .struct (.named [("f", ⟨[], [.ident "i32"]⟩)])⟩, _, _, by decide +kernel, ⟨by decide, ?_⟩, rfl, rfl,
    by decide⟩
  rintro shape (_ | ⟨_, ⟨⟩⟩)
  exact List.nodup_singleton _

end Displays

end Backstep.ErrorType
