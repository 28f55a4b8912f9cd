import Backstep.Proofs.ErrorType.Causes
import Backstep.Proofs.ErrorType.DisplayArms

namespace Backstep.ErrorType

/-- What values are made of: the fields of a variant, or those of the type itself, and the attributes
that hold the message for them. -/
structure Shape where
  variant : Option String
  attributes : List Attribute
  fields : Fields

structure Value (α : Type) where
  variant : Option String
  contents : List (Option String × α)

def Fields.Distinct : Fields → Prop
  | .named fields => (fields.map (spoken ·.1)).Nodup
  | _ => True

namespace Declaration

def shapes (d : Declaration) : List Shape :=
  match d.body with
  | .enum variants => variants.map fun v => ⟨some v.name, v.attributes, v.fields⟩
  | .struct fields => [⟨none, d.attributes, fields⟩]
  | .union => []

structure Distinct (d : Declaration) : Prop where
  variants : (d.shapes.map fun shape => shape.variant.map spoken).Nodup
  fields : ∀ shape ∈ d.shapes, shape.fields.Distinct

structure Has {α : Type} (d : Declaration) (value : Value α) (shape : Shape) : Prop where
  declared : shape ∈ d.shapes
  variant : value.variant = shape.variant
  contents : value.contents.map (·.1) = shape.fields.list.map (·.1)

end Declaration

section Answers

variable {α : Type}

def bindPositions (binders : List (Option String)) (contents : List (Option String × α)) :
    List (String × α) :=
  (binders.zip contents).filterMap fun (binder, _, held) => binder.map (·, held)

def Pattern.bind : Pattern → List (Option String × α) → Option (List (String × α))
  | .unit, contents => if contents.isEmpty then some [] else none
  | .tuple binders, contents =>
    if binders.length = contents.length then some (bindPositions binders contents) else none
  | .named names, contents =>
    names.mapM fun name => (contents.lookup (some name)).map fun held => (name, held)

def SourceArm.answer (arm : SourceArm) (value : Value α) : Option α :=
  if value.variant = some arm.variant then
    (arm.pattern.bind value.contents).bind fun bound => bound.lookup arm.binder
  else none

/-- The first arm that matches answers. No arm and no method answer with nothing. -/
def answer (method? : Option (List SourceArm)) (value : Value α) : Option α :=
  method?.bind fun arms => arms.findSome? fun arm => arm.answer value

/-- The answer is the first field that holds a cause, or nothing without one. -/
inductive Shape.Reports (shape : Shape) (value : Value α) : Option α → Prop
  | marked {i : Nat} {name : Option String} {field : Field} {held : α} :
      shape.fields.First Field.isCause i name field → value.contents[i]? = some (name, held) →
      Reports shape value (some held)
  | unmarked : shape.fields.any Field.isCause = false → Reports shape value none

end Answers

section Bindings

variable {α : Type} {i : Nat} {binder : String} {name : Option String} {held : α}
  {contents : List (Option String × α)} {fields : Fields} {pattern : Pattern}

theorem lookup_of_mem {κ : Type} [BEq κ] [LawfulBEq κ] {key : κ} {entries : List (κ × α)}
    (apart : (entries.map (·.1)).Nodup) (mem : (key, held) ∈ entries) :
    entries.lookup key = some held := by
  obtain ⟨before, after, rfl⟩ := List.append_of_mem mem
  refine List.lookup_eq_some_iff.mpr ⟨before, after, rfl, fun other earlier => ?_⟩
  rw [List.map_append, List.nodup_append] at apart
  have ne := apart.2.2 other.1 (List.mem_map_of_mem earlier) key (by simp)
  simpa using Ne.symm ne

theorem mem_bindPositions {binders : List (Option String)} :
    (binder, held) ∈ bindPositions binders contents ↔
      ∃ (j : Nat) (name : Option String),
        binders[j]? = some (some binder) ∧ contents[j]? = some (name, held) := by
  rw [bindPositions, List.mem_filterMap]
  constructor
  · rintro ⟨⟨binder', name, held'⟩, together, bound⟩
    obtain ⟨j, at_j⟩ := List.mem_iff_getElem?.mp together
    obtain ⟨at_binder, at_content⟩ := List.getElem?_zip_eq_some.mp at_j
    obtain ⟨_, rfl, same⟩ := Option.map_eq_some_iff.mp bound
    cases same
    exact ⟨j, name, at_binder, at_content⟩
  · rintro ⟨j, name, at_binder, at_content⟩
    have together : (binders.zip contents)[j]? = some (some binder, name, held) :=
      List.getElem?_zip_eq_some.mpr ⟨at_binder, at_content⟩
    exact ⟨_, List.mem_of_getElem? together, rfl⟩

theorem lookup_bindPositions {binders : List (Option String)}
    (each : ∀ j < contents.length, binders[j]? = some (if j = i then some binder else none))
    (at_i : contents[i]? = some (name, held)) :
    (bindPositions binders contents).lookup binder = some held := by
  have inside {j : Nat} {entry : Option String × α} (at_j : contents[j]? = some entry) :
      j < contents.length := (List.getElem?_eq_some_iff.mp at_j).1
  have only : ∀ entry ∈ bindPositions binders contents, entry = (binder, held) := by
    rintro ⟨binder', held'⟩ mem
    obtain ⟨j, name', at_binder, at_content⟩ := mem_bindPositions.mp mem
    rw [each j (inside at_content)] at at_binder
    split at at_binder
    case isTrue here =>
      subst here
      cases at_binder
      cases at_i.symm.trans at_content
      rfl
    case isFalse => cases at_binder
  have mem : (binder, held) ∈ bindPositions binders contents :=
    mem_bindPositions.mpr ⟨i, name, by rw [each i (inside at_i), if_pos rfl], at_i⟩
  cases bound : bindPositions binders contents with
  | nil => simp [bound] at mem
  | cons entry rest =>
    rw [bound] at only
    rw [only entry List.mem_cons_self, List.lookup_cons_self]

theorem Fields.Distinct.nodup_names (distinct : fields.Distinct)
    {named : List (String × Field)} (shape : fields = .named named) :
    (fields.list.map (·.1)).Nodup := by
  subst shape
  rw [Fields.list, List.map_map, List.Nodup, List.pairwise_map]
  rw [Fields.Distinct, List.Nodup, List.pairwise_map] at distinct
  exact distinct.imp fun apart same => apart (congrArg spoken (Option.some.inj same))

theorem Pattern.Selects.bind (selects : pattern.Selects fields i binder) (distinct : fields.Distinct)
    (same : contents.map (·.1) = fields.list.map (·.1)) (at_i : contents[i]? = some (name, held)) :
    (pattern.bind contents).bind (fun bound => bound.lookup binder) = some held := by
  have length : contents.length = fields.list.length := by simpa using congrArg List.length same
  cases selects with
  | @position fields binders i binder size each =>
    rw [Fields.list, List.length_map] at length
    rw [Pattern.bind, if_pos (size.trans length.symm), Option.bind_some]
    exact lookup_bindPositions (length ▸ each) at_i
  | @name fields i binder field there =>
    have apart := same ▸ distinct.nodup_names rfl
    obtain rfl : name = some binder := by
      have keys := congrArg (·[i]?) same
      simpa [at_i, Fields.list, there] using keys
    have found := lookup_of_mem apart (List.mem_of_getElem? at_i)
    simp [Pattern.bind, found]

end Bindings

section Enumerations

variable {α : Type} {d : Declaration} {v u : Variant} {variants : List Variant}
  {codes : List VariantCode} {arm : SourceArm} {value : Value α} {held : α}

theorem mem_arms_iff (made : variants.mapM Variant.expand = .ok codes) :
    arm ∈ codes.filterMap (·.source) ↔ ∃ v ∈ variants, sourceArm? v.name v.fields = some arm := by
  rw [List.mem_filterMap]
  constructor
  · rintro ⟨generated, mem, here⟩
    obtain ⟨v, among, expanded⟩ := exists_of_mem_mapM made mem
    obtain ⟨message, impl?, -, -, rfl⟩ := Variant.expand_eq_ok expanded
    exact ⟨v, among, here⟩
  · rintro ⟨v, among, here⟩
    obtain ⟨i, at_i⟩ := List.mem_iff_getElem?.mp among
    obtain ⟨generated, at_i, expanded⟩ := getElem?_of_mapM made at_i
    obtain ⟨message, impl?, -, -, rfl⟩ := Variant.expand_eq_ok expanded
    exact ⟨_, List.mem_of_getElem? at_i, here⟩

theorem Declaration.Distinct.eq_of_name (distinct : d.Distinct) (enum : d.body = .enum variants)
    (mem : v ∈ variants) (mem' : u ∈ variants) (same : v.name = u.name) : v = u := by
  have apart := distinct.variants
  rw [Declaration.shapes, enum, List.map_map] at apart
  exact List.inj_on_of_nodup_map apart mem mem' (congrArg (some ∘ spoken) same)

theorem SourceArm.variant_of_answer (h : arm.answer value = some held) :
    value.variant = some arm.variant := by
  rw [SourceArm.answer] at h
  split at h
  case isTrue same => exact same
  case isFalse => cases h

theorem Variant.Caused.answer (caused : v.Caused arm) (distinct : v.fields.Distinct)
    (variant : value.variant = some v.name)
    (contents : value.contents.map (·.1) = v.fields.list.map (·.1)) :
    ∃ i name field held, v.fields.First Field.isCause i name field ∧
      value.contents[i]? = some (name, held) ∧ arm.answer value = some held := by
  obtain ⟨same, i, name, field, first, selects⟩ := caused
  obtain ⟨⟨name', held⟩, at_i, named⟩ : ∃ entry, value.contents[i]? = some entry ∧ entry.1 = name := by
    have keys := congrArg (·[i]?) contents
    simpa [first.here] using keys
  obtain rfl : name' = name := named
  refine ⟨i, name', field, held, first, at_i, ?_⟩
  rw [SourceArm.answer, if_pos (variant.trans (congrArg some same.symm))]
  exact selects.bind distinct contents at_i

theorem findSome?_eq_some_of_only {β γ : Type} {f : β → Option γ} {xs : List β} {x : β} {c : γ}
    (mem : x ∈ xs) (here : f x = some c) (only : ∀ y ∈ xs, ∀ c', f y = some c' → y = x) :
    xs.findSome? f = some c := by
  cases found : xs.findSome? f with
  | none => cases here.symm.trans (List.findSome?_eq_none_iff.mp found x mem)
  | some c' =>
    obtain ⟨y, among, there⟩ := List.exists_of_findSome?_eq_some found
    rw [only y among c' there] at there
    rw [← there, here]

theorem reports_of_enum (enum : d.body = .enum variants)
    (made : variants.mapM Variant.expand = .ok codes) (distinct : d.Distinct) (mem : v ∈ variants)
    (has : d.Has value ⟨some v.name, v.attributes, v.fields⟩) :
    Shape.Reports ⟨some v.name, v.attributes, v.fields⟩ value
      (answer (some (codes.filterMap (·.source))) value) := by
  rw [answer, Option.bind_some]
  -- An arm that answers is that of the variant of the value.
  have own {other : SourceArm} {held : α} (among : other ∈ codes.filterMap (·.source))
      (answers : other.answer value = some held) : sourceArm? v.name v.fields = some other := by
    obtain ⟨u, mem', here⟩ := (mem_arms_iff made).mp among
    obtain ⟨-, none⟩ | ⟨-, arm, some, caused⟩ := sourceArm?_cases u
    · cases here.symm.trans none
    · cases here.symm.trans some
      have same := has.variant.symm.trans (SourceArm.variant_of_answer answers)
      rw [caused.1] at same
      rw [distinct.eq_of_name enum mem mem' (Option.some.inj same), here]
  obtain ⟨unmarked, none⟩ | ⟨-, arm, some, caused⟩ := sourceArm?_cases v
  · have silent : (codes.filterMap (·.source)).findSome? (·.answer value) = Option.none := by
      refine List.findSome?_eq_none_iff.mpr fun other among => ?_
      cases answers : other.answer value with
      | none => rfl
      | some held => cases (own among answers).symm.trans none
    rw [silent]
    exact .unmarked unmarked
  · obtain ⟨i, name, field, held, first, at_i, answers⟩ :=
      caused.answer (distinct.fields _ has.declared) has.variant has.contents
    have among := (mem_arms_iff made).mpr ⟨v, mem, some⟩
    have found := findSome?_eq_some_of_only among answers fun other among' held' answers' =>
      Option.some.inj ((own among' answers').symm.trans some)
    rw [found]
    exact .marked first at_i

end Enumerations

section Accepted

variable {d : Declaration} {expansion : Expansion}

theorem Shape.reports_none_iff {α : Type} {shape : Shape} {value : Value α} :
    shape.Reports value none ↔ shape.fields.any Field.isCause = false := by
  constructor
  · rintro ⟨⟩
    assumption
  · exact .unmarked

theorem method?_of_struct {fields : Fields} (struct : d.body = .struct fields)
    (accepted : d.expand = .ok expansion) : expansion.method? = none := by
  rw [Declaration.expand, struct] at accepted
  obtain ⟨message, -, made⟩ := bind_eq_ok.mp accepted
  cases made
  rfl

/-- The `source` of an accepted declaration answers for each value with its first field that holds a
cause, or with nothing if it has none, unless the type has its fields itself. Then it has no `source`
of its own and nothing is answered, also for a field that holds a cause. -/
theorem source_reports_iff (distinct : d.Distinct) (accepted : d.expand = .ok expansion) :
    (∀ (α : Type) (value : Value α) (shape : Shape), d.Has value shape →
      (shape.Reports value (answer expansion.method? value) ↔
        (shape.variant = none → shape.fields.any Field.isCause = false)) ∧
      (shape.variant = none → answer expansion.method? value = none)) ∧
    ∀ text, Declaration.ofTokens? (code text) = some d →
      generate text = .ok (Token.render (d.written expansion)) := by
  refine ⟨fun α value shape has => ?_, fun text read => generate_eq read accepted⟩
  have declared := has.declared
  rw [Declaration.shapes] at declared
  cases body : d.body with
  | enum variants =>
    rw [body] at declared
    obtain ⟨v, mem, rfl⟩ := List.mem_map.mp declared
    obtain ⟨codes, rfl, made⟩ := Declaration.expand_enum body accepted
    exact ⟨iff_of_true (reports_of_enum body made distinct mem has) nofun, nofun⟩
  | struct fields =>
    rw [body] at declared
    obtain rfl := List.mem_singleton.mp declared
    have silent : answer expansion.method? value = none := by
      rw [method?_of_struct body accepted, answer, Option.bind_none]
    rw [silent, Shape.reports_none_iff]
    simp
  | union => simp [body] at declared

def secondCause : Shape where
  variant := some "B"
  attributes := [⟨some "error", .list [.literal (.text ['b'])]⟩]
  fields := .tuple [⟨[], [.ident "X"]⟩, ⟨[⟨some "source", .none⟩], [.ident "Y"]⟩,
    ⟨[⟨some "source", .none⟩], [.ident "Z"]⟩]

def causeInVariant : Declaration where
  attributes := []
  name := "E"
  generics := ⟨[], []⟩
  body := .enum [
    ⟨[⟨some "error", .list [.literal (.text ['a'])]⟩], "A",
      .tuple [⟨[⟨some "from", .none⟩], [.ident "X"]⟩]⟩,
    ⟨secondCause.attributes, "B", secondCause.fields⟩]

theorem source_reports_iff_of_second : ∃ expansion, causeInVariant.Distinct ∧
    causeInVariant.expand = .ok expansion ∧
    secondCause.Reports ⟨some "B", [(none, 5), (none, 6), (none, 7)]⟩
      (answer expansion.method? ⟨some "B", [(none, 5), (none, 6), (none, 7)]⟩) := by
  have distinct : causeInVariant.Distinct := by
    refine ⟨by decide, ?_⟩
    rintro shape (_ | ⟨_, _ | ⟨_, ⟨⟩⟩⟩) <;> trivial
  have has : causeInVariant.Has ⟨some "B", [(none, 5), (none, 6), (none, 7)]⟩ secondCause :=
    ⟨.tail _ (.head _), rfl, rfl⟩
  exact ⟨_, distinct, rfl, ((source_reports_iff distinct rfl).1 Nat _ _ has).1.mpr nofun⟩

def onlyCause : Shape where
  variant := none
  attributes := [⟨some "error", .list [.literal (.text ['x'])]⟩]
  fields := .named [("cause", ⟨[⟨some "source", .none⟩], [.ident "E"]⟩)]

def causeInStruct : Declaration :=
  ⟨onlyCause.attributes, "S", ⟨[], []⟩, .struct onlyCause.fields⟩

theorem struct_cause_unreported : ∃ expansion,
    Declaration.ofTokens? (code "#[error(\"x\")] struct S \x7b #[source] cause: E \x7d") =
      some causeInStruct ∧
    causeInStruct.Distinct ∧ causeInStruct.expand = .ok expansion ∧
    causeInStruct.Has ⟨none, [(some "cause", 7)]⟩ onlyCause ∧
    onlyCause.fields.First Field.isCause 0 (some "cause")
      ⟨[⟨some "source", .none⟩], [.ident "E"]⟩ ∧
    answer expansion.method? (⟨none, [(some "cause", 7)]⟩ : Value Nat) = none ∧
    ¬ onlyCause.Reports (⟨none, [(some "cause", 7)]⟩ : Value Nat)
      (answer expansion.method? ⟨none, [(some "cause", 7)]⟩) := by
  refine ⟨_, by decide +kernel, ⟨by decide, ?_⟩, rfl, ⟨.head _, rfl, rfl⟩, ⟨rfl, rfl, nofun⟩, rfl, ?_⟩
  · rintro shape (_ | ⟨_, ⟨⟩⟩)
    exact List.nodup_singleton _
  · exact mt Shape.reports_none_iff.mp (by decide)

end Accepted

end Backstep.ErrorType
