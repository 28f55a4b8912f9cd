import Backstep.Proofs.ErrorType.GeneratedCode

namespace Backstep.ErrorType

def Fields.list : Fields → List (Option String × Field)
  | .unit => []
  | .tuple fields => fields.map (none, ·)
  | .named fields => fields.map fun (name, field) => (some name, field)

def Fields.any (fields : Fields) (p : Field → Bool) : Bool := fields.list.any (p ·.2)

/-- The field at a position satisfies `p`, and none before it does. -/
structure Fields.First (fields : Fields) (p : Field → Bool) (i : Nat) (name : Option String)
    (field : Field) : Prop where
  here : fields.list[i]? = some (name, field)
  satisfies : p field = true
  earlier : ∀ j < i, ∀ entry, fields.list[j]? = some entry → p entry.2 = false

/-- A pattern of the shape of the fields that binds the one at a position and no other. -/
inductive Pattern.Selects : Pattern → Fields → Nat → String → Prop
  | position {fields : List Field} {binders : List (Option String)} {i : Nat} {binder : String} :
      binders.length = fields.length →
      (∀ j < fields.length, binders[j]? = some (if j = i then some binder else none)) →
      Selects (.tuple binders) (.tuple fields) i binder
  | name {fields : List (String × Field)} {i : Nat} {name : String} {field : Field} :
      fields[i]? = some (name, field) → Selects (.named [name]) (.named fields) i name

/-- The arm answers with the first field of the variant that holds a cause. -/
def Variant.Caused (v : Variant) (arm : SourceArm) : Prop :=
  arm.variant = v.name ∧ ∃ i name field, v.fields.First Field.isCause i name field ∧
    arm.pattern.Selects v.fields i arm.binder

/-- The conversion makes the variant from its only field. -/
def Variant.Converted (v : Variant) (impl : FromImpl) : Prop :=
  impl.variant = v.name ∧ ∃ name field, v.fields.list = [(name, field)] ∧ field.isFrom = true ∧
    impl.field = name ∧ impl.type = field.type

variable {fields : Fields} {p : Field → Bool} {variant : String} {v : Variant} {generated : VariantCode}

theorem forall₂_filter_filterMap {α β γ : Type} {R : α → β → Prop} {S : α → γ → Prop}
    {p : α → Bool} {f : β → Option γ} {xs : List α} {ys : List β} (h : List.Forall₂ R xs ys)
    (each : ∀ x y, R x y → p x = false ∧ f y = none ∨ p x = true ∧ ∃ z, f y = some z ∧ S x z) :
    List.Forall₂ S (xs.filter p) (ys.filterMap f) := by
  induction h with
  | nil => exact .nil
  | cons first _ ih =>
    obtain ⟨out, none⟩ | ⟨kept, z, some, related⟩ := each _ _ first
    · simpa [out, none] using ih
    · simpa [kept, some] using And.intro related ih

theorem Field.isCause_of_isFrom {field : Field} (h : field.isFrom = true) : field.isCause = true := by
  rw [isCause, ← isFrom, h, Bool.true_or]

theorem Fields.First.of_getElem {α : Type} {xs : List α} {entry : α → Option String × Field} {i : Nat}
    {name : Option String} {field : Field} (shape : fields.list = xs.map entry) (inside : i < xs.length)
    (at_i : entry xs[i] = (name, field)) (satisfies : p field = true)
    (before : ∀ (j : Nat) (early : j < i), p (entry xs[j]).2 = false) : fields.First p i name field where
  here := by simp [shape, inside, at_i]
  satisfies := satisfies
  earlier := by
    intro j early other at_j
    have within : j < xs.length := Nat.lt_trans early inside
    rw [shape, List.getElem?_map, List.getElem?_eq_getElem within] at at_j
    cases at_j
    exact before j early

theorem Fields.First.any_eq {i : Nat} {name : Option String} {field : Field}
    (h : fields.First p i name field) : fields.any p = true :=
  List.any_eq_true.mpr ⟨_, List.mem_of_getElem? h.here, h.satisfies⟩

theorem Fields.First.of_single {q : Field → Bool} {i : Nat} {name : Option String} {field : Field}
    {entry : Option String × Field} (h : fields.First p i name field) (single : fields.list = [entry])
    (also : q field = true) : fields.First q i name field where
  here := h.here
  satisfies := also
  earlier := by
    intro j early
    obtain ⟨inside, -⟩ := List.getElem?_eq_some_iff.mp h.here
    rw [single, List.length_singleton] at inside
    omega

theorem sourceArm?_cases (v : Variant) :
    v.fields.any Field.isCause = false ∧ sourceArm? v.name v.fields = none ∨
      v.fields.any Field.isCause = true ∧ ∃ arm, sourceArm? v.name v.fields = some arm ∧
        v.Caused arm := by
  obtain ⟨attributes, variant, fields⟩ := v
  dsimp only
  cases fields with
  | unit => exact .inl ⟨rfl, rfl⟩
  | tuple fields =>
    cases found : fields.findIdx? (·.isCause) with
    | none =>
      refine .inl ⟨?_, by simp [sourceArm?, found]⟩
      simpa [Fields.any, Fields.list] using found
    | some i =>
      obtain ⟨inside, cause, before⟩ := List.findIdx?_eq_some_iff_getElem.mp found
      have first : (Fields.tuple fields).First Field.isCause i none fields[i] :=
        .of_getElem rfl inside rfl cause fun j early => Bool.eq_false_iff.mpr (before j early)
      refine .inr ⟨first.any_eq, _, by rw [sourceArm?, found, Option.map_some], rfl, _, _, _, first, ?_⟩
      exact .position (by simp) fun j within => by simp [within]
  | named fields =>
    cases found : fields.find? (·.2.isCause) with
    | none =>
      refine .inl ⟨?_, by simp [sourceArm?, found]⟩
      simpa [Fields.any, Fields.list] using found
    | some entry =>
      obtain ⟨name, field⟩ := entry
      obtain ⟨cause, i, inside, at_i, before⟩ := List.find?_eq_some_iff_getElem.mp found
      have first : (Fields.named fields).First Field.isCause i (some name) field :=
        .of_getElem rfl inside (by rw [at_i]) cause fun j early => by simpa using before j early
      refine .inr ⟨first.any_eq, _, by rw [sourceArm?, found, Option.map_some], rfl, _, _, _, first, ?_⟩
      exact .name (List.getElem?_eq_some_iff.mpr ⟨inside, at_i⟩)

theorem fromImpl?_eq (variant : String) (fields : Fields) : fromImpl? variant fields =
    match fields.list.find? (·.2.isFrom) with
    | none => .ok none
    | some (name, field) =>
      if fields.list.length = 1 then .ok (some ⟨variant, name, field.type⟩)
      else .error .severalFields := by
  cases fields with
  | unit => rfl
  | tuple fields =>
    rw [fromImpl?, Fields.list, List.find?_map, List.length_map, Function.comp_def]
    cases fields.find? (·.isFrom) <;> rfl
  | named fields =>
    rw [fromImpl?, Fields.list, List.find?_map, List.length_map, Function.comp_def]
    cases fields.find? (·.2.isFrom) <;> rfl

theorem fromImpl?_cases {impl? : Option FromImpl} (made : fromImpl? v.name v.fields = .ok impl?) :
    v.fields.any Field.isFrom = false ∧ impl? = none ∨
      v.fields.any Field.isFrom = true ∧ ∃ impl, impl? = some impl ∧ v.Converted impl := by
  rw [fromImpl?_eq] at made
  split at made
  case h_1 none =>
    cases made
    exact .inl ⟨by simpa [Fields.any] using none, rfl⟩
  case h_2 name field found =>
    split at made
    case isFalse => cases made
    case isTrue one =>
      cases made
      obtain ⟨entry, single⟩ := List.length_eq_one_iff.mp one
      have marked := List.find?_some found
      have mem := List.mem_of_find?_eq_some found
      obtain rfl : (name, field) = entry := by simpa [single] using mem
      refine .inr ⟨List.any_eq_true.mpr ⟨_, mem, marked⟩, _, rfl, rfl, name, field, single, marked,
        rfl, rfl⟩

theorem Variant.expand_eq_ok (made : v.expand = .ok generated) : ∃ message impl?,
    messageOf v.attributes s!"variant `{v.name}`" = .ok message ∧
      fromImpl? v.name v.fields = .ok impl? ∧
      generated = ⟨displayArm (some v.name) message v.fields, sourceArm? v.name v.fields, impl?⟩ := by
  rw [Variant.expand, bind_eq_ok] at made
  obtain ⟨message, written, made⟩ := made
  rw [bind_eq_ok] at made
  obtain ⟨impl?, built, made⟩ := made
  cases made
  exact ⟨message, impl?, written, built, rfl⟩

theorem Fields.First.cause_of_expand {i : Nat} {name : Option String} {field : Field}
    (made : v.expand = .ok generated) (h : v.fields.First Field.isFrom i name field) :
    v.fields.First Field.isCause i name field := by
  obtain ⟨message, impl?, -, built, -⟩ := Variant.expand_eq_ok made
  obtain ⟨none, -⟩ | ⟨-, impl, -, -, _, _, single, -⟩ := fromImpl?_cases built
  · simp [h.any_eq] at none
  · exact h.of_single single (Field.isCause_of_isFrom h.satisfies)

theorem Declaration.expand_enum {d : Declaration} {variants : List Variant} {expansion : Expansion}
    (enum : d.body = .enum variants) (accepted : d.expand = .ok expansion) : ∃ codes,
      expansion = .enum codes ∧ variants.mapM Variant.expand = .ok codes := by
  rw [Declaration.expand, enum] at accepted
  obtain ⟨codes, made, accepted⟩ := bind_eq_ok.mp accepted
  cases accepted
  exact ⟨codes, rfl, made⟩

/-- An accepted enumeration has an arm of `source` for each variant with a field that holds a cause,
and a `From` for each with a field that it is made from, in the order of the variants. The arms give
the first such field and stand before the one for all other values; the conversions take a value of
the type of the field and are made from it, and the same field is the cause. -/
theorem causes_agree {d : Declaration} {variants : List Variant} {expansion : Expansion}
    (enum : d.body = .enum variants) (accepted : d.expand = .ok expansion) :
    (∃ arms, expansion.method? = some arms ∧
      List.Forall₂ Variant.Caused (variants.filter (·.fields.any Field.isCause)) arms) ∧
    List.Forall₂ Variant.Converted (variants.filter (·.fields.any Field.isFrom))
      expansion.conversions ∧
    (∀ impl ∈ expansion.conversions, .punct '\'' ∉ impl.type → arranged impl.type = impl.type) ∧
    (∀ v ∈ variants, ∀ i name field, v.fields.First Field.isFrom i name field →
      v.fields.First Field.isCause i name field) ∧
    ∀ text, Declaration.ofTokens? (code text) = some d →
      generate text = .ok (Token.render (d.written expansion)) := by
  refine ⟨?_, ?_, fun impl _ free => arranged_eq_self free, ?_,
    fun text read => generate_eq read accepted⟩
  all_goals obtain ⟨codes, rfl, made⟩ := Declaration.expand_enum enum accepted
  · refine ⟨_, rfl, forall₂_filter_filterMap (mapM_eq_ok.mp made) fun v generated expanded => ?_⟩
    obtain ⟨message, impl?, -, -, rfl⟩ := Variant.expand_eq_ok expanded
    exact sourceArm?_cases v
  · refine forall₂_filter_filterMap (mapM_eq_ok.mp made) fun v generated expanded => ?_
    obtain ⟨message, impl?, -, built, rfl⟩ := Variant.expand_eq_ok expanded
    exact fromImpl?_cases built
  · intro v mem i name field first
    obtain ⟨j, at_j⟩ := List.mem_iff_getElem?.mp mem
    obtain ⟨generated, -, expanded⟩ := getElem?_of_mapM made at_j
    exact first.cause_of_expand expanded

theorem Token.render_eq_intercalate {tokens : List Token} {pieces : List String}
    (same : [' '].intercalate (tokens.map chars) = [' '].intercalate (pieces.map String.toList)) :
    render tokens = " ".intercalate pieces := by
  rw [render, ← String.toList_inj, String.toList_intercalate, String.toList_intercalate]
  simpa [List.map_map, Function.comp_def] using same

def mixed : Declaration where
  attributes := []
  name := "E"
  generics := ⟨[], []⟩
  body := .enum [
    ⟨[⟨some "error", .list [.literal (.text ['a'])]⟩], "A", .unit⟩,
    ⟨[⟨some "error", .list [.literal (.text ['b'])]⟩], "B", .tuple [⟨[], [.ident "X"]⟩,
      ⟨[⟨some "source", .none⟩], [.ident "Y"]⟩, ⟨[⟨some "source", .none⟩], [.ident "X"]⟩]⟩,
    ⟨[⟨some "error", .list [.literal (.text ['c'])]⟩], "C",
      .named [("e", ⟨[⟨some "from", .none⟩], [.ident "X"]⟩)]⟩]

def mixedText : String :=
  "enum E \x7b #[error(\"a\")] A, #[error(\"b\")] B(X, #[source] Y, #[source] X), " ++
    "#[error(\"c\")] C \x7b #[from] e: X \x7d \x7d"

def mixedExpansion : Expansion := .enum [
  ⟨⟨some "A", .unit, ['a'], []⟩, none, none⟩,
  ⟨⟨some "B", .tuple [none, none, none], ['b'], []⟩,
    some ⟨"B", .tuple [none, some "source", none], "source"⟩, none⟩,
  ⟨⟨some "C", .named [], ['c'], []⟩, some ⟨"C", .named ["e"], "e"⟩,
    some ⟨"C", some "e", [.ident "X"]⟩⟩]

def mixedCode : List String :=
  ["impl : : std : : fmt : : Display for E \x7b",
    "fn fmt ( & self , f : & mut : : std : : fmt : : Formatter < ' _ > )",
    "- > : : std : : fmt : : Result \x7b match self \x7b",
    "Self : : A = > write ! ( f , \"a\" ) ,",
    "Self : : B ( _ , _ , _ ) = > write ! ( f , \"b\" , ) ,",
    "Self : : C \x7b . . \x7d = > write ! ( f , \"c\" , ) , \x7d \x7d \x7d",
  "impl : : std : : error : : Error for E \x7b # [ allow ( unreachable_patterns ) ]",
    "fn source ( & self ) - > : : std : : option : : Option",
    "< & ( dyn : : std : : error : : Error + ' static ) > \x7b match self \x7b",
    "Self : : B ( _ , source , _ ) = > : : std : : option : : Option : : Some",
    "( source as & ( dyn : : std : : error : : Error + ' static ) ) ,",
    "Self : : C \x7b e , . . \x7d = > : : std : : option : : Option : : Some",
    "( e as & ( dyn : : std : : error : : Error + ' static ) ) ,",
    "_ = > : : std : : option : : Option : : None , \x7d \x7d \x7d",
  "impl : : std : : convert : : From < X > for E \x7b",
    "fn from ( source : X ) - > Self \x7b E : : C \x7b e : source \x7d \x7d \x7d"]

theorem causes_agree_of_mixed : ∃ variants arms,
    mixed.body = .enum variants ∧ mixed.expand = .ok mixedExpansion ∧
    mixedExpansion.method? = some arms ∧
    List.Forall₂ Variant.Caused (variants.drop 1) arms ∧
    List.Forall₂ Variant.Converted (variants.drop 2) mixedExpansion.conversions ∧
    Declaration.ofTokens? (code mixedText) = some mixed ∧
    generate mixedText = .ok (" ".intercalate mixedCode) := by
  have accepted : mixed.expand = .ok mixedExpansion := by decide +kernel
  have read : Declaration.ofTokens? (code mixedText) = some mixed := by decide +kernel
  have rendered : Token.render (mixed.written mixedExpansion) = " ".intercalate mixedCode := by
    refine Token.render_eq_intercalate ?_
    -- The bytes of so long a text would take the kernel seconds to decode.
    simp only [mixedCode, List.map_cons, List.map_nil]
    repeat rw [String.toList_ofList]
    decide +kernel
  obtain ⟨⟨arms, method, caused⟩, converted, -, -, generated⟩ := causes_agree rfl accepted
  refine ⟨_, arms, rfl, accepted, method, caused, converted, read, (generated _ read).trans ?_⟩
  rw [rendered]

end Backstep.ErrorType
