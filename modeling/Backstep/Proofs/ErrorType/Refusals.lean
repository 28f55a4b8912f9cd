import Backstep.Proofs.ErrorType.Causes

namespace Backstep.ErrorType

def Refuses {α : Type} (x : Except Refusal α) (text : String) : Prop :=
  ∃ refusal, x = .error refusal ∧ refusal.message = text

/-- The tokens of one literal, with its value if it is a string. Truth values are words, and a number
may have a minus sign. -/
inductive IsLiteral : List Token → Option (List Char) → Prop
  | text {value : List Char} : IsLiteral [.literal (.text value)] (some value)
  | number {written : List Char} : IsLiteral [.literal (.number written)] none
  | other {written : List Char} : IsLiteral [.literal (.other written)] none
  | negative {written : List Char} : IsLiteral [.punct '-', .literal (.number written)] none
  | truth {word : String} : word = "true" ∨ word = "false" → IsLiteral [.ident word] none

def FirstNamed (name : String) (attributes : List Attribute) (argument : Argument) : Prop :=
  ∃ before after, attributes = before ++ ⟨some name, argument⟩ :: after ∧
    ∀ other ∈ before, other.name ≠ some name

/-- Why attributes give the target no message, as it is said. -/
inductive Wordless (attributes : List Attribute) (target : String) : String → Prop
  | missing : (∀ other ∈ attributes, other.name ≠ some "error") →
      Wordless attributes target
        s!"missing #[error(\"...\")] attribute on {target}; every error variant must declare a display message"
  | notListed {argument : Argument} : FirstNamed "error" attributes argument →
      (∀ tokens, argument ≠ .list tokens) →
      Wordless attributes target
        "invalid #[error] attribute; use #[error(\"message\")] to describe the error"
  | notLiteral {tokens : List Token} : FirstNamed "error" attributes (.list tokens) →
      (∀ value, ¬ IsLiteral tokens value) →
      Wordless attributes target
        "failed to parse #[error] attribute; expected a string literal like #[error(\"line \x7bline\x7d: not a number\")]"
  | notText {tokens : List Token} : FirstNamed "error" attributes (.list tokens) →
      IsLiteral tokens none →
      Wordless attributes target
        "invalid #[error] attribute: message must be a string literal, e.g. #[error(\"invalid word: \x7b0\x7d\")]"

inductive Variant.Faulty (v : Variant) : String → Prop
  | wordless {text : String} : Wordless v.attributes s!"variant `{v.name}`" text → v.Faulty text
  | severalFields : (∀ text, ¬ Wordless v.attributes s!"variant `{v.name}`" text) →
      v.fields.any Field.isFrom = true → 1 < v.fields.list.length →
      v.Faulty "#[from] requires the variant to have exactly one field"

inductive Declaration.Faulty (d : Declaration) : String → Prop
  | enum {variants : List Variant} {i : Nat} {v : Variant} {text : String} :
      d.body = .enum variants → variants[i]? = some v →
      (∀ j < i, ∀ u, variants[j]? = some u → ∀ text, ¬ u.Faulty text) →
      v.Faulty text → d.Faulty text
  | struct {fields : Fields} {text : String} : d.body = .struct fields →
      Wordless d.attributes s!"type `{d.name}`" text → d.Faulty text
  | union : d.body = .union → d.Faulty "Error derive does not support unions"

section Refused

variable {α β : Type} {x : Except Refusal α} {a : α} {refusal : Refusal} {text : String}

@[simp] theorem not_refuses_ok : ¬ Refuses (.ok a : Except Refusal α) text := by
  rintro ⟨_, ⟨⟩, -⟩

@[simp] theorem refuses_error : Refuses (.error refusal : Except Refusal α) text ↔
    refusal.message = text := by
  simp [Refuses]

theorem exists_ok_iff : (∃ a, x = .ok a) ↔ ∀ text, ¬ Refuses x text := by
  cases x with
  | ok a => simp
  | error refusal => simp

theorem refuses_bind {f : α → Except Refusal β} :
    Refuses (x >>= f) text ↔ Refuses x text ∨ ∃ a, x = .ok a ∧ Refuses (f a) text := by
  cases x with
  | ok a => simp
  | error refusal => simp

theorem refuses_iff_of_faults {fault : String → Prop} (total : (∃ a, x = .ok a) ∨ ∃ text, fault text)
    (refused : ∀ text, fault text → Refuses x text) : Refuses x text ↔ fault text := by
  refine ⟨?_, refused text⟩
  rintro ⟨refusal, failed, rfl⟩
  obtain ⟨a, made⟩ | ⟨text, bad⟩ := total
  · cases made.symm.trans failed
  · obtain ⟨same, failed', rfl⟩ := refused text bad
    cases failed'.symm.trans failed
    exact bad

theorem refuses_mapM {f : α → Except Refusal β} {xs : List α} : Refuses (xs.mapM f) text ↔
    ∃ (i : Nat) (x : α), xs[i]? = some x ∧
      (∀ j < i, ∀ y, xs[j]? = some y → ∀ text, ¬ Refuses (f y) text) ∧ Refuses (f x) text := by
  simp only [← exists_ok_iff]
  simp only [Refuses, mapM_eq_error]
  constructor
  · rintro ⟨refusal, ⟨i, x, at_i, earlier, refused⟩, said⟩
    exact ⟨i, x, at_i, fun j early y => earlier j y early, refusal, refused, said⟩
  · rintro ⟨i, x, at_i, earlier, refusal, refused, said⟩
    exact ⟨refusal, ⟨i, x, at_i, fun j y early => earlier j early y, refused⟩, said⟩

end Refused

section Faults

variable {attributes : List Attribute} {target text : String} {tokens : List Token}
  {argument : Argument} {value value' : Option (List Char)} {v : Variant} {d : Declaration}

theorem IsLiteral.unique (h : IsLiteral tokens value) (h' : IsLiteral tokens value') :
    value = value' := by
  cases h <;> cases h' <;> rfl

theorem messageOfTokens_cases (tokens : List Token) :
    (∃ value, IsLiteral tokens (some value) ∧ messageOfTokens tokens = .ok value) ∨
    IsLiteral tokens none ∧ messageOfTokens tokens = .error .messageNotText ∨
    (∀ value, ¬ IsLiteral tokens value) ∧ messageOfTokens tokens = .error .messageNotLiteral := by
  fun_cases messageOfTokens tokens with
  | case1 value => exact .inl ⟨value, .text, rfl⟩
  | case2 literal notText =>
    cases literal with
    | text value => exact absurd rfl (notText value)
    | number written => exact .inr (.inl ⟨.number, rfl⟩)
    | other written => exact .inr (.inl ⟨.other, rfl⟩)
  | case3 written => exact .inr (.inl ⟨.negative, rfl⟩)
  | case4 word =>
    by_cases truth : word = "true" ∨ word = "false"
    · exact .inr (.inl ⟨.truth truth, by simp [truth]⟩)
    · refine .inr (.inr ⟨?_, by simp [truth]⟩)
      rintro _ (_ | _ | _ | _ | truth')
      exact truth truth'
  | case5 tokens =>
    refine .inr (.inr ⟨?_, rfl⟩)
    rintro _ (_ | _ | _ | _ | _) <;> simp_all

theorem firstNamed_iff {name : String} : FirstNamed name attributes argument ↔
    attributes.find? (·.name == some name) = some ⟨some name, argument⟩ := by
  simp [FirstNamed, List.find?_eq_some_iff_append]

theorem missing_or_firstNamed (name : String) (attributes : List Attribute) :
    (∀ other ∈ attributes, other.name ≠ some name) ∨
      ∃ argument, FirstNamed name attributes argument := by
  simp only [firstNamed_iff]
  cases found : attributes.find? (·.name == some name) with
  | none => exact .inl (by simpa using found)
  | some first =>
    obtain ⟨named, argument⟩ := first
    obtain rfl : named = some name := by simpa using List.find?_some found
    exact .inr ⟨argument, rfl⟩

theorem messageOf_of_missing (missing : ∀ other ∈ attributes, other.name ≠ some "error") :
    messageOf attributes target = .error (.noMessage target) := by
  have none : attributes.find? (·.name == some "error") = none := by simpa using missing
  rw [messageOf, none]

theorem messageOf_of_list (first : FirstNamed "error" attributes (.list tokens)) :
    messageOf attributes target = messageOfTokens tokens := by
  rw [messageOf, firstNamed_iff.mp first]

theorem messageOf_of_not_list (first : FirstNamed "error" attributes argument)
    (other : ∀ tokens, argument ≠ .list tokens) :
    messageOf attributes target = .error .messageNotListed := by
  rw [messageOf, firstNamed_iff.mp first]
  cases argument with
  | list tokens => exact absurd rfl (other tokens)
  | none => rfl
  | value => rfl

theorem messageOf_eq_ok {message : List Char} : messageOf attributes target = .ok message ↔
    FirstNamed "error" attributes (.list [.literal (.text message)]) := by
  refine ⟨fun worded => ?_, messageOf_of_list⟩
  obtain missing | ⟨argument, first⟩ := missing_or_firstNamed "error" attributes
  · cases (messageOf_of_missing missing).symm.trans worded
  · cases argument with
    | list tokens =>
      have read := (messageOf_of_list first).symm.trans worded
      obtain ⟨value, literal, same⟩ | ⟨-, failed⟩ | ⟨-, failed⟩ := messageOfTokens_cases tokens
      · cases literal
        cases same.symm.trans read
        exact first
      · cases failed.symm.trans read
      · cases failed.symm.trans read
    | none => cases (messageOf_of_not_list first nofun).symm.trans worded
    | value => cases (messageOf_of_not_list first nofun).symm.trans worded

theorem refuses_messageOf : Refuses (messageOf attributes target) text ↔
    Wordless attributes target text := by
  refine refuses_iff_of_faults ?total ?refused
  case total =>
    obtain missing | ⟨argument, first⟩ := missing_or_firstNamed "error" attributes
    · exact .inr ⟨_, .missing missing⟩
    · cases argument with
      | list tokens =>
        obtain ⟨value, -, read⟩ | ⟨other, -⟩ | ⟨none, -⟩ := messageOfTokens_cases tokens
        · exact .inl ⟨value, (messageOf_of_list first).trans read⟩
        · exact .inr ⟨_, .notText first other⟩
        · exact .inr ⟨_, .notLiteral first none⟩
      | none => exact .inr ⟨_, .notListed first nofun⟩
      | value => exact .inr ⟨_, .notListed first nofun⟩
  case refused =>
    intro text bad
    cases bad with
    | missing missing => exact ⟨_, messageOf_of_missing missing, rfl⟩
    | notListed first other => exact ⟨_, messageOf_of_not_list first other, rfl⟩
    | @notLiteral tokens first none =>
      obtain ⟨_, literal, -⟩ | ⟨literal, -⟩ | ⟨-, read⟩ := messageOfTokens_cases tokens
      · exact absurd literal (none _)
      · exact absurd literal (none _)
      · exact ⟨_, (messageOf_of_list first).trans read, rfl⟩
    | @notText tokens first literal =>
      obtain ⟨_, string, -⟩ | ⟨-, read⟩ | ⟨none, -⟩ := messageOfTokens_cases tokens
      · cases string.unique literal
      · exact ⟨_, (messageOf_of_list first).trans read, rfl⟩
      · exact absurd literal (none _)

theorem refuses_fromImpl? {variant : String} {fields : Fields} :
    Refuses (fromImpl? variant fields) text ↔ fields.any Field.isFrom = true ∧
      1 < fields.list.length ∧ "#[from] requires the variant to have exactly one field" = text := by
  rw [fromImpl?_eq]
  cases found : fields.list.find? (·.2.isFrom) with
  | none =>
    have none : fields.any Field.isFrom = false := by simpa [Fields.any] using found
    simp [none]
  | some entry =>
    have mem := List.mem_of_find?_eq_some found
    have marked : entry.2.isFrom = true := by simpa using List.find?_some found
    have any : fields.any Field.isFrom = true := List.any_eq_true.mpr ⟨entry, mem, marked⟩
    have filled : 0 < fields.list.length := List.length_pos_of_mem mem
    by_cases one : fields.list.length = 1
    · simp [one]
    · have several : 1 < fields.list.length := by omega
      simp only [if_neg one, any, several, true_and, refuses_error]
      rfl

theorem refuses_variant : Refuses v.expand text ↔ v.Faulty text := by
  rw [Variant.expand, refuses_bind]
  simp only [refuses_bind, pure_eq_ok, not_refuses_ok, and_false, exists_false, or_false,
    refuses_messageOf, refuses_fromImpl?]
  constructor
  · rintro (wordless | ⟨message, read, marked, several, rfl⟩)
    · exact .wordless wordless
    · refine .severalFields (fun text wordless => ?_) marked several
      exact exists_ok_iff.mp ⟨message, read⟩ text (refuses_messageOf.mpr wordless)
  · rintro (wordless | ⟨worded, marked, several⟩)
    · exact .inl wordless
    · simp only [← refuses_messageOf] at worded
      obtain ⟨message, read⟩ := exists_ok_iff.mpr worded
      exact .inr ⟨message, read, marked, several, rfl⟩

theorem refuses_declaration : Refuses d.expand text ↔ d.Faulty text := by
  rw [Declaration.expand]
  cases body : d.body with
  | enum variants =>
    simp only [refuses_bind, pure_eq_ok, not_refuses_ok, and_false, exists_false, or_false,
      refuses_mapM, refuses_variant]
    constructor
    · rintro ⟨i, v, at_i, earlier, bad⟩
      exact .enum body at_i earlier bad
    · rintro (⟨body', at_i, earlier, bad⟩ | ⟨body'⟩ | ⟨body'⟩)
      · cases body.symm.trans body'
        exact ⟨_, _, at_i, earlier, bad⟩
      · cases body.symm.trans body'
      · cases body.symm.trans body'
  | struct fields =>
    simp only [refuses_bind, pure_eq_ok, not_refuses_ok, and_false, exists_false, or_false,
      refuses_messageOf]
    constructor
    · exact .struct body
    · rintro (⟨body', -⟩ | ⟨-, bad⟩ | ⟨body'⟩)
      · cases body.symm.trans body'
      · exact bad
      · cases body.symm.trans body'
  | union =>
    rw [refuses_error]
    constructor
    · rintro rfl
      exact .union body
    · rintro (⟨body', -⟩ | ⟨body', -⟩ | -)
      · cases body.symm.trans body'
      · cases body.symm.trans body'
      · rfl

theorem refuses_generate {text : String} (read : Declaration.ofTokens? (code text) = some d)
    (said : String) : Refuses (generate text) said ↔ d.Faulty said := by
  rw [generate, read]
  simp only [refuses_bind, pure_eq_ok, not_refuses_ok, and_false, exists_false, or_false,
    refuses_declaration]

theorem exists_faulty_iff {variants : List Variant} (enum : d.body = .enum variants) :
    (∃ said, d.Faulty said) ↔ ∃ v ∈ variants, ∃ said, v.Faulty said := by
  constructor
  · rintro ⟨said, ⟨enum', at_i, -, bad⟩ | ⟨enum', -⟩ | ⟨enum'⟩⟩
    · cases enum.symm.trans enum'
      exact ⟨_, List.mem_of_getElem? at_i, said, bad⟩
    · cases enum.symm.trans enum'
    · cases enum.symm.trans enum'
  · rintro ⟨v, mem, said, bad⟩
    by_contra none
    have accepted : ∀ said, ¬ Refuses d.expand said := by
      simpa only [refuses_declaration, not_exists] using none
    obtain ⟨expansion, made⟩ := exists_ok_iff.mpr accepted
    obtain ⟨codes, -, each⟩ := Declaration.expand_enum enum made
    obtain ⟨i, at_i⟩ := List.mem_iff_getElem?.mp mem
    obtain ⟨generated, -, expanded⟩ := getElem?_of_mapM each at_i
    exact exists_ok_iff.mp ⟨generated, expanded⟩ said (refuses_variant.mpr bad)

/-- Code is generated for a declaration just if nothing is at fault in it, and otherwise it is refused
for the first fault. An enumeration is refused just if one of its variants is at fault, wherever it
stands. -/
theorem refused_iff_faulty {text : String} (read : Declaration.ofTokens? (code text) = some d) :
    (∀ said, Refuses (generate text) said ↔ d.Faulty said) ∧
    ((∃ generated, generate text = .ok generated) ↔ ∀ said, ¬ d.Faulty said) ∧
    ∀ variants, d.body = .enum variants →
      ((∃ said, Refuses (generate text) said) ↔ ∃ v ∈ variants, ∃ said, v.Faulty said) := by
  refine ⟨refuses_generate read, ?_, fun variants enum => ?_⟩
  · rw [exists_ok_iff]
    simp only [refuses_generate read]
  · simp only [refuses_generate read, exists_faulty_iff enum]

def unmadeText : String :=
  "enum E \x7b #[error(\"a\")] A, #[error(\"b\")] #[error] B(#[from] X, Y), C \x7d"

def unmade : List Variant :=
  [⟨[⟨some "error", .list [.literal (.text ['a'])]⟩], "A", .unit⟩,
   ⟨[⟨some "error", .list [.literal (.text ['b'])]⟩, ⟨some "error", .none⟩], "B",
     .tuple [⟨[⟨some "from", .none⟩], [.ident "X"]⟩, ⟨[], [.ident "Y"]⟩]⟩,
   ⟨[], "C", .unit⟩]

theorem refused_iff_faulty_of_unmade :
    Declaration.ofTokens? (code unmadeText) = some ⟨[], "E", ⟨[], []⟩, .enum unmade⟩ ∧
      Refuses (generate unmadeText) "#[from] requires the variant to have exactly one field" := by
  have read : Declaration.ofTokens? (code unmadeText) =
      some ⟨[], "E", ⟨[], []⟩, .enum unmade⟩ := by decide +kernel
  refine ⟨read, ((refused_iff_faulty read).1 _).mpr (.enum (i := 1) (v := unmade[1]) rfl rfl ?_ ?_)⟩
  · intro j early u at_j
    obtain rfl : j = 0 := by omega
    cases at_j
    simp only [← refuses_variant]
    exact exists_ok_iff.mp ⟨_, rfl⟩
  · refine .severalFields ?_ rfl (by decide)
    simp only [← refuses_messageOf]
    exact exists_ok_iff.mp ⟨['b'], rfl⟩

end Faults

end Backstep.ErrorType
