import Backstep.Proofs.Asm.Resolution
import Backstep.Proofs.Asm.WrittenLines

namespace Backstep.Asm

open Isa Text

namespace Token

def Inert (token : Token) : Prop := (∀ value, ¬ token.Number value) ∧ ¬ token.Symbol

/-- Spellings of one operand: what is no number and no label can only be a register. -/
inductive Alike : Token → Token → Prop
  | same {token : Token} : Alike token token
  | inert {token token' : Token} : token.Inert → token'.Inert →
      token.register? = token'.register? → Alike token token'

structure Matches (token token' : Token) : Prop where
  alike : token.Alike token'
  bases : Option.Rel (fun p p' => p.1 = p'.1 ∧ p.2.Alike p'.2) token.displacement?
    token'.displacement?

variable {token name disp base : Token} {value : Int} {r : Nat}

theorem Register.not_numeral (h : token.Register r) : ¬ token.Numeral value := by
  have letter {c : Char} (mark : c = 'r' ∨ c = 'R' ∨ c = '$') (cs : List Char) :
      ¬ Numeral (c :: cs) value := by
    intro numeral
    cases numeral with
    | plain read =>
      have digit := read.isDigit_head
      obtain rfl | rfl | rfl := mark <;> cases digit
    | plus => revert mark; decide
    | minus => revert mark; decide
  cases h with
  | plain named =>
    obtain ⟨mark, -⟩ := named
    exact letter (by tauto) _
  | dollar => exact letter (by simp) _

theorem Register.inert (h : token.Register r) : token.Inert :=
  ⟨fun _ number => h.not_numeral number.1, fun symbol => symbol.2 r h⟩

theorem RegisterName.isNameRest (h : RegisterName name r) :
    ∀ c ∈ name, isNameRest c = true ∨ c = '+' := by
  have digit {c : Char} (some : (digit? 10 c).isSome) : Token.isNameRest c = true := by
    simp [Token.isNameRest, Char.isAlphanum, isDigit_of_digit? some]
  obtain ⟨mark, spelled, written, -⟩ := h
  refine List.forall_mem_cons.mpr ⟨.inl (by obtain rfl | rfl := mark <;> rfl), fun c mem => ?_⟩
  obtain rfl | rfl := spelled
  · exact .inl (digit (written.isSome_digit? c mem))
  · obtain rfl | mem := List.mem_cons.mp mem
    · exact .inr rfl
    · exact .inl (digit (written.isSome_digit? c mem))

theorem RegisterName.isPlain (h : RegisterName name r) :
    ∀ c ∈ name, Operation.IsPlain c ∧ c ≠ '(' := by
  intro c mem
  obtain inside | rfl := h.isNameRest c mem
  · refine ⟨.of_isNameRest inside, ?_⟩
    rintro rfl
    cases inside
  · exact ⟨⟨rfl, by decide, by decide, by decide⟩, by decide⟩

theorem Numeral.not_mem_parenthesis (h : token.Numeral value) : '(' ∉ token := by
  have digits {cs : List Char} {n : Nat} (read : Magnitude cs n) : '(' ∉ cs := by
    cases read with
    | decimal written => exact fun mem => absurd (written.isSome_digit? _ mem) (by decide)
    | hexadecimal mark written =>
      have inside : '(' ∉ _ := fun mem => absurd (written.isSome_digit? _ mem) (by decide)
      obtain rfl | rfl := mark <;> simpa using inside
  cases h with
  | plain read => exact digits read
  | plus read | minus read => simpa using digits read

theorem inert_of_mem (mem : '(' ∈ token) : token.Inert ∧ token.register? = none := by
  refine ⟨⟨fun value number => number.1.not_mem_parenthesis mem, fun symbol => ?_⟩, ?_⟩
  · exact absurd (isNameRest_of_isLabelName symbol.1 _ mem) (by decide)
  · refine register?_eq_none.mpr fun r register => ?_
    cases register with
    | plain named => exact (named.isPlain _ mem).2 rfl
    | dollar named =>
      obtain dollar | mem := List.mem_cons.mp mem
      · cases dollar
      · exact (named.isPlain _ mem).2 rfl

theorem displacement?_eq_none (free : '(' ∉ token) : token.displacement? = none := by
  rw [displacement?, cutFirst?_eq_none (ne_separator free)]

theorem displacement?_written (free : '(' ∉ disp) :
    displacement? (disp ++ '(' :: (base ++ [')'])) =
      some (if (trim disp).isEmpty then ['0'] else trim disp, trim base) := by
  rw [displacement?, cutFirst?_append (ne_separator free) rfl]
  simp

theorem Matches.refl (token : Token) : token.Matches token := by
  refine ⟨.same, ?_⟩
  cases token.displacement? with
  | none => exact .none
  | some p => exact .some ⟨rfl, .same⟩

theorem alike_dollar (named : RegisterName name r) : Alike name ('$' :: name) := by
  have plain : Register name r := .plain named
  have dollar : Register ('$' :: name) r := .dollar named
  refine .inert plain.inert dollar.inert ?_
  rw [register?_eq_some.mpr plain, register?_eq_some.mpr dollar]

theorem matches_dollar (named : RegisterName name r) : Matches name ('$' :: name) := by
  have free : '(' ∉ name := fun mem => (named.isPlain _ mem).2 rfl
  refine ⟨alike_dollar named, ?_⟩
  rw [displacement?_eq_none free, displacement?_eq_none (by simpa using free)]
  exact .none

theorem matches_base_dollar (named : RegisterName name r) (free : '(' ∉ disp) :
    Matches (disp ++ '(' :: (name ++ [')'])) (disp ++ '(' :: ('$' :: name ++ [')'])) := by
  have visible : ∀ c ∈ name, isBlank c = false := fun c mem => (named.isPlain c mem).1.1
  have bare : trim name = name :=
    trim_eq_self (fun c mem => visible c (List.mem_of_mem_head? mem))
      (fun c mem => visible c (List.mem_of_mem_getLast? mem))
  have dressed : trim ('$' :: name) = '$' :: name := by
    have visible : ∀ c ∈ '$' :: name, isBlank c = false := List.forall_mem_cons.mpr ⟨rfl, visible⟩
    exact trim_eq_self (fun c mem => visible c (List.mem_of_mem_head? mem))
      (fun c mem => visible c (List.mem_of_mem_getLast? mem))
  have inert {base : Token} : Inert (disp ++ '(' :: base) ∧ register? (disp ++ '(' :: base) = none :=
    inert_of_mem (by simp)
  refine ⟨.inert inert.1 inert.1 (inert.2.trans inert.2.symm), ?_⟩
  rw [displacement?_written free, displacement?_written free, bare, dressed]
  exact .some ⟨rfl, alike_dollar named⟩

end Token

variable {labels : Labels} {index : Nat} {token token' : Token} {kind : OperandKind} {o : Operand}
  {kinds : List OperandKind} {tokens tokens' : List Token} {opcode : Opcode} {mnemonic : String}

theorem Token.Inert.value_eq_error (h : token.Inert) :
    labels.value index kind token = .error (.notANumber (String.ofList token)) := by
  rw [Labels.value_of_not_number h.1, Labels.address_of_not_symbol h.2, error_bind]

theorem Token.Inert.word_eq_error (h : token.Inert) :
    labels.word token = .error (.notANumber (String.ofList token)) := by
  rw [Labels.word_of_not_number h.1, Labels.address_of_not_symbol h.2]
  rfl

namespace Token.Alike

theorem word (h : token.Alike token') : Agree Eq (labels.word token) (labels.word token') := by
  cases h with
  | same => exact .refl _
  | inert first second =>
    rw [first.word_eq_error, second.word_eq_error]
    exact .error

theorem operand (h : token.Alike token') (kind : OperandKind) :
    Agree Eq (labels.operand index token kind) (labels.operand index token' kind) := by
  cases h with
  | same => exact .refl _
  | inert first second register =>
    by_cases place : kind = .reg
    · subst place
      rw [Labels.operand, Labels.operand, register]
      cases token'.register? with
      | none => exact .error
      | some r => exact .ok rfl
    · rw [operand_of_ne_reg place, operand_of_ne_reg place, first.value_eq_error,
        second.value_eq_error, error_bind, error_bind]
      exact .error

theorem operands (h : List.Forall₂ Token.Alike tokens tokens') (kinds : List OperandKind) :
    Agree Eq ((tokens.zip kinds).mapM fun (token, kind) => labels.operand index token kind)
      ((tokens'.zip kinds).mapM fun (token, kind) => labels.operand index token kind) := by
  have pairs : List.Forall₂ (fun (p q : Token × OperandKind) => p.1.Alike q.1 ∧ p.2 = q.2)
      (tokens.zip kinds) (tokens'.zip kinds) := by
    induction h generalizing kinds with
    | nil => exact .nil
    | cons first _ ih =>
      cases kinds with
      | nil => exact .nil
      | cons kind kinds => exact .cons ⟨first, rfl⟩ (ih kinds)
  rw [← List.forall₂_eq_eq_eq]
  refine .mapM pairs ?_
  rintro ⟨token, kind⟩ ⟨token', -⟩ ⟨alike, rfl⟩
  exact alike.operand kind

end Token.Alike

theorem spreadDisplacement_alike (h : List.Forall₂ Token.Matches tokens tokens') :
    List.Forall₂ Token.Alike (spreadDisplacement opcode.operandKinds tokens)
      (spreadDisplacement opcode.operandKinds tokens') := by
  by_cases short : opcode.operandKinds.getLast? = some .disp ∧
      tokens.length + 1 = opcode.operandKinds.length
  · have kinds := operandKinds_of_disp short.1
    have two : tokens.length = 2 := by simpa [kinds] using short.2
    obtain ⟨first, token, rfl⟩ := List.length_eq_two.mp two
    obtain ⟨first', token', rfl⟩ := List.length_eq_two.mp (h.length_eq ▸ two)
    obtain _ | ⟨ha, _ | ⟨⟨alike, bases⟩, -⟩⟩ := h
    have whole {first token : Token} (parts : token.displacement? = none) :
        spreadDisplacement opcode.operandKinds [first, token] = [first, token] := by
      simp [spreadDisplacement, kinds, parts]
    have joined {first token disp base : Token} (parts : token.displacement? = some (disp, base)) :
        spreadDisplacement opcode.operandKinds [first, token] = [first, base, disp] := by
      simp [spreadDisplacement, kinds, parts]
    generalize parts : token.displacement? = p at bases
    generalize parts' : token'.displacement? = p' at bases
    cases bases with
    | none =>
      rw [whole parts, whole parts']
      exact .cons ha.alike (.cons alike .nil)
    | @some p p' base =>
      obtain ⟨disp, b⟩ := p
      obtain ⟨disp', b'⟩ := p'
      obtain ⟨rfl, base⟩ := base
      rw [joined parts, joined parts']
      exact .cons ha.alike (.cons base (.cons .same .nil))
  · have short' := h.length_eq ▸ short
    rw [spreadDisplacement, spreadDisplacement, if_neg short, if_neg short']
    exact h.imp fun _ _ matched => matched.alike

namespace Operation

def Alike (op op' : Operation) : Prop :=
  ∀ labels index, Agree Eq (op.resolve labels index) (op'.resolve labels index)

/-- Spellings of one operation: operand by operand, or with a displacement put together. -/
inductive Respells : Operation → Operation → Prop
  | operands {mnemonic : String} {tokens tokens' : List Token} :
      List.Forall₂ Token.Matches tokens tokens' → Respells ⟨mnemonic, tokens⟩ ⟨mnemonic, tokens'⟩
  | displaced {opcode : Opcode} {ra base disp token : Token} :
      opcode.operandKinds = [.reg, .reg, .disp] → token.displacement? = some (disp, base) →
      Respells ⟨opcode.mnemonic, [ra, base, disp]⟩ ⟨opcode.mnemonic, [ra, token]⟩

theorem resolveInstruction_alike (h : List.Forall₂ Token.Matches tokens tokens') :
    Agree Eq (resolveInstruction labels index ⟨mnemonic, tokens⟩)
      (resolveInstruction labels index ⟨mnemonic, tokens'⟩) := by
  rw [resolveInstruction, resolveInstruction]
  cases Opcode.ofMnemonic? mnemonic with
  | none => exact .error
  | some opcode =>
    have alike : List.Forall₂ Token.Alike (spreadDisplacement opcode.operandKinds tokens)
        (spreadDisplacement opcode.operandKinds tokens') := spreadDisplacement_alike h
    dsimp only
    rw [← alike.length_eq]
    split
    · exact (Token.Alike.operands alike _).bind fun _ _ same => .ok (by rw [same])
    · exact .error

theorem alike_of_matches (h : List.Forall₂ Token.Matches tokens tokens') :
    Alike ⟨mnemonic, tokens⟩ ⟨mnemonic, tokens'⟩ := by
  intro labels index
  by_cases directive : mnemonic = wordDirective
  · subst directive
    match h with
    | .nil => exact .error
    | .cons first .nil => exact (first.alike.word).map fun _ _ same => by rw [same]
    | .cons _ (.cons _ _) => exact .error
  · cases h with
    | nil => exact .refl _
    | cons first rest =>
      rw [resolve_of_ne_pseudoOp directive (by simp), resolve_of_ne_pseudoOp directive (by simp)]
      exact resolveInstruction_alike (.cons first rest)

theorem alike_displaced {ra base disp : Token} (memory : opcode.operandKinds = [.reg, .reg, .disp])
    (parts : token.displacement? = some (disp, base)) :
    Alike ⟨opcode.mnemonic, [ra, base, disp]⟩ ⟨opcode.mnemonic, [ra, token]⟩ := by
  intro labels index
  obtain ⟨written, free⟩ := Token.displacement?_eq_some.mp parts
  have plain : Spread opcode.operandKinds [ra, base, disp] [ra, base, disp] :=
    .written (by rw [memory]; rfl)
  have joined : Spread opcode.operandKinds [ra, token] [ra, base, disp] := by
    rw [memory]
    exact .displaced written free
  have directive := ne_wordDirective opcode
  rw [resolve_of_ne_pseudoOp directive (by simp), resolve_of_ne_pseudoOp directive (by simp),
    resolveInstruction_of_spread rfl plain, resolveInstruction_of_spread rfl joined]
  exact .refl _

variable {op op' : Operation}

theorem Respells.mnemonic_eq (h : op.Respells op') : op.mnemonic = op'.mnemonic := by
  cases h <;> rfl

theorem Respells.alike (h : op.Respells op') : op.Alike op' := by
  cases h with
  | operands matched => exact alike_of_matches matched
  | displaced memory parts => exact alike_displaced memory parts

theorem loadAddressBody_alike {reg reg' symbol symbol' : Token} (first : reg.Matches reg')
    (second : symbol.Matches symbol') :
    List.Forall₂ Alike (loadAddressBody reg symbol) (loadAddressBody reg' symbol') := by
  have same (token : Token) : token.Matches token := .refl token
  refine .cons (fun _ _ => .refl _) (.cons ?_ (.cons ?_ (.cons ?_ .nil)))
  · exact alike_of_matches (.cons second .nil)
  · exact alike_of_matches (.cons first (.cons (same _) .nil))
  · exact alike_of_matches (.cons first (.cons first (.cons (same _) .nil)))

theorem Respells.expand (h : op.Respells op') :
    Agree (List.Forall₂ Alike) op.expand op'.expand := by
  by_cases load : op.mnemonic = loadAddress
  · cases h with
    | displaced memory =>
      have absent : Opcode.ofMnemonic? loadAddress = none := rfl
      exact absurd load (Opcode.ofMnemonic?_eq_none.mp absent _)
    | operands matched =>
      obtain rfl : _ = loadAddress := load
      match matched with
      | .cons first (.cons second .nil) => exact .ok (loadAddressBody_alike first second)
      | .nil | .cons _ .nil | .cons _ (.cons _ (.cons _ _)) => exact .error
  · have load' : op'.mnemonic ≠ loadAddress := h.mnemonic_eq ▸ load
    rw [Operation.expand, Operation.expand, if_neg (by simpa using load),
      if_neg (by simpa using load')]
    exact .ok (.cons h.alike .nil)

end Operation

end Backstep.Asm
