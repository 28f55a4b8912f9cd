import Backstep.Proofs.Asm.References
import Backstep.Proofs.Asm.Resolution

/-!
Statements that move together with all labels: distances stay as they are, addresses grow by as much
as the labels have moved.
-/

namespace Backstep.Asm

open Isa Text

variable {rows : List (List Char)} {labels moved : Labels} {d index a : Nat} {token : Token}
  {kind : OperandKind} {op : Operation} {r : Resolved} {w : Word}

def Operation.Relocatable (rows : List (List Char)) (op : Operation) : Prop :=
  ∀ (opcode : Opcode) tokens, opcode.mnemonic = op.mnemonic →
    Spread opcode.operandKinds op.operands tokens →
    ∀ token kind, (token, kind) ∈ tokens.zip opcode.operandKinds → kind = .imm ∨ kind = .disp →
      ∀ a, ¬ LabelAt rows token a

def Operation.isRelocatable (op : Operation) : Bool :=
  match Opcode.ofMnemonic? op.mnemonic with
  | none => true
  | some opcode =>
    ((spreadDisplacement opcode.operandKinds op.operands).zip opcode.operandKinds).all
      fun (token, kind) => kind == .reg || kind == .pcRel || !token.isLabelName

theorem Operation.relocatable_of_isRelocatable (h : op.isRelocatable = true) :
    op.Relocatable rows := by
  intro opcode tokens named spread token kind among place a there
  rw [isRelocatable, Opcode.ofMnemonic?_eq_some.mpr named] at h
  dsimp only at h
  rw [spread.spreadDisplacement_eq, List.all_eq_true] at h
  have free := h (token, kind) among
  obtain rfl | rfl := place <;> simp [there.isLabelName] at free

def Operation.Embeds (rows : List (List Char)) (op : Operation) : Prop :=
  ∃ symbol a, op = ⟨wordDirective, [symbol]⟩ ∧ LabelAt rows symbol a

section Moved

variable (known : ∀ name a, labels.lookup name = some a ↔ LabelAt rows name a)
  (shift : ∀ name a, labels.lookup name = some a → moved.lookup name = some (a + d))

include shift in
theorem Labels.address_moved (h : labels.address token = .ok a) :
    moved.address token = .ok (a + d) := by
  have found := Labels.address_eq_ok h
  rw [address] at h ⊢
  split at h
  case isTrue symbol => rw [if_pos symbol, shift token a found]
  case isFalse => cases h

include known shift

theorem Labels.value_moved {n : Int} (number : kind ≠ .reg)
    (plain : d = 0 ∨ (kind = .imm ∨ kind = .disp → ∀ a, ¬ LabelAt rows token a))
    (h : labels.value index kind token = .ok n) :
    moved.value (index + d) kind token = .ok n := by
  rw [value] at h ⊢
  cases read : token.number? with
  | some v =>
    rw [read] at h
    exact h
  | none =>
    rw [read] at h
    obtain ⟨a, found, h⟩ := bind_eq_ok.mp h
    have there := (known token a).mp (Labels.address_eq_ok found)
    cases h
    rw [Labels.address_moved shift found, ok_bind, pure_eq_ok, Except.ok.injEq]
    cases kind with
    | reg => exact absurd rfl number
    | pcRel =>
      rw [if_pos rfl, if_pos rfl]
      omega
    | imm =>
      obtain rfl | absent := plain
      · rfl
      · exact absurd there (absent (.inl rfl) a)
    | disp =>
      obtain rfl | absent := plain
      · rfl
      · exact absurd there (absent (.inr rfl) a)

theorem Labels.operand_moved {o : Operand}
    (plain : d = 0 ∨ (kind = .imm ∨ kind = .disp → ∀ a, ¬ LabelAt rows token a))
    (h : labels.operand index token kind = .ok o) :
    moved.operand (index + d) token kind = .ok o := by
  by_cases register : kind = .reg
  · subst register
    exact h
  · rw [operand_of_ne_reg register] at h ⊢
    obtain ⟨value, resolved, fits⟩ := bind_eq_ok.mp h
    exact bind_eq_ok.mpr ⟨value, Labels.value_moved known shift register plain resolved, fits⟩

theorem resolveInstruction_moved (plain : d = 0 ∨ op.Relocatable rows)
    (h : op.resolveInstruction labels index = .ok r) :
    op.resolveInstruction moved (index + d) = .ok r := by
  rw [Operation.resolveInstruction] at h
  split at h
  case h_1 => cases h
  case h_2 opcode found =>
    have named := Opcode.ofMnemonic?_eq_some.mp found
    dsimp only at h
    split at h
    case isFalse => cases h
    case isTrue arity =>
      have spread := spread_of_length_eq arity
      obtain ⟨os, resolved, h⟩ := bind_eq_ok.mp h
      rw [resolveInstruction_of_spread named spread]
      refine bind_eq_ok.mpr ⟨os, mapM_eq_ok_of_imp resolved ?_, h⟩
      rintro ⟨token, kind⟩ among o operand
      exact Labels.operand_moved known shift
        (plain.imp_right fun plain => plain opcode _ named spread token kind among) operand

theorem resolve_word_moved (h : Operation.resolve labels index ⟨Operation.wordDirective, [token]⟩ =
    .ok r) (encoded : r.encode = .ok w) :
    ∃ r' w', Operation.resolve moved (index + d) ⟨Operation.wordDirective, [token]⟩ = .ok r' ∧
      r'.encode = .ok w' ∧
      ((∃ a, LabelAt rows token a) ∧ w' = w + UInt16.ofNat d ∨
        (∀ a, ¬ LabelAt rows token a) ∧ w' = w) := by
  rw [resolve_directive] at h
  obtain ⟨w, read, rfl⟩ := map_eq_ok.mp h
  cases encoded
  rw [Labels.word] at read
  cases number : token.number? with
  | some value =>
    rw [number] at read
    have numeral : token.Numeral value := .of_number? number
    refine ⟨.literal w, w, ?_, rfl, .inr ⟨fun a => numeral.not_labelAt, rfl⟩⟩
    rw [resolve_directive, Labels.word, number]
    dsimp only at read ⊢
    rw [read]
    rfl
  | none =>
    rw [number] at read
    obtain ⟨a, found, rfl⟩ := map_eq_ok.mp read
    have there := (known token a).mp (Labels.address_eq_ok found)
    refine ⟨.literal (UInt16.ofNat (a + d)), _, ?_, rfl, .inl ⟨⟨a, there⟩, UInt16.ofNat_add a d⟩⟩
    rw [resolve_directive, Labels.word, number]
    dsimp only
    rw [Labels.address_moved shift found]
    rfl

theorem resolve_moved (plain : d = 0 ∨ op.Relocatable rows) (h : op.resolve labels index = .ok r)
    (encoded : r.encode = .ok w) :
    ∃ r' w', op.resolve moved (index + d) = .ok r' ∧ r'.encode = .ok w' ∧
      (op.Embeds rows ∧ w' = w + UInt16.ofNat d ∨ ¬ op.Embeds rows ∧ w' = w) := by
  by_cases directive : op.mnemonic = Operation.wordDirective
  · obtain ⟨mnemonic, operands⟩ := op
    subst directive
    match operands with
    | [] | _ :: _ :: _ => cases h
    | [token] =>
      obtain ⟨r', w', resolved, encoded', word⟩ := resolve_word_moved known shift h encoded
      refine ⟨r', w', resolved, encoded', word.imp ?_ ?_⟩
      · rintro ⟨⟨a, there⟩, eq⟩
        exact ⟨⟨token, a, rfl, there⟩, eq⟩
      · rintro ⟨nowhere, eq⟩
        refine ⟨?_, eq⟩
        rintro ⟨symbol, a, ⟨⟩, there⟩
        exact nowhere a there
  · have other : ¬ op.Embeds rows := by
      rintro ⟨symbol, a, rfl, -⟩
      exact directive rfl
    refine ⟨r, w, ?_, encoded, .inr ⟨other, rfl⟩⟩
    by_cases word : op.operands = [] → pseudoOp? op.mnemonic = none
    · rw [resolve_of_ne_pseudoOp directive word] at h ⊢
      exact resolveInstruction_moved known shift plain h
    · obtain ⟨mnemonic, operands⟩ := op
      obtain ⟨rfl, some⟩ := Classical.not_imp.mp word
      obtain ⟨w', pseudo⟩ := Option.ne_none_iff_exists'.mp some
      obtain ⟨rfl, -⟩ | ⟨rfl, -⟩ := pseudoOp?_eq_some.mp pseudo <;> exact h

end Moved

namespace Layout

variable {layout final : Layout} {words : List Word}

/-- The statements of the first layout stand so much further on in the second one, and the labels
have moved with them. -/
structure Moves (d : Nat) (layout final : Layout) : Prop where
  operations : ∀ i op, layout.operations[i]? = some op → final.operations[i + d]? = some op
  labels : ∀ name a, layout.labels.lookup name = some a → final.labels.lookup name = some (a + d)

section Moves

variable {i : Nat} (moves : Moves d layout final)
  (known : ∀ name a, layout.labels.lookup name = some a ↔ LabelAt rows name a)
  (assembled : layout.assemble = .ok words) (at_i : layout.operations[i]? = some op)
  (plain : d = 0 ∨ op.Relocatable rows)
include moves known assembled at_i plain

theorem Moves.exists_resolve : ∃ r, op.resolve final.labels (i + d) = .ok r := by
  obtain ⟨w, -, r, resolved, encoded⟩ := getElem?_assemble assembled at_i
  obtain ⟨r', -, resolved', -, -⟩ := resolve_moved known moves.labels plain resolved encoded
  exact ⟨r', resolved'⟩

theorem Moves.getElem?_assemble {words' : List Word} (whole : final.assemble = .ok words') :
    ∃ w, words[i]? = some w ∧ (op.Embeds rows ∧ words'[i + d]? = some (w + UInt16.ofNat d) ∨
      ¬ op.Embeds rows ∧ words'[i + d]? = some w) := by
  obtain ⟨w, written, r, resolved, encoded⟩ := Layout.getElem?_assemble assembled at_i
  obtain ⟨r', w', resolved', encoded', word⟩ :=
    resolve_moved known moves.labels plain resolved encoded
  have written' := getElem?_of_resolve whole (moves.operations i op at_i) resolved' encoded'
  refine ⟨w, written, word.imp ?_ ?_⟩
  · rintro ⟨embeds, rfl⟩
    exact ⟨embeds, written'⟩
  · rintro ⟨other, rfl⟩
    exact ⟨other, written'⟩

end Moves

theorem Moves.getElem?_of_unmoved {words' : List Word} {i : Nat} (moves : Moves 0 layout final)
    (known : ∀ name a, layout.labels.lookup name = some a ↔ LabelAt rows name a)
    (assembled : layout.assemble = .ok words) (whole : final.assemble = .ok words')
    (inside : i < words.length) : words'[i]? = words[i]? := by
  have at_i : layout.operations[i]? = some _ :=
    List.getElem?_eq_getElem (length_assemble assembled ▸ inside)
  obtain ⟨w, written, word⟩ := moves.getElem?_assemble known assembled at_i (.inl rfl) whole
  rw [written]
  obtain ⟨-, word⟩ | ⟨-, word⟩ := word
  · simpa using word
  · exact word

end Layout

end Backstep.Asm
