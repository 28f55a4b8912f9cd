import Backstep.Proofs.Asm.References
import Backstep.Proofs.Asm.Refusals
import Backstep.Proofs.Isa.OperandChecks

namespace Backstep.Asm

open Isa Text

variable {rows : List (List Char)} {index k : Nat} {kind : OperandKind} {kinds : List OperandKind}
  {token : Token} {tokens : List Token} {opcode : Opcode} {op : Operation} {s : Statement}
  {labels : Labels} {value : Int} {cause : Cause} {source : String}

def AdmitsOthers (rows : List (List Char)) (index k : Nat) (kinds : List OperandKind)
    (tokens : List Token) : Prop :=
  ∀ j kind token, j ≠ k → kinds[j]? = some kind → tokens[j]? = some token →
    Admits rows index kind token

/-- The token is the operand at `k`, where a number is taken, of the instruction at `index`, and
there is nothing else to refuse as far as that instruction. -/
structure TakesNumber (rows : List (List Char)) (index k : Nat) (s : Statement) (opcode : Opcode)
    (token : Token) : Prop where
  laidOut : LaidOut rows
  stands : (statementsOf rows)[index]? = some s
  earlier : ∀ j t, j < index → (statementsOf rows)[j]? = some t → Accepts rows j t.toOperation
  named : opcode.mnemonic = s.mnemonic
  operand : ∃ kind tokens, Spread opcode.operandKinds s.operands tokens ∧
    opcode.operandKinds[k]? = some kind ∧ kind ≠ .reg ∧ tokens[k]? = some token ∧
      AdmitsOthers rows index k opcode.operandKinds tokens

theorem AdmitsOthers.forall₂ (h : AdmitsOthers rows index k kinds tokens)
    (arity : tokens.length = kinds.length) (at_k : kinds[k]? = some kind)
    (token_k : tokens[k]? = some token) (admitted : Admits rows index kind token) :
    List.Forall₂ (Admits rows index) kinds tokens := by
  refine List.forall₂_iff_get.mpr ⟨arity.symm, fun j hj hj' => ?_⟩
  have kind_j := List.getElem?_eq_getElem hj
  have token_j := List.getElem?_eq_getElem hj'
  by_cases here : j = k
  · subst here
    rw [kind_j, Option.some.injEq] at at_k
    rw [token_j, Option.some.injEq] at token_k
    rw [List.get_eq_getElem, List.get_eq_getElem, at_k, token_k]
    exact admitted
  · exact h j _ _ here kind_j token_j

theorem AdmitsOthers.rejectsFirst (h : AdmitsOthers rows index k kinds tokens)
    (at_k : kinds[k]? = some kind) (token_k : tokens[k]? = some token)
    (rejected : Rejects rows index kind token cause) :
    RejectsFirst rows index kinds tokens cause := by
  induction k generalizing kinds tokens with
  | zero =>
    match kinds, tokens with
    | [], _ => cases at_k
    | _ :: _, [] => cases token_k
    | _ :: _, _ :: _ =>
      cases at_k
      cases token_k
      exact .here rejected
  | succ k ih =>
    match kinds, tokens with
    | [], _ => cases at_k
    | _ :: _, [] => cases token_k
    | first :: kinds, token' :: tokens =>
      have rest : AdmitsOthers rows index k kinds tokens := fun j kind token other at_j token_j =>
        h (j + 1) kind token (by omega) at_j token_j
      exact .later (h 0 first token' (Nat.succ_ne_zero k).symm rfl rfl) (ih rest at_k token_k)

def numeralCause (token : Token) (value : Int) : Cause :=
  if value.natAbs ≤ Token.magnitudeMax then .offsetTooLarge value
  else .notANumber (String.ofList token)

theorem rejects_of_numeral (numeral : token.Numeral value) (number : kind ≠ .reg)
    (outside : ¬ (immMin ≤ value ∧ value ≤ immMax)) :
    Rejects rows index kind token (numeralCause token value) := by
  rw [numeralCause]
  split
  case isTrue small => exact .tooLarge number (.number ⟨numeral, small⟩) outside
  case isFalse large =>
    refine .notNumber number ?_ fun symbol => ?_
    · rintro value' ⟨numeral', small⟩
      exact large (numeral.unique numeral' ▸ small)
    · simpa [numeral.isLabelName] using symbol.1

theorem number_of_fits (numeral : token.Numeral value) (low : immMin ≤ value)
    (high : value ≤ immMax) : token.Number value := by
  refine ⟨numeral, ?_⟩
  rw [immMin] at low
  rw [immMax] at high
  rw [Token.magnitudeMax]
  omega

theorem operand_of_numeral (numeral : token.Numeral value) (number : kind ≠ .reg)
    (low : immMin ≤ value) (high : value ≤ immMax) :
    labels.operand index token kind = .ok (.imm value) := by
  have read : labels.value index kind token = .ok value := by
    rw [Labels.value, Token.number?_eq_some.mpr (number_of_fits numeral low high)]
  have fits : fitImmediate value = .ok value := fitImmediate_eq_ok.mpr ⟨rfl, low, high⟩
  rw [operand_of_ne_reg number, read, ok_bind, fits, ok_bind, pure_eq_ok]

theorem exists_operand_of_encode {r : Resolved} {w : Word}
    (resolved : op.resolve labels index = .ok r) (encoded : r.encode = .ok w)
    (named : opcode.mnemonic = op.mnemonic) (spread : Spread opcode.operandKinds op.operands tokens)
    (at_k : opcode.operandKinds[k]? = some kind) (token_k : tokens[k]? = some token) :
    ∃ i o, Instruction.decode? w = some i ∧ i.opcode = opcode ∧ i.operands[k]? = some o ∧
      labels.operand index token kind = .ok o := by
  obtain rfl | instruction := @resolve_of_mnemonic index labels _ _ named
  · obtain rfl := eq_halt named rfl
    cases at_k
  rw [instruction, resolveInstruction_of_spread named spread] at resolved
  obtain ⟨os, operands, resolved⟩ := bind_eq_ok.mp resolved
  cases resolved
  rw [Resolved.encode, ← named, encode_mnemonic] at encoded
  obtain ⟨i, made, rfl⟩ := map_eq_ok.mp encoded
  obtain ⟨rfl, rfl, fits⟩ := Instruction.ofOperands_eq_ok.mp made
  have pair : (tokens.zip i.opcode.operandKinds)[k]? = some (token, kind) := by
    rw [List.getElem?_zip_eq_some]
    exact ⟨token_k, at_k⟩
  obtain ⟨o, there, means⟩ := getElem?_of_mapM operands pair
  exact ⟨i, o, Instruction.decode?_encode fits, rfl, there, means⟩

namespace TakesNumber

variable (h : TakesNumber rows index k s opcode token) (numeral : token.Numeral value)
include h numeral

theorem accepts (low : immMin ≤ value) (high : value ≤ immMax) :
    Accepts rows index s.toOperation := by
  obtain ⟨kind, tokens, spread, at_k, number, token_k, others⟩ := h.operand
  have admitted : Admits rows index kind token :=
    .value number (.number (number_of_fits numeral low high)) low high
  exact .instruction h.named spread (others.forall₂ spread.length_eq at_k token_k admitted)

theorem firstRefused (outside : ¬ (immMin ≤ value ∧ value ≤ immMax)) :
    FirstRefused rows ⟨s.line, numeralCause token value⟩ := by
  obtain ⟨kind, tokens, spread, at_k, number, token_k, others⟩ := h.operand
  have rejected : Rejects rows index kind token (numeralCause token value) :=
    rejects_of_numeral numeral number outside
  have refused := Refuses.operand h.named spread (others.rejectsFirst at_k token_k rejected)
  exact ⟨index, s, h.stands, h.earlier, refused, rfl⟩

theorem exists_decode {layout : Layout} {words : List Word}
    (laid : Layout.ofRows rows = (layout, none)) (assembled : layout.assemble = .ok words)
    (low : immMin ≤ value) (high : value ≤ immMax) :
    ∃ w i, words[index]? = some w ∧ Instruction.decode? w = some i ∧ i.opcode = opcode ∧
      i.operands[k]? = some (.imm value) := by
  obtain ⟨kind, tokens, spread, at_k, number, token_k, -⟩ := h.operand
  have at_index : layout.operations[index]? = some s.toOperation := by
    rw [Layout.operations, Layout.statements_of_ofRows laid, List.getElem?_map, h.stands,
      Option.map_some]
  obtain ⟨w, there, r, resolved, encoded⟩ := Layout.getElem?_assemble assembled at_index
  obtain ⟨i, o, decoded, same, holds, means⟩ := exists_operand_of_encode resolved encoded h.named
    spread at_k token_k
  cases (operand_of_numeral numeral number low high).symm.trans means
  exact ⟨w, i, there, decoded, same, holds⟩

end TakesNumber

/-- A numeral that fits is the number that its instruction holds, and nothing but a later statement
can be refused. Any other numeral is refused on its line: it is too large, but not a number if its
digits make more than 31 bits. -/
theorem immediate_of_numeral
    (h : TakesNumber (lines source.toList) index k s opcode token) (numeral : token.Numeral value) :
    (immMin ≤ value → value ≤ immMax →
      ((∃ words, assemble source = .ok words) ↔
        ∀ j t, index < j → (statementsOf (lines source.toList))[j]? = some t →
          Accepts (lines source.toList) j t.toOperation) ∧
      ∀ words, assemble source = .ok words → ∃ w i, words[index]? = some w ∧
        Instruction.decode? w = some i ∧ i.opcode = opcode ∧
          i.operands[k]? = some (.imm value)) ∧
    (¬ (immMin ≤ value ∧ value ≤ immMax) → assemble source = .error ⟨s.line,
      if value.natAbs ≤ Token.magnitudeMax then .offsetTooLarge value
      else .notANumber (String.ofList token)⟩) := by
  obtain ⟨layout, laid⟩ := exists_ofRows_iff.mpr h.laidOut
  refine ⟨fun low high => ⟨?_, fun words assembled => ?_⟩, fun outside => ?_⟩
  · rw [exists_assemble_eq_ok_iff]
    constructor
    · rintro ⟨layout', laid', resolves⟩ j t - at_j
      exact (Layout.exists_resolve_iff_accepts laid').mp resolves j t at_j
    · intro later
      refine ⟨layout, laid, (Layout.exists_resolve_iff_accepts laid).mpr fun j t at_j => ?_⟩
      obtain before | rfl | behind := Nat.lt_trichotomy j index
      · exact h.earlier j t before at_j
      · rw [h.stands, Option.some.injEq] at at_j
        exact at_j ▸ h.accepts numeral low high
      · exact later j t behind at_j
  · obtain ⟨layout', laid', assembled⟩ := assemble_eq_ok assembled
    exact h.exists_decode numeral laid' assembled low high
  · refine assemble_eq_error_iff.mpr (.inr ⟨layout, laid, ?_⟩)
    exact (Layout.resolve_eq_error_iff_refused laid).mpr (h.firstRefused numeral outside)

theorem takesNumber_of_load {written text : Token}
    (laid : ∃ layout, Layout.ofRows rows = (layout, none))
    (stands : statementsOf rows = [⟨⟨"noop", []⟩, 1⟩, ⟨⟨"lw", [['r', '1'], written]⟩, 2⟩])
    (parts : written.displacement? = some (text, ['r', '2'])) :
    TakesNumber rows 1 2 ⟨⟨"lw", [['r', '1'], written]⟩, 2⟩ .lw text where
  laidOut := exists_ofRows_iff.mp laid
  stands := by rw [stands]; rfl
  earlier := by
    intro j t before at_j
    obtain rfl : j = 0 := by omega
    rw [stands] at at_j
    cases at_j
    exact .pseudoOp (.inl rfl)
  named := rfl
  operand := by
    obtain ⟨displaced, free⟩ := Token.displacement?_eq_some.mp parts
    refine ⟨.disp, [['r', '1'], ['r', '2'], text], .displaced displaced free, rfl, by decide, rfl, ?_⟩
    intro j kind token other at_j token_j
    match j with
    | 0 | 1 =>
      cases at_j
      cases token_j
      exact .register (Token.register?_eq_some.mp rfl)
    | 2 => exact absurd rfl other
    | _ + 3 => cases at_j

theorem immediate_of_numeral_at_edge :
    (∃ w i, ([0, 0x6290] : List Word)[1]? = some w ∧ Instruction.decode? w = some i ∧
      i.opcode = .lw ∧ i.operands[2]? = some (.imm (-16))) ∧
    assemble "noop\nlw r1, -0x11(r2)" = .error ⟨2, .offsetTooLarge (-17)⟩ ∧
    assemble "noop\nlw r1, -0x80000000(r2)" = .error ⟨2, .notANumber "-0x80000000"⟩ := by
  have numeral {digits : List Char} {n : Nat} (read : digits? 16 digits = some n) :
      Token.Numeral ('-' :: '0' :: 'x' :: digits) (-n) :=
    .minus (.hexadecimal (.inl rfl) (digits?_eq_some.mp read))
  have edge : TakesNumber (lines "noop\nlw r1, -0x10(r2)".toList) 1 2 _ .lw "-0x10".toList :=
    takesNumber_of_load ⟨_, rfl⟩ rfl rfl
  have past : TakesNumber (lines "noop\nlw r1, -0x11(r2)".toList) 1 2 _ .lw "-0x11".toList :=
    takesNumber_of_load ⟨_, rfl⟩ rfl rfl
  have wide : TakesNumber (lines "noop\nlw r1, -0x80000000(r2)".toList) 1 2 _ .lw
      "-0x80000000".toList := takesNumber_of_load ⟨_, rfl⟩ rfl rfl
  have fits := (immediate_of_numeral edge (numeral rfl)).1 (by decide) (by decide)
  exact ⟨fits.2 [0, 0x6290] rfl, (immediate_of_numeral past (numeral rfl)).2 (by decide),
    (immediate_of_numeral wide (numeral rfl)).2 (by decide)⟩

theorem large_numeral_notANumber :
    Token.Numeral "2147483648".toList 2147483648 ∧
      TakesNumber (lines "noop\nlw r1, 2147483648(r2)".toList) 1 2
        ⟨⟨"lw", [['r', '1'], "2147483648(r2)".toList]⟩, 2⟩ .lw "2147483648".toList ∧
      assemble "noop\nlw r1, 2147483648(r2)" = .error ⟨2, .notANumber "2147483648"⟩ :=
  ⟨.plain (.decimal (digits?_eq_some.mp rfl)), takesNumber_of_load ⟨_, rfl⟩ rfl rfl, rfl⟩

end Backstep.Asm
