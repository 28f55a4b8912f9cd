import Backstep.Proofs.Asm.Acceptance

namespace Backstep.Asm

open Isa Text

variable {rows : List (List Char)} {index : Nat} {labels : Labels} {token : Token}
  {kind : OperandKind} {kinds : List OperandKind} {tokens : List Token} {op : Operation}
  {opcode : Opcode} {a : Nat} {value : Int} {cause : Cause}

theorem ne_wordDirective (opcode : Opcode) : opcode.mnemonic ≠ Operation.wordDirective :=
  Opcode.ofMnemonic?_eq_none.mp rfl opcode

theorem eq_halt {mnemonic : String} {word : Word} (named : opcode.mnemonic = mnemonic)
    (pseudo : pseudoOp? mnemonic = some word) : opcode = .halt := by
  have found := Opcode.ofMnemonic?_eq_some.mpr named
  obtain ⟨rfl, -⟩ | ⟨rfl, -⟩ := pseudoOp?_eq_some.mp pseudo
  · cases found
  · cases found
    rfl

theorem fitImmediate_of_not_fits (outside : ¬ (immMin ≤ value ∧ value ≤ immMax)) :
    fitImmediate value = .error (.offsetTooLarge value) := by
  rw [fitImmediate, if_neg outside]

theorem operand_of_ne_reg (number : kind ≠ .reg) : labels.operand index token kind = (do
    return .imm (← fitImmediate (← labels.value index kind token))) := by
  cases kind with
  | reg => exact absurd rfl number
  | _ => rfl

theorem resolve_directive : Operation.resolve labels index ⟨Operation.wordDirective, [token]⟩ =
    (labels.word token).map .literal := rfl

theorem resolve_of_ne_pseudoOp (directive : op.mnemonic ≠ Operation.wordDirective)
    (pseudo : op.operands = [] → pseudoOp? op.mnemonic = none) :
    op.resolve labels index = op.resolveInstruction labels index := by
  rw [Operation.resolve, if_neg (by simpa using directive)]
  split
  case h_1 word none some => simp [pseudo none] at some
  case h_2 => rfl

theorem resolve_of_mnemonic (named : opcode.mnemonic = op.mnemonic) :
    op = ⟨"halt", []⟩ ∨ op.resolve labels index = op.resolveInstruction labels index := by
  by_cases pseudo : op.operands = [] ∧ (pseudoOp? op.mnemonic).isSome
  · obtain ⟨mnemonic, operands⟩ := op
    obtain ⟨rfl, pseudo⟩ := pseudo
    obtain ⟨w, pseudo⟩ := Option.isSome_iff_exists.mp pseudo
    obtain rfl := eq_halt named pseudo
    cases named
    exact .inl rfl
  · exact .inr (resolve_of_ne_pseudoOp (named ▸ ne_wordDirective opcode) (by simpa using pseudo))

theorem resolveInstruction_of_spread (named : opcode.mnemonic = op.mnemonic)
    (spread : Spread opcode.operandKinds op.operands tokens) :
    op.resolveInstruction labels index = (do
      return .instruction op.mnemonic
        (← (tokens.zip opcode.operandKinds).mapM fun (token, kind) =>
          labels.operand index token kind)) := by
  rw [Operation.resolveInstruction, Opcode.ofMnemonic?_eq_some.mpr named]
  dsimp only
  rw [spread.spreadDisplacement_eq, if_pos spread.length_eq]

theorem resolveInstruction_of_not_spread (named : opcode.mnemonic = op.mnemonic)
    (none : ∀ tokens, ¬ Spread opcode.operandKinds op.operands tokens) :
    op.resolveInstruction labels index =
      .error (.arityMismatch op.mnemonic opcode.operandKinds.length op.operands.length) := by
  have arity : (spreadDisplacement opcode.operandKinds op.operands).length ≠
      opcode.operandKinds.length := fun same => none _ (spread_of_length_eq same)
  rw [Operation.resolveInstruction, Opcode.ofMnemonic?_eq_some.mpr named]
  dsimp only
  rw [if_neg arity, spreadDisplacement_of_length_ne arity]

namespace Labels

theorem value_of_not_number (none : ∀ value, ¬ token.Number value) :
    labels.value index kind token = (do
      let a : Nat ← labels.address token
      return if kind = .pcRel then (a : Int) - index - 1 else a) := by
  rw [value, Token.number?_eq_none.mpr none]

theorem word_of_not_number (none : ∀ value, ¬ token.Number value) :
    labels.word token = (labels.address token).map (UInt16.ofNat ·) := by
  rw [word, Token.number?_eq_none.mpr none]

theorem word_of_numeral (numeral : token.Numeral value) (low : wordMin ≤ value)
    (high : value ≤ wordMax) : labels.word token = .ok (UInt16.ofNat (value % 65536).toNat) := by
  have small : value.natAbs ≤ Token.magnitudeMax := by
    rw [wordMin] at low
    rw [wordMax] at high
    rw [Token.magnitudeMax]
    omega
  rw [word, Token.number?_eq_some.mpr ⟨numeral, small⟩]
  dsimp only
  rw [if_pos ⟨low, high⟩]

theorem address_of_not_symbol (other : ¬ token.Symbol) :
    labels.address token = .error (.notANumber (String.ofList token)) := by
  rw [address, if_neg (mt Token.symbol_iff.mpr other)]

theorem address_eq_notANumber_iff (named : token.isLabelName = true) :
    labels.address token = .error (.notANumber (String.ofList token)) ↔ ∃ r, token.Register r := by
  by_cases register : ∃ r, token.Register r
  · have other : ¬ token.Symbol := fun symbol => not_exists.mpr symbol.2 register
    simp [register, address_of_not_symbol other]
  · have symbol : token.Symbol := ⟨named, not_exists.mp register⟩
    rw [address, if_pos (Token.symbol_iff.mp symbol)]
    cases labels.lookup token <;> simp [register]

theorem word_of_not_fits
    (none : ∀ value, token.Numeral value → ¬ (wordMin ≤ value ∧ value ≤ wordMax))
    (other : ¬ token.Symbol) : labels.word token = .error (.notANumber (String.ofList token)) := by
  rw [word]
  cases read : token.number? with
  | some value =>
    dsimp only
    rw [if_neg (none value (.of_number? read))]
  | none =>
    dsimp only
    rw [address_of_not_symbol other]
    rfl

end Labels

section Resolving

variable (known : ∀ name address, labels.lookup name = some address ↔ LabelAt rows name address)
include known

theorem Labels.address_of_label (symbol : token.Symbol) (there : LabelAt rows token a) :
    labels.address token = .ok a := by
  rw [address, if_pos (Token.symbol_iff.mp symbol), (known token a).mpr there]

theorem Labels.address_of_nowhere (symbol : token.Symbol) (nowhere : ∀ a, ¬ LabelAt rows token a) :
    labels.address token = .error (.undefinedLabel (String.ofList token)) := by
  have missing : labels.lookup token = none := by
    simpa [Option.eq_none_iff_forall_ne_some, known] using nowhere
  rw [address, if_pos (Token.symbol_iff.mp symbol), missing]

theorem Value.value_eq_ok (h : Value rows index kind token value) :
    labels.value index kind token = .ok value := by
  cases h with
  | number number => rw [Labels.value, Token.number?_eq_some.mpr number]
  | relative relative symbol there =>
    rw [Labels.value_of_not_number symbol.not_number, Labels.address_of_label known symbol there,
      ok_bind, pure_eq_ok, if_pos relative]
  | absolute absolute symbol there =>
    rw [Labels.value_of_not_number symbol.not_number, Labels.address_of_label known symbol there,
      ok_bind, pure_eq_ok, if_neg absolute]

theorem Admits.exists_operand (h : Admits rows index kind token) :
    ∃ o, labels.operand index token kind = .ok o := by
  cases h with
  | @register _ r name => exact ⟨.reg r, by rw [Labels.operand, Token.register?_eq_some.mpr name]⟩
  | @value _ _ value number stands low high =>
    have fits : fitImmediate value = .ok value := fitImmediate_eq_ok.mpr ⟨rfl, low, high⟩
    refine ⟨.imm value, ?_⟩
    rw [operand_of_ne_reg number, stands.value_eq_ok known, ok_bind, fits, ok_bind, pure_eq_ok]

theorem Rejects.operand_eq_error (h : Rejects rows index kind token cause) :
    labels.operand index token kind = .error cause := by
  cases h with
  | register none => rw [Labels.operand, Token.register?_eq_none.mpr none]
  | notNumber number none other =>
    rw [operand_of_ne_reg number, Labels.value_of_not_number none,
      Labels.address_of_not_symbol other]
    rfl
  | undefined number symbol nowhere =>
    rw [operand_of_ne_reg number, Labels.value_of_not_number symbol.not_number,
      Labels.address_of_nowhere known symbol nowhere]
    rfl
  | tooLarge number stands outside =>
    rw [operand_of_ne_reg number, stands.value_eq_ok known, ok_bind,
      fitImmediate_of_not_fits outside, error_bind]

theorem exists_operands (admitted : List.Forall₂ (Admits rows index) kinds tokens) :
    ∃ os, (tokens.zip kinds).mapM (fun (token, kind) => labels.operand index token kind) =
      .ok os := by
  induction admitted with
  | nil => exact ⟨[], rfl⟩
  | cons first _ ih =>
    obtain ⟨o, made⟩ := first.exists_operand known
    obtain ⟨os, rest⟩ := ih
    exact ⟨o :: os, mapM_eq_ok.mpr (.cons made (mapM_eq_ok.mp rest))⟩

theorem RejectsFirst.operands_eq_error (h : RejectsFirst rows index kinds tokens cause) :
    (tokens.zip kinds).mapM (fun (token, kind) => labels.operand index token kind) =
      .error cause := by
  induction h with
  | here rejected =>
    rw [List.zip_cons_cons, List.mapM_cons]
    dsimp only
    rw [rejected.operand_eq_error known, error_bind]
  | later admitted _ ih =>
    obtain ⟨o, made⟩ := admitted.exists_operand known
    rw [List.zip_cons_cons, List.mapM_cons]
    dsimp only
    rw [made, ok_bind, ih, error_bind]

theorem Accepts.exists_resolve (h : Accepts rows index op) :
    ∃ r, op.resolve labels index = .ok r := by
  cases h with
  | number numeral low high =>
    rw [resolve_directive, Labels.word_of_numeral numeral low high]
    exact ⟨_, rfl⟩
  | label symbol there =>
    rw [resolve_directive, Labels.word_of_not_number symbol.not_number,
      Labels.address_of_label known symbol there]
    exact ⟨_, rfl⟩
  | pseudoOp which => obtain rfl | rfl := which <;> exact ⟨_, rfl⟩
  | @instruction _ opcode tokens named spread admitted =>
    obtain rfl | instruction := resolve_of_mnemonic named
    · exact ⟨_, rfl⟩
    obtain ⟨os, made⟩ := exists_operands known admitted
    refine ⟨.instruction op.mnemonic os, ?_⟩
    rw [instruction, resolveInstruction_of_spread named spread, made, ok_bind, pure_eq_ok]

theorem Refuses.resolve_eq_error (h : Refuses rows index op cause) :
    op.resolve labels index = .error cause := by
  cases h with
  | @wordArity operands arity =>
    match operands with
    | [_] => exact absurd rfl arity
    | [] | _ :: _ :: _ => rfl
  | notNumber none other =>
    rw [resolve_directive, Labels.word_of_not_fits none other]
    rfl
  | undefined symbol nowhere =>
    rw [resolve_directive, Labels.word_of_not_number symbol.not_number,
      Labels.address_of_nowhere known symbol nowhere]
    rfl
  | unknown directive noop none =>
    have plain : op.operands = [] → pseudoOp? op.mnemonic = Option.none := by
      intro empty
      rw [Option.eq_none_iff_forall_ne_some]
      intro w pseudo
      obtain ⟨name, -⟩ | ⟨name, -⟩ := pseudoOp?_eq_some.mp pseudo
      · exact noop (by cases op; cases name; cases empty; rfl)
      · exact none .halt name.symm
    rw [resolve_of_ne_pseudoOp directive plain, Operation.resolveInstruction,
      Opcode.ofMnemonic?_eq_none.mpr none]
  | @arity _ opcode named none =>
    obtain rfl | instruction := resolve_of_mnemonic named
    · obtain rfl := eq_halt named rfl
      exact absurd (.written rfl) (none [])
    rw [instruction, resolveInstruction_of_not_spread named none]
  | @operand _ opcode tokens _ named spread rejected =>
    obtain rfl | instruction := resolve_of_mnemonic named
    · obtain rfl := eq_halt named rfl
      cases spread
      cases rejected
    rw [instruction, resolveInstruction_of_spread named spread, rejected.operands_eq_error known,
      error_bind]

theorem exists_resolve_iff :
    (∃ r, op.resolve labels index = .ok r) ↔ Accepts rows index op :=
  exists_eq_ok_iff_of_rules (accepts_or_refuses rows index op) (·.exists_resolve known)
    fun _ refused => refused.resolve_eq_error known

theorem resolve_eq_error_iff :
    op.resolve labels index = .error cause ↔ Refuses rows index op cause :=
  eq_error_iff_of_rules (accepts_or_refuses rows index op) (·.exists_resolve known)
    fun _ refused => refused.resolve_eq_error known

end Resolving

section Encoding

variable {r : Resolved}

theorem suits_of_operand {o : Operand} (h : labels.operand index token kind = .ok o) :
    o.Suits kind := by
  by_cases register : kind = .reg
  · subst register
    rw [Labels.operand] at h
    split at h
    case h_1 r read =>
      cases h
      exact .register (Token.register?_eq_some.mp read).lt
    case h_2 => cases h
  · rw [operand_of_ne_reg register] at h
    obtain ⟨value, -, h⟩ := bind_eq_ok.mp h
    obtain ⟨fitted, fits, h⟩ := bind_eq_ok.mp h
    cases h
    obtain ⟨rfl, low, high⟩ := fitImmediate_eq_ok.mp fits
    exact .value register ⟨low, high⟩

theorem suits_of_operands {os : List Operand} (arity : tokens.length = kinds.length)
    (h : (tokens.zip kinds).mapM (fun (token, kind) => labels.operand index token kind) = .ok os) :
    List.Forall₂ Operand.Suits kinds os := by
  induction kinds generalizing tokens os with
  | nil =>
    obtain rfl := List.length_eq_zero_iff.mp arity
    cases h
    exact .nil
  | cons kind kinds ih =>
    cases tokens with
    | nil => cases arity
    | cons token tokens =>
      cases mapM_eq_ok.mp h with
      | cons first rest =>
        exact .cons (suits_of_operand first) (ih (Nat.succ.inj arity) (mapM_eq_ok.mpr rest))

theorem exists_encode_of_resolveInstruction (h : op.resolveInstruction labels index = .ok r) :
    ∃ w, r.encode = .ok w := by
  rw [Operation.resolveInstruction] at h
  split at h
  case h_1 => cases h
  case h_2 opcode found =>
    dsimp only at h
    split at h
    case isFalse => cases h
    case isTrue arity =>
      obtain ⟨os, resolved, h⟩ := bind_eq_ok.mp h
      cases h
      obtain ⟨i, made⟩ := Instruction.exists_ofOperands_eq_ok (suits_of_operands arity resolved)
      rw [Resolved.encode, Isa.encode.eq_def]
      split
      case h_1 w _ => exact ⟨w, rfl⟩
      case h_2 => simp [found, made, Except.map]

theorem exists_encode_of_resolve (h : op.resolve labels index = .ok r) : ∃ w, r.encode = .ok w := by
  rw [Operation.resolve] at h
  split at h
  case isTrue =>
    split at h
    case h_1 =>
      obtain ⟨w, -, rfl⟩ := map_eq_ok.mp h
      exact ⟨w, rfl⟩
    case h_2 => cases h
  case isFalse =>
    split at h
    case h_1 w _ _ =>
      cases h
      exact ⟨w, rfl⟩
    case h_2 => exact exists_encode_of_resolveInstruction h

end Encoding

theorem Statement.exists_resolve_iff {s : Statement} :
    (∃ y, (do return (s.line, ← s.resolve labels index) : Except Error (Nat × Resolved)) = .ok y) ↔
      ∃ r, s.toOperation.resolve labels index = .ok r := by
  rw [resolve]
  cases s.toOperation.resolve labels index <;> simp [onLine]

theorem Statement.resolve_eq_error_iff {s : Statement} {e : Error} :
    (do return (s.line, ← s.resolve labels index) : Except Error (Nat × Resolved)) = .error e ↔
      s.toOperation.resolve labels index = .error e.cause ∧ e.line = s.line := by
  obtain ⟨line, cause⟩ := e
  rw [resolve]
  cases s.toOperation.resolve labels index with
  | ok r => simp [onLine]
  | error cause' => simp [onLine, and_comm, eq_comm]

namespace Layout

variable {layout : Layout} {e : Error}

theorem getElem?_zipIdx_statements {i : Nat} {x : Statement × Nat} :
    layout.statements.toList.zipIdx[i]? = some x ↔
      layout.statements.toList[i]? = some x.1 ∧ x.2 = i := by
  obtain ⟨s, j⟩ := x
  rw [List.getElem?_zipIdx]
  simp [eq_comm]

theorem exists_resolve_iff : (∃ resolved, layout.resolve = .ok resolved) ↔
    ∀ i, ∀ s : Statement, layout.statements.toList[i]? = some s →
      ∃ r, s.toOperation.resolve layout.labels i = .ok r := by
  rw [resolve, exists_mapM_eq_ok]
  simp only [getElem?_zipIdx_statements, Prod.forall, and_imp, Statement.exists_resolve_iff,
    forall_eq_apply_imp_iff]

theorem resolve_eq_error_iff : layout.resolve = .error e ↔
    ∃ i, ∃ s : Statement, layout.statements.toList[i]? = some s ∧
      (∀ j, ∀ t : Statement, j < i → layout.statements.toList[j]? = some t →
        ∃ r, t.toOperation.resolve layout.labels j = .ok r) ∧
      s.toOperation.resolve layout.labels i = .error e.cause ∧ e.line = s.line := by
  rw [resolve, mapM_eq_error]
  simp only [getElem?_zipIdx_statements]
  constructor
  · rintro ⟨i, ⟨s, _⟩, ⟨at_i, rfl⟩, earlier, failed⟩
    refine ⟨_, s, at_i, fun j t hj at_j => ?_, Statement.resolve_eq_error_iff.mp failed⟩
    exact Statement.exists_resolve_iff.mp (earlier j (t, j) hj ⟨at_j, rfl⟩)
  · rintro ⟨i, s, at_i, earlier, failed⟩
    refine ⟨i, (s, i), ⟨at_i, rfl⟩, ?_, Statement.resolve_eq_error_iff.mpr failed⟩
    rintro j ⟨t, _⟩ hj ⟨at_j, rfl⟩
    exact Statement.exists_resolve_iff.mpr (earlier _ t hj at_j)

theorem exists_encodeAll_of_resolve {resolved : List (Nat × Resolved)}
    (h : layout.resolve = .ok resolved) : ∃ words, encodeAll resolved = .ok words := by
  rw [encodeAll, exists_mapM_eq_ok]
  rintro i ⟨line, r⟩ at_i
  obtain ⟨⟨s, index⟩, -, entry⟩ := exists_of_mem_mapM h (List.mem_of_getElem? at_i)
  obtain ⟨r', resolved, made⟩ := bind_eq_ok.mp entry
  cases made
  obtain ⟨w, encoded⟩ := exists_encode_of_resolve (Statement.resolve_eq_ok resolved)
  exact ⟨w, by simp [encoded, Except.mapError]⟩

theorem exists_assemble_iff :
    (∃ words, layout.assemble = .ok words) ↔ ∃ resolved, layout.resolve = .ok resolved := by
  simp only [assemble, bind_eq_ok]
  constructor
  · rintro ⟨words, resolved, h, -⟩
    exact ⟨resolved, h⟩
  · rintro ⟨resolved, h⟩
    obtain ⟨words, encoded⟩ := exists_encodeAll_of_resolve h
    exact ⟨words, resolved, h, encoded⟩

theorem exists_assemble_of_resolve (h : ∀ (i : Nat) op, layout.operations[i]? = some op →
    ∃ r, op.resolve layout.labels i = .ok r) : ∃ words, layout.assemble = .ok words := by
  refine exists_assemble_iff.mpr (exists_resolve_iff.mpr fun i s at_i => h i _ ?_)
  rw [operations, List.getElem?_map, at_i, Option.map_some]

theorem getElem?_of_resolve {i : Nat} {words : List Word} {r : Resolved} {w : Word}
    (h : layout.assemble = .ok words) (at_i : layout.operations[i]? = some op)
    (resolved : op.resolve layout.labels i = .ok r) (encoded : r.encode = .ok w) :
    words[i]? = some w := by
  obtain ⟨w', written, r', resolved', encoded'⟩ := getElem?_assemble h at_i
  rw [resolved, Except.ok.injEq] at resolved'
  rw [← resolved', encoded, Except.ok.injEq] at encoded'
  rw [written, encoded']

theorem assemble_eq_ok_iff {words : List Word} : layout.assemble = .ok words ↔
    words.length = layout.operations.length ∧ ∀ (i : Nat) op, layout.operations[i]? = some op →
      ∃ w, words[i]? = some w ∧ ∃ r, op.resolve layout.labels i = .ok r ∧ r.encode = .ok w := by
  refine ⟨fun h => ⟨length_assemble h, fun i op => getElem?_assemble h⟩, ?_⟩
  rintro ⟨length, each⟩
  obtain ⟨again, assembled⟩ : ∃ again, layout.assemble = .ok again := by
    refine exists_assemble_of_resolve fun i op at_i => ?_
    obtain ⟨-, -, r, resolved, -⟩ := each i op at_i
    exact ⟨r, resolved⟩
  rw [assembled, Except.ok.injEq]
  refine List.ext_getElem? fun i => ?_
  obtain inside | outside := Nat.lt_or_ge i layout.operations.length
  · have at_i := List.getElem?_eq_getElem inside
    obtain ⟨w, written, r, resolved, encoded⟩ := each i _ at_i
    rw [written, getElem?_of_resolve assembled at_i resolved encoded]
  · rw [List.getElem?_eq_none (length_assemble assembled ▸ outside),
      List.getElem?_eq_none (length ▸ outside)]

theorem assemble_of_forall₂ {words : List Word}
    (h : List.Forall₂ (fun op w => ∀ i, ∃ r, op.resolve layout.labels i = .ok r ∧ r.encode = .ok w)
      layout.operations words) : layout.assemble = .ok words := by
  obtain ⟨length, each⟩ := List.forall₂_iff_get.mp h
  refine assemble_eq_ok_iff.mpr ⟨length.symm, fun i op at_i => ?_⟩
  obtain ⟨hi, rfl⟩ := List.getElem?_eq_some_iff.mp at_i
  exact ⟨words[i], List.getElem?_eq_getElem (length ▸ hi), each i hi (length ▸ hi) i⟩

end Layout

end Backstep.Asm
