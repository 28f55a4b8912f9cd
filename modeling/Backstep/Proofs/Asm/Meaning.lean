import Backstep.Proofs.Asm.SourceLines
import Backstep.Proofs.Asm.TokenLaws
import Backstep.Proofs.Isa.EncodingLaws

namespace Backstep.Asm

open Isa Text

/-- What a token stands for as an operand of the statement at `index`. -/
inductive Means (address : Token → Nat → Prop) (index : Nat) : OperandKind → Token → Operand → Prop
  | register {token : Token} {r : Nat} : token.Register r → Means address index .reg token (.reg r)
  | number {kind : OperandKind} {token : Token} {value : Int} :
      kind ≠ .reg → token.Numeral value → Means address index kind token (.imm value)
  | target {token : Token} {a : Nat} :
      address token a → Means address index .pcRel token (.imm (a - index - 1))
  | place {kind : OperandKind} {token : Token} {a : Nat} :
      kind = .imm ∨ kind = .disp → address token a → Means address index kind token (.imm a)

inductive MeansAll (address : Token → Nat → Prop) (index : Nat) :
    List OperandKind → List Token → List Operand → Prop
  | nil : MeansAll address index [] [] []
  | cons {kind : OperandKind} {kinds : List OperandKind} {token : Token} {tokens : List Token}
      {o : Operand} {os : List Operand} : Means address index kind token o →
      MeansAll address index kinds tokens os →
      MeansAll address index (kind :: kinds) (token :: tokens) (o :: os)
  | displaced {token disp base : Token} {b d : Operand} : token.Displacement disp base →
      Means address index .reg base b → Means address index .disp disp d →
      MeansAll address index [.reg, .disp] [token] [b, d]

theorem MeansAll.tokens_eq_nil {address : Token → Nat → Prop} {index : Nat}
    {kinds : List OperandKind} {tokens : List Token} (h : MeansAll address index kinds tokens []) :
    tokens = [] := by
  cases h
  rfl

/-- The word is the one that the operation means at `index`. -/
inductive Emits (address : Token → Nat → Prop) (index : Nat) : Operation → Word → Prop
  | number {token : Token} {value : Int} {word : Word} : token.Numeral value →
      (word.toNat : Int) = value % 65536 → Emits address index ⟨Operation.wordDirective, [token]⟩ word
  | place {token : Token} {a : Nat} {word : Word} : address token a → word.toNat = a % 65536 →
      Emits address index ⟨Operation.wordDirective, [token]⟩ word
  | noop : Emits address index ⟨"noop", []⟩ 0
  | instruction {op : Operation} {i : Instruction} {word : Word} :
      i.opcode.mnemonic = op.mnemonic →
      MeansAll address index i.opcode.operandKinds op.operands i.operands →
      Instruction.decode? word = some i → Emits address index op word

inductive Spread : List OperandKind → List Token → List Token → Prop
  | written {kinds : List OperandKind} {tokens : List Token} : tokens.length = kinds.length →
      Spread kinds tokens tokens
  | displaced {first token disp base : Token} : token.Displacement disp base → '(' ∉ disp →
      Spread [.reg, .reg, .disp] [first, token] [first, base, disp]

theorem operandKinds_of_disp {opcode : Opcode} (h : opcode.operandKinds.getLast? = some .disp) :
    opcode.operandKinds = [.reg, .reg, .disp] := by
  cases opcode with
  | lw | sw => rfl
  | _ => cases h

theorem Spread.length_eq {kinds : List OperandKind} {operands tokens : List Token}
    (h : Spread kinds operands tokens) : tokens.length = kinds.length := by
  cases h with
  | written same => exact same
  | displaced => rfl

theorem Spread.spreadDisplacement_eq {kinds : List OperandKind} {operands tokens : List Token}
    (h : Spread kinds operands tokens) : spreadDisplacement kinds operands = tokens := by
  cases h with
  | written same => rw [spreadDisplacement, if_neg (by omega)]
  | displaced parts first =>
    simp [spreadDisplacement, Token.displacement?_eq_some.mpr ⟨parts, first⟩]

theorem spread_of_length_eq {opcode : Opcode} {operands : List Token}
    (h : (spreadDisplacement opcode.operandKinds operands).length = opcode.operandKinds.length) :
    Spread opcode.operandKinds operands (spreadDisplacement opcode.operandKinds operands) := by
  rw [spreadDisplacement] at h ⊢
  split
  case isFalse plain =>
    rw [if_neg plain] at h
    exact .written h
  case isTrue short =>
    rw [if_pos short] at h
    split
    case h_2 plain =>
      rw [plain] at h
      exact .written h
    case h_1 disp base last =>
      obtain ⟨memory, short⟩ := short
      rw [operandKinds_of_disp memory] at short ⊢
      match operands, short with
      | [first, token], _ =>
        obtain ⟨parts, free⟩ := Token.displacement?_eq_some.mp last
        exact .displaced parts free

theorem spreadDisplacement_of_length_ne {kinds : List OperandKind} {operands : List Token}
    (h : (spreadDisplacement kinds operands).length ≠ kinds.length) :
    spreadDisplacement kinds operands = operands := by
  rw [spreadDisplacement] at h ⊢
  split
  case isFalse => rfl
  case isTrue short =>
    rw [if_pos short] at h
    split
    case h_2 => rfl
    case h_1 disp base last =>
      cases operands with
      | nil => cases last
      | cons first rest =>
        rw [last] at h
        simp only [List.length_append, List.length_dropLast, List.length_cons] at h short
        exact absurd short.2 h

section Resolved

variable {labels : Labels} {address : Token → Nat → Prop} {index : Nat}

theorem Labels.address_eq_ok {token : Token} {a : Nat} (h : labels.address token = .ok a) :
    labels.lookup token = some a := by
  rw [Labels.address] at h
  split at h
  case isTrue =>
    split at h <;> cases h
    assumption
  case isFalse => cases h

theorem fitImmediate_eq_ok {value fitted : Int} :
    fitImmediate value = .ok fitted ↔ fitted = value ∧ immMin ≤ value ∧ value ≤ immMax := by
  rw [fitImmediate]
  split
  case isTrue fits => simp [fits, eq_comm]
  case isFalse outside => simp [outside]

variable (known : ∀ token a, labels.lookup token = some a → address token a)
include known

theorem means_of_operand {token : Token} {kind : OperandKind} {o : Operand}
    (h : labels.operand index token kind = .ok o) : Means address index kind token o := by
  rw [Labels.operand.eq_def] at h
  split at h
  case h_1 =>
    split at h <;> cases h
    case h_1 r read => exact .register (.of_register? read)
  case h_2 number =>
    obtain ⟨value, resolved, h⟩ := bind_eq_ok.mp h
    obtain ⟨fitted, fits, h⟩ := bind_eq_ok.mp h
    cases h
    obtain ⟨rfl, -⟩ := fitImmediate_eq_ok.mp fits
    rw [Labels.value] at resolved
    split at resolved
    case h_1 v read =>
      cases resolved
      exact .number number (.of_number? read)
    case h_2 =>
      obtain ⟨a, found, resolved⟩ := bind_eq_ok.mp resolved
      have there := known token a (Labels.address_eq_ok found)
      cases kind with
      | reg => exact absurd rfl number
      | pcRel => cases resolved; exact .target there
      | imm => cases resolved; exact .place (.inl rfl) there
      | disp => cases resolved; exact .place (.inr rfl) there

theorem meansAll_of_forall₂ {kinds : List OperandKind} {tokens : List Token} {os : List Operand}
    (arity : tokens.length = kinds.length)
    (h : List.Forall₂ (fun (tk : Token × OperandKind) o => labels.operand index tk.1 tk.2 = .ok o)
      (tokens.zip kinds) os) : MeansAll address index kinds tokens os := by
  induction kinds generalizing tokens os with
  | nil =>
    obtain rfl := List.length_eq_zero_iff.mp arity
    cases h
    exact .nil
  | cons kind kinds ih =>
    cases tokens with
    | nil => cases arity
    | cons token tokens =>
      cases h with
      | cons first rest =>
        exact .cons (means_of_operand known first) (ih (Nat.succ.inj arity) rest)

theorem meansAll_of_spread {kinds : List OperandKind} {operands tokens : List Token}
    {os : List Operand} (spread : Spread kinds operands tokens)
    (h : List.Forall₂ (fun (tk : Token × OperandKind) o => labels.operand index tk.1 tk.2 = .ok o)
      (tokens.zip kinds) os) : MeansAll address index kinds operands os := by
  cases spread with
  | written arity => exact meansAll_of_forall₂ known arity h
  | displaced parts =>
    match h with
    | .cons ha (.cons hb (.cons hd .nil)) =>
      exact .cons (means_of_operand known ha)
        (.displaced parts (means_of_operand known hb) (means_of_operand known hd))

omit known in
theorem emits_of_pseudoOp? {mnemonic : String} {word : Word} (h : pseudoOp? mnemonic = some word) :
    Emits address index ⟨mnemonic, []⟩ word := by
  obtain ⟨rfl, rfl⟩ | ⟨rfl, rfl⟩ := pseudoOp?_eq_some.mp h
  · exact .noop
  · exact .instruction (i := .halt) rfl .nil rfl

theorem emits_of_word {token : Token} {word : Word} (h : labels.word token = .ok word) :
    Emits address index ⟨Operation.wordDirective, [token]⟩ word := by
  rw [Labels.word] at h
  split at h
  case h_1 value read =>
    split at h <;> cases h
    refine .number (.of_number? read) ?_
    rw [UInt16.toNat_ofNat']
    omega
  case h_2 =>
    obtain ⟨a, found, rfl⟩ := map_eq_ok.mp h
    exact .place (known token a (Labels.address_eq_ok found)) (UInt16.toNat_ofNat' ..)

theorem emits_of_resolveInstruction {op : Operation} {r : Resolved} {word : Word}
    (h : op.resolveInstruction labels index = .ok r) (hword : r.encode = .ok word) :
    Emits address index op word := by
  rw [Operation.resolveInstruction] at h
  split at h
  case h_1 => cases h
  case h_2 opcode found =>
    have mnemonic := Opcode.ofMnemonic?_eq_some.mp found
    simp only at h
    split at h
    case isFalse => cases h
    case isTrue arity =>
      obtain ⟨os, resolved, h⟩ := bind_eq_ok.mp h
      cases h
      have means := meansAll_of_spread known (spread_of_length_eq arity) (mapM_eq_ok.mp resolved)
      rw [Resolved.encode, Isa.encode.eq_def] at hword
      split at hword
      case h_1 pseudo =>
        cases hword
        obtain ⟨m, tokens⟩ := op
        obtain rfl : tokens = [] := means.tokens_eq_nil
        exact emits_of_pseudoOp? pseudo
      case h_2 =>
        rw [found] at hword
        obtain ⟨i, made, rfl⟩ := map_eq_ok.mp hword
        obtain ⟨rfl, rfl, fits⟩ := Instruction.ofOperands_eq_ok.mp made
        exact .instruction mnemonic means (Instruction.decode?_encode fits)

theorem emits_of_resolve {op : Operation} {r : Resolved} {word : Word}
    (h : op.resolve labels index = .ok r) (hword : r.encode = .ok word) :
    Emits address index op word := by
  obtain ⟨mnemonic, tokens⟩ := op
  rw [Operation.resolve] at h
  split at h
  case isTrue directive =>
    obtain rfl := beq_iff_eq.mp directive
    split at h
    case h_1 token one =>
      cases one
      obtain ⟨w, read, rfl⟩ := map_eq_ok.mp h
      cases hword
      exact emits_of_word known read
    case h_2 => cases h
  case isFalse =>
    split at h
    case h_1 w none pseudo =>
      cases none
      cases h
      cases hword
      exact emits_of_pseudoOp? pseudo
    case h_2 => exact emits_of_resolveInstruction known h hword

end Resolved

theorem Statement.resolve_eq_ok {labels : Labels} {index : Nat} {s : Statement} {r : Resolved}
    (h : s.resolve labels index = .ok r) : s.toOperation.resolve labels index = .ok r := by
  rw [resolve, onLine.eq_def] at h
  split at h <;> cases h
  assumption

theorem encode_eq_ok_of_mapError {line : Nat} {r : Resolved} {word : Word}
    (h : r.encode.mapError (Error.ofEncode line) = .ok word) : r.encode = .ok word := by
  cases encoded : r.encode with
  | ok w => simpa [encoded, Except.mapError] using h
  | error e => simp [encoded, Except.mapError] at h

namespace Layout

variable {layout : Layout} {words : List Word}

theorem length_assemble (h : layout.assemble = .ok words) :
    words.length = layout.operations.length := by
  obtain ⟨resolved, hresolved, hwords⟩ := bind_eq_ok.mp h
  rw [length_of_mapM hwords, length_of_mapM hresolved, List.length_zipIdx, operations,
    List.length_map]

theorem getElem?_assemble {i : Nat} {op : Operation} (h : layout.assemble = .ok words)
    (at_i : layout.operations[i]? = some op) :
    ∃ word, words[i]? = some word ∧
      ∃ r, op.resolve layout.labels i = .ok r ∧ r.encode = .ok word := by
  obtain ⟨resolved, hresolved, hwords⟩ := bind_eq_ok.mp h
  rw [operations, List.getElem?_map] at at_i
  obtain ⟨s, stands, rfl⟩ := Option.map_eq_some_iff.mp at_i
  have indexed : layout.statements.toList.zipIdx[i]? = some (s, i) := by
    rw [List.getElem?_zipIdx, stands, Option.map_some, Nat.zero_add]
  obtain ⟨_, placed, hr⟩ := getElem?_of_mapM hresolved indexed
  obtain ⟨r, resolves, made⟩ := bind_eq_ok.mp hr
  cases made
  obtain ⟨word, written, hword⟩ := getElem?_of_mapM hwords placed
  exact ⟨word, written, r, Statement.resolve_eq_ok resolves, encode_eq_ok_of_mapError hword⟩

end Layout

theorem assemble_eq_ok {source : String} {words : List Word} (h : assemble source = .ok words) :
    ∃ layout, Layout.ofSource source.toList = (layout, none) ∧ layout.assemble = .ok words := by
  rw [assemble, assembleChars] at h
  split at h
  case h_1 => cases h
  case h_2 layout laid => exact ⟨layout, laid, h⟩

/-- The words of an accepted text are as many as its lines emit, its labels are the words before
their lines, and every word is what the operation at its place means. -/
theorem assemble_means {source : String} {words : List Word} (h : assemble source = .ok words) :
    words.length = ((lines source.toList).map lineWidth).sum ∧
      (∀ name address, (Layout.ofSource source.toList).1.labels.lookup name = some address ↔
        LabelAt (lines source.toList) name address) ∧
      ∀ j row, (lines source.toList)[j]? = some row →
        (lineOperations row).length = lineWidth row ∧
          ∀ k op, (lineOperations row)[k]? = some op →
            ∃ word, words[wordsBefore (lines source.toList) j + k]? = some word ∧
              Emits (LabelAt (lines source.toList)) (wordsBefore (lines source.toList) j + k) op
                word := by
  obtain ⟨layout, laid, assembled⟩ := assemble_eq_ok h
  have lays := Layout.lays_of_ofSource laid
  have labels (name address) : layout.labels.lookup name = some address ↔
      LabelAt (lines source.toList) name address := by
    rw [lays.lookup]
    simp [Layout.empty]
  have operations : layout.operations = (lines source.toList).flatMap lineOperations :=
    lays.operations
  refine ⟨?_, ?_, fun j row at_j => ⟨lays.widths row (List.mem_of_getElem? at_j), ?_⟩⟩
  · rw [Layout.length_assemble assembled, operations, length_flatMap_lineOperations lays.widths]
  · rw [laid]
    exact labels
  · intro k op at_k
    have hk := (List.getElem?_eq_some_iff.mp at_k).1
    have at_i := getElem?_flatMap_lineOperations lays.widths at_j hk
    rw [at_k, ← operations] at at_i
    obtain ⟨word, at_i, r, resolved, encoded⟩ := Layout.getElem?_assemble assembled at_i
    exact ⟨word, at_i, emits_of_resolve (fun name a => (labels name a).1) resolved encoded⟩

theorem assemble_means_of_loop :
    assemble "x: LW $r1, y(R0) # 6\n la r2, x\n.org 5\n bne r1, r0, x\ny: .word -2" =
        .ok [0x6206, 0x8001, 0x0000, 0xC41E, 0x6480, 0x921A, 0xFFFE] ∧
      ∃ word, ([0x6206, 0x8001, 0x0000, 0xC41E, 0x6480, 0x921A, 0xFFFE] : List Word)[5]? =
          some word ∧
        Emits (LabelAt (lines
            "x: LW $r1, y(R0) # 6\n la r2, x\n.org 5\n bne r1, r0, x\ny: .word -2".toList)) 5
          ⟨"bne", [['r', '1'], ['r', '0'], ['x']]⟩ word := by
  have assembled :
      assemble "x: LW $r1, y(R0) # 6\n la r2, x\n.org 5\n bne r1, r0, x\ny: .word -2" =
        .ok [0x6206, 0x8001, 0x0000, 0xC41E, 0x6480, 0x921A, 0xFFFE] := rfl
  have fourth := (assemble_means assembled).2.2 3 " bne r1, r0, x".toList rfl
  exact ⟨assembled, fourth.2 0 ⟨"bne", [['r', '1'], ['r', '0'], ['x']]⟩ rfl⟩

end Backstep.Asm
