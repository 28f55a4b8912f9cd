import Backstep.Proofs.Asm.Meaning

namespace Backstep.Asm

open Isa Text

def statements (source : String) : List Operation :=
  (lines source.toList).flatMap lineOperations

/-- A numeral denotes its value and a label its address. -/
inductive Denotes (rows : List (List Char)) (symbol : Token) : Int → Prop
  | numeral {value : Int} : symbol.Numeral value → Denotes rows symbol value
  | label {a : Nat} : LabelAt rows symbol a → Denotes rows symbol a

def Codes (words : List Word) (index : Nat) (i : Instruction) : Prop :=
  ∃ w, words[index]? = some w ∧ Instruction.decode? w = some i

variable {source : String} {words : List Word} {rows : List (List Char)} {name symbol token : Token}
  {a b index : Nat} {value other : Int} {op : Operation}

theorem LabelAt.isLabelName (h : LabelAt rows name a) : name.isLabelName = true := by
  obtain ⟨j, row, -, named, -⟩ := h
  obtain ⟨⟨label, rest⟩, split, rfl⟩ := Option.map_eq_some_iff.mp named
  rw [splitLabel?] at split
  split at split
  case h_1 =>
    split at split
    case isTrue known =>
      cases split
      exact known
    case isFalse => cases split
  case h_2 => cases split

theorem Token.Numeral.not_labelAt (h : name.Numeral value) : ¬ LabelAt rows name a := by
  intro there
  simpa [h.isLabelName] using there.isLabelName

theorem wordsBefore_le (rows : List (List Char)) (j : Nat) :
    wordsBefore rows j ≤ (rows.map lineWidth).sum := by
  induction rows generalizing j with
  | nil => simp [wordsBefore]
  | cons row rows ih =>
    cases j with
    | zero => simp
    | succ j => simpa using ih j

section Laid

variable {layout : Layout} (h : Layout.ofSource source.toList = (layout, none))
include h

theorem operations_of_ofSource : layout.operations = statements source :=
  (Layout.lays_of_ofSource h).operations

theorem lookup_of_ofSource :
    layout.labels.lookup name = some a ↔ LabelAt (lines source.toList) name a :=
  Layout.lookup_of_ofRows h name a

end Laid

section Accepted

variable (h : assemble source = .ok words)
include h

theorem layout_of_assemble : ∃ layout : Layout, layout.assemble = .ok words ∧
    layout.operations = statements source ∧
    (∀ row ∈ lines source.toList, (lineOperations row).length = lineWidth row) ∧
    ∀ name a, layout.labels.lookup name = some a ↔ LabelAt (lines source.toList) name a := by
  obtain ⟨layout, laid, assembled⟩ := assemble_eq_ok h
  exact ⟨layout, assembled, operations_of_ofSource laid, (Layout.lays_of_ofSource laid).widths,
    fun name a => lookup_of_ofSource laid⟩

theorem length_statements : (statements source).length = words.length := by
  obtain ⟨layout, assembled, operations, -⟩ := layout_of_assemble h
  rw [Layout.length_assemble assembled, operations]

theorem LabelAt.unique (first : LabelAt (lines source.toList) name a)
    (second : LabelAt (lines source.toList) name b) : a = b := by
  obtain ⟨layout, -, -, -, labels⟩ := layout_of_assemble h
  exact Option.some.inj (((labels name a).mpr first).symm.trans ((labels name b).mpr second))

theorem LabelAt.iff_eq (there : LabelAt (lines source.toList) name a) (b : Nat) :
    LabelAt (lines source.toList) name b ↔ b = a := by
  constructor
  · intro other
    exact other.unique h there
  · rintro rfl
    exact there

theorem LabelAt.le_length (label : LabelAt (lines source.toList) name a) : a ≤ words.length := by
  obtain ⟨j, row, -, -, rfl⟩ := label
  obtain ⟨-, -, -, widths, -⟩ := layout_of_assemble h
  rw [← length_statements h, statements, length_flatMap_lineOperations widths]
  exact wordsBefore_le _ j

theorem Denotes.unique (first : Denotes (lines source.toList) symbol value)
    (second : Denotes (lines source.toList) symbol other) : value = other := by
  cases first with
  | numeral read =>
    cases second with
    | numeral read' => exact read.unique read'
    | label there => exact absurd there read.not_labelAt
  | label there =>
    cases second with
    | numeral read => exact absurd there read.not_labelAt
    | label there' => rw [there.unique h there']

theorem Denotes.iff_eq (denotes : Denotes (lines source.toList) symbol value) (v : Int) :
    Denotes (lines source.toList) symbol v ↔ v = value := by
  constructor
  · intro other
    exact other.unique h denotes
  · rintro rfl
    exact denotes

theorem emits_of_assemble (at_index : (statements source)[index]? = some op) :
    ∃ w, words[index]? = some w ∧ Emits (LabelAt (lines source.toList)) index op w := by
  obtain ⟨layout, assembled, operations, -, labels⟩ := layout_of_assemble h
  rw [← operations] at at_index
  obtain ⟨w, written, r, resolved, encoded⟩ := Layout.getElem?_assemble assembled at_index
  exact ⟨w, written, emits_of_resolve (fun name a => (labels name a).1) resolved encoded⟩

theorem statements_of_row {j k : Nat} {row : List Char}
    (at_j : (lines source.toList)[j]? = some row) (at_k : (lineOperations row)[k]? = some op) :
    (statements source)[wordsBefore (lines source.toList) j + k]? = some op := by
  obtain ⟨-, -, -, widths, -⟩ := layout_of_assemble h
  have inside : k < (lineOperations row).length := (List.getElem?_eq_some_iff.mp at_k).1
  rw [statements, getElem?_flatMap_lineOperations widths at_j inside, at_k]

end Accepted

section Emits

variable {address : Token → Nat → Prop} {opcode : Opcode} {w : Word} {o : Operand}

theorem Emits.instruction_of_mnemonic (h : Emits address index op w)
    (named : op.mnemonic = opcode.mnemonic) :
    ∃ i, i.opcode = opcode ∧ MeansAll address index opcode.operandKinds op.operands i.operands ∧
      Instruction.decode? w = some i := by
  have known := Opcode.ofMnemonic?_mnemonic opcode
  rw [← named] at known
  cases h with
  | number => cases known
  | place => cases known
  | noop => cases known
  | instruction same means decoded =>
    rw [← same, Opcode.ofMnemonic?_mnemonic] at known
    obtain rfl := Option.some.inj known
    exact ⟨_, rfl, means, decoded⟩

theorem Means.isRegister {r : Nat} (h : Means address index .reg token (.reg r)) :
    token.Register r := by
  cases h with
  | register read => exact read

theorem Means.of_label {offset : Int} (h : Means address index .pcRel token (.imm offset))
    (label : token.isLabelName = true) :
    ∃ a : Nat, address token a ∧ offset = a - index - 1 := by
  cases h with
  | number _ read => simp [read.isLabelName] at label
  | target there => exact ⟨_, there, rfl⟩
  | place which => simp at which

theorem Means.of_numeral {kind : OperandKind} {n : Int}
    (h : Means (LabelAt rows) index kind token (.imm n)) (read : token.Numeral value) :
    n = value := by
  cases h with
  | number _ read' => exact read'.unique read
  | target there => exact absurd there read.not_labelAt
  | place _ there => exact absurd there read.not_labelAt

theorem Emits.of_word (h : Emits (LabelAt rows) index op w)
    (directive : op = ⟨Operation.wordDirective, [symbol]⟩) :
    ∃ value, Denotes rows symbol value ∧ (w.toNat : Int) = value % 65536 := by
  cases h with
  | number read eq =>
    obtain ⟨⟩ := directive
    exact ⟨_, .numeral read, eq⟩
  | place there eq =>
    obtain ⟨⟩ := directive
    exact ⟨_, .label there, by omega⟩
  | noop => simp at directive
  | @instruction _ i _ same =>
    have known := Opcode.ofMnemonic?_mnemonic i.opcode
    rw [same, directive] at known
    cases known

end Emits

section Accepted

variable (h : assemble source = .ok words)
include h

theorem codes_of_statement {opcode : Opcode} {tokens : List Token}
    (at_index : (statements source)[index]? = some ⟨opcode.mnemonic, tokens⟩) :
    ∃ i, i.opcode = opcode ∧ Codes words index i ∧
      MeansAll (LabelAt (lines source.toList)) index opcode.operandKinds tokens i.operands := by
  obtain ⟨w, written, emits⟩ := emits_of_assemble h at_index
  obtain ⟨i, same, means, decoded⟩ := emits.instruction_of_mnemonic rfl
  exact ⟨i, same, ⟨w, written, decoded⟩, means⟩

theorem codes_branch {cond : Condition} {x y : Token}
    (at_index : (statements source)[index]? = some ⟨(Opcode.branch cond).mnemonic, [x, y, token]⟩) :
    ∃ ra rb offset, Codes words index (.branch cond ra rb offset) ∧ x.Register ra ∧ y.Register rb ∧
      Means (LabelAt (lines source.toList)) index .pcRel token (.imm offset) := by
  obtain ⟨i, same, codes, means⟩ := codes_of_statement h at_index
  cases i with
  | branch cond ra rb offset =>
    cases same
    match means with
    | .cons hx (.cons hy (.cons last .nil)) =>
      exact ⟨ra, rb, offset, codes, hx.isRegister, hy.isRegister, last⟩
  | _ => cases same

theorem codes_lea {x : Token}
    (at_index : (statements source)[index]? = some ⟨Opcode.lea.mnemonic, [x, token]⟩) :
    ∃ r offset, Codes words index (.lea r offset) ∧ x.Register r ∧
      Means (LabelAt (lines source.toList)) index .pcRel token (.imm offset) := by
  obtain ⟨i, same, codes, means⟩ := codes_of_statement h at_index
  cases i with
  | lea r offset =>
    match means with
    | .cons hx (.cons last .nil) => exact ⟨r, offset, codes, hx.isRegister, last⟩
  | _ => cases same

theorem codes_lw {x y : Token}
    (at_index : (statements source)[index]? = some ⟨Opcode.lw.mnemonic, [x, y, token]⟩) :
    ∃ ra rb disp, Codes words index (.lw ra rb disp) ∧ x.Register ra ∧ y.Register rb ∧
      Means (LabelAt (lines source.toList)) index .disp token (.imm disp) := by
  obtain ⟨i, same, codes, means⟩ := codes_of_statement h at_index
  cases i with
  | lw ra rb disp =>
    match means with
    | .cons hx (.cons hy (.cons last .nil)) =>
      exact ⟨ra, rb, disp, codes, hx.isRegister, hy.isRegister, last⟩
  | _ => cases same

theorem word_of_symbol
    (at_index : (statements source)[index]? = some ⟨Operation.wordDirective, [symbol]⟩) :
    ∃ w value, words[index]? = some w ∧ Denotes (lines source.toList) symbol value ∧
      (w.toNat : Int) = value % 65536 := by
  obtain ⟨w, written, emits⟩ := emits_of_assemble h at_index
  obtain ⟨value, denotes, eq⟩ := emits.of_word rfl
  exact ⟨w, value, written, denotes, eq⟩

theorem statements_of_loadAddress {j k : Nat} {row : List Char} {reg : Token}
    (at_j : (lines source.toList)[j]? = some row)
    (stands : lineOperation? row = some ⟨Operation.loadAddress, [reg, symbol]⟩)
    (at_k : (Operation.loadAddressBody reg symbol)[k]? = some op) :
    (statements source)[wordsBefore (lines source.toList) j + k]? = some op := by
  rw [← lineOperations_eq_loadAddressBody stands] at at_k
  exact statements_of_row h at_j at_k

theorem codes_loadAddress {j r : Nat} {row : List Char} {reg : Token}
    (at_j : (lines source.toList)[j]? = some row)
    (stands : lineOperation? row = some ⟨Operation.loadAddress, [reg, symbol]⟩)
    (register : reg.Register r) :
    Codes words (wordsBefore (lines source.toList) j) (.branch .equal 0 0 1) ∧
    (∃ w value, words[wordsBefore (lines source.toList) j + 1]? = some w ∧
      Denotes (lines source.toList) symbol value ∧ (w.toNat : Int) = value % 65536) ∧
    Codes words (wordsBefore (lines source.toList) j + 2) (.lea r (-2)) ∧
    Codes words (wordsBefore (lines source.toList) j + 3) (.lw r r 0) := by
  have skip : (statements source)[wordsBefore (lines source.toList) j]? =
      some ⟨(Opcode.branch .equal).mnemonic, [['r', '0'], ['r', '0'], ['1']]⟩ :=
    statements_of_loadAddress h at_j stands (k := 0) rfl
  have pool := statements_of_loadAddress h at_j stands (k := 1) rfl
  have point := statements_of_loadAddress h at_j stands (k := 2) rfl
  have load := statements_of_loadAddress h at_j stands (k := 3) rfl
  have zero : Token.Register ['r', '0'] 0 := .of_register? rfl
  have one : Token.Numeral ['1'] 1 := .of_number? rfl
  have back : Token.Numeral ['-', '2'] (-2) := .of_number? rfl
  have none : Token.Numeral ['0'] 0 := .of_number? rfl
  refine ⟨?_, word_of_symbol h pool, ?_, ?_⟩
  · obtain ⟨ra, rb, offset, codes, ha, hb, last⟩ := codes_branch h skip
    rwa [ha.unique zero, hb.unique zero, last.of_numeral one] at codes
  · obtain ⟨ra, offset, codes, ha, last⟩ := codes_lea h point
    rwa [ha.unique register, last.of_numeral back] at codes
  · obtain ⟨ra, rb, disp, codes, ha, hb, last⟩ := codes_lw h load
    rwa [ha.unique register, hb.unique register, last.of_numeral none] at codes

end Accepted

end Backstep.Asm
