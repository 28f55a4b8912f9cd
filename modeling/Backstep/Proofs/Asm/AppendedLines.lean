import Backstep.Proofs.Asm.InstructionLines
import Backstep.Proofs.Asm.References
import Backstep.Proofs.Asm.Refusals
import Backstep.Proofs.Asm.Retouching

namespace Backstep.Asm

open Isa Text

/-- The second text is the first one and the row, which starts a line, with a newline after it or
none. -/
inductive Appends (source row : List Char) : List Char → Prop
  | mk {gap ending : List Char} : gap = [] ∧ StartsLine source ∨ gap = ['\n'] →
      ending = [] ∨ ending = ['\n'] → Appends source row (source ++ gap ++ row ++ ending)

variable {source row text : List Char} {rows : List (List Char)} {layout final : Layout}
  {words : List Word} {op : Operation} {name : Token} {a : Nat} {w : Word}

theorem Appends.exists_rows (h : Appends source row text) (inside : '\n' ∉ row) :
    ∃ rows, Layout.ofSource source = Layout.ofRows rows ∧
      Layout.ofSource text = Layout.ofRows (rows ++ [row]) := by
  obtain @⟨gap, ending, apart, ended⟩ := h
  have plain : ∀ d ∈ row, (d == '\n') = false := ne_separator inside
  -- A newline at the end closes the last row and opens an empty one.
  have closed : Layout.ofSource (source ++ gap ++ row ++ ending) =
      Layout.ofSource (source ++ gap ++ row) := by
    obtain rfl | rfl := ended
    · rw [List.append_nil]
    · rw [Layout.ofSource_eq_ofRows_cut, cut_append_cons rfl, Layout.ofSource_eq_ofRows_cut]
      exact Layout.ofRows_concat_nil _
  rw [closed]
  obtain ⟨rfl, starts⟩ | rfl := apart
  · obtain ⟨front, -, pieces⟩ := starts.exists_cut
    have bare := pieces []
    rw [List.append_nil] at bare
    refine ⟨front, ?_, ?_⟩
    · rw [Layout.ofSource_eq_ofRows_cut, bare]
      exact Layout.ofRows_concat_nil _
    · rw [List.append_nil, Layout.ofSource_eq_ofRows_cut, pieces, cut_eq_singleton plain]
  · refine ⟨cut (· == '\n') source, Layout.ofSource_eq_ofRows_cut _, ?_⟩
    rw [Layout.ofSource_eq_ofRows_cut, List.append_assoc, List.singleton_append,
      cut_append_cons rfl, cut_eq_singleton plain]

theorem LineContent.read_of_operation {labels : Labels} (unlabelled : lineLabel? row = none)
    (stands : lineOperation? row = some op) (kept : op.isIgnored = false)
    (plain : op.mnemonic ≠ Operation.loadAddress) :
    LineContent.read labels (lineCode row) = .ok ⟨none, .operations [op]⟩ := by
  have body : LineBody.read (lineBody row) = .ok (.operations [op]) := by
    rw [lineOperation?] at stands
    rw [LineBody.read, stands]
    simp [kept, Operation.expand, plain, Except.map]
  rw [read, leadingLabel_lineCode, secondLabel?_of_lineLabel? unlabelled, unlabelled]
  simp [Labels.checkNew, body]

namespace Layout

theorem assemble_concat {r : Resolved} (h : layout.assemble = .ok words)
    (labels : final.labels = layout.labels) (operations : final.operations = layout.operations ++ [op])
    (resolved : op.resolve layout.labels words.length = .ok r) (encoded : r.encode = .ok w) :
    final.assemble = .ok (words ++ [w]) := by
  obtain ⟨length, each⟩ := assemble_eq_ok_iff.mp h
  refine assemble_eq_ok_iff.mpr ⟨by simp [operations, length], fun i op' at_i => ?_⟩
  rw [operations] at at_i
  rw [labels]
  obtain early | late := Nat.lt_or_ge i layout.operations.length
  · rw [List.getElem?_append_left early] at at_i
    rw [List.getElem?_append_left (length ▸ early)]
    exact each i op' at_i
  · obtain ⟨rfl, rfl⟩ : i = words.length ∧ op' = op := by
      rw [List.getElem?_append_right late, List.getElem?_singleton] at at_i
      split at at_i <;> cases at_i
      exact ⟨by omega, rfl⟩
    exact ⟨w, by simp, r, resolved, encoded⟩

end Layout

theorem assemble_of_appends {source text : String} (h : assemble source = .ok words)
    (plain : op.Plain) (kept : op.isIgnored = false) (single : op.mnemonic ≠ Operation.loadAddress)
    (appended : Appends source.toList op.written text.toList)
    (made : ∀ labels : Labels, (∀ name a, labels.lookup name = some a ↔
        LabelAt (lines source.toList) name a) →
      ∃ r, op.resolve labels words.length = .ok r ∧ r.encode = .ok w) :
    assemble text = .ok (words ++ [w]) := by
  obtain ⟨layout, laid, assembled⟩ := assemble_eq_ok h
  obtain ⟨r, resolved, encoded⟩ := made layout.labels fun name a => lookup_of_ofSource laid
  obtain ⟨rows, before, after⟩ := appended.exists_rows plain.line_written.2.1
  obtain ⟨unlabelled, stands⟩ := plain.lineOperation?_written
  rw [assemble, assembleChars, after, Layout.ofRows_concat, ← before, laid]
  dsimp only
  rw [LineContent.read_of_operation unlabelled stands kept single]
  dsimp only
  exact Layout.assemble_concat assembled Layout.labels_add Layout.operations_add resolved encoded

theorem Token.isPlain_of_isLabelName (h : name.isLabelName = true) :
    Operation.isPlain name = true := by
  cases name with
  | nil => cases h
  | cons c cs => exact Operation.isPlain_iff.mpr ⟨by simp, fun d mem =>
      .of_isNameRest (isNameRest_of_isLabelName h d mem)⟩

theorem address_eq_notANumber_iff {labels : Labels} (named : lineLabel? row = some name) :
    labels.address name = .error (.notANumber (String.ofList name)) ↔ ∃ r, name.Register r := by
  have label : LabelAt [row] name 0 := ⟨0, row, rfl, named, rfl⟩
  exact Labels.address_eq_notANumber_iff label.isLabelName

def jump (offset : Int) : Instruction := .branch .equal 0 0 offset

theorem jump_fits {offset : Int} (low : immMin ≤ offset) (high : offset ≤ immMax) :
    ∀ o ∈ (jump offset).operands, o.Fits := by
  have zero : (Operand.reg 0).Fits := (by decide : 0 < registerCount)
  have near : (Operand.imm offset).Fits := ⟨low, high⟩
  simp [jump, Instruction.operands, zero, near]

section Referring

variable {labels : Labels} {index : Nat} (symbol : name.Symbol) (there : LabelAt rows name a)
  (known : ∀ name a, labels.lookup name = some a ↔ LabelAt rows name a)
include symbol there known

theorem exists_resolve_word : ∃ r,
    (⟨Operation.wordDirective, [name]⟩ : Operation).resolve labels index = .ok r ∧
      r.encode = .ok (UInt16.ofNat a) := by
  refine ⟨.literal (UInt16.ofNat a), ?_, rfl⟩
  rw [resolve_directive, Labels.word_of_not_number symbol.not_number,
    Labels.address_of_label known symbol there]
  rfl

theorem exists_resolve_branch {offset : Int} (near : offset = a - index - 1)
    (low : immMin ≤ offset) (high : offset ≤ immMax) : ∃ r,
    (⟨"beq", [['r', '0'], ['r', '0'], name]⟩ : Operation).resolve labels index = .ok r ∧
      r.encode = .ok (jump offset).encode := by
  have target : labels.operand index name .pcRel = .ok (.imm offset) := by
    have value : labels.value index .pcRel name = .ok offset := by
      rw [near]
      exact (Value.relative rfl symbol there).value_eq_ok known
    have fits : fitImmediate offset = .ok offset := fitImmediate_eq_ok.mpr ⟨rfl, low, high⟩
    rw [operand_of_ne_reg (by decide), value, ok_bind, fits, ok_bind, pure_eq_ok]
  have named : (Opcode.branch .equal).mnemonic = "beq" := rfl
  have directive : "beq" ≠ Operation.wordDirective := ne_wordDirective (.branch .equal)
  refine ⟨.instruction "beq" [.reg 0, .reg 0, .imm offset], ?_, ?_⟩
  · rw [resolve_of_ne_pseudoOp directive (by simp),
      resolveInstruction_of_spread named (.written rfl)]
    refine bind_eq_ok.mpr ⟨[.reg 0, .reg 0, .imm offset], mapM_eq_ok.mpr ?_, rfl⟩
    exact .cons rfl (.cons rfl (.cons target .nil))
  · exact Instruction.encode_eq_encode (jump_fits low high) (List.cons_ne_nil _ _)

end Referring

theorem plain_word (plain : Operation.isPlain name = true) :
    Operation.Plain ⟨Operation.wordDirective, [name]⟩ where
  mnemonic := (by decide : Operation.isPlain ".word".toList = true)
  lower := (by decide : ".word".toList.map Char.toLower = ".word".toList)
  operands := List.forall_mem_singleton.mpr plain

theorem plain_branch (plain : Operation.isPlain name = true) :
    Operation.Plain ⟨"beq", [['r', '0'], ['r', '0'], name]⟩ where
  mnemonic := (by decide : Operation.isPlain "beq".toList = true)
  lower := (by decide : "beq".toList.map Char.toLower = "beq".toList)
  operands := by
    have zero : Operation.isPlain ['r', '0'] = true := by decide
    simp [zero, plain]

/-- The label of every line can be referred to from a line behind the text, as a word or, where it is
near enough, as the target of a branch. The names of registers are the only labels that cannot. -/
theorem labels_referable (source : String) :
    (∀ words, assemble source = .ok words → ∀ name a, LabelAt (lines source.toList) name a →
      (∀ r, ¬ name.Register r) →
        (a < 65536 → ∀ text : String, Appends source.toList (".word ".toList ++ name) text.toList →
          ∃ w, assemble text = .ok (words ++ [w]) ∧ w.toNat = a) ∧
        (immMin ≤ (a : Int) - words.length - 1 → (a : Int) - words.length - 1 ≤ immMax →
          ∀ text : String, Appends source.toList ("beq r0, r0, ".toList ++ name) text.toList →
            ∃ w, assemble text = .ok (words ++ [w]) ∧
              Instruction.decode? w = some (.branch .equal 0 0 (a - words.length - 1)))) ∧
    ∀ row ∈ lines source.toList, ∀ name, lineLabel? row = some name → ∀ labels : Labels,
      labels.address name = .error (.notANumber (String.ofList name)) ↔ ∃ r, name.Register r := by
  refine ⟨fun words h name a there plain => ?_, fun row _ name named labels =>
    address_eq_notANumber_iff named⟩
  have symbol : name.Symbol := ⟨there.isLabelName, plain⟩
  have whole := Token.isPlain_of_isLabelName there.isLabelName
  refine ⟨fun small text appended => ?_, fun low high text appended => ?_⟩
  · have written : (⟨Operation.wordDirective, [name]⟩ : Operation).written =
        ".word ".toList ++ name := by simp [Operation.written, Operation.wordDirective]
    refine ⟨UInt16.ofNat a, ?_, UInt16.toNat_ofNat_of_lt' small⟩
    refine assemble_of_appends h (plain_word whole) rfl
      (by decide : ".word" ≠ Operation.loadAddress) (written ▸ appended) fun labels known => ?_
    exact exists_resolve_word symbol there known
  · have written : (⟨"beq", [['r', '0'], ['r', '0'], name]⟩ : Operation).written =
        "beq r0, r0, ".toList ++ name := by simp [Operation.written]
    refine ⟨(jump (a - words.length - 1)).encode, ?_, ?_⟩
    · refine assemble_of_appends h (plain_branch whole) rfl
        (by decide : "beq" ≠ Operation.loadAddress) (written ▸ appended) fun labels known => ?_
      exact exists_resolve_branch symbol there known rfl low high
    · exact Instruction.decode?_encode (jump_fits low high)

theorem labels_referable_of_end :
    (∃ w, assemble "x: noop\nr8: halt\n.word r8\n" = .ok ([0, 0xE000] ++ [w]) ∧ w.toNat = 1) ∧
      (∃ w, assemble "x: noop\nr8: halt\nbeq r0, r0, r8" = .ok ([0, 0xE000] ++ [w]) ∧
        Instruction.decode? w = some (.branch .equal 0 0 (-2))) ∧
      ¬ Labels.address [(['x'], 0)] ['x'] = .error (.notANumber "x") := by
  have accepted : assemble "x: noop\nr8: halt\n" = .ok [0, 0xE000] := rfl
  have there : LabelAt (lines "x: noop\nr8: halt\n".toList) ['r', '8'] 1 :=
    ⟨1, "r8: halt".toList, rfl, rfl, rfl⟩
  have other (name : Token) (none : name.register? = none) : ∀ r, ¬ name.Register r :=
    Token.register?_eq_none.mp none
  obtain ⟨refer, refused⟩ := labels_referable "x: noop\nr8: halt\n"
  obtain ⟨word, branch⟩ := refer _ accepted _ 1 there (other _ (by decide))
  refine ⟨word (by decide) _ (.mk (.inl ⟨rfl, .inr rfl⟩) (.inr rfl)), ?_, ?_⟩
  · exact branch (by decide) (by decide) _ (.mk (.inl ⟨rfl, .inr rfl⟩) (.inl rfl))
  · have named : lineLabel? "x: noop".toList = some ['x'] := rfl
    intro none
    obtain ⟨r, register⟩ := (refused _ (by decide) ['x'] named [(['x'], 0)]).mp none
    exact other _ (by decide) r register

/-- A label may be called like a register, and then neither a word nor a branch can refer to it. -/
theorem register_label_refused :
    assemble "r1: noop" = .ok [0] ∧ LabelAt (lines "r1: noop".toList) ['r', '1'] 0 ∧
      assemble "r1: noop\n.word r1" = .error ⟨2, .notANumber "r1"⟩ ∧
      assemble "r1: noop\nbeq r0, r0, r1" = .error ⟨2, .notANumber "r1"⟩ :=
  ⟨rfl, ⟨0, "r1: noop".toList, rfl, rfl, rfl⟩, rfl, rfl⟩

end Backstep.Asm
