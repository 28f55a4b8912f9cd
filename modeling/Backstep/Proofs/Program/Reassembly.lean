import Backstep.Machine.Disassembly
import Backstep.Proofs.Asm.InstructionLines
import Backstep.Proofs.Asm.References
import Backstep.Proofs.Asm.Refusals
import Backstep.Proofs.Isa.EncodingLaws
import Backstep.Proofs.Machine.InstructionTable

namespace Backstep.Machine

open Isa Text Asm

variable {w : Word} {words : List Word} {labels : Labels} {index : Nat}

def wordOperation (w : Word) : Operation :=
  if w = 0 then ⟨"noop", []⟩
  else match Instruction.decode? w with
    | some i => i.toOperation
    | none => dataOperation w

def cleared (w : Word) : Word :=
  match Instruction.decode? w with
  | some i => w &&& ~~~i.opcode.unusedBits
  | none => w

theorem pseudoName?_of_ne (noop : w ≠ 0) (halt : w ≠ 0xE000) : pseudoName? w = none := by
  simp [pseudoName?, pseudoOps, Ne.symm noop, Ne.symm halt]

theorem wordText_eq_written (w : Word) : (wordText w).toList = (wordOperation w).written := by
  by_cases noop : w = 0
  · subst noop
    rfl
  by_cases halt : w = 0xE000
  · subst halt
    rfl
  rw [wordText, pseudoName?_of_ne noop halt, wordOperation, if_neg noop]
  dsimp only
  cases Instruction.decode? w with
  | some i => exact i.text_eq_written
  | none => exact (written_dataOperation w).symm

theorem plain_wordOperation (w : Word) : (wordOperation w).Plain := by
  rw [wordOperation]
  split
  case isTrue => exact ⟨by decide, by decide, by simp⟩
  case isFalse =>
    cases decoded : Instruction.decode? w with
    | some i => exact Instruction.plain_toOperation (Instruction.fits_of_decode? decoded)
    | none => exact plain_dataOperation w

theorem resolve_wordOperation (w : Word) :
    ∃ r, (wordOperation w).resolve labels index = .ok r ∧ r.encode = .ok (cleared w) := by
  by_cases noop : w = 0
  · subst noop
    exact ⟨.literal 0, rfl, rfl⟩
  rw [wordOperation, if_neg noop, cleared]
  cases decoded : Instruction.decode? w with
  | some i =>
    dsimp only
    rw [← Instruction.encode_of_decode? decoded]
    exact Instruction.resolve_toOperation (Instruction.fits_of_decode? decoded)
  | none => exact ⟨.literal w, resolve_dataOperation w, rfl⟩

theorem emits_wordOperation (w : Word) :
    (wordOperation w).isIgnored = false ∧ (wordOperation w).mnemonic ≠ Operation.loadAddress := by
  rw [wordOperation]
  split
  case isTrue => decide
  case isFalse =>
    cases Instruction.decode? w with
    | some i =>
      have none : ∀ m ∈ Operation.loadAddress :: Operation.ignoredDirectives,
          Opcode.ofMnemonic? m = none := by decide
      have known {m : String} (mem : m ∈ Operation.loadAddress :: Operation.ignoredDirectives) :
          i.opcode.mnemonic ≠ m := Opcode.ofMnemonic?_eq_none.mp (none m mem) i.opcode
      refine ⟨?_, known List.mem_cons_self⟩
      rw [Operation.isIgnored, List.contains_eq_mem, decide_eq_false_iff_not]
      intro mem
      exact known (List.mem_cons_of_mem _ mem) rfl
    | none => exact ⟨rfl, (by decide : Operation.wordDirective ≠ Operation.loadAddress)⟩

theorem wordOperation_eq_directive :
    (wordOperation w).mnemonic = Operation.wordDirective ↔ Instruction.decode? w = none := by
  by_cases noop : w = 0
  · subst noop
    simp [wordOperation, Operation.wordDirective, Instruction.decode?, Opcode.ofCode?]
  rw [wordOperation, if_neg noop]
  cases Instruction.decode? w with
  | some i =>
    simp only [reduceCtorEq, iff_false]
    exact ne_wordDirective i.opcode
  | none => simp [dataOperation]

theorem lineOperations_wordText (w : Word) :
    lineOperations (wordText w).toList = [wordOperation w] := by
  obtain ⟨emits, other⟩ := emits_wordOperation w
  have stands := (plain_wordOperation w).lineOperation?_written.2
  rw [← wordText_eq_written] at stands
  rw [lineOperations, stands]
  simp [emits, other]

def sourceOf (words : List Word) : String := "\n".intercalate (words.map wordText)

theorem lines_sourceOf (words : List Word) :
    lines (sourceOf words).toList = words.map (fun w => (wordText w).toList) := by
  have rows : (sourceOf words).toList =
      ['\n'].intercalate (words.map fun w => (wordText w).toList) := by
    simp [sourceOf, String.toList_intercalate, Function.comp_def]
  rw [rows, lines_intercalate]
  intro row mem
  obtain ⟨w, -, rfl⟩ := List.mem_map.mp mem
  rw [wordText_eq_written]
  exact (plain_wordOperation w).line_written

theorem laidOut_sourceOf (words : List Word) : LaidOut (lines (sourceOf words).toList) := by
  have stands (row : List Char) (mem : row ∈ lines (sourceOf words).toList) :
      lineLabel? row = none ∧ ∃ w, lineOperation? row = some (wordOperation w) := by
    rw [lines_sourceOf] at mem
    obtain ⟨w, -, rfl⟩ := List.mem_map.mp mem
    rw [wordText_eq_written]
    exact ⟨(plain_wordOperation w).lineOperation?_written.1, w,
      (plain_wordOperation w).lineOperation?_written.2⟩
  refine ⟨?_, ?_, ?_⟩
  · intro row mem
    exact secondLabel?_of_lineLabel? (stands row mem).1
  · have none : definedLabels (lines (sourceOf words).toList) = [] := by
      rw [definedLabels, List.filterMap_eq_nil_iff]
      exact fun row mem => (stands row mem).1
    rw [none]
    exact .nil
  · intro row mem operands loads
    obtain ⟨-, w, stands⟩ := stands row mem
    rw [stands, Option.some.injEq] at loads
    exact absurd (congrArg Operation.mnemonic loads) (emits_wordOperation w).2

theorem statements_sourceOf (words : List Word) :
    statements (sourceOf words) = words.map wordOperation := by
  rw [statements, lines_sourceOf]
  simp [List.flatMap_map, lineOperations_wordText, ← List.map_eq_flatMap]

theorem assemble_sourceOf (words : List Word) :
    assemble (sourceOf words) = .ok (words.map cleared) := by
  obtain ⟨layout, laid⟩ := exists_ofRows_iff.mpr (laidOut_sourceOf words)
  have laid : Layout.ofSource (sourceOf words).toList = (layout, none) := laid
  rw [assemble, assembleChars, laid]
  apply Layout.assemble_of_forall₂
  rw [operations_of_ofSource laid, statements_sourceOf, List.forall₂_map_left_iff,
    List.forall₂_map_right_iff, List.forall₂_same]
  exact fun w _ i => resolve_wordOperation w

theorem decode?_cleared (w : Word) : Instruction.decode? (cleared w) = Instruction.decode? w := by
  rw [cleared]
  cases decoded : Instruction.decode? w with
  | some i =>
    dsimp only
    rw [← Instruction.encode_of_decode? decoded,
      Instruction.decode?_encode (Instruction.fits_of_decode? decoded)]
  | none => exact decoded

/-- The second word is the first one but for bits that its format does not use, which are zero. -/
structure Rewrites (w w' : Word) : Prop where
  decode : Instruction.decode? w' = Instruction.decode? w
  data : Instruction.decode? w = none → w' = w
  used : ∀ i, Instruction.decode? w = some i → w' = w &&& ~~~i.opcode.unusedBits
  same : ∀ i, Instruction.decode? w = some i → w &&& i.opcode.unusedBits = 0 → w' = w

theorem rewrites_cleared (w : Word) : Rewrites w (cleared w) where
  decode := decode?_cleared w
  data := by
    intro none
    rw [cleared, none]
  used := by
    intro i some
    rw [cleared, some]
  same := by
    intro i some unused
    have none : w.toNat &&& i.opcode.unusedBits.toNat = 0 := by
      rw [← UInt16.toNat_and, unused]
      rfl
    rw [cleared, some]
    apply UInt16.toNat_inj.mp
    rw [toNat_and_not, none, Nat.sub_zero]

namespace Processor

variable {config : Config} {calls : List Call} {cpu : Processor}

def IsWordDirective (text : String) : Prop :=
  ∃ op, lineOperation? text.toList = some op ∧ op.mnemonic = Operation.wordDirective

theorem isWordDirective_wordText :
    IsWordDirective (wordText w) ↔ Instruction.decode? w = none := by
  rw [IsWordDirective, wordText_eq_written, (plain_wordOperation w).lineOperation?_written.2]
  simp [wordOperation_eq_directive]

theorem step_eq_error_iff {fault : Fault} (live : cpu.status ≠ .halted) :
    cpu.step.1 = .error fault ↔ cpu.state.Refuses fault := by
  rw [← State.advance_eq_error]
  cases advance : cpu.state.advance with
  | error cause => simp [step_error live advance]
  | ok result => simp [step_ok live advance]

theorem step_eq_invalidInstruction (live : cpu.status ≠ .halted)
    (stands : cpu.state.memory.words[cpu.pc]? = some w) :
    cpu.step.1 = .error (.invalidInstruction w cpu.pc) ↔ Instruction.decode? w = none := by
  rw [step_eq_error_iff live]
  constructor
  · intro refuses
    cases refuses with
    | decode _ none => exact none
  · exact .decode stands

theorem disassemble_of_getElem? {address : Nat} (small : address < maxMemoryWords)
    (stands : cpu.state.memory.words[address]? = some w) :
    cpu.disassemble address = .ok ⟨address, w, wordText w⟩ := by
  have same : Int.bmod address 0x10000000000000000 = address := by
    rw [maxMemoryWords] at small
    rw [Int.bmod]
    omega
  have read : cpu.state.memory.read (Int.bmod address 0x10000000000000000) = .ok w := by
    rw [same]
    simp [Memory.read, stands]
  rw [disassemble, read, ok_bind, pure_eq_ok]

def listingOf (words : List Word) : List Disassembly :=
  words.zipIdx.map fun (w, i) => ⟨i, w, wordText w⟩

theorem mapM_disassemble (small : words.length ≤ maxMemoryWords)
    (stored : words <+: cpu.state.memory.words.toList) :
    (List.range words.length).mapM cpu.disassemble = .ok (listingOf words) := by
  rw [mapM_eq_ok, List.forall₂_iff_get]
  refine ⟨by simp [listingOf], fun i hi hl => ?_⟩
  have inside : i < words.length := by simpa using hi
  have stands : cpu.state.memory.words[i]? = some words[i] := by
    rw [← Array.getElem?_toList]
    exact List.prefix_iff_getElem?.mp stored i inside
  have listed := disassemble_of_getElem? (Nat.lt_of_lt_of_le inside small) stands
  simpa [listingOf] using listed

theorem text_listingOf (words : List Word) :
    (listingOf words).map (·.text) = words.map wordText := by
  have texts : Disassembly.text ∘ (fun (w, i) => ⟨i, w, wordText w⟩) = wordText ∘ Prod.fst := by
    funext ⟨w, i⟩
    rfl
  rw [listingOf, List.map_map, texts, ← List.map_map, List.zipIdx_map_fst]

theorem getElem?_listingOf {i : Nat} (at_i : words[i]? = some w) :
    (listingOf words)[i]? = some ⟨i, w, wordText w⟩ := by
  simp [listingOf, at_i]

/-- Whatever a processor was used for before, a program that fits is loaded, and what memory starts
with then is listed as a text that is accepted and gives each word again, but for unused bits that
are cleared. A word is listed as data just if no processor can execute it where it stands. -/
theorem Reached.reassembles (h : Reached config calls cpu) (fits : words.length ≤ config.capacity) :
    ∃ after, cpu.load words = (.ok (), after) ∧
      after.state.memory.words.toList =
        words ++ List.replicate (config.capacity - words.length) 0 ∧
      ∀ listed, listed <+: after.state.memory.words.toList → ∃ listing again,
        (List.range listed.length).mapM after.disassemble = .ok listing ∧
        assemble ("\n".intercalate (listing.map (·.text))) = .ok again ∧
        again.length = listed.length ∧ List.Forall₂ Rewrites listed again ∧
        ∀ i w d, listed[i]? = some w → listing[i]? = some d →
          ∀ p : Processor, p.status ≠ .halted → p.pc = i → p.state.memory.words[i]? = some w →
            (IsWordDirective d.text ↔ p.step.1 = .error (.invalidInstruction w i)) := by
  have capacity : cpu.capacity = config.capacity := h.wellFormed.initial.memory
  have filled : (Memory.zero cpu.capacity).load words =
      .ok ⟨(words ++ List.replicate (config.capacity - words.length) 0).toArray⟩ := by
    rw [Memory.load, Memory.capacity_zero, capacity, if_pos fits]
  refine ⟨_, by rw [load, filled], rfl, fun listed stored => ?_⟩
  have small : listed.length ≤ maxMemoryWords := by
    have length := stored.length_le
    simp only [List.length_append, List.length_replicate] at length
    rw [Config.capacity] at fits length
    omega
  refine ⟨listingOf listed, listed.map cleared, mapM_disassemble small stored, ?_, by simp, ?_, ?_⟩
  · rw [text_listingOf]
    exact assemble_sourceOf listed
  · rw [List.forall₂_map_right_iff, List.forall₂_same]
    exact fun w _ => rewrites_cleared w
  · rintro i w d at_i listed_i p live rfl stands
    rw [getElem?_listingOf at_i, Option.some.injEq] at listed_i
    rw [← listed_i, isWordDirective_wordText, step_eq_invalidInstruction live stands]

theorem Reached.reassembles_of_data : ∃ after listing again,
    (Processor.new ⟨4, none⟩).load [0x527F, 0xD00D] = (.ok (), after) ∧
    (List.range 2).mapM after.disassemble = .ok listing ∧
    listing.map (·.text) = ["addi r1, r1, -1", ".word 0xD00D"] ∧
    assemble ("\n".intercalate (listing.map (·.text))) = .ok again ∧ again = [0x525F, 0xD00D] ∧
    List.Forall₂ Rewrites [0x527F, 0xD00D] again ∧
    (IsWordDirective ".word 0xD00D" ↔
      ({ after with state := { after.state with pc := 1 } } : Processor).step.1 =
        .error (.invalidInstruction 0xD00D 1)) := by
  have fits : ([0x527F, 0xD00D] : List Word).length ≤ Config.capacity ⟨4, none⟩ := by decide
  have fresh : Reached ⟨4, none⟩ [] (.new ⟨4, none⟩) := .new
  obtain ⟨after, loaded, stored, relisted⟩ := fresh.reassembles fits
  obtain ⟨listing, again, listed, assembled, -, rewrites, directive⟩ :=
    relisted [0x527F, 0xD00D] (stored ▸ List.prefix_append ..)
  obtain rfl : ((Processor.new ⟨4, none⟩).load [0x527F, 0xD00D]).2 = after := by rw [loaded]
  obtain rfl : listingOf [0x527F, 0xD00D] = listing := Except.ok.inj (Eq.trans rfl listed)
  obtain rfl : [0x525F, 0xD00D] = again := Except.ok.inj (Eq.trans rfl assembled)
  exact ⟨_, _, _, loaded, listed, rfl, assembled, rfl, rewrites,
    directive 1 0xD00D _ rfl rfl _ (by decide) rfl rfl⟩

end Processor

end Backstep.Machine
