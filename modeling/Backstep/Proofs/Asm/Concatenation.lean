import Backstep.Proofs.Asm.CodeLines
import Backstep.Proofs.Asm.Refusals
import Backstep.Proofs.Asm.Relocation

namespace Backstep.Asm

open Isa Text

namespace Layout

variable {rows : List (List Char)} {layout final base : Layout} {name : Token} {a : Nat}

theorem Lays.lookup_eq_none (lays : Lays layout rows final) (there : LabelAt rows name a) :
    layout.labels.lookup name = none := by
  induction lays generalizing a with
  | nil => exact absurd there labelAt_nil
  | cons read _ ih =>
    obtain ⟨label, new, -, -⟩ := LineContent.read_eq_ok read
    obtain ⟨named, -⟩ | ⟨later, there, -⟩ := labelAt_cons.mp there
    · exact new name (label.trans named)
    · have none := ih there
      rw [Option.eq_none_iff_forall_ne_some] at none ⊢
      intro b known
      exact none b ((lookup_add new).mpr (.inl known))

theorem LineContent.read_of_new {labels labels' : Labels} {code : List Char} {content : LineContent}
    (read : LineContent.read labels code = .ok content)
    (new : ∀ name, content.label = some name → labels'.lookup name = none) :
    LineContent.read labels' code = .ok content := by
  obtain ⟨⟨label, rest⟩, leading, read⟩ := bind_eq_ok.mp read
  obtain ⟨⟨⟩, -, read⟩ := bind_eq_ok.mp read
  obtain ⟨body, hbody, read⟩ := bind_eq_ok.mp read
  cases read
  refine bind_eq_ok.mpr ⟨_, leading, bind_eq_ok.mpr ⟨(), Labels.checkNew_eq_ok.mpr new, ?_⟩⟩
  exact bind_eq_ok.mpr ⟨body, hbody, rfl⟩

theorem Lays.exists_addLines (lays : Lays layout rows final) (start : Nat)
    (free : ∀ name a, LabelAt rows name a → base.labels.lookup name = none) :
    ∃ whole, base.addLines ((rows.zipIdx start).filterMap codeLine?) = (whole, none) := by
  induction lays generalizing base start with
  | nil => exact ⟨base, rfl⟩
  | @cons layout final row rows line content read rest ih =>
    obtain ⟨label, new, -, -⟩ := LineContent.read_eq_ok read
    have fresh : ∀ name, content.label = some name → base.labels.lookup name = none :=
      fun name named => free name 0 (labelAt_cons.mpr (.inl ⟨label ▸ named, rfl⟩))
    rw [List.zipIdx_cons, addLines_codeLine, LineContent.read_of_new read fresh]
    refine ih (start + 1) fun name a there => ?_
    have other : content.label ≠ some name := by
      intro named
      have known : (layout.add line content).labels.lookup name = some layout.statements.size :=
        (lookup_add new).mpr (.inr ⟨named, rfl⟩)
      simp [rest.lookup_eq_none there] at known
    have none := free name _ (labelAt_cons.mpr (.inr ⟨a, there, rfl⟩))
    rw [Option.eq_none_iff_forall_ne_some] at none ⊢
    intro b known
    obtain known | ⟨named, -⟩ := (lookup_add fresh).mp known
    · exact none b known
    · exact other named

theorem exists_ofSource_append {first second : List Char} {before after : Layout}
    (h₁ : ofSource first = (before, none)) (h₂ : ofSource second = (after, none))
    (apart : ∀ name a b, LabelAt (lines first) name a → ¬ LabelAt (lines second) name b) :
    ∃ whole, ofSource (first ++ '\n' :: second) = (whole, none) ∧
      whole.operations = before.operations ++ after.operations ∧
      Moves 0 before whole ∧ Moves before.operations.length after whole := by
  have free : ∀ name b, LabelAt (lines second) name b → before.labels.lookup name = none := by
    intro name b there
    rw [Option.eq_none_iff_forall_ne_some]
    intro a known
    exact apart name a b ((lookup_of_ofRows h₁ name a).mp known) there
  obtain ⟨start, codes⟩ := codeLines_append first second
  have lays := lays_of_ofSource h₂
  obtain ⟨whole, laid⟩ := lays.exists_addLines start free
  have joined := lays_of_addLines laid
  have operations : whole.operations = before.operations ++ after.operations := by
    rw [joined.operations, lays.operations]
    rfl
  refine ⟨whole, ?_, operations, ⟨?_, ?_⟩, ⟨?_, ?_⟩⟩
  · rw [ofSource] at h₁
    rw [ofSource, codes, addLines_append, h₁]
    exact laid
  · intro i op at_i
    rw [operations, Nat.add_zero, List.getElem?_append_left (List.getElem?_eq_some_iff.mp at_i).1,
      at_i]
  · intro name a known
    exact joined.lookup.mpr (.inl known)
  · intro i op at_i
    rw [operations, List.getElem?_append_right (Nat.le_add_left _ i), Nat.add_sub_cancel, at_i]
  · intro name a known
    rw [length_operations, Nat.add_comm]
    exact joined.lookup.mpr (.inr ⟨a, (lookup_of_ofRows h₂ name a).mp known, rfl⟩)

theorem exists_assemble_append {before after whole : Layout} {w₁ w₂ : List Word}
    {rows₁ rows₂ : List (List Char)}
    (operations : whole.operations = before.operations ++ after.operations)
    (moves₁ : Moves 0 before whole) (moves₂ : Moves before.operations.length after whole)
    (known₁ : ∀ name a, before.labels.lookup name = some a ↔ LabelAt rows₁ name a)
    (known₂ : ∀ name a, after.labels.lookup name = some a ↔ LabelAt rows₂ name a)
    (assembled₁ : before.assemble = .ok w₁) (assembled₂ : after.assemble = .ok w₂)
    (plain : ∀ op ∈ after.operations, op.Relocatable rows₂) :
    ∃ rest, whole.assemble = .ok (w₁ ++ rest) ∧ rest.length = w₂.length := by
  have length₁ := length_assemble assembled₁
  have length₂ := length_assemble assembled₂
  obtain ⟨words, assembled⟩ : ∃ words, whole.assemble = .ok words := by
    refine exists_assemble_of_resolve fun i op at_i => ?_
    rw [operations] at at_i
    obtain early | late := Nat.lt_or_ge i before.operations.length
    · rw [List.getElem?_append_left early] at at_i
      exact moves₁.exists_resolve known₁ assembled₁ at_i (.inl rfl)
    · rw [List.getElem?_append_right late] at at_i
      have plain := plain op (List.mem_of_getElem? at_i)
      have resolves := moves₂.exists_resolve known₂ assembled₂ at_i (.inr plain)
      rwa [Nat.sub_add_cancel late] at resolves
  have length := length_assemble assembled
  rw [operations, List.length_append, ← length₁, ← length₂] at length
  have front : words.take w₁.length = w₁ := by
    refine List.ext_getElem? fun i => ?_
    obtain inside | outside := Nat.lt_or_ge i w₁.length
    · rw [List.getElem?_take_of_lt inside,
        moves₁.getElem?_of_unmoved known₁ assembled₁ assembled inside]
    · rw [List.getElem?_eq_none outside, List.getElem?_eq_none (by simp [outside])]
  have split : w₁ ++ words.drop w₁.length = words :=
    calc
      w₁ ++ words.drop w₁.length = words.take w₁.length ++ words.drop w₁.length := by rw [front]
      _ = words := List.take_append_drop _ _
  refine ⟨words.drop w₁.length, by rw [split, assembled], ?_⟩
  rw [List.length_drop, length, Nat.add_sub_cancel_left]

end Layout

variable {rows : List (List Char)} {index : Nat} {op : Operation}

/-- The word at an index is that of `.word`, or the one that `la` reads, and its symbol is a label. -/
def EmbedsAt (rows : List (List Char)) (index : Nat) : Prop :=
  ∃ j row symbol a, rows[j]? = some row ∧ LabelAt rows symbol a ∧
    (lineOperation? row = some ⟨Operation.wordDirective, [symbol]⟩ ∧ index = wordsBefore rows j ∨
      ∃ reg, lineOperation? row = some ⟨Operation.loadAddress, [reg, symbol]⟩ ∧
        index = wordsBefore rows j + 1)

theorem exists_row_of_operation
    (widths : ∀ row ∈ rows, (lineOperations row).length = lineWidth row)
    (at_index : (rows.flatMap lineOperations)[index]? = some op) :
    ∃ j row k, rows[j]? = some row ∧ (lineOperations row)[k]? = some op ∧
      index = wordsBefore rows j + k := by
  induction rows generalizing index with
  | nil => cases at_index
  | cons first rest ih =>
    rw [List.forall_mem_cons] at widths
    rw [List.flatMap_cons] at at_index
    obtain early | late := Nat.lt_or_ge index (lineOperations first).length
    · rw [List.getElem?_append_left early] at at_index
      exact ⟨0, first, index, rfl, at_index, by simp⟩
    · rw [List.getElem?_append_right late] at at_index
      obtain ⟨j, row, k, at_j, at_k, eq⟩ := ih widths.2 at_index
      refine ⟨j + 1, row, k, at_j, at_k, ?_⟩
      rw [wordsBefore_cons_succ, ← widths.1]
      omega

theorem getElem?_lineOperations_eq_word {k : Nat} {symbol : Token}
    (h : (lineOperations row)[k]? = some ⟨Operation.wordDirective, [symbol]⟩) :
    lineOperation? row = some ⟨Operation.wordDirective, [symbol]⟩ ∧ k = 0 ∨
      ∃ reg, lineOperation? row = some ⟨Operation.loadAddress, [reg, symbol]⟩ ∧ k = 1 := by
  rw [lineOperations] at h
  split at h
  case h_1 => cases h
  case h_2 op stands =>
    split at h
    case isTrue => cases h
    case isFalse =>
      split at h
      case isFalse =>
        obtain ⟨rfl, rfl⟩ : k = 0 ∧ op = ⟨Operation.wordDirective, [symbol]⟩ := by
          simpa [List.getElem?_singleton, eq_comm] using h
        exact .inl ⟨stands, rfl⟩
      case isTrue load =>
        split at h
        case h_2 => cases h
        case h_1 reg symbol' two =>
          -- Only the second word of `la` is one of `.word`.
          obtain _ | _ | _ | _ | k := k
          case succ.zero =>
            cases h
            exact .inr ⟨reg, by rw [stands, ← load, ← two], rfl⟩
          case succ.succ.succ.succ => cases h
          all_goals simp [Operation.loadAddressBody, Operation.wordDirective] at h

theorem embeds_iff (widths : ∀ row ∈ rows, (lineOperations row).length = lineWidth row)
    (at_index : (rows.flatMap lineOperations)[index]? = some op) :
    op.Embeds rows ↔ EmbedsAt rows index := by
  constructor
  · rintro ⟨symbol, a, rfl, there⟩
    obtain ⟨j, row, k, at_j, at_k, rfl⟩ := exists_row_of_operation widths at_index
    refine ⟨j, row, symbol, a, at_j, there, ?_⟩
    obtain ⟨stands, rfl⟩ | ⟨reg, stands, rfl⟩ := getElem?_lineOperations_eq_word at_k
    · exact .inl ⟨stands, rfl⟩
    · exact .inr ⟨reg, stands, rfl⟩
  · rintro ⟨j, row, symbol, a, at_j, there, ⟨stands, rfl⟩ | ⟨reg, stands, rfl⟩⟩
    · have word := lineOperations_eq_word stands
      have found := getElem?_flatMap_lineOperations (k := 0) widths at_j (by simp [word])
      rw [Nat.add_zero, at_index, word] at found
      exact ⟨symbol, a, Option.some.inj found, there⟩
    · have body := lineOperations_eq_loadAddressBody stands
      have found := getElem?_flatMap_lineOperations (k := 1) widths at_j
        (by simp [body, Operation.loadAddressBody])
      rw [at_index, body] at found
      exact ⟨symbol, a, Option.some.inj found, there⟩

/-- Assembly is compositional: two texts that share no label assemble one after the other to the
words of the first and those of the second. Of these, the ones that embed a label are larger by the
number of the words before them, and the others are as they were. -/
theorem assemble_append {first second : String} {w₁ w₂ : List Word}
    (h₁ : assemble first = .ok w₁) (h₂ : assemble second = .ok w₂)
    (apart : ∀ name a b, LabelAt (lines first.toList) name a →
      ¬ LabelAt (lines second.toList) name b)
    (plain : ∀ op ∈ statements second, op.Relocatable (lines second.toList)) :
    ∃ after, assemble (first ++ "\n" ++ second) = .ok (w₁ ++ after) ∧ after.length = w₂.length ∧
      ∀ i w, w₂[i]? = some w →
        (EmbedsAt (lines second.toList) i → after[i]? = some (w + UInt16.ofNat w₁.length)) ∧
        (¬ EmbedsAt (lines second.toList) i → after[i]? = some w) := by
  obtain ⟨l₁, laid₁, assembled₁⟩ := assemble_eq_ok h₁
  obtain ⟨l₂, laid₂, assembled₂⟩ := assemble_eq_ok h₂
  obtain ⟨whole, laid, operations, moves₁, moves₂⟩ :=
    Layout.exists_ofSource_append laid₁ laid₂ apart
  have length₁ := Layout.length_assemble assembled₁
  have length₂ := Layout.length_assemble assembled₂
  have known₁ := Layout.lookup_of_ofRows laid₁
  have known₂ := Layout.lookup_of_ofRows laid₂
  have operations₂ := operations_of_ofSource laid₂
  obtain ⟨after, assembled, length⟩ := Layout.exists_assemble_append operations moves₁ moves₂
    known₁ known₂ assembled₁ assembled₂ (by rwa [operations₂])
  refine ⟨after, ?_, length, fun i w at_i => ?_⟩
  · have chars : (first ++ "\n" ++ second).toList = first.toList ++ '\n' :: second.toList := by simp
    rw [assemble, assembleChars, chars, laid]
    exact assembled
  · have inside : i < l₂.operations.length := length₂ ▸ (List.getElem?_eq_some_iff.mp at_i).1
    obtain ⟨op, at_i'⟩ : ∃ op, l₂.operations[i]? = some op := ⟨_, List.getElem?_eq_getElem inside⟩
    have plain := plain op (operations₂ ▸ List.mem_of_getElem? at_i')
    obtain ⟨w', written, word⟩ :=
      moves₂.getElem?_assemble known₂ assembled₂ at_i' (.inr plain) assembled
    obtain rfl : w = w' := Option.some.inj (at_i.symm.trans written)
    rw [operations₂] at at_i'
    rw [embeds_iff (Layout.lays_of_ofSource laid₂).widths at_i', ← length₁,
      List.getElem?_append_right (Nat.le_add_left _ i), Nat.add_sub_cancel] at word
    obtain ⟨embeds, word⟩ | ⟨other, word⟩ := word
    · exact ⟨fun _ => word, fun other => absurd embeds other⟩
    · exact ⟨fun embeds => absurd embeds other, fun _ => word⟩

theorem assemble_append_of_seam : ∃ after,
    assemble "la r2, end\nend: # last" = .ok [0x8001, 4, 0xC41E, 0x6480] ∧
    assemble "lea r1, x\n.word x\nla r1, x\nlw r3, 1(r1)\nx: .word 5" =
      .ok [0xC206, 7, 0x8001, 7, 0xC21E, 0x6240, 0x6641, 5] ∧
    assemble ("la r2, end\nend: # last" ++ "\n" ++
        "lea r1, x\n.word x\nla r1, x\nlw r3, 1(r1)\nx: .word 5") =
      .ok ([0x8001, 4, 0xC41E, 0x6480] ++ after) ∧
    after[0]? = some 0xC206 ∧ after[1]? = some 11 ∧ after[3]? = some 11 := by
  have first : assemble "la r2, end\nend: # last" = .ok [0x8001, 4, 0xC41E, 0x6480] := rfl
  have second : assemble "lea r1, x\n.word x\nla r1, x\nlw r3, 1(r1)\nx: .word 5" =
      .ok [0xC206, 7, 0x8001, 7, 0xC21E, 0x6240, 0x6641, 5] := rfl
  have apart : ∀ name a b, LabelAt (lines "la r2, end\nend: # last".toList) name a →
      ¬ LabelAt (lines "lea r1, x\n.word x\nla r1, x\nlw r3, 1(r1)\nx: .word 5".toList) name b := by
    intro name a b there there'
    have end_label := mem_definedLabels.mpr ⟨a, there⟩
    have x_label := mem_definedLabels.mpr ⟨b, there'⟩
    obtain rfl : name = "end".toList := List.mem_singleton.mp end_label
    cases List.mem_singleton.mp x_label
  have plain : ∀ op ∈ statements "lea r1, x\n.word x\nla r1, x\nlw r3, 1(r1)\nx: .word 5",
      op.isRelocatable = true := by decide
  obtain ⟨after, whole, length, words⟩ := assemble_append first second apart
    fun op mem => Operation.relocatable_of_isRelocatable (plain op mem)
  have there : LabelAt (lines "lea r1, x\n.word x\nla r1, x\nlw r3, 1(r1)\nx: .word 5".toList)
      "x".toList 7 := ⟨4, _, rfl, rfl, rfl⟩
  have data := (words 1 7 rfl).1 ⟨1, _, _, _, rfl, there, .inl ⟨rfl, rfl⟩⟩
  have pool := (words 3 7 rfl).1 ⟨2, _, _, _, rfl, there, .inr ⟨_, rfl, rfl⟩⟩
  refine ⟨after, first, second, whole, (words 0 _ rfl).2 ?_, data, pool⟩
  obtain ⟨-, -, -, widths, -⟩ := layout_of_assemble second
  have at_lea : ((lines "lea r1, x\n.word x\nla r1, x\nlw r3, 1(r1)\nx: .word 5".toList).flatMap
      lineOperations)[0]? = some ⟨"lea", ["r1".toList, "x".toList]⟩ := rfl
  rw [← embeds_iff widths at_lea]
  rintro ⟨symbol, a, eq, -⟩
  simp [Operation.wordDirective] at eq

end Backstep.Asm
