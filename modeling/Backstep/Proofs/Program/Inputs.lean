import Backstep.Proofs.Asm.HeadedLines
import Backstep.Proofs.Asm.References
import Backstep.Proofs.Program.Atomicity

namespace Backstep

open Text Isa

namespace Asm

def isLowerWord (name : String) : Bool :=
  name.length == 4 && name.toList.all fun c => (digit? 16 c).isSome

variable {op : Operation} {row : List Char}

theorem isLowerWord_wordHex (w : Word) :
    isLowerWord (String.ofList ((wordHex w).toList.map Char.toLower)) = true := by
  have each : ∀ d : Fin 16, (digit? 16 (upperDigit d).toLower).isSome = true := by decide
  have digit {d : Nat} (h : d < 16) : (digit? 16 (upperDigit d).toLower).isSome = true := each ⟨d, h⟩
  have small := w.toNat_lt
  have later (n : Nat) : (digit? 16 (upperDigit (n % 16)).toLower).isSome = true :=
    digit (Nat.mod_lt _ (by decide))
  simp [isLowerWord, wordHex, later, digit (show w.toNat / 4096 < 16 by omega)]

theorem isPlain_wordHex (w : Word) : Operation.isPlain (wordHex w).toList = true := by
  have each : ∀ d : Fin 16, Operation.isPlain [upperDigit d] = true := by decide
  have digit {d : Nat} (h : d < 16) : Operation.IsPlain (upperDigit d) :=
    (Operation.isPlain_iff.mp (each ⟨d, h⟩)).2 _ List.mem_cons_self
  have small := w.toNat_lt
  have later (n : Nat) : Operation.IsPlain (upperDigit (n % 16)) := digit (Nat.mod_lt _ (by decide))
  rw [Operation.isPlain_iff]
  simp [wordHex, later, digit (show w.toNat / 4096 < 16 by omega)]

theorem isLowerWord_mnemonic (opcode : Opcode) : isLowerWord opcode.mnemonic = false := by
  cases opcode with
  | alu op => cases op <;> decide
  | branch condition => cases condition <;> decide
  | _ => decide

theorem lineOperation?_dropReturn : lineOperation? (dropReturn row) = lineOperation? row := by
  rw [lineOperation?, lineBody, lineCode_dropReturn]
  rfl

section LowerWord

variable (name : isLowerWord op.mnemonic = true)
include name

theorem mnemonic_ne_of_isLowerWord {known : String} (outside : isLowerWord known = false) :
    op.mnemonic ≠ known := by
  intro same
  rw [same, outside] at name
  cases name

theorem lineOperations_of_isLowerWord (stands : lineOperation? row = some op) :
    lineOperations row = [op] := by
  have directives : ∀ known ∈ Operation.ignoredDirectives, isLowerWord known = false := by decide
  have counts : ¬ op.isIgnored = true := by
    rw [Operation.isIgnored, List.contains_iff_mem]
    exact fun known => mnemonic_ne_of_isLowerWord name (directives _ known) rfl
  rw [lineOperations, stands]
  dsimp only
  rw [if_neg counts, if_neg (mnemonic_ne_of_isLowerWord name (by decide))]

theorem not_emits_of_isLowerWord {address : Token → Nat → Prop} {index : Nat} {w : Word} :
    ¬ Emits address index op w := by
  intro emits
  cases emits with
  | number | place =>
    have directive : isLowerWord Operation.wordDirective = true := name
    exact absurd directive (by decide)
  | noop => exact absurd name (by decide)
  | instruction known =>
    exact mnemonic_ne_of_isLowerWord name (isLowerWord_mnemonic _) known.symm

end LowerWord

end Asm

namespace Image

theorem fileText_cons (w : Word) (ws : List Word) : ∃ tail, (∀ c ∈ tail.head?, isBlank c = true) ∧
    '\n' ∉ (wordHex w).toList ++ tail ∧
    (fileText (w :: ws)).toList = (wordHex w).toList ++ tail ++ ['\n'] := by
  have text : (fileText (w :: ws)).toList =
      [' '].intercalate ((w :: ws).map fun w => (wordHex w).toList) ++ ['\n'] := by
    simp [fileText, render, String.toList_intercalate, List.map_map, Function.comp_def]
  have inside : '\n' ∉ [' '].intercalate ((w :: ws).map fun w => (wordHex w).toList) := by
    intro mem
    obtain blank | ⟨_, word, mem⟩ := mem_intercalate mem
    · exact absurd blank (by decide)
    · obtain ⟨w, -, rfl⟩ := List.mem_map.mp word
      exact absurd ((wordHex_visible w).2 _ mem) (by decide)
  rw [text]
  cases ws with
  | nil => exact ⟨[], by simp, by simpa using inside, by simp⟩
  | cons next ws =>
    rw [List.map_cons, List.map_cons, List.intercalate_cons_cons, List.append_assoc] at inside ⊢
    exact ⟨_, by rintro c ⟨⟩; rfl, inside, by simp⟩

theorem eq_nil_of_assemble_fileText {ws words : List Word}
    (assembled : Asm.assemble (fileText ws) = .ok words) : ws = [] := by
  cases ws with
  | nil => rfl
  | cons w ws =>
    exfalso
    obtain ⟨tail, ends, inside, text⟩ := fileText_cons w ws
    have line : lines (fileText (w :: ws)).toList = [dropReturn ((wordHex w).toList ++ tail)] := by
      rw [text, lines_append inside]
      rfl
    have heading : Asm.Heading [] none := .bare nofun
    have reads := heading.reads (Asm.isPlain_wordHex w) fun c mem => .inl (ends c mem)
    obtain ⟨op, stands, name⟩ : ∃ op,
        Asm.lineOperation? (dropReturn ((wordHex w).toList ++ tail)) = some op ∧
          Asm.isLowerWord op.mnemonic = true := by
      have stands := reads.stands
      rw [List.nil_append, ← Asm.lineOperation?_dropReturn] at stands
      exact ⟨_, stands, Asm.isLowerWord_wordHex w⟩
    have first : (Asm.statements (fileText (w :: ws)))[0]? = some op := by
      rw [Asm.statements, line, List.flatMap_singleton,
        Asm.lineOperations_of_isLowerWord name stands]
      rfl
    obtain ⟨_, -, emits⟩ := Asm.emits_of_assemble assembled first
    exact Asm.not_emits_of_isLowerWord name emits

end Image

namespace Program.Assembler

open File TreeDisk

variable {σ : Type} [TreeDisk σ]

def Leads (tree : Tree) (path : String) (l : Location) (content : ByteArray) : Prop :=
  tree.locate path.toList = .ok l ∧ tree.entry? l = some (.file content)

theorem Leads.eq_toUTF8 {tree : Tree} {path text : String} {l : Location} {content : ByteArray}
    (h : Leads tree path l content) (read : tree.read path.toList = .ok text) :
    content = text.toUTF8 := by
  obtain ⟨content', l', located, found, valid⟩ := Tree.read_eq_ok.mp read
  cases h.1.symm.trans located
  cases h.2.symm.trans found
  rw [String.fromUTF8?] at valid
  split at valid
  case isTrue =>
    cases valid
    rfl
  case isFalse => cases valid

theorem invoke_without_output (s : σ) (program input : String) {options : List String}
    (unnamed : ∀ option ∈ options, option ≠ "-o" ∧ option ≠ "--output") : ∃ result after,
    (invoke program (input :: options) : StateM σ _) s = (result, after) ∧
      (Declined program result ∧ after = s ∨ ¬ Declined program result ∧ ∃ words,
        Assembles (tree s) input words ∧
        (tree s).write (objectPath input).toList (Image.fileText words) = (.ok (), tree after)) := by
  cases accepted : Options.read (input :: options) with
  | error refusal =>
    refine ⟨refusal.result program, s, ?_, .inl ⟨declined_of_refusal program refusal, rfl⟩⟩
    rw [invoke, accepted]
    rfl
  | ok options' =>
    obtain ⟨chosen, rest, eq, chooses, output⟩ := Options.read_eq_ok accepted
    cases eq
    have none : chosen = [] := by
      refine List.eq_nil_iff_forall_not_mem.mpr fun choice mem => ?_
      have given : choice.1 ∈ options := by
        rw [chooses.arguments, List.mem_flatMap]
        exact ⟨choice, mem, List.mem_cons_self⟩
      obtain short | long := chooses.options choice mem
      · exact (unnamed _ given).1 short
      · exact (unnamed _ given).2 long
    subst none
    have ends := perform_ends options' s
    rw [output] at ends
    rw [invoke, accepted]
    dsimp only
    -- What the run is does not matter from here on, only how it ends.
    generalize (options'.perform : StateM σ _) s = ended at ends
    cases ends with
    | failed bad => exact ⟨_, _, rfl, .inl ⟨.inl bad, rfl⟩⟩
    | written assembles silent written =>
      exact ⟨_, _, rfl, .inr ⟨not_declined program silent, _, assembles, written⟩⟩

theorem objectPath_eq_iff (input : String) :
    objectPath input = input ↔ withExtension input.toList objectExtension.toList = input.toList := by
  rw [objectPath, ← String.toList_inj, String.toList_ofList]

theorem objectPath_eq_self_iff {input : String} (names : Names input.toList) :
    objectPath input = input ↔
      ∃ x, input = x ++ ".lc" ∧ isSilent (lastComponent x.toList) = false := by
  rw [objectPath_eq_iff, names.withExtension_eq_self_iff isExtension_object]
  constructor
  · rintro ⟨base, eq, counts⟩
    refine ⟨String.ofList base, ?_, by rwa [String.toList_ofList]⟩
    rw [← String.toList_inj, toList_object, String.toList_ofList, eq]
  · rintro ⟨x, rfl, counts⟩
    exact ⟨x.toList, toList_object x, counts⟩

theorem toUTF8_inj {text text' : String} (same : text.toUTF8 = text'.toUTF8) : text = text' := by
  have valid := congrArg String.fromUTF8? same
  rw [Tree.fromUTF8?_toUTF8, Tree.fromUTF8?_toUTF8] at valid
  exact Option.some.inj valid

theorem toUTF8_fileText_eq_iff {tree : Tree} {path : String} {words : List Word} {l : Location}
    {content : ByteArray} (leads : Leads tree path l content) (assembles : Assembles tree path words) :
    (Image.fileText words).toUTF8 = content ↔ content = "\n".toUTF8 := by
  obtain ⟨source, read, assembled⟩ := assembles
  obtain rfl := leads.eq_toUTF8 read
  have nothing : Image.fileText [] = "\n" := rfl
  constructor
  · intro same
    obtain rfl := toUTF8_inj same
    obtain rfl := Image.eq_nil_of_assemble_fileText assembled
    rw [nothing]
  · intro empty
    obtain rfl := toUTF8_inj empty
    have made : Asm.assemble "\n" = .ok [] := rfl
    cases made.symm.trans assembled
    rw [nothing]

/-- Without an output of its own the input keeps its content, unless the program writes and the
object file is the input itself, whose source is then lost to its words (all but an empty line,
which has none). The object file of a name is itself just if the name has that extension. -/
theorem invoke_keeps_input (s : σ) (program input : String) {options : List String}
    (unnamed : ∀ option ∈ options, option ≠ "-o" ∧ option ≠ "--output") : ∃ result after,
    (invoke program (input :: options) : StateM σ _) s = (result, after) ∧
    (∀ l content, Leads (tree s) input l content → ∃ content', Leads (tree after) input l content' ∧
      (content' = content ↔
        Declined program result ∨ objectPath input ≠ input ∨ content = "\n".toUTF8) ∧
      (¬ Declined program result → objectPath input = input →
        ∃ words, Assembles (tree s) input words ∧ content' = (Image.fileText words).toUTF8)) ∧
    (Names input.toList → (objectPath input = input ↔
      ∃ x, input = x ++ ".lc" ∧ isSilent (lastComponent x.toList) = false)) := by
  obtain ⟨result, after, run, ended⟩ := invoke_without_output s program input unnamed
  refine ⟨result, after, run, fun l content leads => ?_, objectPath_eq_self_iff⟩
  obtain ⟨declined, rfl⟩ | ⟨done, words, assembles, written⟩ := ended
  · exact ⟨content, leads, by simp [declined], fun done => absurd declined done⟩
  obtain ⟨l', replaced⟩ := Tree.replaced_of_write written
  have located := Tree.locate_write written leads.1
  have file : Tree.entry? (tree s) l ≠ some .directory := by simp [leads.2]
  by_cases itself : objectPath input = input
  · rw [itself] at replaced
    cases leads.1.symm.trans replaced.located
    refine ⟨_, ⟨located, replaced.content⟩, ?_, fun _ _ => ⟨words, assembles, rfl⟩⟩
    rw [toUTF8_fileText_eq_iff leads assembles]
    simp [done, itself]
  · have other : l ≠ l' := by
      rintro rfl
      have path : (objectPath input).toList = withExtension input.toList objectExtension.toList :=
        String.toList_ofList
      have located' := replaced.located
      rw [path] at located'
      exact itself ((objectPath_eq_iff input).mpr
        (Tree.withExtension_eq_of_locate isExtension_object leads.1 file located'))
    refine ⟨content, ⟨located, ?_⟩, by simp [itself], fun _ same => absurd same itself⟩
    rw [replaced.others l other, leads.2]

theorem leads_single {name : String} (plain : (single name "halt").locate name.toList =
    .ok ⟨.above 0, [name.toList]⟩) :
    Leads (single name "halt") name ⟨.above 0, [name.toList]⟩ "halt".toUTF8 := by
  refine ⟨plain, ?_⟩
  simp [single, Tree.plant, Tree.empty, Tree.put, Tree.entry?]

theorem invoke_keeps_input_of_names :
    (∃ result after l, (invoke "assembler" ["p.s"] : StateM Tree _) (single "p.s" "halt") =
      (result, after) ∧ ¬ Declined "assembler" result ∧ Leads after "p.s" l "halt".toUTF8) ∧
    ∃ result after l, ("-v" ≠ "-o" ∧ "-v" ≠ "--output") ∧
      (invoke "assembler" ["p.lc", "-v"] : StateM Tree _) (single "p.lc" "halt") = (result, after) ∧
      Declined "assembler" result ∧ Leads after "p.lc" l "halt".toUTF8 := by
  constructor
  · have unnamed : ∀ option ∈ ([] : List String), option ≠ "-o" ∧ option ≠ "--output" := nofun
    obtain ⟨result, after, run, keeps, -⟩ :=
      invoke_keeps_input (single "p.s" "halt") "assembler" "p.s" unnamed
    have done : ¬ Declined "assembler" result := by
      obtain rfl := congrArg Prod.fst run
      decide +kernel
    obtain ⟨content, leads, same, -⟩ := keeps _ _ (leads_single (by decide +kernel))
    rw [same.mpr (.inr (.inl (by decide +kernel)))] at leads
    exact ⟨result, after, _, run, done, leads⟩
  · have unnamed : "-v" ≠ "-o" ∧ "-v" ≠ "--output" := by decide
    obtain ⟨result, after, run, keeps, -⟩ :=
      invoke_keeps_input (single "p.lc" "halt") "assembler" "p.lc" (List.forall_mem_singleton.mpr unnamed)
    have declined : Declined "assembler" result := by
      obtain rfl := congrArg Prod.fst run
      decide +kernel
    obtain ⟨content, leads, same, -⟩ := keeps _ _ (leads_single (by decide +kernel))
    rw [same.mpr (.inl declined)] at leads
    exact ⟨result, after, _, unnamed, run, declined, leads⟩

theorem source_overwritten :
    (single "p.lc" "halt").read "p.lc".toList = .ok "halt" ∧
    ((single "p.lc" "halt").run (invoke "assembler" ["p.lc"])).1.status = 0 ∧
    ((single "p.lc" "halt").run (invoke "assembler" ["p.lc"])).2.read "p.lc".toList =
      .ok "E000\n" := by
  refine ⟨?_, ?_, ?_⟩
  all_goals decide +kernel

end Program.Assembler

end Backstep
