import Backstep.Program.Assembler
import Backstep.Proofs.File.TreeLaws
import Backstep.Proofs.Machine.Reset
import Backstep.Proofs.MemoryImages
import Backstep.Proofs.Program.CommandLines

namespace Backstep.Program

open Text Isa File Machine

variable {tree after : Tree} {program path source : String} {arguments : List String}
  {words : List Word}

def Assembles (tree : Tree) (path : String) (words : List Word) : Prop :=
  ∃ source, tree.read path.toList = .ok source ∧ Asm.assemble source = .ok words

theorem not_assembles {error : Asm.Error} (read : tree.read path.toList = .ok source)
    (refused : Asm.assemble source = .error error) (words : List Word) :
    ¬ Assembles tree path words := by
  rintro ⟨source', read', made⟩
  cases read.symm.trans read'
  cases refused.symm.trans made

@[simp] theorem assembleNamed_fst (name source : String) :
    (assembleNamed name source).1 = Asm.assemble source := by
  rw [assembleNamed]
  split <;> simp [*]

theorem assembleFile_of_read {σ : Type} [TreeDisk σ] {s s' : σ}
    (read : (Disk.read path : StateM σ _) s = (.ok source, s')) :
    (assembleFile path : StateM σ _) s =
      (((Asm.assemble source).mapError .assembly, (assembleNamed path source).2), s') := by
  rw [← assembleNamed_fst path, assembleFile, run_of_bind read]
  rfl

theorem run_assembleFile_of_read (read : tree.read path.toList = .ok source) :
    tree.run (assembleFile path) =
      (((Asm.assemble source).mapError .assembly, (assembleNamed path source).2), tree) :=
  assembleFile_of_read (congrArg (·, tree) read)

theorem run_assembleFile (tree : Tree) (path : String) : ∃ result outputs,
    tree.run (assembleFile path) = ((result, outputs), tree) ∧
      ∀ words, result = .ok words ↔ Assembles tree path words := by
  cases read : tree.read path.toList with
  | error error =>
    refine ⟨.error (.machine (.io path error.message)), [], ?_, ?_⟩
    · rw [assembleFile, Tree.run_bind, Tree.run_read, read]
      rfl
    · simp [Assembles, read]
  | ok source =>
    refine ⟨_, _, run_assembleFile_of_read read, fun words => ?_⟩
    cases made : Asm.assemble source <;> simp [Assembles, read, made, Except.mapError]

namespace Assembler

theorem Options.read_path (dotted : '.' ∈ path.toList) : read [path] = .ok ⟨path, none⟩ := by
  have file := Simulator.not_mem_optionNames dotted
  obtain ⟨help, short, -⟩ : path ≠ "--help" ∧ path ≠ "-h" ∧ _ := by
    simpa [Simulator.optionNames] using file
  simp [read, readRest]

theorem missingDirectory?_keeps {σ : Type} [TreeDisk σ] (path : String) (s : σ) :
    ∃ missing, (missingDirectory? path : StateM σ _) s = (missing, s) := by
  rw [missingDirectory?]
  rcases parent? path.toList with _ | _ | ⟨first, rest⟩
  · exact ⟨_, rfl⟩
  · exact ⟨_, rfl⟩
  · obtain ⟨answer, run⟩ := TreeDisk.contains_keeps (String.ofList (first :: rest)) s
    dsimp only
    rw [run_of_bind run]
    exact ⟨_, rfl⟩

theorem run_missingDirectory? (tree : Tree) (path : String) :
    ∃ missing, tree.run (missingDirectory? path) = (missing, tree) :=
  missingDirectory?_keeps path tree

theorem invoke_of_assembles (dotted : '.' ∈ path.toList) (assembles : Assembles tree path words)
    (present : tree.run (missingDirectory? (objectPath path)) = (none, tree))
    (written : tree.write (objectPath path).toList (Image.fileText words) = (.ok (), after)) :
    ∃ outputs, tree.run (invoke program [path]) = (⟨0, outputs⟩, after) := by
  obtain ⟨result, outputs, run, made⟩ := run_assembleFile tree path
  obtain rfl := (made words).mpr assembles
  obtain ⟨source, read, -⟩ := assembles
  have there := Tree.contains_of_read read
  rw [invoke, Options.read_path dotted]
  dsimp only
  rw [Options.perform, Tree.run_bind, Tree.run_contains, there]
  dsimp only
  rw [if_pos rfl, Option.getD_none, Tree.run_bind, present]
  dsimp only
  rw [assembleTo, Tree.run_bind, run]
  dsimp only
  rw [Tree.run_bind, writeObject, Tree.run_bind, Tree.run_write, written]
  exact ⟨_, rfl⟩

theorem invoke_of_not_assembles (dotted : '.' ∈ path.toList)
    (fails : ∀ words, ¬ Assembles tree path words) :
    ∃ outputs, tree.run (invoke program [path]) = (⟨1, outputs⟩, tree) := by
  obtain ⟨result, outputs, run, made⟩ := run_assembleFile tree path
  obtain ⟨missing, looked⟩ := run_missingDirectory? tree (objectPath path)
  rw [invoke, Options.read_path dotted]
  dsimp only
  rw [Options.perform, Tree.run_bind, Tree.run_contains]
  dsimp only
  split
  case isFalse => exact ⟨_, rfl⟩
  case isTrue =>
    rw [Option.getD_none, Tree.run_bind, looked]
    dsimp only
    cases missing with
    | some directory => exact ⟨_, rfl⟩
    | none =>
      dsimp only
      rw [assembleTo, Tree.run_bind, run]
      cases result with
      | error error => exact ⟨_, rfl⟩
      | ok words => exact absurd ((made words).mp rfl) (fails words)

end Assembler

namespace Simulator

variable {options : Options} {refusal : Refusal}

theorem run_start_of_refusal (refused : Options.read {} arguments = .error refusal) :
    tree.run (start program arguments) = (refusal.start program, tree) := by
  rw [start, refused]
  rfl

theorem run_start_of_fetch {outputs : List Output} (program : String)
    (accepted : Options.read {} arguments = .ok options)
    (fetched : tree.run (fetchProgram options.path) = ((.ok words, outputs), tree)) :
    tree.run (start program arguments) =
      (((loaded options.config words).1, outputs ++ (loaded options.config words).2), tree) := by
  rw [start, accepted]
  dsimp only
  rw [Tree.run_bind, fetched]
  rfl

theorem run_start_of_error {error : Error} {outputs : List Output}
    (accepted : Options.read {} arguments = .ok options)
    (fetched : tree.run (fetchProgram options.path) = ((.error error, outputs), tree)) :
    tree.run (start program arguments) =
      ((.leave 1, outputs ++ [.log .error error.message]), tree) := by
  rw [start, accepted]
  dsimp only
  rw [Tree.run_bind, fetched]
  rfl

theorem fetchProgram_some {m : Type → Type} [Monad m] [Disk m] (path : String) :
    (fetchProgram (some path) : m _) =
      if isSourcePath path then assembleFile path
      else do return ((← readImage path).mapError .machine, []) := rfl

theorem run_fetchProgram_source (named : isSourcePath path = true) :
    tree.run (fetchProgram (some path)) = tree.run (assembleFile path) := by
  rw [fetchProgram_some, if_pos named]

theorem run_fetchProgram_of_read (named : isSourcePath path = true)
    (read : tree.read path.toList = .ok source) (made : Asm.assemble source = .ok words) :
    tree.run (fetchProgram (some path)) = ((.ok words, (assembleNamed path source).2), tree) := by
  rw [run_fetchProgram_source named, run_assembleFile_of_read read, made]
  rfl

theorem run_fetchProgram_image {text : String} (named : isSourcePath path = false)
    (read : tree.read path.toList = .ok text) (parsed : Image.parse text = .ok words) :
    tree.run (fetchProgram (some path)) = ((.ok words, []), tree) := by
  rw [fetchProgram_some, if_neg (by simp [named]), Tree.run_bind, readImage, Tree.run_bind,
    Tree.run_read, read]
  dsimp only
  rw [parsed]
  rfl

theorem Refusal.status_eq_one (other : refusal ≠ .help) :
    (refusal.start program).1 = .leave 1 := by
  cases refusal with
  | help => exact absurd rfl other
  | missingNumber | unexpected => rfl

theorem Refusal.leaves (refusal : Refusal) (program : String) :
    ∃ status, (refusal.start program).1 = .leave status := by
  cases refusal <;> exact ⟨_, rfl⟩

theorem converse_ending (budget : Nat) (cpu : Processor) (one other : List Output)
    (lines : List (Option String)) :
    (converse budget cpu one lines).map (·.2) = (converse budget cpu other lines).map (·.2) := by
  induction lines generalizing cpu one other with
  | nil => rfl
  | cons line lines ih =>
    cases line with
    | none => rfl
    | some line =>
      rw [converse, converse]
      cases Prompt.feed budget cpu line with
      | none => rfl
      | some reply =>
        cases reply with
        | leave => rfl
        | stay more cpu => exact ih ..

/-- Both starts are refused because the words do not fit, or both come to the prompt with the same
processor and it goes on in the same way, whatever is typed. -/
inductive SameRun (config : Config) (words : List Word) (one other : Start × List Output) : Prop
  | tooLarge : config.capacity < words.length → one.1 = .leave 1 → other.1 = .leave 1 →
      SameRun config words one other
  | prompt (cpu : Processor) : (Processor.new config).load words = (.ok (), cpu) →
      one.1 = .prompt cpu → other.1 = .prompt cpu →
      (∀ budget lines, (converse budget cpu one.2.reverse lines).map (·.2) =
        (converse budget cpu other.2.reverse lines).map (·.2)) → SameRun config words one other

theorem sameRun_of_loaded {config : Config} {one other : Start × List Output}
    (first : one.1 = (loaded config words).1) (second : other.1 = (loaded config words).1) :
    SameRun config words one other := by
  have capacity := (Processor.WellFormed.new config).capacity
  rw [loaded] at first second
  cases load : (Processor.new config).load words with
  | mk outcome cpu =>
    rw [load] at first second
    cases outcome with
    | error fault =>
      refine .tooLarge ?_ first second
      by_contra fits
      rw [Processor.load, Memory.load, Memory.capacity_zero, capacity,
        if_pos (Nat.le_of_not_lt fits)] at load
      cases load
    | ok =>
      exact .prompt cpu load first second fun budget lines => converse_ending ..

theorem start_exchange {p q : String} {now : Tree} {arguments' : List String}
    {outputs outputs' : List Output}
    (exchanged : Exchanged p q (Options.read {} arguments) (Options.read {} arguments'))
    (fetched : tree.run (fetchProgram (some p)) = ((.ok words, outputs), tree))
    (fetched' : now.run (fetchProgram (some q)) = ((.ok words, outputs'), now)) :
    ∃ one other, tree.run (start program arguments) = (one, tree) ∧
      now.run (start program arguments') = (other, now) ∧
      match Options.read {} arguments with
      | .ok options => SameRun options.config words one other
      | .error _ => ∃ status, one.1 = .leave status ∧ other.1 = .leave status := by
  generalize read : Options.read {} arguments = answer at exchanged ⊢
  generalize read' : Options.read {} arguments' = answer' at exchanged
  cases exchanged with
  | taken config =>
    exact ⟨_, _, run_start_of_fetch program read fetched, run_start_of_fetch program read' fetched',
      sameRun_of_loaded rfl rfl⟩
  | refused refusal other same =>
    obtain ⟨status, leaves⟩ := refusal.leaves program
    exact ⟨_, _, run_start_of_refusal read, run_start_of_refusal read',
      status, leaves, (same program).symm.trans leaves⟩

end Simulator

section Names

variable {x : String}

theorem isExtension_source : IsExtension sourceExtension.toList :=
  ⟨by decide, by decide, by decide⟩

theorem isExtension_object : IsExtension objectExtension.toList :=
  ⟨by decide, by decide, by decide⟩

theorem toList_source (x : String) :
    (x ++ ".s").toList = x.toList ++ '.' :: sourceExtension.toList :=
  String.toList_append

theorem toList_object (x : String) :
    (x ++ ".lc").toList = x.toList ++ '.' :: objectExtension.toList :=
  String.toList_append

theorem isSourcePath_append (named : lastComponent x.toList ≠ []) :
    isSourcePath (x ++ ".s") = true := by
  rw [isSourcePath, toList_source, extension?_append isExtension_source named]
  exact beq_self_eq_true _

theorem not_isSourcePath_append (named : lastComponent x.toList ≠ []) :
    isSourcePath (x ++ ".lc") = false := by
  rw [isSourcePath, toList_object, extension?_append isExtension_object named]
  decide

theorem objectPath_append (counts : isSilent (lastComponent x.toList) = false) :
    objectPath (x ++ ".s") = x ++ ".lc" := by
  rw [objectPath, toList_source, withExtension_append isExtension_source counts, ← toList_object,
    String.ofList_toList]

theorem ne_nil_of_lastComponent {path : List Char} (named : lastComponent path ≠ []) :
    path ≠ [] := by
  rintro rfl
  exact named rfl

end Names

/-- The assembler turned the source into an object file, and the simulator runs both alike, whatever
stands before and behind the file among its arguments. -/
structure Interchangeable (program simulator x : String) (tree after : Tree) (words : List Word) :
    Prop where
  assembled : ∃ outputs, tree.run (Assembler.invoke program [x ++ ".s"]) = (⟨0, outputs⟩, after)
  written : after.read (x ++ ".lc").toList = .ok (Image.fileText words)
  runs : ∀ now ∈ [tree, after], ∀ front behind, ∃ source object,
    now.run (Simulator.start simulator (front ++ (x ++ ".s") :: behind)) = (source, now) ∧
    after.run (Simulator.start simulator (front ++ (x ++ ".lc") :: behind)) = (object, after) ∧
    match Simulator.Options.read {} (front ++ (x ++ ".s") :: behind) with
    | .ok options => Simulator.SameRun options.config words source object
    | .error _ => ∃ status, source.1 = .leave status ∧ object.1 = .leave status

section Agreement

variable {x simulator : String}

theorem head?_source_eq (named : lastComponent x.toList ≠ []) :
    (x ++ ".s").toList.head? = (x ++ ".lc").toList.head? := by
  obtain ⟨c, rest, eq⟩ := List.exists_cons_of_ne_nil (ne_nil_of_lastComponent named)
  rw [toList_source, toList_object, eq]
  rfl

theorem missingDirectory?_object {l : Location}
    (located : tree.locate (x ++ ".lc").toList = .ok l) :
    tree.run (Assembler.missingDirectory? (x ++ ".lc")) = (none, tree) := by
  rw [toList_object] at located
  have names : Names (x.toList ++ '.' :: objectExtension.toList) := names_append isExtension_object
  rw [Assembler.missingDirectory?, toList_object]
  split
  case h_1 | h_2 => rfl
  case h_3 directory some parent =>
    have there : tree.contains directory = true :=
      Tree.contains_parent names located parent some
    dsimp only
    rw [Tree.run_bind, Tree.run_contains, String.toList_ofList, there]
    rfl

theorem locate_source_ne_object (named : lastComponent x.toList ≠ []) {l : Location}
    (located : tree.locate (x ++ ".lc").toList = .ok l) :
    tree.locate (x ++ ".s").toList ≠ tree.locate (x ++ ".lc").toList := by
  have full := ne_nil_of_lastComponent named
  have source := isExtension_source.slash_not_mem
  have object := isExtension_object.slash_not_mem
  rw [toList_object] at located
  rw [toList_source, toList_object]
  refine Tree.locate_ne (names_append isExtension_object) (names_append isExtension_source) ?_ ?_ ?_
    located
  · rw [Location.start_append full, Location.start_append full]
  · rw [ways_append source, ways_append object]
  · rw [lastComponent_append source, lastComponent_append object]
    exact fun same => absurd (List.append_cancel_left same) (by decide)

theorem interchangeable (counts : isSilent (lastComponent x.toList) = false)
    (assembles : Assembles tree (x ++ ".s") words)
    (written : tree.write (x ++ ".lc").toList (Image.fileText words) = (.ok (), after)) :
    Interchangeable program simulator x tree after words := by
  have named := ne_nil_of_counts counts
  obtain ⟨source, read, made⟩ := assembles
  obtain ⟨l, located, -, -⟩ := Tree.write_eq_ok.mp written
  have stored : after.read (x ++ ".lc").toList = .ok (Image.fileText words) :=
    Tree.read_write written
  have kept : after.read (x ++ ".s").toList = .ok source :=
    Tree.read_write_of_ne written (locate_source_ne_object named located) read
  refine ⟨?_, stored, ?_⟩
  · have object := objectPath_append counts
    refine Assembler.invoke_of_assembles (by simp) ⟨source, read, made⟩ ?_ ?_
    · rw [object]
      exact missingDirectory?_object located
    · rw [object]
      exact written
  · intro now either front behind
    have unchanged : now.read (x ++ ".s").toList = .ok source := by
      obtain rfl | rfl : now = tree ∨ now = after := by simpa using either
      · exact read
      · exact kept
    have exchanged := Simulator.Options.read_exchange (p := x ++ ".s") (q := x ++ ".lc") (by simp)
      (by simp) (head?_source_eq named) {} front behind
    exact Simulator.start_exchange exchanged
      (Simulator.run_fetchProgram_of_read (isSourcePath_append named) unchanged made)
      (Simulator.run_fetchProgram_image (not_isSourcePath_append named) stored
        (Image.parse_fileText words))

theorem leaves_of_not_assembles (named : lastComponent x.toList ≠ [])
    (fails : ∀ words, ¬ Assembles tree (x ++ ".s") words) {front behind : List String}
    (served : Simulator.Options.read {} (front ++ (x ++ ".s") :: behind) ≠ .error .help) :
    ∃ outputs, tree.run (Simulator.start simulator (front ++ (x ++ ".s") :: behind)) =
      ((.leave 1, outputs), tree) := by
  have exchanged := Simulator.Options.read_exchange (p := x ++ ".s") (q := x ++ ".s") (by simp)
    (by simp) rfl {} front behind
  generalize options : Simulator.Options.read {} (front ++ (x ++ ".s") :: behind) = one
    at exchanged served
  cases exchanged with
  | taken config =>
    obtain ⟨result, outputs, run, made⟩ := run_assembleFile tree (x ++ ".s")
    cases result with
    | ok words => exact absurd ((made words).mp rfl) (fails words)
    | error error =>
      rw [← Simulator.run_fetchProgram_source (isSourcePath_append named)] at run
      exact ⟨_, Simulator.run_start_of_error options run⟩
  | refused refusal =>
    have status : (refusal.start simulator).1 = .leave 1 :=
      Simulator.Refusal.status_eq_one fun help => served (help ▸ rfl)
    exact ⟨_, (Simulator.run_start_of_refusal options).trans
      (Prod.ext (Prod.ext status rfl) rfl)⟩

/-- The words of an object file are those that were written to it. The assembler turns a source with
a name before its extension into an object file that the simulator runs like the source; and what
does not assemble is refused by both. -/
theorem object_file_runs_like_source :
    (∀ words, Image.parse (Image.fileText words) = .ok words) ∧
    ∀ (tree : Tree) (x program simulator : String),
      (∀ words after, Assembles tree (x ++ ".s") words →
        isSilent (lastComponent x.toList) = false →
        tree.write (x ++ ".lc").toList (Image.fileText words) = (.ok (), after) →
        Interchangeable program simulator x tree after words) ∧
      ((∀ words, ¬ Assembles tree (x ++ ".s") words) → lastComponent x.toList ≠ [] →
        (∃ outputs, tree.run (Assembler.invoke program [x ++ ".s"]) = (⟨1, outputs⟩, tree)) ∧
        ∀ front behind,
          Simulator.Options.read {} (front ++ (x ++ ".s") :: behind) ≠ .error .help →
          ∃ outputs, tree.run (Simulator.start simulator (front ++ (x ++ ".s") :: behind)) =
            ((.leave 1, outputs), tree)) := by
  refine ⟨Image.parse_fileText, fun tree x program simulator => ⟨?_, ?_⟩⟩
  · intro words after assembles counts written
    exact interchangeable counts assembles written
  · intro fails named
    refine ⟨Assembler.invoke_of_not_assembles (by simp) fails, ?_⟩
    intro front behind served
    exact leaves_of_not_assembles named fails served

def single (name text : String) : Tree := Tree.empty.plant [name.toList] (.file text.toUTF8)

theorem object_file_runs_like_source_halt :
    (∃ after, Interchangeable "assembler" "lcsim" "p" (single "p.s" "halt") after [0xE000]) ∧
      ∃ outputs, (single "p.s" "frob").run (Assembler.invoke "assembler" ["p.s"]) =
        (⟨1, outputs⟩, single "p.s" "frob") := by
  have assembles : Assembles (single "p.s" "halt") ("p" ++ ".s") [0xE000] :=
    ⟨"halt", by decide +kernel, by decide +kernel⟩
  have written : ((single "p.s" "halt").write ("p" ++ ".lc").toList (Image.fileText [0xE000])).1 =
      .ok () := by
    decide +kernel
  have read : (single "p.s" "frob").read ("p" ++ ".s").toList = .ok "frob" := by decide +kernel
  have refused : Asm.assemble "frob" = .error ⟨1, .unrecognizedInstruction "frob"⟩ := by
    decide +kernel
  have agrees := object_file_runs_like_source.2
  exact ⟨⟨_, (agrees _ _ _ _).1 _ _ assembles (by decide) (Prod.ext written rfl)⟩,
    ((agrees _ "p" "assembler" "lcsim").2 (not_assembles read refused) (by decide)).1⟩

/-- Without a name before the extension the two programs go apart: the object file of `.s` has
another name, that of `..s` would be the directory above, and the simulator takes `.s` for an
image. -/
theorem unnamed_source_differs :
    (Assembles (single ".s" "halt") ".s" [0xE000] ∧
      ((single ".s" "halt").write ".lc".toList (Image.fileText [0xE000])).1 = .ok () ∧
      ((single ".s" "halt").run (Assembler.invoke "assembler" [".s"])).1.status = 0 ∧
      ((single ".s" "halt").run (Assembler.invoke "assembler" [".s"])).2.read ".lc".toList =
        .error .notFound) ∧
    (Assembles (single "..s" "halt") "..s" [0xE000] ∧
      ((single "..s" "halt").write "..lc".toList (Image.fileText [0xE000])).1 = .ok () ∧
      ((single "..s" "halt").run (Assembler.invoke "assembler" ["..s"])).1.status = 1) ∧
    (∀ words, ¬ Assembles (single ".s" "E000") ".s" words) ∧
      ∃ cpu outputs, (single ".s" "E000").run (Simulator.start "lcsim" [".s"]) =
        ((.prompt cpu, outputs), single ".s" "E000") := by
  have read : (single ".s" "E000").read ".s".toList = .ok "E000" := by decide +kernel
  have refused : Asm.assemble "E000" = .error ⟨1, .unrecognizedInstruction "e000"⟩ := by
    decide +kernel
  have parsed : Image.parse "E000" = .ok [0xE000] := by decide +kernel
  have accepted : Simulator.Options.read {} [".s"] = .ok ⟨some ".s", {}⟩ := by decide +kernel
  have same : Simulator.SameRun {} [0xE000] (Simulator.loaded {} [0xE000])
      (Simulator.loaded {} [0xE000]) := Simulator.sameRun_of_loaded rfl rfl
  refine ⟨⟨⟨"halt", ?_, ?_⟩, ?_, ?_, ?_⟩, ⟨⟨"halt", ?_, ?_⟩, ?_, ?_⟩,
    not_assembles read refused, ?_⟩
  case refine_10 =>
    cases same with
    | tooLarge large => exact absurd large (by decide)
    | prompt cpu _ prompts =>
      have fetched := Simulator.run_fetchProgram_image (by decide) read parsed
      have started := Simulator.run_start_of_fetch "lcsim" accepted fetched
      dsimp only at started
      rw [prompts] at started
      exact ⟨cpu, _, started⟩
  all_goals decide +kernel

end Agreement

end Backstep.Program
