import Backstep.Proofs.Program.ObjectFiles

namespace Backstep.Program

open Isa File Machine TreeDisk

variable {σ : Type} [TreeDisk σ]

theorem info_not_mem_assembleNamed (name source message : String) :
    Output.log .info message ∉ (assembleNamed name source).2 := by
  rw [assembleNamed]
  split <;> simp

theorem assembleFile_keeps (path : String) (s : σ) : ∃ result outputs,
    (assembleFile path : StateM σ _) s = ((result, outputs), s) ∧
      (∀ words, result = .ok words → Assembles (tree s) path words) ∧
      ∀ message, .log .info message ∉ outputs := by
  obtain ⟨answer, read, sound⟩ := read_keeps path s
  cases answer with
  | error error =>
    rw [assembleFile, run_of_bind read]
    refine ⟨_, _, rfl, fun words made => ?_, fun _ => List.not_mem_nil⟩
    cases made
  | ok source =>
    rw [assembleFile_of_read read]
    refine ⟨_, _, rfl, fun words made => ⟨source, sound source rfl, ?_⟩,
      info_not_mem_assembleNamed path source⟩
    cases assembled : Asm.assemble source with
    | error error => simp [assembled, Except.mapError] at made
    | ok words' => simpa [assembled, Except.mapError] using made

theorem writeObject_whole (path : String) (words : List Word) (s : σ) :
    (∃ fault, (writeObject path words : StateM σ _) s = (.error fault, s)) ∨
      ∃ after, (writeObject path words : StateM σ _) s = (.ok (), after) ∧
        (tree s).write path.toList (Image.fileText words) = (.ok (), tree after) := by
  obtain ⟨error, failed⟩ | ⟨after, written, whole⟩ := write_whole path (Image.fileText words) s
  · rw [writeObject, run_of_bind failed]
    exact .inl ⟨_, rfl⟩
  · rw [writeObject, run_of_bind written]
    exact .inr ⟨after, rfl, whole⟩

namespace Assembler

/-- How an invocation ends that was not refused: it fails and leaves the disk, or it has assembled
the input and written the output. -/
inductive Ends (s : σ) (input output : String) : Result × σ → Prop
  | failed {status outputs} : status ≠ 0 → Ends s input output (⟨status, outputs⟩, s)
  | written {words quiet after} : Assembles (tree s) input words →
      (∀ message, .log .info message ∉ quiet) →
      (tree s).write output.toList (Image.fileText words) = (.ok (), tree after) →
      Ends s input output (⟨0, quiet ++
        [.log .info s!"Assembled {input} -> {output} ({words.length} words)"]⟩, after)

theorem assembleTo_ends (input output : String) (s : σ) :
    Ends s input output ((assembleTo input output : StateM σ _) s) := by
  obtain ⟨result, outputs, run, sound, quiet⟩ := assembleFile_keeps input s
  rw [assembleTo, run_of_bind run]
  cases result with
  | error error => exact .failed Nat.one_ne_zero
  | ok words =>
    obtain ⟨fault, failed⟩ | ⟨after, done, written⟩ := writeObject_whole output words s
    · dsimp only
      rw [run_of_bind failed]
      exact .failed Nat.one_ne_zero
    · dsimp only
      rw [run_of_bind done]
      exact .written (sound words rfl) quiet written

theorem perform_ends (options : Options) (s : σ) :
    Ends s options.input (options.output.getD (objectPath options.input))
      ((options.perform : StateM σ _) s) := by
  obtain ⟨there, looked⟩ := contains_keeps options.input s
  rw [Options.perform, run_of_bind looked]
  cases there with
  | false => exact .failed Nat.one_ne_zero
  | true =>
    obtain ⟨missing, run⟩ :=
      missingDirectory?_keeps (options.output.getD (objectPath options.input)) s
    rw [if_pos rfl, run_of_bind run]
    cases missing with
    | some directory => exact .failed Nat.one_ne_zero
    | none => exact assembleTo_ends ..

structure Chooses (arguments : List String) (chosen : List (String × String)) : Prop where
  arguments : arguments = chosen.flatMap fun choice => [choice.1, choice.2]
  options : ∀ choice ∈ chosen, choice.1 = "-o" ∨ choice.1 = "--output"

theorem Chooses.cons {option value : String} {arguments : List String}
    {chosen : List (String × String)} (named : option = "-o" ∨ option = "--output")
    (h : Chooses arguments chosen) :
    Chooses (option :: value :: arguments) ((option, value) :: chosen) where
  arguments := by
    rw [List.flatMap_cons, ← h.arguments]
    rfl
  options := List.forall_mem_cons.mpr ⟨named, h.options⟩

/-- The path that was given last, or else the one before all of them. -/
def lastOutput (chosen : List (String × String)) (before : Option String) : Option String :=
  (chosen.getLast?.map (·.2)).or before

theorem lastOutput_cons {option path : String} {chosen : List (String × String)}
    {before : Option String} :
    lastOutput ((option, path) :: chosen) before = lastOutput chosen (some path) := by
  rw [lastOutput, lastOutput, List.getLast?_cons]
  cases chosen.getLast? <;> rfl

theorem Options.readRest_eq_ok {options options' : Options} {arguments : List String}
    (accepted : options.readRest arguments = .ok options') :
    ∃ chosen, Chooses arguments chosen ∧
      options' = ⟨options.input, lastOutput chosen options.output⟩ := by
  fun_induction Options.readRest options arguments
  case case1 options =>
    cases accepted
    exact ⟨[], ⟨rfl, nofun⟩, rfl⟩
  case case2 path rest ih | case3 path rest ih =>
    obtain ⟨chosen, chooses, rfl⟩ := ih accepted
    exact ⟨_, chooses.cons (by simp), congrArg _ lastOutput_cons.symm⟩
  all_goals cases accepted

theorem Options.read_eq_ok {options : Options} {arguments : List String}
    (accepted : Options.read arguments = .ok options) : ∃ chosen rest,
      arguments = options.input :: rest ∧ Chooses rest chosen ∧
        options.output = lastOutput chosen none := by
  rw [Options.read.eq_def] at accepted
  split at accepted
  case h_4 input rest _ _ =>
    obtain ⟨chosen, chooses, rfl⟩ := Options.readRest_eq_ok accepted
    exact ⟨chosen, rest, rfl, chooses, rfl⟩
  all_goals cases accepted

theorem getLast?_toList_append {front rest : String} {c : Char}
    (last : rest.toList.getLast? = some c) : (front ++ rest).toList.getLast? = some c := by
  rw [String.toList_append, List.getLast?_append, last, Option.some_or]

theorem assembled_ne_usage (input output program : String) (count : Nat) :
    s!"Assembled {input} -> {output} ({count} words)" ≠ usage program := by
  have closed : s!"Assembled {input} -> {output} ({count} words)".toList.getLast? = some ')' :=
    getLast?_toList_append (by decide)
  have ends : (usage program).toList.getLast? = some '\n' := by
    unfold usage
    exact getLast?_toList_append (by decide)
  intro same
  rw [same, ends] at closed
  cases closed

def Declined (program : String) (result : Result) : Prop :=
  result.status ≠ 0 ∨ .log .info (usage program) ∈ result.outputs

instance (program : String) (result : Result) : Decidable (Declined program result) :=
  inferInstanceAs (Decidable (_ ∨ _))

theorem declined_of_refusal (program : String) (refusal : Refusal) :
    Declined program (refusal.result program) := by
  cases refusal with
  | help => exact .inr (List.mem_singleton_self _)
  | noInput | missingValue | unexpected => exact .inl Nat.one_ne_zero

theorem not_declined {input output : String} {count : Nat} {quiet : List Output} (program : String)
    (silent : ∀ message, .log .info message ∉ quiet) :
    ¬ Declined program ⟨0, quiet ++
      [.log .info s!"Assembled {input} -> {output} ({count} words)"]⟩ := by
  rintro (failed | printed)
  · exact failed rfl
  · obtain early | last := List.mem_append.mp printed
    · exact silent _ early
    · have same := List.mem_singleton.mp last
      rw [Output.log.injEq] at same
      exact assembled_ne_usage input output program count same.2.symm

theorem toList_output (output : Option String) (input : String) :
    (output.getD (objectPath input)).toList =
      output.elim (withExtension input.toList "lc".toList) String.toList := by
  cases output with
  | none => exact String.toList_ofList
  | some path => rfl

/-- Whatever the arguments are and whatever the disk refuses, a program that fails or prints the
help has changed nothing. Otherwise the input is a text that assembles, the output has the words as
its text, and nothing else on the disk has changed. -/
theorem invoke_atomic (s : σ) (program : String) (arguments : List String) : ∃ result after,
    (invoke program arguments : StateM σ _) s = (result, after) ∧
    (Declined program result → after = s) ∧
    (¬ Declined program result → ∃ input chosen rest words l,
      arguments = input :: rest ∧ Chooses rest chosen ∧ Assembles (tree s) input words ∧
      Tree.Replaced (tree s) (tree after)
        ((lastOutput chosen none).elim (withExtension input.toList "lc".toList) String.toList)
        (Image.render words ++ "\n") l) := by
  cases accepted : Options.read arguments with
  | error refusal =>
    have ran : (invoke program arguments : StateM σ _) s = (refusal.result program, s) := by
      rw [invoke, accepted]
      rfl
    exact ⟨_, s, ran, fun _ => rfl, fun done => absurd (declined_of_refusal program refusal) done⟩
  | ok options =>
    have ran : (invoke program arguments : StateM σ _) s = (options.perform : StateM σ _) s := by
      rw [invoke, accepted]
    obtain ⟨chosen, rest, eq, chooses, output⟩ := Options.read_eq_ok accepted
    have ends := perform_ends options s
    rw [output] at ends
    rw [ran]
    -- What the run is does not matter from here on, only how it ends.
    generalize (options.perform : StateM σ _) s = ended at ends
    cases ends with
    | failed bad => exact ⟨_, _, rfl, fun _ => rfl, fun done => absurd (.inl bad) done⟩
    | written assembles silent written =>
      obtain ⟨l, replaced⟩ := Tree.replaced_of_write written
      rw [toList_output] at replaced
      exact ⟨_, _, rfl, fun declined => absurd declined (not_declined program silent), fun _ =>
        ⟨_, chosen, rest, _, l, eq, chooses, assembles, replaced⟩⟩

theorem eq_of_assembles_halt {words : List Word}
    (assembles : Assembles (single "p.s" "halt") "p.s" words) : words = [0xE000] := by
  obtain ⟨source, read, made⟩ := assembles
  have only : (single "p.s" "halt").read "p.s".toList = .ok "halt" := by decide +kernel
  obtain rfl : "halt" = source := Except.ok.inj (only.symm.trans read)
  have word : Asm.assemble "halt" = .ok [0xE000] := by decide +kernel
  exact Except.ok.inj (made.symm.trans word)

theorem invoke_atomic_of_two_outputs :
    (∃ result after l, (invoke "assembler" ["p.s", "-o", "q.lc", "--output", "r.lc"] :
        StateM Tree _) (single "p.s" "halt") = (result, after) ∧
      ¬ Declined "assembler" result ∧
      Tree.Replaced (single "p.s" "halt") after "r.lc".toList "E000\n" l) ∧
    (∃ result after l, (invoke "assembler" ["p.s"] : StateM Tree _) (single "p.s" "halt") =
        (result, after) ∧
      ¬ Declined "assembler" result ∧
      Tree.Replaced (single "p.s" "halt") after "p.lc".toList "E000\n" l) ∧
    ∃ result, (invoke "assembler" ["p.s"] : StateM Guarded _) (.readOnly (single "p.s" "halt")) =
        (result, .readOnly (single "p.s" "halt")) ∧ Declined "assembler" result := by
  refine ⟨?_, ?_, ?_⟩
  · obtain ⟨result, after, run, -, written⟩ := invoke_atomic (single "p.s" "halt") "assembler"
      ["p.s", "-o", "q.lc", "--output", "r.lc"]
    have done : ¬ Declined "assembler" result := by
      obtain rfl := congrArg Prod.fst run
      decide +kernel
    obtain ⟨_, chosen, rest, words, l, eq, chooses, assembles, replaced⟩ := written done
    cases eq
    have chosen_eq : chosen = [("-o", "q.lc"), ("--output", "r.lc")] := by
      have arguments := chooses.arguments
      rcases chosen with _ | ⟨⟨_, _⟩, _ | ⟨⟨_, _⟩, _ | ⟨_, _⟩⟩⟩ <;> simp_all
    rw [chosen_eq, eq_of_assembles_halt assembles] at replaced
    exact ⟨result, after, l, run, done, replaced⟩
  · obtain ⟨result, after, run, -, written⟩ :=
      invoke_atomic (single "p.s" "halt") "assembler" ["p.s"]
    have done : ¬ Declined "assembler" result := by
      obtain rfl := congrArg Prod.fst run
      decide +kernel
    obtain ⟨_, chosen, rest, words, l, eq, chooses, assembles, replaced⟩ := written done
    cases eq
    obtain _ | ⟨_, _⟩ := chosen
    case cons => cases chooses.arguments
    have beside : withExtension "p.s".toList "lc".toList = "p.lc".toList := by decide +kernel
    rw [eq_of_assembles_halt assembles] at replaced
    exact ⟨result, after, l, run, done, beside ▸ replaced⟩
  · obtain ⟨result, after, run, unchanged, -⟩ :=
      invoke_atomic (Guarded.readOnly (single "p.s" "halt")) "assembler" ["p.s"]
    have declined : Declined "assembler" result := by
      obtain rfl := congrArg Prod.fst run
      decide +kernel
    obtain rfl := unchanged declined
    exact ⟨result, run, declined⟩

end Assembler

end Backstep.Program
