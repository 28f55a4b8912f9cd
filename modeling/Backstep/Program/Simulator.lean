import Backstep.Program.Assembler
import Backstep.Prompt.Session

namespace Backstep.Program.Simulator

open Text Isa File Machine Prompt

def prompt : String := "(lcsim) "

def usage (program : String) : String :=
s!"Simulator

USAGE:
    {program} [program] [OPTIONS]

ARGS:
    [program]    Assembly source (.s) or memory image / object file.
                 A built-in demo program is loaded when omitted.

OPTIONS:
    --history-limit <n>    Keep at most n undo snapshots (default: unbounded)
    --memory <words>       Memory capacity in words (default: 16384)
    -h, --help             Print this help message

ENVIRONMENT:
    LCSIM_LOG               Log level: debug, info, warn, error, off (default: info)
    LCSIM_LOG_TIMESTAMPS    Set to 0 to hide log timestamps

EXAMPLES:
    # Run the built-in demo
    {program}

    # Assemble and run a source file
    {program} demos/countdown.s

    # Run an assembled object file with a bounded undo history
    {program} demos/countdown.lc --history-limit 1000
"

def builtInSource : String :=
"main:
    la r1, a
    lw r2, r1, 0        # r2 = a
    lw r3, r1, 1        # r3 = b
    lea r6, multiply
    jalr r7, r6
    la r1, result
    sw r4, r1, 0
    halt

# r4 = r2 * r3, for r3 >= 0
multiply:
    add r4, r0, r0
mul_loop:
    beq r3, r0, mul_done
    add r4, r4, r2
    addi r3, r3, -1
    beq r0, r0, mul_loop
mul_done:
    jalr r0, r7

a:      .word 6
b:      .word 7
result: .word 0
"

inductive Refusal where
  | help
  | missingNumber (option : String)
  | unexpected (argument : String)
  deriving DecidableEq

structure Options where
  path : Option String := none
  config : Config := {}
  deriving DecidableEq

def Options.read (options : Options) : List String → Except Refusal Options
  | [] => .ok options
  | "--help" :: _ => .error .help
  | "-h" :: _ => .error .help
  | ["--memory"] => .error (.missingNumber "--memory")
  | ["--history-limit"] => .error (.missingNumber "--history-limit")
  | "--memory" :: value :: rest =>
    match natural? 10 numberMax value.toList with
    | some words => read { options with config.memoryWords := words } rest
    | none => .error (.missingNumber "--memory")
  | "--history-limit" :: value :: rest =>
    match natural? 10 numberMax value.toList with
    | some limit => read { options with config.historyLimit := some limit } rest
    | none => .error (.missingNumber "--history-limit")
  | argument :: rest =>
    if argument.toList.head? = some '-' ∨ options.path.isSome then .error (.unexpected argument)
    else read { options with path := some argument } rest

inductive Start where
  | leave (status : Nat)
  | prompt (cpu : Processor)

def Refusal.start (program : String) : Refusal → Start × List Output
  | help => (.leave 0, [.log .info (usage program)])
  | missingNumber option => (.leave 1, [.log .error s!"{option} requires a numeric argument"])
  | unexpected argument =>
    (.leave 1, [.log .error s!"Unexpected argument: {argument}\n", .log .info (usage program)])

def loaded (config : Config) (words : List Word) : Start × List Output :=
  match (Processor.new config).load words with
  | (.error fault, _) => (.leave 1, [.log .error fault.message])
  | (.ok (), cpu) =>
    (.prompt cpu,
     [.log .info
        s!"loaded program of {words.length} word(s) into {cpu.capacity} words of memory",
      .log .info "Type `help` for the list of commands."])

section

variable {m : Type → Type} [Monad m] [Disk m]

def fetchProgram (path : Option String) : m (Except Error (List Word) × List Output) := do
  match path with
  | none =>
    let (result, outputs) := assembleNamed "<default program>" builtInSource
    return (result.mapError .assembly, outputs)
  | some path =>
    if isSourcePath path then assembleFile path
    else return ((← readImage path).mapError .machine, [])

def start (program : String) (arguments : List String) : m (Start × List Output) := do
  match Options.read {} arguments with
  | .error refusal => return refusal.start program
  | .ok options =>
    let (result, outputs) ← fetchProgram options.path
    match result with
    | .error error => return (.leave 1, outputs ++ [.log .error error.message])
    | .ok words =>
      let (start, more) := loaded options.config words
      return (start, outputs ++ more)

end

structure Ending where
  status : Nat
  cpu : Processor

/-- Reads lines until one asks to leave, none is left, or one is not text. Outputs already made stand
in reverse. -/
def converse (budget : Nat) (cpu : Processor) (outputs : List Output) :
    List (Option String) → Option (List Output × Ending)
  | [] => some ((.text prompt :: outputs).reverse, ⟨0, cpu⟩)
  | none :: _ =>
    some ((.log .error FileError.invalidText.message :: .text prompt :: outputs).reverse, ⟨1, cpu⟩)
  | some line :: rest =>
    match feed budget cpu line with
    | none => none
    | some .leave => some ((.text prompt :: outputs).reverse, ⟨0, cpu⟩)
    | some (.stay more cpu) =>
      converse budget cpu (more.reverse ++ .text prompt :: outputs) rest

end Backstep.Program.Simulator
