import Backstep.Asm.Diagnostic
import Backstep.Error
import Backstep.File.Disk
import Backstep.Image
import Backstep.Log

namespace Backstep.Program

open Isa File Machine

def assembleNamed (name source : String) : Except Asm.Error (List Word) × List Output :=
  let skipped := (Asm.skippedDirectives source).map fun s => Output.log .warn s.message
  match Asm.assemble source with
  | .ok words =>
    (.ok words, skipped ++ [.log .debug s!"assembled {words.length} word(s) from {name}"])
  | .error error => (.error error, skipped ++ [.log .error (Asm.diagnostic name source error)])

section

variable {m : Type → Type} [Monad m] [Disk m]

def assembleFile (path : String) : m (Except Error (List Word) × List Output) := do
  match ← Disk.read path with
  | .error error => return (.error (.machine (.io path error.message)), [])
  | .ok source =>
    let (result, outputs) := assembleNamed path source
    return (result.mapError .assembly, outputs)

def readImage (path : String) : m (Except Fault (List Word)) := do
  match ← Disk.read path with
  | .error error => return .error (.io path error.message)
  | .ok text => return Image.parse text

def writeObject (path : String) (words : List Word) : m (Except Fault Unit) := do
  match ← Disk.write path (Image.fileText words) with
  | .error error => return .error (.io path error.message)
  | .ok () => return .ok ()

end

def objectExtension : String := "lc"

def sourceExtension : String := "s"

def objectPath (source : String) : String :=
  String.ofList (withExtension source.toList objectExtension.toList)

def isSourcePath (path : String) : Bool := extension? path.toList == some sourceExtension.toList

end Backstep.Program

namespace Backstep.Program.Assembler

open File

def usage (program : String) : String :=
s!"Assembler

USAGE:
    {program} <input.s> [OPTIONS]

ARGS:
    <input.s>    Assembly source file to compile

OPTIONS:
    -o, --output <file>     Output file path (defaults to <input>.lc)
    -h, --help              Print this help message

EXAMPLES:
    # Compile to default output name
    {program} program.s

    # Compile with explicit output
    {program} program.s -o output.lc
"

inductive Refusal where
  | noInput
  | help
  | missingValue (option : String)
  | unexpected (argument : String)
  deriving DecidableEq

structure Options where
  input : String
  output : Option String
  deriving DecidableEq

def Options.readRest (options : Options) : List String → Except Refusal Options
  | [] => .ok options
  | "--output" :: path :: rest => readRest { options with output := some path } rest
  | "-o" :: path :: rest => readRest { options with output := some path } rest
  | "--output" :: [] => .error (.missingValue "--output")
  | "-o" :: [] => .error (.missingValue "-o")
  | argument :: _ => .error (.unexpected argument)

def Options.read : List String → Except Refusal Options
  | [] => .error .noInput
  | "--help" :: _ => .error .help
  | "-h" :: _ => .error .help
  | input :: rest => readRest ⟨input, none⟩ rest

structure Result where
  status : Nat
  outputs : List Output
  deriving DecidableEq

def Refusal.result (program : String) : Refusal → Result
  | noInput => ⟨1, [.log .info (usage program)]⟩
  | help => ⟨0, [.log .info (usage program)]⟩
  | missingValue option => ⟨1, [.log .error s!"{option} requires an argument"]⟩
  | unexpected argument =>
    ⟨1, [.log .error s!"Unexpected argument: {argument}\n", .log .info (usage program)]⟩

section

variable {m : Type → Type} [Monad m] [Disk m]

def missingDirectory? (path : String) : m (Option String) := do
  match parent? path.toList with
  | none | some [] => return none
  | some directory =>
    let directory := String.ofList directory
    return if ← Disk.contains directory then none else some directory

def assembleTo (input output : String) : m Result := do
  let (result, outputs) ← assembleFile input
  match result with
  | .error error => return ⟨1, outputs ++ [.log .error s!"Assembly failed: {error.message}"]⟩
  | .ok words =>
    match ← writeObject output words with
    | .error fault =>
      return ⟨1, outputs ++ [.log .error s!"Failed to write output file: {fault.message}"]⟩
    | .ok () =>
      return ⟨0, outputs ++
        [.log .info s!"Assembled {input} -> {output} ({words.length} words)"]⟩

def Options.perform (options : Options) : m Result := do
  if ← Disk.contains options.input then
    let output := options.output.getD (objectPath options.input)
    match ← missingDirectory? output with
    | some directory => return ⟨1, [.log .error s!"Output directory does not exist: {directory}"]⟩
    | none => assembleTo options.input output
  else return ⟨1, [.log .error s!"Input file does not exist: {options.input}"]⟩

def invoke (program : String) (arguments : List String) : m Result :=
  match Options.read arguments with
  | .error refusal => return refusal.result program
  | .ok options => options.perform

end

end Backstep.Program.Assembler
