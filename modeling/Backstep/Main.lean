import Backstep.Program.Assembler
import Backstep.Program.Simulator
import Backstep.Text.Input
import Std.Time

namespace Backstep

open File Program

def codeOf (code : UInt32) : Nat := (Int.bmod code.toNat 0x100000000).natAbs

def fileErrorOf : IO.Error → FileError
  | .noFileOrDirectory .. => .notFound
  | .inappropriateType _ code _ => if codeOf code = 20 then .notADirectory else .isADirectory
  | .resourceExhausted _ code details => .other s!"{details} (os error {codeOf code})"
  | .permissionDenied _ code details => .other s!"{details} (os error {codeOf code})"
  | .otherError code details => .other s!"{details} (os error {codeOf code})"
  | error => .other (toString error)

instance : Disk IO where
  contains path := do
    match ← (IO.FS.realPath path).toBaseIO with
    | .ok _ => return true
    | .error _ => return false
  read path := do
    match ← (IO.FS.readBinFile path).toBaseIO with
    | .error error => return .error (fileErrorOf error)
    | .ok bytes =>
      match String.fromUTF8? bytes with
      | some text => return .ok text
      | none => return .error .invalidText
  write path text := do
    match ← (IO.FS.writeFile path text).toBaseIO with
    | .error error => return .error (fileErrorOf error)
    | .ok () => return .ok ()

def stamp : IO String := do
  let time := Std.Time.DateTime.ofTimestamp (← Std.Time.Timestamp.now) .UTC
  return time.format "uuuu-MM-dd HH:mm:ss.SSS" ++ " "

def write (settings : LogSettings) (outputs : List Output) : IO Unit := do
  let stamp ← stamp
  for output in outputs do
    match output with
    | .text text => do
      IO.print text
      (← IO.getStdout).flush
    | .log .. => IO.eprint (settings.render stamp output)

partial def readLine (input : IO.FS.Stream) (line : List UInt8) : IO (List UInt8 × Bool) := do
  let bytes ← input.read 1
  match bytes.toList with
  | [] => return (line.reverse, false)
  | byte :: _ => if byte == 10 then return (line.reverse, true) else readLine input (byte :: line)

/-- Runs are cut into pieces of this many steps. -/
def budget : Nat := 0x4000000000000000

partial def converse (settings : LogSettings) (input : IO.FS.Stream) (cpu : Machine.Processor) :
    IO UInt32 := do
  write settings [.text Simulator.prompt]
  let (bytes, closed) ← readLine input []
  if bytes.isEmpty && !closed then return 0
  match Text.decodeLine closed bytes with
  | none =>
    write settings [.log .error FileError.invalidText.message]
    return 1
  | some line =>
    match Prompt.feed budget cpu line with
    | none | some .leave => return 0
    | some (.stay outputs cpu) =>
      write settings outputs
      converse settings input cpu

def assembler (program : String) (settings : LogSettings) (arguments : List String) : IO UInt32 := do
  let result : Assembler.Result ← Assembler.invoke program arguments
  write settings result.outputs
  return result.status.toUInt32

def simulator (program : String) (settings : LogSettings) (arguments : List String) : IO UInt32 := do
  let (start, outputs) ← Simulator.start program arguments
  write settings outputs
  match start with
  | .leave status => return status.toUInt32
  | .prompt cpu => converse settings (← IO.getStdin) cpu

end Backstep

def main (arguments : List String) : IO UInt32 := do
  let executable ← IO.appPath
  let level ← IO.getEnv Backstep.LogSettings.levelVariable
  let timestamps ← IO.getEnv Backstep.LogSettings.timestampsVariable
  let (settings, warnings) := Backstep.LogSettings.ofEnvironment level timestamps
  Backstep.write settings warnings
  if executable.fileName == some "assembler" then
    Backstep.assembler executable.toString settings arguments
  else
    Backstep.simulator executable.toString settings arguments
