import Backstep.Log
import Backstep.Machine.Action
import Backstep.Machine.Disassembly
import Backstep.Prompt.Command

namespace Backstep.Prompt

open Text Isa Machine

def helpText : String :=
"Commands:
    run                      Run until halt or the breakpoint
    step [n]                 Execute n instructions (default 1)
    continue                 Resume after a breakpoint stop
    back [n]                 Undo n steps (default 1)
    register                 Show all registers
    reset                    Reload the program, keeping the breakpoint
    memory <addr> [count]    Dump count words starting at addr (default 8)
    break <addr>             Set the breakpoint (`break clear` removes it)
    list [addr]              Disassemble around addr (default: pc)
    print <reg>              Show one register (e.g. `print r3`)
    exit                     Leave the simulator
    help                     Show this message

Addresses accept decimal or 0x-prefixed hexadecimal."

def statusName : Status → String
  | .loaded => "Loaded"
  | .running => "Running"
  | .stoppedAtBreakpoint => "StoppedAtBreakpoint"
  | .halted => "Halted"

def current (cpu : Processor) : Output :=
  match cpu.disassemble cpu.pc with
  | .ok d => .line d.line
  | .error _ => .line s!"pc = {addressHex cpu.pc} (outside memory)"

def outcomeReport (cpu : Processor) : Except Fault Signal → List Output
  | .ok .halted => [.line s!"Halted at {addressHex cpu.pc}"]
  | .ok (.breakpointHit address) =>
    [.log .debug s!"breakpoint hit at {addressHex address}",
     .line s!"Breakpoint hit at {addressHex address}"]
  | .ok .interrupted => [.line s!"Interrupted at {addressHex cpu.pc}"]
  | .ok .stepped => []
  | .error fault => [.log .error fault.message]

def report (outcome : Except Fault Signal) (cpu : Processor) : List Output :=
  outcomeReport cpu outcome ++ [current cpu]

/-- Up to so many steps. The answer is `none` if all of them were taken and none of them halted. -/
def stepTimes : Nat → Processor → Option (Except Fault Signal) × Processor
  | 0, cpu => (none, cpu)
  | n + 1, cpu =>
    match cpu.step with
    | (.ok .stepped, after) => stepTimes n after
    | (outcome, after) => (some outcome, after)

def backTimes : Nat → Nat → List Output → Processor → Nat × List Output × Processor
  | 0, undone, log, cpu => (undone, log, cpu)
  | n + 1, undone, log, cpu =>
    match cpu.rewind with
    | (false, _) => (undone, log, cpu)
    | (true, before) =>
      let message :=
        s!"rewound to pc {addressHex before.pc} ({before.history.depth} snapshot(s) left)"
      backTimes n (undone + 1) (.log .debug message :: log) before

def registerLine (r : Nat) (value : Word) : Output :=
  let decimal := padLeft 6 ' ' (toString value.toNat)
  .line s!"r{r} = {addressHex value.toNat} {decimal}"

def registerLines (cpu : Processor) : List Output :=
  let breakpoint := (cpu.breakpoint.map addressHex).getD "none"
  cpu.state.registers.words.toList.zipIdx.map (fun (value, r) => registerLine r value) ++
  [.line s!"pc = {addressHex cpu.pc}",
   .line s!"status = {statusName cpu.status}, breakpoint = {breakpoint}, history = {cpu.history.depth}"]

/-- So many words from an address on, each of them looked up, up to the first address outside of
memory. Rows already made stand in reverse. -/
def memoryLines {m : Type → Type} [Monad m] (lookup : Nat → m (Except Fault Disassembly)) :
    Nat → Nat → List Output → m (List Output)
  | 0, _, rows => pure rows.reverse
  | n + 1, address, rows => do
    match ← lookup address with
    | .ok d => memoryLines lookup n (address + 1) (.line d.line :: rows)
    | .error fault => pure (.log .warn fault.message :: rows).reverse

def listRadius : Nat := 4

def marker (cpu : Processor) (address : Nat) : String :=
  match address == cpu.pc, cpu.breakpoint == some address with
  | true, true => "B>"
  | true, false => " >"
  | false, true => "B "
  | false, false => "  "

def listLines (cpu : Processor) (centre : Nat) : List Output :=
  let first := centre - listRadius
  let last := min (centre + listRadius) numberMax
  let found := (List.range' first (last + 1 - first)).map cpu.disassemble
  (found.takeWhile (·.isOk)).filterMap fun
    | .ok d => some (.line s!"{marker cpu d.address} {d.line}")
    | .error _ => none

def printLine (cpu : Processor) (r : Nat) : Output :=
  match cpu.register r with
  | .ok value => .line s!"r{r} = {value.toNat} ({addressHex value.toNat}, signed {signed value})"
  | .error fault => .log .warn fault.message

def execute (budget : Nat) (cpu : Processor) : Command → Option (List Output × Processor)
  | .run | .resume =>
    match cpu.run budget with
    | (none, _) => none
    | (some outcome, after) => some (report outcome after, after)
  | .step n =>
    match stepTimes n cpu with
    | (none, after) => some ([current after], after)
    | (some outcome, after) => some (report outcome after, after)
  | .back n =>
    let (undone, log, before) := backTimes n 0 [] cpu
    let exhausted :=
      if undone < n then [.log .warn s!"History exhausted after {undone} step(s)"] else []
    some (log.reverse ++ exhausted ++ [current before], before)
  | .registers => some (registerLines cpu, cpu)
  | .reset =>
    let cpu := cpu.reset
    some ([.log .debug "processor reset", current cpu], cpu)
  | .memory address n =>
    let count := min (address + n) numberMax - address
    some (memoryLines (m := Id) cpu.disassemble count address [], cpu)
  | .setBreak address =>
    some ([.line s!"Breakpoint set at {addressHex address}"], cpu.setBreakpoint address)
  | .clearBreak => some ([.line "Breakpoint cleared"], cpu.clearBreakpoint)
  | .list address => some (listLines cpu (address.getD cpu.pc), cpu)
  | .print r => some ([printLine cpu r], cpu)
  | .help => some ([.line helpText], cpu)
  | .exit => some ([], cpu)

inductive Reply where
  | leave
  | stay (outputs : List Output) (cpu : Processor)

def feed (budget : Nat) (cpu : Processor) (line : String) : Option Reply :=
  match Command.parse line.toList with
  | .ok none => some (.stay [] cpu)
  | .ok (some .exit) => some .leave
  | .ok (some command) => (execute budget cpu command).map fun (outputs, cpu) => .stay outputs cpu
  | .error error => some (.stay [.log .warn error.message] cpu)

end Backstep.Prompt
