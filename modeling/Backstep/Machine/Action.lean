import Backstep.Machine.Processor

namespace Backstep.Machine

open Isa

namespace Processor

/-- At most `budget` steps. The condition is told how often it was asked before. The answer is
`none` if the run would go on after the last step. -/
def stepWhile (goOn : Nat → Processor → Bool) :
    Nat → Nat → Bool → Processor → Option (Except Fault Signal) × Processor
  | 0, _, _, cpu => (none, cpu)
  | budget + 1, asked, resuming, cpu =>
    if goOn asked cpu = false then (some (.ok .interrupted), cpu)
    else if resuming = false ∧ cpu.breakpoint = some cpu.pc then
      (some (.ok (.breakpointHit cpu.pc)), { cpu with status := .stoppedAtBreakpoint })
    else match cpu.step with
      | (.ok .stepped, after) => stepWhile goOn budget (asked + 1) false after
      | (outcome, after) => (some outcome, after)

def runAsking (goOn : Nat → Processor → Bool) (budget : Nat) (cpu : Processor) :
    Option (Except Fault Signal) × Processor :=
  if cpu.status = .halted then (some (.ok .halted), cpu)
  else stepWhile goOn budget 0 (cpu.status == .stoppedAtBreakpoint) cpu

def runWhile (goOn : Processor → Bool) (budget : Nat) (cpu : Processor) :
    Option (Except Fault Signal) × Processor :=
  cpu.runAsking (fun _ => goOn) budget

def run (budget : Nat) (cpu : Processor) : Option (Except Fault Signal) × Processor :=
  cpu.runWhile (fun _ => true) budget

/-- A run that is interrupted after `n` instructions. -/
def runFor (n : Nat) (cpu : Processor) : Except Fault Signal × Processor :=
  match cpu.run n with
  | (some outcome, after) => (outcome, after)
  | (none, after) => (.ok .interrupted, after)

end Processor

inductive Action where
  | load (program : List Word)
  | loadImage (text : String)
  | reset
  | step
  | run
  | runFor (n : Nat)
  | runWhile (goOn : Processor → Bool)
  | runAsking (goOn : Nat → Processor → Bool)
  | rewind
  | setBreakpoint (address : Nat)
  | clearBreakpoint

inductive Answer where
  | done
  | signal (signal : Signal)
  | rewound (done : Bool)
  deriving DecidableEq

def Answer.ofRun :
    Option (Except Fault Signal) × Processor → Option (Except Fault Answer × Processor)
  | (none, _) => none
  | (some outcome, after) => some (outcome.map .signal, after)

namespace Processor

/-- The answer to an action and the processor after it. An open run that has not stopped after
`budget` steps has none. -/
def perform (budget : Nat) (cpu : Processor) : Action → Option (Except Fault Answer × Processor)
  | .load program =>
    let (result, after) := cpu.load program
    some (result.map fun _ => .done, after)
  | .loadImage text =>
    let (result, after) := cpu.loadImage text
    some (result.map fun _ => .done, after)
  | .reset => some (.ok .done, cpu.reset)
  | .step =>
    let (outcome, after) := cpu.step
    some (outcome.map .signal, after)
  | .run => Answer.ofRun (cpu.run budget)
  | .runFor n =>
    let (outcome, after) := cpu.runFor n
    some (outcome.map .signal, after)
  | .runWhile goOn => Answer.ofRun (cpu.runWhile goOn budget)
  | .runAsking goOn => Answer.ofRun (cpu.runAsking goOn budget)
  | .rewind =>
    let (undone, before) := cpu.rewind
    some (.ok (.rewound undone), before)
  | .setBreakpoint address => some (.ok .done, cpu.setBreakpoint address)
  | .clearBreakpoint => some (.ok .done, cpu.clearBreakpoint)

end Processor

end Backstep.Machine
