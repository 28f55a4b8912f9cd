import Backstep.Machine.State

namespace Backstep.Machine

open Isa

structure History (α : Type) where
  limit : Option Nat
  entries : List α
  depth : Nat
  depth_eq : depth = entries.length

namespace History

variable {α : Type}

def empty (limit : Option Nat) : History α := ⟨limit, [], 0, rfl⟩

def clear (h : History α) : History α := empty h.limit

def keep (limit : Option Nat) (entries : List α) : List α :=
  match limit with
  | none => entries
  | some n => entries.take n

def isFull (h : History α) : Bool :=
  match h.limit with
  | none => false
  | some n => n ≤ h.depth

def push (h : History α) (entry : α) : History α :=
  if h.isFull then
    let entries := keep h.limit (entry :: h.entries)
    ⟨h.limit, entries, entries.length, rfl⟩
  else ⟨h.limit, entry :: h.entries, h.depth + 1, by simp [h.depth_eq]⟩

def pop? (h : History α) : Option (α × History α) :=
  match eq : h.entries with
  | [] => none
  | entry :: rest => some (entry, ⟨h.limit, rest, h.depth - 1, by simp [h.depth_eq, eq]⟩)

end History

structure Config where
  memoryWords : Nat := 16384
  historyLimit : Option Nat := none
  deriving DecidableEq

def maxMemoryWords : Nat := 65536

inductive Status where | loaded | running | stoppedAtBreakpoint | halted
  deriving DecidableEq

inductive Signal where
  | stepped
  | halted
  | breakpointHit (address : Nat)
  | interrupted
  deriving DecidableEq

structure Processor where
  state : State
  initial : State
  breakpoint : Option Nat
  history : History State
  status : Status

namespace Processor

def new (config : Config) : Processor :=
  let state := State.zero (min config.memoryWords maxMemoryWords)
  ⟨state, state, none, .empty config.historyLimit, .loaded⟩

def capacity (cpu : Processor) : Nat := cpu.initial.memory.capacity

def pc (cpu : Processor) : Nat := cpu.state.pc

def register (cpu : Processor) (r : Nat) : Except Fault Word := cpu.state.registers.get r

def load (cpu : Processor) (program : List Word) : Except Fault Unit × Processor :=
  match (Memory.zero cpu.capacity).load program with
  | .ok memory =>
    let state := ⟨.zero, memory, 0⟩
    (.ok (), ⟨state, state, none, cpu.history.clear, .loaded⟩)
  | .error fault => (.error fault, cpu)

def loadImage (cpu : Processor) (text : String) : Except Fault Unit × Processor :=
  match Image.parse text with
  | .ok program => cpu.load program
  | .error fault => (.error fault, cpu)

def reset (cpu : Processor) : Processor :=
  { cpu with state := cpu.initial, history := cpu.history.clear, status := .loaded }

def setBreakpoint (cpu : Processor) (address : Nat) : Processor :=
  { cpu with breakpoint := some address }

def clearBreakpoint (cpu : Processor) : Processor := { cpu with breakpoint := none }

/-- One instruction. A halted processor stays as it is, and so does one whose instruction fails. -/
def step (cpu : Processor) : Except Fault Signal × Processor :=
  if cpu.status = .halted then (.ok .halted, cpu)
  else match cpu.state.advance with
    | .error fault => (.error fault, cpu)
    | .ok (state, halts) =>
      let history := cpu.history.push cpu.state
      if halts then (.ok .halted, { cpu with state, history, status := .halted })
      else (.ok .stepped, { cpu with state, history, status := .running })

def rewind (cpu : Processor) : Bool × Processor :=
  match cpu.history.pop? with
  | none => (false, cpu)
  | some (state, history) =>
    let status := if cpu.breakpoint = some state.pc then .stoppedAtBreakpoint else .loaded
    (true, { cpu with state, history, status })

end Processor

end Backstep.Machine
