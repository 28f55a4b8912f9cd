import Backstep.Text.Input

namespace Backstep.Prompt

open Text

inductive Command where
  | run
  | step (count : Nat)
  | resume
  | back (count : Nat)
  | registers
  | reset
  | memory (address count : Nat)
  | setBreak (address : Nat)
  | clearBreak
  | list (address : Option Nat)
  | print (register : Nat)
  | exit
  | help
  deriving DecidableEq

inductive CommandError where
  | unknown (name : String)
  | invalidAddress (token : String)
  | invalidCount (token : String)
  | invalidRegister (token : String)
  deriving DecidableEq

def CommandError.message : CommandError → String
  | unknown name => s!"Unknown command or bad arguments: `{name}` (try `help`)"
  | invalidAddress token => s!"Invalid address: `{token}`"
  | invalidCount token => s!"Invalid count: `{token}`"
  | invalidRegister token => s!"Invalid register: `{token}`"

def numberMax : Nat := 0xFFFFFFFFFFFFFFFF

def defaultRows : Nat := 8

def address (token : List Char) : Except CommandError Nat :=
  let value? := match afterHexMark? token with
    | some hex => natural? 16 numberMax hex
    | none => natural? 10 numberMax token
  match value? with
  | some value => .ok value
  | none => .error (.invalidAddress (String.ofList token))

def count (token : List Char) : Except CommandError Nat :=
  match (natural? 10 numberMax token).filter (0 < ·) with
  | some value => .ok value
  | none => .error (.invalidCount (String.ofList token))

/-- A register's number, with or without `$` and any number of `r`s before it. -/
def register (token : List Char) : Except CommandError Nat :=
  let bare := match token with
    | '$' :: rest => rest
    | rest => rest
  match natural? 10 255 (bare.dropWhile fun c => c == 'r' || c == 'R') with
  | some value => .ok value
  | none => .error (.invalidRegister (String.ofList token))

inductive Verb where
  | run | step | resume | back | registers | reset | memory | breakpoint | list | print | exit | help
  deriving DecidableEq

def Verb.ofName? : String → Option Verb
  | "run" | "r" => some .run
  | "step" | "s" => some .step
  | "continue" | "c" => some .resume
  | "back" | "b" => some .back
  | "register" | "registers" | "reg" => some .registers
  | "reset" => some .reset
  | "memory" | "mem" | "m" => some .memory
  | "break" => some .breakpoint
  | "list" | "l" => some .list
  | "print" | "p" => some .print
  | "exit" | "quit" | "q" => some .exit
  | "help" | "h" | "?" => some .help
  | _ => none

def Command.ofWords (name : String) (arguments : List (List Char)) : Except CommandError Command :=
  match Verb.ofName? name, arguments with
  | some .run, [] => .ok .run
  | some .step, [] => .ok (.step 1)
  | some .step, [n] => return .step (← count n)
  | some .resume, [] => .ok .resume
  | some .back, [] => .ok (.back 1)
  | some .back, [n] => return .back (← count n)
  | some .registers, [] => .ok .registers
  | some .reset, [] => .ok .reset
  | some .memory, [a] => return .memory (← address a) defaultRows
  | some .memory, [a, n] => return .memory (← address a) (← count n)
  | some .breakpoint, [a] =>
    if a == "clear".toList then .ok .clearBreak else return .setBreak (← address a)
  | some .list, [] => .ok (.list none)
  | some .list, [a] => return .list (some (← address a))
  | some .print, [r] => return .print (← register r)
  | some .exit, [] => .ok .exit
  | some .help, [] => .ok .help
  | _, _ => .error (.unknown name)

def Command.parse (line : List Char) : Except CommandError (Option Command) :=
  match words line with
  | [] => .ok none
  | name :: arguments =>
    (Command.ofWords (String.ofList (name.map Char.toLower)) (arguments.take 2)).map some

end Backstep.Prompt
