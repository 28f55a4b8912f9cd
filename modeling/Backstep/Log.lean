import Backstep.Text.Input

namespace Backstep

open Text

inductive Level where | debug | info | warn | error
  deriving DecidableEq

namespace Level

def tag : Level → String
  | debug => "DEBUG"
  | info => "INFO"
  | warn => "WARN"
  | error => "ERROR"

def rank : Level → Nat
  | debug => 0
  | info => 1
  | warn => 2
  | error => 3

end Level

inductive Output where
  | text (text : String)
  | log (level : Level) (message : String)
  deriving DecidableEq

def Output.line (text : String) : Output := .text (text ++ "\n")

structure LogSettings where
  threshold : Option Level := some .info
  timestamps : Bool := true
  deriving DecidableEq

namespace LogSettings

def enabled (settings : LogSettings) (level : Level) : Bool :=
  match settings.threshold with
  | none => false
  | some least => least.rank ≤ level.rank

def render (settings : LogSettings) (stamp : String) : Output → String
  | .text text => text
  | .log level message =>
    if settings.enabled level then
      (if settings.timestamps then stamp else "") ++ s!"[{level.tag}] {message}\n"
    else ""

def threshold? (value : String) : Except String (Option Level) :=
  match String.ofList ((trim value.toList).map Char.toLower) with
  | "debug" | "trace" => .ok (some .debug)
  | "info" | "" => .ok (some .info)
  | "warn" | "warning" => .ok (some .warn)
  | "error" => .ok (some .error)
  | "off" | "none" => .ok none
  | other => .error other

def levelVariable : String := "LCSIM_LOG"

def timestampsVariable : String := "LCSIM_LOG_TIMESTAMPS"

def showsTimestamps (value : String) : Bool :=
  match String.ofList (trim value.toList) with
  | "0" | "false" | "no" => false
  | _ => true

def ofEnvironment (level? timestamps? : Option String) : LogSettings × List Output :=
  let timestamps := (timestamps?.map showsTimestamps).getD true
  match level?.map threshold? with
  | none => ({ timestamps }, [])
  | some (.ok threshold) => ({ threshold, timestamps }, [])
  | some (.error bad) =>
    ({ timestamps }, [.log .warn s!"unknown {levelVariable} value '{bad}', using info"])

end LogSettings

end Backstep
