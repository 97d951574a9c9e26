import Stylesmith.Text.Lower

set_option autoImplicit false

namespace Stylesmith.Build

inductive LogLevel where
  | silent
  | error
  | warn
  | info
  | debug
  deriving DecidableEq, Repr

namespace LogLevel

def name : LogLevel → Text
  | silent => "off"
  | error => "error"
  | warn => "warn"
  | info => "info"
  | debug => "debug"

def known : List (Text × LogLevel) := [
  ("silent", silent), ("off", silent), ("error", error), ("warn", warn), ("warning", warn),
  ("info", info), ("debug", debug)]

/-- Reads the name of a level, in any case. The error has the name in lower case. -/
def parse (t : Text) : Except Text LogLevel :=
  match known.find? fun (name, _) => name == Text.lower t with
  | some (_, level) => .ok level
  | none => .error (("Invalid log level: " : Text) ++ Text.lower t)

end LogLevel

end Stylesmith.Build
