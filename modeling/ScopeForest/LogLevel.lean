import ScopeForest.Text.Blank
import ScopeForest.Text.Decimal
import ScopeForest.Kind

namespace ScopeForest

inductive LogLevel
  | error | warn | info | debug | trace
  deriving DecidableEq, Repr

namespace LogLevel

def all : List LogLevel := [error, warn, info, debug, trace]

def name : LogLevel → String
  | error => "ERROR"
  | warn => "WARN"
  | info => "INFO"
  | debug => "DEBUG"
  | trace => "TRACE"

/-- The level that a text names in any case of its letters, or by a number from 1 to 5. -/
def ofText? (text : String) : Option LogLevel :=
  let word := String.ofList (text.toList.map Char.toUpper)
  match readName? all name word with
  | some level => some level
  | none => match Text.decimal? Text.maxWord64 text with
    | some (n + 1) => all[n]?
    | _ => none

/-- A text that names no level stands for warnings. -/
def ofText (text : String) : LogLevel :=
  (ofText? (Text.trim text)).getD warn

end LogLevel

end ScopeForest
