import ExprLex.Token

/-!
# Events

While a text is read, each run leaves a trace: a string that is not closed on its line leaves a
warning, a run without characters is noted as discarded, and a token as scanned. An event is told
by its level and a message that names the place where the run begins.
-/
namespace ExprLex

inductive Level
  | debug
  | warning
deriving DecidableEq

def Level.label : Level → String
  | debug => "DEBUG"
  | warning => "WARNING"

inductive Event
  | unterminated
  | discarded
  | scanned (token : Token)
deriving DecidableEq

namespace Event

def channel : String := "mathlang.lexer.scanner"

def level : Event → Level
  | unterminated => .warning
  | discarded => .debug
  | scanned _ => .debug

def message (location : Location) : Event → String
  | unterminated => "Unterminated string literal at " ++ location.text
  | discarded => "Discarded empty run at " ++ location.text
  | scanned t => "Scanned " ++ t.text ++ " at " ++ location.text

end Event
end ExprLex
