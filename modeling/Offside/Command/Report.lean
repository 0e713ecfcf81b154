import Offside.Fault

/-! What a command leaves behind: its status, what it printed and what happened on the way. -/
namespace Offside

inductive Event where
  | reading (path : Text)
  | unreadable (path : Text)
  | scanning (length : Nat)
  | scanned (tokens : Nat) (lines : Int)
  | refused (fault : Fault)
deriving DecidableEq

namespace Event

def source : Event → Text
  | reading _ | unreadable _ => "timescript.cli".toList
  | scanning _ | scanned _ _ | refused _ => "timescript.lexer.scanner".toList

def message : Event → Text
  | reading path => "Reading ".toList ++ path
  | unreadable path => "Failed to read ".toList ++ path
  | scanning length => "Scanning ".toList ++ Text.ofNat length ++ " characters".toList
  | scanned tokens lines =>
    "Scanned ".toList ++ Text.ofNat tokens ++ " tokens over ".toList ++ Text.ofInt lines ++
      " line(s)".toList
  | refused fault =>
    "Lexical error at ".toList ++ Text.ofInt fault.place.line ++
      ':' :: Text.ofInt fault.place.column ++ ':' :: ' ' :: fault.cause.message

/-- The name of an unreadable file that ends in a line break ends its line as well. -/
def endsLine : Event → Bool
  | unreadable path => path.getLast? == some '\n'
  | _ => false

def logLine (e : Event) : Text :=
  "DEBUG ".toList ++ e.source ++ ':' :: ' ' :: e.message ++ if e.endsLine then [] else ['\n']

end Event

structure Report where
  status : Nat
  output : Text
  events : List Event
deriving DecidableEq

/-- Events are shown only on demand. -/
def Report.log (r : Report) (verbose : Bool) : Text :=
  if verbose then r.events.flatMap (·.logLine) else []

end Offside
