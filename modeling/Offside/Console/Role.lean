import Offside.Console.Style
import Offside.Token.Kind

/-! The parts that text plays on the console, each with its style. -/
namespace Offside

inductive Role where
  | title | rule
  | number | string | identifier | keyword | typeName | operator | structural | comment | default
  | position | success | error | errorDetail | warning
deriving DecidableEq

namespace Role

def all : List Role := [title, rule, number, string, identifier, keyword, typeName, operator,
  structural, comment, default, position, success, error, errorDetail, warning]

def name : Role → String
  | title => "title" | rule => "rule" | number => "number" | string => "string"
  | identifier => "identifier" | keyword => "keyword" | typeName => "type"
  | operator => "operator" | structural => "structural" | comment => "comment"
  | default => "default" | position => "position" | success => "success" | error => "error"
  | errorDetail => "error_detail" | warning => "warning"

def ofName? (n : String) : Option Role := all.find? (fun r => r.name == n)

def style : Role → Style
  | title => { Style.colored .brightCyan with bold := true }
  | rule | structural | position => .colored .brightBlack
  | number => .colored .brightGreen
  | string => .colored .yellow
  | identifier => { Style.colored .white with dim := true }
  | keyword => { Style.colored .cyan with bold := true }
  | typeName => .colored .magenta
  | operator => .colored .brightMagenta
  | comment => { Style.colored .brightBlack with italic := true }
  | default => .colored .white
  | success => { Style.colored .green with bold := true }
  | error => { Style.colored .red with bold := true }
  | errorDetail => .colored .brightRed
  | warning => { Style.colored .yellow with bold := true }

end Role

/-- Truth values are shown as keywords. -/
def Kind.role (k : Kind) : Role :=
  match k with
  | .number => .number
  | .string => .string
  | .identifier => .identifier
  | .comment => .comment
  | .boolean => .keyword
  | _ => match k.family? with
    | some .keyword => .keyword
    | some .typeName => .typeName
    | some .operator => .operator
    | some .structural => .structural
    | none => .default

end Offside
