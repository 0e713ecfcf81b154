import Offside.Json.Basic
import Offside.Token.Basic

/-! Tokens as JSON. -/
namespace Offside.Token

def toJson (t : Token) : Json := .object [
  ("kind".toList, .text t.kind.name.toList), ("lexeme".toList, .text t.lexeme),
  ("line".toList, .int t.place.line), ("column".toList, .int t.place.column)]

def document (ts : List Token) : Text := (Json.array (ts.map toJson)).write

end Offside.Token
