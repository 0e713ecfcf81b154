import Offside.Position
import Offside.Text.Quoted
import Offside.Token.Kind

/-! Tokens. -/
namespace Offside

/-- The place is that of the token's first character. The lexeme of a string is its value, that
of a comment leaves out the number sign. -/
structure Token where
  kind : Kind
  lexeme : Text
  place : Position
deriving DecidableEq

namespace Token

def render (t : Token) : Text :=
  t.kind.name.toList ++ '(' :: Quoted.quote t.lexeme ++ ") @ ".toList ++
    Text.ofInt t.place.line ++ ':' :: Text.ofInt t.place.column

end Token
end Offside
