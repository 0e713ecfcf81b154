import Offside.Text.Layout

/-! String literals behind their opening quote. -/
namespace Offside

/-- The width counts the code points read: up to and with the closing quote, or up to the line
break or the end that cuts the literal off. -/
inductive Literal where
  | closed (value : Text) (width : Nat)
  | broken (width : Nat)
  | unterminated (width : Nat)
deriving DecidableEq

namespace Literal

/-- What a backslash and the character behind it stand for; a backslash before any other
character is dropped. -/
def unescape : Char → Char
  | 'n' => '\n'
  | 'r' => '\r'
  | 't' => '\t'
  | c => c

def cons (c : Char) (width : Nat) : Literal → Literal
  | closed value w => closed (c :: value) (w + width)
  | broken w => broken (w + width)
  | unterminated w => unterminated (w + width)

/-- An escaped line break belongs to the literal, another one cuts it off. -/
def read : Text → Literal
  | [] => unterminated 0
  | '"' :: _ => closed [] 1
  | ['\\'] => unterminated 1
  | '\\' :: c :: rest => (read rest).cons (unescape c) 2
  | c :: rest => if isLineBreak c then broken 0 else (read rest).cons c 1

end Literal
end Offside
