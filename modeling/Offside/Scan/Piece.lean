import Offside.Fault
import Offside.Scan.Literal
import Offside.Token.Vocabulary
import Offside.Unicode.DecimalDigit
import Offside.Unicode.Letter

/-! What stands at the cursor behind the indentation of a line. -/
namespace Offside

/-- The width counts the code points read, for a fault those before the place it is found at. -/
inductive Piece where
  | blank
  | token (kind : Kind) (lexeme : Text) (width : Nat)
  | fault (cause : Cause) (width : Nat)
deriving DecidableEq

def startsWord (c : Char) : Bool := Unicode.isLetter c || c == '_'

def continuesWord (c : Char) : Bool := startsWord c || Unicode.isDecimalDigit c

def numeral (t : Text) : Text :=
  let whole := t.takeWhile Unicode.isDecimalDigit
  match t.dropWhile Unicode.isDecimalDigit with
  | '.' :: rest => whole ++ '.' :: rest.takeWhile Unicode.isDecimalDigit
  | _ => whole

namespace Piece

def text (kind : Kind) (lexeme : Text) : Piece := token kind lexeme lexeme.length

/-- The literal whose opening quote has been read. -/
def ofLiteral : Literal → Piece
  | .closed value width => token .string value (width + 1)
  | .broken width => fault .brokenString (width + 1)
  | .unterminated width => fault .unterminatedString (width + 1)

def ofSymbol (c : Char) (rest : Text) : Piece :=
  match Kind.symbolAt? (c :: rest) with
  | some (lexeme, kind) => text kind lexeme
  | none => fault (if c = '!' then .bareBang else .unexpected c) 0

def read (c : Char) (rest : Text) : Piece :=
  if isBlank c then blank
  else if c = '#' then
    let body := rest.takeWhile (!isLineBreak ·)
    token .comment body (body.length + 1)
  else if isLineBreak c then text .newline (lineBreakAt c rest)
  else if startsWord c then
    let word := c :: rest.takeWhile continuesWord
    text (.ofWord word) word
  else if Unicode.isDecimalDigit c then text .number (c :: numeral rest)
  else if c = '"' then ofLiteral (.read rest)
  else ofSymbol c rest

theorem width_pos_of_read {c : Char} {rest : Text} {kind : Kind} {lexeme : Text} {width : Nat}
    (h : read c rest = token kind lexeme width) : 0 < width := by
  unfold read at h
  split at h
  · cases h
  split at h
  · cases h; omega
  split at h
  · cases h
    exact List.length_pos_iff.2 (lineBreakAt_ne_nil c rest)
  split at h
  · cases h; simp
  split at h
  · cases h; simp
  split at h
  · unfold ofLiteral at h
    split at h <;> cases h
    omega
  unfold ofSymbol at h
  split at h
  · rename_i hs
    cases h
    exact List.length_pos_iff.2 (Kind.exists_of_symbolAt? hs).1
  · cases h

end Piece
end Offside
