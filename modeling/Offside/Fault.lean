import Offside.Position

/-! Why and where a source is refused. -/
namespace Offside

inductive Cause where
  | unexpected (c : Char)
  | bareBang
  | mixedIndentation
  | unmatchedDedent
  | brokenString
  | unterminatedString
deriving DecidableEq

def Cause.message : Cause → Text
  | unexpected c => "Unexpected character '".toList ++ [c, '\x27']
  | bareBang => "Unexpected character '!'. Did you mean '!='?".toList
  | mixedIndentation => "Mixing tabs and spaces is not allowed.".toList
  | unmatchedDedent => "Inconsistent dedent (unmatched indentation level).".toList
  | brokenString =>
    "Unterminated string literal (newline encountered inside string).".toList
  | unterminatedString => "Unterminated string literal (EOF reached).".toList

structure Fault where
  cause : Cause
  place : Position
deriving DecidableEq

namespace Fault

def locate (detail : Text) (place : Position) : Text :=
  detail ++ " (Line ".toList ++ Text.ofInt place.line ++ ", Column ".toList ++
    Text.ofInt place.column ++ [')']

def message (f : Fault) : Text := locate f.cause.message f.place

end Fault
end Offside
