import Offside.Text.Basic

/-! The kinds of token and the families they fall into. -/
namespace Offside

inductive Kind where
  | indent | dedent | newline | eof
  | kwStart | kwSet | kwShow | kwListen | kwIf | kwElse | kwLoop | kwTick | kwEnd
  | tyHour | tyMinute | tyText | tyFlag
  | identifier | number | string | boolean
  | plus | minus | star | slash | assign | eq | neq | lt | gt | le | ge
  | lparen | rparen | colon | comma
  | comment
deriving DecidableEq, Inhabited

/-- Structural kinds stand for layout; parentheses, colon and comma are in no family, nor are
names, literals and comments. -/
inductive Family where
  | structural | keyword | typeName | operator
deriving DecidableEq

namespace Kind

def all : List Kind := [
  indent, dedent, newline, eof,
  kwStart, kwSet, kwShow, kwListen, kwIf, kwElse, kwLoop, kwTick, kwEnd,
  tyHour, tyMinute, tyText, tyFlag,
  identifier, number, string, boolean,
  plus, minus, star, slash, assign, eq, neq, lt, gt, le, ge,
  lparen, rparen, colon, comma,
  comment]

theorem mem_all (k : Kind) : k ∈ all := by cases k <;> decide

def name : Kind → String
  | indent => "INDENT" | dedent => "DEDENT" | newline => "NEWLINE" | eof => "EOF"
  | kwStart => "START" | kwSet => "SET" | kwShow => "SHOW" | kwListen => "LISTEN"
  | kwIf => "IF" | kwElse => "ELSE" | kwLoop => "LOOP" | kwTick => "TICK" | kwEnd => "END"
  | tyHour => "HOUR" | tyMinute => "MINUTE" | tyText => "TEXT" | tyFlag => "FLAG"
  | identifier => "IDENTIFIER" | number => "NUMBER" | string => "STRING" | boolean => "BOOLEAN"
  | plus => "PLUS" | minus => "MINUS" | star => "STAR" | slash => "SLASH" | assign => "ASSIGN"
  | eq => "EQ" | neq => "NEQ" | lt => "LT" | gt => "GT" | le => "LE" | ge => "GE"
  | lparen => "LPAREN" | rparen => "RPAREN" | colon => "COLON" | comma => "COMMA"
  | comment => "COMMENT"

def ordinal (k : Kind) : Nat := all.idxOf k + 1

def ofName? (n : String) : Option Kind := all.find? (fun k => k.name == n)

theorem ofName?_name (k : Kind) : ofName? k.name = some k := by cases k <;> decide

def family? : Kind → Option Family
  | indent | dedent | newline | eof => some .structural
  | kwStart | kwSet | kwShow | kwListen | kwIf | kwElse | kwLoop | kwTick | kwEnd => some .keyword
  | tyHour | tyMinute | tyText | tyFlag => some .typeName
  | plus | minus | star | slash | assign | eq | neq | lt | gt | le | ge => some .operator
  | _ => none

end Kind
end Offside
