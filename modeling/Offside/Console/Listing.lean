import Offside.Console.Table
import Offside.Token.Basic

/-! The listing of a token stream: a title, a table with a row for each token, and a total. -/
namespace Offside

structure Listing where
  shown : List Token
  total : Nat
deriving DecidableEq

structure Row where
  kind : Text
  lexeme : Text
  line : Text
  column : Text
deriving DecidableEq

def Token.row (t : Token) : Row :=
  ⟨t.kind.name.toList, Quoted.quote t.lexeme, Text.ofInt t.place.line, Text.ofInt t.place.column⟩

def Row.cells (kindStyle : Style) (r : Row) : List Segment :=
  [⟨r.kind, kindStyle⟩, ⟨r.lexeme, .plain⟩, ⟨r.line, Role.position.style⟩,
    ⟨r.column, Role.position.style⟩]

namespace Listing

def ofTokens (hideComments : Bool) (ts : List Token) : Listing :=
  ⟨if hideComments then ts.filter (·.kind ≠ .comment) else ts, ts.length⟩

def hidden (l : Listing) : Nat := l.total - l.shown.length

/-- Hidden comments are part of the total. -/
def footer (l : Listing) : Text :=
  "Total Tokens: ".toList ++ Text.ofNat l.total ++
    if l.hidden = 0 then []
    else " (".toList ++ Text.ofNat l.hidden ++ " comment(s) hidden)".toList

def columns : List Column := [
  ⟨"Kind".toList, 0, 1, false, false, .plain⟩,
  ⟨"Lexeme".toList, 1, 1, false, true, .plain⟩,
  ⟨"Line".toList, 1, 1, true, true, Role.position.style⟩,
  ⟨"Col".toList, 1, 0, true, true, Role.position.style⟩]

def table (l : Listing) : Table :=
  ⟨columns, l.shown.map fun t => t.row.cells t.kind.role.style⟩

def title : Text := "LEXICAL ANALYSIS RESULT".toList

def lines (l : Listing) (c : Console) : List Line :=
  c.paragraph .title title ++ c.rule :: l.table.lines c.width ++
    c.rule :: c.paragraph .success l.footer

end Listing
end Offside
