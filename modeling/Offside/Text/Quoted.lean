import Offside.Text.Basic
import Offside.Unicode.Printable

/-! Texts in quotes, with every code point visible. -/
namespace Offside.Quoted

/-- A double quote serves only where the text holds a single one and no double one. -/
def delimiter (t : Text) : Char :=
  if '\x27' ∈ t ∧ '"' ∉ t then '"' else '\x27'

def numeric (c : Char) : Text :=
  if c.toNat < 0x100 then '\\' :: 'x' :: Text.hexDigits 2 c.toNat
  else if c.toNat < 0x10000 then '\\' :: 'u' :: Text.hexDigits 4 c.toNat
  else '\\' :: 'U' :: Text.hexDigits 8 c.toNat

def escape (delimiter c : Char) : Text :=
  if c = delimiter ∨ c = '\\' then ['\\', c]
  else if c = '\t' then ['\\', 't']
  else if c = '\n' then ['\\', 'n']
  else if c = '\r' then ['\\', 'r']
  else if Unicode.isPrintable c then [c]
  else numeric c

def quote (t : Text) : Text :=
  delimiter t :: t.flatMap (escape (delimiter t)) ++ [delimiter t]

end Offside.Quoted
