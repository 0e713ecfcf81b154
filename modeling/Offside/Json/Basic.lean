import Offside.Text.Basic

/-! JSON documents in ASCII, each item and field on a line of its own. -/
namespace Offside

inductive Json where
  | int (n : Int)
  | text (t : Text)
  | array (items : List Json)
  | object (fields : List (Text × Json))

namespace Json

def unit (n : Nat) : Text := '\\' :: 'u' :: Text.hexDigits 4 n

/-- A character that is not visible ASCII is given by its one or two 16-bit code units, unless
it has a short escape. -/
def escape (c : Char) : Text :=
  if c = '"' then ['\\', '"']
  else if c = '\\' then ['\\', '\\']
  else if c = '\n' then ['\\', 'n']
  else if c = '\r' then ['\\', 'r']
  else if c = '\t' then ['\\', 't']
  else if c = '\x08' then ['\\', 'b']
  else if c = '\x0c' then ['\\', 'f']
  else if 0x20 ≤ c.toNat ∧ c.toNat < 0x7F then [c]
  else if c.toNat < 0x10000 then unit c.toNat
  else unit (0xD800 + (c.toNat - 0x10000) / 0x400) ++ unit (0xDC00 + (c.toNat - 0x10000) % 0x400)

def writeText (t : Text) : Text := '"' :: t.flatMap escape ++ ['"']

def breakAt (depth : Nat) : Text := '\n' :: List.replicate (2 * depth) ' '

mutual

def writeAt (depth : Nat) : Json → Text
  | int n => Text.ofInt n
  | text t => writeText t
  | array [] => ['[', ']']
  | array (v :: vs) =>
    '[' :: (breakAt (depth + 1) ++ (writeAt (depth + 1) v ++ writeItems (depth + 1) vs)) ++
      (breakAt depth ++ [']'])
  | object [] => ['\x7b', '\x7d']
  | object ((k, v) :: fs) =>
    '\x7b' :: (breakAt (depth + 1) ++ (writeText k ++ [':', ' '] ++
      (writeAt (depth + 1) v ++ writeFields (depth + 1) fs))) ++ (breakAt depth ++ ['\x7d'])

def writeItems (depth : Nat) : List Json → Text
  | [] => []
  | v :: vs => ',' :: (breakAt depth ++ (writeAt depth v ++ writeItems depth vs))

def writeFields (depth : Nat) : List (Text × Json) → Text
  | [] => []
  | (k, v) :: fs =>
    ',' :: (breakAt depth ++ (writeText k ++ [':', ' '] ++
      (writeAt depth v ++ writeFields depth fs)))

end

def write (v : Json) : Text := v.writeAt 0

end Json
end Offside
