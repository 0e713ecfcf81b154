import Offside.Json.Basic

/-! Reading JSON documents whose values are texts, whole numbers, arrays and objects. -/
namespace Offside
namespace Json

def isSpace (c : Char) : Bool := c == ' ' || c == '\t' || c == '\n' || c == '\r'

def skipSpace (t : Text) : Text := t.dropWhile isSpace

def hexDigit? (c : Char) : Option Nat :=
  if '0' ≤ c ∧ c ≤ '9' then some (c.toNat - '0'.toNat)
  else if 'a' ≤ c ∧ c ≤ 'f' then some (c.toNat - 'a'.toNat + 10)
  else if 'A' ≤ c ∧ c ≤ 'F' then some (c.toNat - 'A'.toNat + 10)
  else none

def hexNumber? (digits : Text) : Option Nat :=
  digits.foldlM (fun n c => (hexDigit? c).map (n * 16 + ·)) 0

def unescape? : Char → Option Char
  | '"' => some '"'
  | '\\' => some '\\'
  | '/' => some '/'
  | 'b' => some '\x08'
  | 'f' => some '\x0c'
  | 'n' => some '\n'
  | 'r' => some '\r'
  | 't' => some '\t'
  | _ => none

/-- The numbers in a text behind its opening quote, and what stands behind the closing one. An
escape of four digits gives a 16-bit unit, anything else the number of its code point. -/
def readUnits : Text → Option (List Nat × Text)
  | [] => none
  | '"' :: rest => some ([], rest)
  | '\\' :: 'u' :: a :: b :: c :: d :: rest => do
    let n ← hexNumber? [a, b, c, d]
    let (ns, behind) ← readUnits rest
    return (n :: ns, behind)
  | '\\' :: c :: rest => do
    let c ← unescape? c
    let (ns, behind) ← readUnits rest
    return (c.toNat :: ns, behind)
  | c :: rest =>
    if c.toNat < 0x20 then none
    else do
      let (ns, behind) ← readUnits rest
      return (c.toNat :: ns, behind)

/-- The characters that the numbers stand for: a high surrogate and the low one behind it are one
character, and neither stands alone. -/
def joinUnits : List Nat → Option Text
  | [] => some []
  | high :: low :: ns =>
    if 0xD800 ≤ high ∧ high < 0xDC00 then
      if 0xDC00 ≤ low ∧ low < 0xE000 then
        (joinUnits ns).map (.ofNat (0x10000 + (high - 0xD800) * 0x400 + (low - 0xDC00)) :: ·)
      else none
    else if 0xDC00 ≤ high ∧ high < 0xE000 then none
    else (joinUnits (low :: ns)).map (.ofNat high :: ·)
  | [n] => if 0xD800 ≤ n ∧ n < 0xE000 then none else some [.ofNat n]

def readText (t : Text) : Option (Text × Text) := do
  let (ns, rest) ← readUnits t
  return (← joinUnits ns, rest)

/-- A run of decimal digits that has no needless zero in front. -/
def readNat (t : Text) : Option (Nat × Text) :=
  let digits := t.takeWhile Char.isDigit
  if digits = [] ∨ digits.head? = some '0' ∧ digits ≠ ['0'] then none
  else some (Nat.ofDigitChars 10 digits 0, t.dropWhile Char.isDigit)

def readInt : Text → Option (Int × Text)
  | '-' :: rest => (readNat rest).map fun (n, behind) => (-n, behind)
  | t => (readNat t).map fun (n, behind) => (n, behind)

def readKey : Text → Option (Text × Text)
  | '"' :: rest =>
    match readText rest with
    | some (key, rest) =>
      match skipSpace rest with
      | ':' :: rest => some (key, skipSpace rest)
      | _ => none
    | none => none
  | _ => none

theorem length_skipSpace_le (t : Text) : (skipSpace t).length ≤ t.length :=
  (List.dropWhile_suffix isSpace).length_le

mutual

def readValue : Text → Option (Json × Text)
  | '"' :: rest => (readText rest).map fun (s, behind) => (text s, skipSpace behind)
  | '[' :: rest =>
    match skipSpace rest with
    | ']' :: behind => some (array [], skipSpace behind)
    | _ => (readItems (skipSpace rest)).map fun (vs, behind) => (array vs, behind)
  | '\x7b' :: rest =>
    match skipSpace rest with
    | '\x7d' :: behind => some (object [], skipSpace behind)
    | _ => (readFields (skipSpace rest)).map fun (fs, behind) => (object fs, behind)
  | t => (readInt t).map fun (n, behind) => (int n, skipSpace behind)
termination_by t => 2 * t.length
decreasing_by all_goals have := length_skipSpace_le rest; simp only [List.length_cons]; omega

/-- The items up to the end of an array. What stands behind an item is always shorter than what
the item began; the test makes that known. -/
def readItems (t : Text) : Option (List Json × Text) :=
  match readValue t with
  | some (v, ',' :: rest) =>
    if rest.length < t.length then
      (readItems (skipSpace rest)).map fun (vs, behind) => (v :: vs, behind)
    else none
  | some (v, ']' :: rest) => some ([v], skipSpace rest)
  | _ => none
termination_by 2 * t.length + 1
decreasing_by
  · omega
  · have := length_skipSpace_le rest; omega

def readFields (t : Text) : Option (List (Text × Json) × Text) :=
  match readKey t with
  | none => none
  | some (key, inner) =>
    if inner.length < t.length then
      match readValue inner with
      | some (v, ',' :: rest) =>
        if rest.length < t.length then
          (readFields (skipSpace rest)).map fun (fs, behind) => ((key, v) :: fs, behind)
        else none
      | some (v, '\x7d' :: rest) => some ([(key, v)], skipSpace rest)
      | _ => none
    else none
termination_by 2 * t.length + 1
decreasing_by
  · omega
  · have := length_skipSpace_le rest; omega

end

def read (t : Text) : Option Json :=
  match readValue (skipSpace t) with
  | some (v, []) => some v
  | _ => none

example : read "\x7b \"a\" : [1, -20, \"\\ud83d\\ude00\\n/\"] , \"b\":[]\x7d ".toList =
    some (.object [("a".toList, .array [.int 1, .int (-20), .text "😀\n/".toList]),
      ("b".toList, .array [])]) := by cbv

end Json
end Offside
