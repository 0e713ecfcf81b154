/-! Texts as sequences of code points, and the numbers written in them. -/
namespace Offside

/-- Every count and position counts code points. -/
abbrev Text := List Char

instance : LawfulBEq Text := inferInstance

namespace Text

def ofNat (n : Nat) : Text := Nat.toDigits 10 n

def ofInt : Int → Text
  | .ofNat n => ofNat n
  | .negSucc n => '-' :: ofNat (n + 1)

/-- The last `width` hexadecimal digits of a number, in lower case. -/
def hexDigits : Nat → Nat → Text
  | 0, _ => []
  | width + 1, n => hexDigits width (n / 16) ++ [Nat.digitChar (n % 16)]

@[simp] theorem length_hexDigits (width n : Nat) : (hexDigits width n).length = width := by
  induction width generalizing n with
  | zero => rfl
  | succ width ih => simp [hexDigits, ih]

/-- The pieces between the occurrences of a separator, one more than there are occurrences. -/
def fields (separator : Char) : Text → List Text
  | [] => [[]]
  | c :: cs =>
    match fields separator cs with
    | [] => [[c]]
    | piece :: pieces =>
      if c = separator then [] :: piece :: pieces else (c :: piece) :: pieces

end Text
end Offside
