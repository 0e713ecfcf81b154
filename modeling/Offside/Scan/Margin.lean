import Offside.Text.Layout

/-! The blanks that a line begins with. -/
namespace Offside

/-- The depth counts the blanks that agree with the mark; a margin is mixed if another blank
follows them. -/
structure Margin where
  mark : Option Char
  depth : Nat
  mixed : Bool
deriving DecidableEq

namespace Margin

/-- The first blank that any margin holds becomes the mark of all margins. -/
def read (mark : Option Char) (line : Text) : Margin :=
  let blanks := line.takeWhile isBlank
  let mark := mark.or blanks.head?
  let agreed := blanks.takeWhile (some · == mark)
  ⟨mark, agreed.length, decide (agreed.length < blanks.length)⟩

end Margin
end Offside
