import Offside.Text.Layout

/-! Places in a source. -/
namespace Offside

/-- Lines and columns are counted from 1 by the scanner; a token built by hand may hold any. -/
structure Position where
  line : Int
  column : Int
deriving DecidableEq

namespace Position

def start : Position := ⟨1, 1⟩

def after (p : Position) (c : Char) (rest : Text) : Position :=
  if endsLine c rest then ⟨p.line + 1, 1⟩ else ⟨p.line, p.column + 1⟩

theorem after_of_not_isLineBreak {c : Char} (h : isLineBreak c = false) (p : Position)
    (rest : Text) : p.after c rest = ⟨p.line, p.column + 1⟩ := by
  simp only [isLineBreak, Bool.or_eq_false_iff, beq_eq_false_iff_ne] at h
  simp [after, endsLine, h.1, h.2]

end Position
end Offside
