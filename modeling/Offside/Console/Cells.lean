import Offside.Text.Basic
import Offside.Unicode.Wide
import Offside.Unicode.ZeroWidth

/-! The cells that text takes on a console. This and all that is built on it, lines, paragraphs and
tables, stands for the library `rich` in one of its releases, 13.7.1. -/
namespace Offside.Cells

def ofChar (c : Char) : Nat :=
  if Unicode.isZeroWidth c then 0 else if Unicode.isWide c then 2 else 1

def count (t : Text) : Nat := t.foldr (fun c n => ofChar c + n) 0

def spaces (n : Nat) : Text := List.replicate n ' '

def padRight (width : Nat) (t : Text) : Text := t ++ spaces (width - count t)

def padLeft (width : Nat) (t : Text) : Text := spaces (width - count t) ++ t

/-- The beginning of a wider text that takes `width` cells, of several the one that halving meets
first. Where a character of two cells straddles the end, a space takes its place. -/
def cut (width : Nat) (t : Text) : Nat → Nat → Nat → Text
  | 0, _, _ => spaces width
  | fuel + 1, low, high =>
    let middle := (low + high) / 2
    let start := t.take (middle + 1)
    let straddles := (t[middle]?.map ofChar) = some 2
    if count start = width then start
    else if count start = width + 1 ∧ straddles then t.take middle ++ [' ']
    else if width < count start then cut width t fuel low middle
    else cut width t fuel middle high

def fit (width : Nat) (t : Text) : Text :=
  if width = 0 then []
  else if count t ≤ width then padRight width t
  else cut width t t.length 0 t.length

/-- Each tab becomes spaces up to the next stop; stops are 8 cells apart. Beside the text stand the
positions in it at which these spaces end. -/
def expandTabs (column position : Nat) : Text → Text × List Nat
  | [] => ([], [])
  | c :: cs =>
    if c = '\t' then
      let gap := 8 - column % 8
      let (t, ends) := expandTabs (column + gap) (position + gap) cs
      (spaces gap ++ t, (position + gap) :: ends)
    else
      let (t, ends) := expandTabs (column + ofChar c) (position + 1) cs
      (c :: t, ends)

theorem count_cons (c : Char) (t : Text) : count (c :: t) = ofChar c + count t := rfl

theorem count_append (t u : Text) : count (t ++ u) = count t + count u := by
  induction t with
  | nil => exact (Nat.zero_add _).symm
  | cons c t ih => rw [List.cons_append, count_cons, count_cons, ih, Nat.add_assoc]

end Offside.Cells
