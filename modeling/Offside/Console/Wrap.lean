import Offside.Console.Cells
import Offside.Unicode.WhiteSpace

/-! Breaking a line of text to a width, as `rich` does in release 13.7.1. -/
namespace Offside.Wrap
open Unicode (isWhiteSpace)

/-- White space belongs to the word before it, that in front of the first word to the first; a
line without words has none. -/
def words (t : Text) : List Text :=
  match t.splitBy (fun a b => !isWhiteSpace a || isWhiteSpace b) with
  | first :: more =>
    if first.all isWhiteSpace then
      match more with
      | [] => []
      | second :: more => (first ++ second) :: more
    else first :: more
  | [] => []

def trimRight (t : Text) : Text := (t.reverse.dropWhile isWhiteSpace).reverse

/-- Chunks of at most `width` cells, the first with `used` of them taken. -/
def chunks (width : Nat) : Nat → Text → List Text
  | _, [] => [[]]
  | used, c :: cs =>
    let stays := used + Cells.ofChar c ≤ width
    match chunks width (if stays then used + Cells.ofChar c else Cells.ofChar c) cs with
    | [] => [[c]]
    | chunk :: more => if stays then (c :: chunk) :: more else [] :: (c :: chunk) :: more

inductive Overlong where
  | fold | keep
deriving DecidableEq

/-- The lines before the current one, newest first, and the cells that the current one takes. -/
structure Lines where
  done : List Text
  current : Text
  used : Nat

namespace Lines

def extend (l : Lines) (word : Text) (used : Nat) : Lines :=
  { l with current := l.current ++ word, used }

def push (l : Lines) (word : Text) (used : Nat) : Lines :=
  if l.done.isEmpty && l.current.isEmpty then l.extend word used
  else ⟨l.current :: l.done, word, used⟩

def add (overlong : Overlong) (width : Nat) (l : Lines) (word : Text) : Lines :=
  let needed := Cells.count (trimRight word)
  if l.used + needed ≤ width then l.extend word (l.used + Cells.count word)
  else if width < needed ∧ overlong = .fold then
    (chunks width 0 word).foldl (fun l chunk => l.push chunk (Cells.count chunk)) l
  else l.push word (Cells.count word)

def all (l : Lines) : List Text := (l.current :: l.done).reverse

end Lines

/-- A line with more code points than cells loses white space at its end, at most that excess. -/
def dropExcess (width : Nat) (t : Text) : Text :=
  t.take (max (trimRight t).length (min t.length width))

/-- The lines of a text that holds no line break, with the white space at their ends. -/
def lines (overlong : Overlong) (width : Nat) (t : Text) : List Text :=
  match words t with
  | [] => [t]
  | ws => (ws.foldl (Lines.add overlong width) ⟨[], [], 0⟩).all

/-- The pieces of a text that begins at `position`, parted at each of the ascending `ends`. -/
def partAt (ends : List Nat) (position : Nat) : Text → List Text
  | [] => []
  | c :: cs =>
    let ends := ends.dropWhile (· ≤ position)
    match partAt ends (position + 1) cs with
    | [] => [[c]]
    | piece :: more =>
      if ends.head? = some (position + 1) then [c] :: piece :: more else (c :: piece) :: more

end Offside.Wrap
