import Offside.Console.Basic

/-! Tables of texts in columns, with a space between two columns, as `rich` lays them out in release
13.7.1. -/
namespace Offside

structure Column where
  header : Text
  left : Nat
  right : Nat
  flushRight : Bool
  /-- Such a column gives way where the table is wider than the console. -/
  shrinks : Bool
  style : Style
deriving DecidableEq

namespace Column

def shorten (width : Nat) (t : Text) : Text :=
  if Cells.count t ≤ width then t else Cells.fit (width - 1) t ++ ['…']

def blank (style : Style) (width : Nat) : Segment := ⟨Cells.spaces width, style⟩

/-- The lines of a cell, none where the blanks leave no room. -/
def cellLines (col : Column) (width : Nat) (s : Segment) : List Line :=
  let room := width - col.left - col.right
  let justify := if col.flushRight then Cells.padLeft else Cells.padRight
  if room = 0 then []
  else (Wrap.lines .keep room s.text).map fun t =>
    [blank col.style col.left, ⟨justify room (shorten room (Wrap.dropExcess room t)), s.style⟩,
      blank col.style col.right]

end Column

/-- Every row has a text for each column. -/
structure Table where
  columns : List Column
  rows : List (List Segment)
deriving DecidableEq

namespace Table

/-- The nearest whole number to `n / d`, of two the even one. -/
def roundEven (n d : Nat) : Nat :=
  let q := n / d
  if 2 * (n % d) < d then q
  else if d < 2 * (n % d) then q + 1
  else q + q % 2

structure Width where
  cells : Nat
  shrinks : Bool
deriving DecidableEq

namespace Width

def total (ws : List Width) : Nat := ws.foldr (fun w n => w.cells + n) 0

/-- Takes `excess` cells from `sharers` columns of `widest` cells in even parts, from none more
than `most`. -/
def share (widest most : Nat) : Nat → Nat → List Width → List Width
  | _, _, [] => []
  | excess, sharers, w :: ws =>
    if w.shrinks ∧ w.cells = widest then
      let taken := min most (roundEven excess sharers)
      { w with cells := w.cells - taken } :: share widest most (excess - taken) (sharers - 1) ws
    else w :: share widest most excess sharers ws

/-- The widest columns shrink to the next widest until the table fits. Each turn takes a cell at
least, so that the first excess bounds their number. -/
def narrow (room : Nat) : Nat → List Width → List Width
  | 0, ws => ws
  | fuel + 1, ws =>
    let excess := total ws - room
    if excess = 0 then ws
    else
      let cells := (ws.filter (·.shrinks)).map (·.cells)
      let widest := cells.foldl max 0
      let next := (cells.filter (· ≠ widest)).foldl max 0
      narrow room fuel (share widest (min excess (widest - next)) excess (cells.count widest) ws)

end Width

def contents (t : Table) : List Nat :=
  t.rows.foldl (fun widths row => widths.zipWith max (row.map fun s => Cells.count s.text))
    (t.columns.map fun col => Cells.count col.header)

def widths (t : Table) (width : Nat) : List Nat :=
  let room := width - (t.columns.length - 1)
  let full := t.columns.zipWith
    (fun col content => ⟨min room (content + col.left + col.right), col.shrinks⟩) t.contents
  (Width.narrow room (Width.total full) full).map (·.cells)

/-- A row as high as its highest cell; beside the others it stays blank. -/
def rowLines (widths : List Nat) (columns : List Column) (row : List Segment) : List Line :=
  let cells := (columns.zip row).zipWith (fun (col, s) w => (col, w, col.cellLines w s)) widths
  let height := (cells.map fun (_, _, ls) => ls.length).foldl max 0
  (List.range (max 1 height)).map fun i =>
    [⟨[' '], .plain⟩].intercalate (cells.map fun (col, w, ls) =>
      ls[i]?.getD [Column.blank (if height = 0 then .plain else col.style) w])

def horizontal (widths : List Nat) : Text :=
  List.replicate (widths.foldr (· + ·) 0 + (widths.length - 1)) '─'

def lines (t : Table) (width : Nat) : List Line :=
  let widths := t.widths width
  let header := t.columns.map fun col => { col with style := .emphasis }
  rowLines widths header (header.map fun col => ⟨col.header, col.style⟩) ++
    [⟨horizontal widths, .plain⟩] :: t.rows.flatMap (rowLines widths t.columns)

end Table
end Offside
