import Offside.Scan.Cursor
import Offside.Scan.Margin
import Offside.Scan.Piece
import Offside.Token.Basic

/-! A scan, step by step. Tokens are kept with the newest first, open levels with the innermost
first; the level of depth 0 is always open and not kept. -/
namespace Offside

structure Scan where
  cursor : Cursor
  levels : List Nat
  /-- The only blank allowed in margins, once one was met. -/
  mark : Option Char
  lineStart : Bool
  output : List Token
deriving DecidableEq

structure Halt where
  fault : Fault
  scan : Scan
deriving DecidableEq

namespace Scan

def start (source : Text) : Scan := ⟨.start source, [], none, true, []⟩

def tokens (s : Scan) : List Token := s.output.reverse

/-- The open levels, outermost first. -/
def stack (s : Scan) : List Nat := 0 :: s.levels.reverse

def emit (s : Scan) (kind : Kind) : Scan :=
  { s with output := ⟨kind, [], s.cursor.place⟩ :: s.output }

def accept (s : Scan) (kind : Kind) (lexeme : Text) (width : Nat) : Scan :=
  { s with
    cursor := s.cursor.skip width
    lineStart := kind == .newline
    output := ⟨kind, lexeme, s.cursor.place⟩ :: s.output }

@[simp] theorem tokens_start (source : Text) : (start source).tokens = [] := rfl

@[simp] theorem tokens_emit (s : Scan) (kind : Kind) :
    (s.emit kind).tokens = s.tokens ++ [⟨kind, [], s.cursor.place⟩] := by
  simp [tokens, emit]

@[simp] theorem tokens_accept (s : Scan) (kind : Kind) (lexeme : Text) (width : Nat) :
    (s.accept kind lexeme width).tokens = s.tokens ++ [⟨kind, lexeme, s.cursor.place⟩] := by
  simp [tokens, accept]

def halt (s : Scan) (cause : Cause) : Except Halt Scan :=
  .error ⟨⟨cause, s.cursor.place⟩, s⟩

/-- A line of the given depth opens one level or closes those that are deeper; what it closes
to must have been open. -/
def settle (s : Scan) (depth : Nat) (place : Position) : Except Halt Scan :=
  let s := { s with lineStart := false }
  if s.levels.headD 0 < depth then
    .ok { s with levels := depth :: s.levels, output := ⟨.indent, [], place⟩ :: s.output }
  else
    let closed := s.levels.takeWhile (depth < ·)
    let s := { s with
      levels := s.levels.dropWhile (depth < ·)
      output := List.replicate closed.length ⟨.dedent, [], place⟩ ++ s.output }
    if s.levels.headD 0 = depth then .ok s
    else .error ⟨⟨.unmatchedDedent, place⟩, s⟩

/-- Read the margin of a line; a line with nothing behind it leaves the levels alone. -/
def enterLine (s : Scan) : Except Halt Scan :=
  let margin := Margin.read s.mark s.cursor.rest
  let t := { s with cursor := s.cursor.skip margin.depth, mark := margin.mark }
  if margin.mixed then t.halt .mixedIndentation
  else match t.cursor.rest with
    | [] => .ok { t.emit .newline with lineStart := false }
    | c :: rest =>
      if isLineBreak c then
        let lexeme := lineBreakAt c rest
        .ok (t.accept .newline lexeme lexeme.length)
      else t.settle margin.depth s.cursor.place

def step (s : Scan) : Except Halt Scan :=
  if s.lineStart then s.enterLine
  else match s.cursor.rest with
    | [] => .ok s
    | c :: rest => match Piece.read c rest with
      | .blank => .ok { s with cursor := s.cursor.next }
      | .token kind lexeme width => .ok (s.accept kind lexeme width)
      | .fault cause width => { s with cursor := s.cursor.skip width }.halt cause

/-- Entering a line may read nothing, and a line is entered once. -/
def remaining (s : Scan) : Nat := 2 * s.cursor.rest.length + s.lineStart.toNat

@[simp] theorem cursor_emit (s : Scan) (kind : Kind) : (s.emit kind).cursor = s.cursor := rfl

theorem remaining_accept_lt (s : Scan) (kind : Kind) (lexeme : Text) {width : Nat}
    (hw : 0 < width) (hr : s.cursor.rest ≠ []) :
    (s.accept kind lexeme width).remaining < s.remaining := by
  have hp := List.length_pos_iff.2 hr
  have hb : (kind == Kind.newline).toNat ≤ 1 := Bool.toNat_le _
  simp only [remaining, accept, Cursor.rest_skip, List.length_drop]
  omega

theorem remaining_settle_lt {s t : Scan} {depth : Nat} {place : Position}
    (hs : s.lineStart = true) (h : s.settle depth place = .ok t) :
    t.remaining < s.remaining := by
  unfold settle at h
  dsimp only at h
  split at h
  · cases h; simp [remaining, hs]
  · split at h <;> cases h
    simp [remaining, hs]

theorem remaining_enterLine_lt {s t : Scan} (hs : s.lineStart = true)
    (hr : s.cursor.rest ≠ []) (h : s.enterLine = .ok t) : t.remaining < s.remaining := by
  unfold enterLine at h
  dsimp only at h
  generalize hm : Margin.read s.mark s.cursor.rest = margin at h
  split at h
  · cases h
  split at h
  · rename_i he
    have hp := List.length_pos_iff.2 hr
    cases h
    simp only [Cursor.rest_skip] at he
    simp only [remaining, cursor_emit, Cursor.rest_skip, he, hs]
    simp only [List.length_nil, Bool.toNat_false, Bool.toNat_true]
    omega
  · rename_i c rest he
    split at h
    · cases h
      refine Nat.lt_of_lt_of_le (remaining_accept_lt _ .newline _ ?_ ?_) ?_
      · exact List.length_pos_iff.2 (lineBreakAt_ne_nil c rest)
      · simp only [he]; simp
      · simp only [remaining, Cursor.rest_skip, List.length_drop]; omega
    · refine Nat.lt_of_lt_of_le (remaining_settle_lt (by exact hs) h) ?_
      simp only [remaining, Cursor.rest_skip, List.length_drop]; omega

theorem remaining_step_lt {s t : Scan} (hr : s.cursor.rest ≠ []) (h : s.step = .ok t) :
    t.remaining < s.remaining := by
  unfold step at h
  split at h
  · exact remaining_enterLine_lt ‹_› hr h
  · rename_i hs
    have hs : s.lineStart = false := by simpa using hs
    split at h
    · exact absurd ‹_› hr
    · rename_i c rest he
      split at h
      · cases h
        simp [remaining, he, hs]
      · rename_i hp
        cases h
        exact remaining_accept_lt _ _ _ (Piece.width_pos_of_read hp) hr
      · cases h

def run (s : Scan) : Except Halt Scan :=
  if _ : s.cursor.rest = [] then .ok s
  else match _ : s.step with
    | .error stopped => .error stopped
    | .ok t => t.run
termination_by s.remaining
decreasing_by apply remaining_step_lt <;> assumption

def finish (s : Scan) : Scan :=
  let s := if s.output.head?.any (·.kind == .newline) then s else s.emit .newline
  let closing : List Token := List.replicate s.levels.length ⟨.dedent, [], s.cursor.place⟩
  { s with levels := [], output := ⟨.eof, [], s.cursor.place⟩ :: closing ++ s.output }

def ofSource (source : Text) : Except Halt Scan := (start source).run.map finish

end Scan

/-- The tokens of a source, or its first fault. -/
def scan (source : Text) : Except Fault (List Token) :=
  match Scan.ofSource source with
  | .ok s => .ok s.tokens
  | .error stopped => .error stopped.fault

end Offside
