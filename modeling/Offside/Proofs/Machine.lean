import Offside.Proofs.Attempts
import Offside.Proofs.Indentation
import Offside.Proofs.Steps
import Offside.Proofs.TokenEnds

/-! A scan in its smallest steps, with the whole stack of open levels: it is stuck on no source. -/
namespace Offside

open Attempt

/-- A scan with the whole stack of open levels, innermost first. -/
structure Machine where
  cursor : Cursor
  stack : List Nat
  mark : Option Char
  lineStart : Bool
  output : List Token

namespace Machine

variable {rounds : Nat}

def start (source : Text) : Machine := ⟨.start source, [0], none, true, []⟩

def top (m : Machine) : Attempt Nat :=
  match m.stack with
  | [] => stuck
  | level :: _ => return level

def accept (m : Machine) (kind : Kind) (lexeme : Text) (behind : Cursor) : Machine :=
  { m with cursor := behind, output := ⟨kind, lexeme, m.cursor.place⟩ :: m.output }

def unwind (depth : Nat) (place : Position) :
    List Nat → List Token → Attempt (List Nat × List Token)
  | [], _ => stuck
  | level :: stack, output =>
    if depth < level then unwind depth place stack (⟨.dedent, [], place⟩ :: output)
    else return (level :: stack, output)

def settle (m : Machine) (depth : Nat) (place : Position) : Attempt Machine := do
  let current ← m.top
  if current < depth then
    return { m with stack := depth :: m.stack, output := ⟨.indent, [], place⟩ :: m.output }
  else if depth < current then
    let (stack, output) ← unwind depth place m.stack m.output
    let closed := { m with stack, output }
    let level ← closed.top
    if level = depth then return closed else throw ⟨.unmatchedDedent, place⟩
  else return m

def breakLine (m : Machine) : Attempt Machine := do
  let (x, c) ← m.cursor.advance
  if x = '\r' ∧ c.peekAhead? 0 = some '\n' then
    let (y, c) ← c.advance
    return { m.accept .newline [x, y] c with lineStart := true }
  else return { m.accept .newline [x] c with lineStart := true }

def enterLine (rounds : Nat) (m : Machine) : Attempt Machine := do
  let (mark, depth, c) ← loop takeMargin rounds (m.mark, 0, m.cursor)
  let entered := { m with cursor := c, mark }
  if c.atEnd then return { entered.accept .newline [] c with lineStart := false }
  else
    let x ← c.peek
    if isLineBreak x then entered.breakLine
    else
      let within := { entered with lineStart := false }
      within.settle depth m.cursor.place

def comment (rounds : Nat) (m : Machine) : Attempt Machine := do
  let (_, c) ← m.cursor.advance
  let (body, c) ← loop (takeRun (!isLineBreak ·)) rounds ([], c)
  return m.accept .comment body c

def word (rounds : Nat) (m : Machine) : Attempt Machine := do
  let (word, c) ← loop (takeRun continuesWord) rounds ([], m.cursor)
  return m.accept (.ofWord word) word c

def number (rounds : Nat) (m : Machine) : Attempt Machine := do
  let (lexeme, c) ← loop takeNumeral rounds (false, [], m.cursor)
  return m.accept .number lexeme c

def literal (rounds : Nat) (m : Machine) : Attempt Machine := do
  let (_, c) ← m.cursor.advance
  let (value, c) ← loop takeLiteral rounds ([], c)
  return m.accept .string value c

def symbol (m : Machine) : Attempt Machine := do
  let x ← m.cursor.peek
  match Kind.symbolAt? (x :: (m.cursor.peekAhead? 1).toList) with
  | some (lexeme, kind) =>
    let c ← m.cursor.advanceBy lexeme.length
    return m.accept kind lexeme c
  | none => throw ⟨if x = '!' then .bareBang else .unexpected x, m.cursor.place⟩

def piece (rounds : Nat) (m : Machine) : Attempt Machine := do
  let x ← m.cursor.peek
  if isBlank x then
    let (_, c) ← m.cursor.advance
    return { m with cursor := c }
  else if x = '#' then m.comment rounds
  else if isLineBreak x then m.breakLine
  else if startsWord x then m.word rounds
  else if Unicode.isDecimalDigit x then m.number rounds
  else if x = '"' then m.literal rounds
  else m.symbol

def round (rounds : Nat) (m : Machine) : Attempt (Machine ⊕ Machine) := do
  if m.cursor.atEnd then return .inr m
  else if m.lineStart then return .inl (← m.enterLine rounds)
  else return .inl (← m.piece rounds)

def closeLevels (place : Position) : List Nat → List Token → List Token
  | _ :: level :: stack, output =>
    closeLevels place (level :: stack) (⟨.dedent, [], place⟩ :: output)
  | _, output => output

def finish (m : Machine) : List Token :=
  let ended := if m.output.head?.any (·.kind == .newline) then m.output
    else ⟨.newline, [], m.cursor.place⟩ :: m.output
  (⟨.eof, [], m.cursor.place⟩ :: closeLevels m.cursor.place m.stack ended).reverse

/-- The tokens of a source, where every loop has the given number of rounds. -/
def scan (rounds : Nat) (source : Text) : Attempt (List Token) := do
  let m ← loop (round rounds) rounds (start source)
  return m.finish

theorem unwind_eq (depth : Nat) (place : Position) (levels : List Nat) (output : List Token) :
    unwind depth place (levels ++ [0]) output =
      pure (levels.dropWhile (depth < ·) ++ [0],
        List.replicate (levels.takeWhile (depth < ·)).length ⟨.dedent, [], place⟩ ++ output) := by
  induction levels generalizing output with
  | nil =>
    -- No depth is below 0, so the lowest level always stays.
    rfl
  | cons level levels ih =>
    rw [List.cons_append, unwind]
    by_cases hd : depth < level
    · rw [if_pos hd, ih]
      simp [hd, List.replicate_succ']
    · rw [if_neg hd]
      simp [hd]

theorem closeLevels_eq (place : Position) (levels : List Nat) (output : List Token) :
    closeLevels place (levels ++ [0]) output =
      List.replicate levels.length ⟨.dedent, [], place⟩ ++ output := by
  induction levels generalizing output with
  | nil => rfl
  | cons level levels ih =>
    have hstep : closeLevels place (level :: (levels ++ [0])) output =
        closeLevels place (levels ++ [0]) (⟨.dedent, [], place⟩ :: output) := by
      cases levels <;> rfl
    rw [List.cons_append, hstep, ih]
    simp [List.replicate_succ']

end Machine

namespace Scan

variable {s t : Scan} {c : Char} {rest : Text} {rounds : Nat}

def machine (s : Scan) : Machine :=
  ⟨s.cursor, s.openLevels, s.mark, s.lineStart, s.output⟩

/-- What a step or a run of the machine comes to. -/
def outcome : Except Halt Scan → Except Fault Machine
  | .ok t => .ok t.machine
  | .error stopped => .error stopped.fault

def take (s : Scan) : Piece → Except Halt Scan
  | .blank => .ok { s with cursor := s.cursor.next }
  | .token kind lexeme width => .ok (s.accept kind lexeme width)
  | .fault cause width => { s with cursor := s.cursor.skip width }.halt cause

theorem step_eq_take (hl : s.lineStart = false) (hr : s.cursor.rest = c :: rest) :
    s.step = s.take (.read c rest) := step_of_not_lineStart hl hr

theorem machine_top (s : Scan) : s.machine.top = pure (s.levels.headD 0) := by
  unfold machine Machine.top openLevels
  cases s.levels <;> rfl

theorem machine_accept (hl : s.lineStart = false) (kind : Kind) (hk : kind ≠ .newline)
    (lexeme : Text) (width : Nat) :
    pure (s.machine.accept kind lexeme (s.cursor.skip width)) =
      settled (outcome (s.take (.token kind lexeme width))) := by
  have hn : (kind == Kind.newline) = false := beq_eq_false_iff_ne.2 hk
  have hline : s.lineStart = (s.accept kind lexeme width).lineStart := hl.trans hn.symm
  unfold machine Machine.accept
  rw [hline]
  rfl

theorem closing_of_eq {depth : Nat} (hd : s.levels.headD 0 = depth) (place : Position) :
    s.closing depth place = { s with lineStart := false } := by
  unfold closing
  cases hl : s.levels with
  | nil => rfl
  | cons level levels =>
    rw [hl, List.headD_cons] at hd
    simp [hd]

theorem machine_settle (depth : Nat) (place : Position) :
    { s with lineStart := false }.machine.settle depth place =
      settled (outcome (s.settle depth place)) := by
  unfold Machine.settle
  rw [machine_top, pure_bind]
  by_cases hd : s.levels.headD 0 < depth
  · rw [if_pos hd, settle_of_lt hd]
    rfl
  rw [if_neg hd, settle_of_le (Nat.not_lt.1 hd)]
  by_cases hc : depth < s.levels.headD 0
  · rw [if_pos hc]
    change (Machine.unwind depth place (s.levels ++ [0]) s.output >>= _) = _
    rw [Machine.unwind_eq, pure_bind]
    change ((s.closing depth place).machine.top >>= _) = _
    rw [machine_top, pure_bind]
    by_cases hk : (s.levels.dropWhile (depth < ·)).headD 0 = depth
    · rw [if_pos hk]
      exact if_pos hk
    · rw [if_neg hk]
      exact if_neg hk
  · -- On the level of the line before nothing is closed, and the machine takes nothing off.
    have hk : s.levels.headD 0 = depth := Nat.le_antisymm (Nat.not_lt.1 hc) (Nat.not_lt.1 hd)
    have hclosing := closing_of_eq hk place
    have hlevels : (s.levels.dropWhile (depth < ·)).headD 0 = depth := by
      change (s.closing depth place).levels.headD 0 = depth
      rw [hclosing]
      exact hk
    rw [if_neg hc, if_pos hlevels, hclosing]
    rfl

theorem machine_breakLine (hr : s.cursor.rest = c :: rest) :
    s.machine.breakLine =
      pure (s.accept .newline (lineBreakAt c rest) (lineBreakAt c rest).length).machine := by
  have hnext := Cursor.rest_next_of_cons hr
  unfold Machine.breakLine
  change (s.cursor.advance >>= _) = _
  rw [Cursor.advance_of_cons hr, pure_bind]
  dsimp only
  have hahead : s.cursor.next.peekAhead? 0 = rest.head? := by
    rw [Cursor.peekAhead?, hnext, List.head?_eq_getElem?]
  rw [hahead]
  unfold lineBreakAt
  by_cases hc : c = '\r' ∧ rest.head? = some '\n'
  · obtain ⟨more, hm⟩ := List.head?_eq_some_iff.1 hc.2
    rw [if_pos hc, if_pos hc, Cursor.advance_of_cons (hnext.trans hm)]
    rfl
  · rw [if_neg hc, if_neg hc]
    rfl

theorem machine_enterLine (s : Scan) (h : s.cursor.rest.length < rounds) :
    s.machine.enterLine rounds = settled (outcome s.enterLine) := by
  unfold Machine.enterLine
  change (loop takeMargin rounds (s.mark, 0, s.cursor) >>= _) = _
  rw [loop_takeMargin s.mark h]
  change (settled (s.margin.outcome 0 s.cursor) >>= _) = _
  unfold Margin.outcome
  -- The machine stops where the blanks differ; only a margin read through goes on.
  cases hm : s.margin.mixed with
  | true =>
    rw [enterLine_of_mixed hm]
    rfl
  | false =>
    rw [enterLine_of_not_mixed hm, Nat.zero_add]
    change (if s.behindMargin.cursor.atEnd = true then _
      else s.behindMargin.cursor.peek >>= _) = _
    cases hr : s.behindMargin.cursor.rest with
    | nil =>
      rw [if_pos (Cursor.atEnd_of_nil hr)]
      rfl
    | cons c rest =>
      rw [Cursor.peek_unless_atEnd hr]
      dsimp only
      by_cases hc : isLineBreak c = true
      · rw [if_pos hc, if_pos hc]
        exact machine_breakLine hr
      · rw [if_neg hc, if_neg hc]
        exact machine_settle (s := s.behindMargin) s.margin.depth s.cursor.place

section Pieces

variable (hl : s.lineStart = false) (hr : s.cursor.rest = c :: rest)
  (h : s.cursor.rest.length < rounds)
include hr h

theorem advance_with_rounds : s.cursor.advance = pure (c, s.cursor.next) ∧
    s.cursor.next.rest = rest ∧ s.cursor.next.rest.length < rounds := by
  have hnext := Cursor.rest_next_of_cons hr
  rw [hr, List.length_cons] at h
  rw [hnext]
  exact ⟨Cursor.advance_of_cons hr, rfl, by omega⟩

include hl

theorem machine_comment (hc : c = '#') :
    s.machine.comment rounds = settled (outcome (s.take (.read c rest))) := by
  obtain ⟨hadvance, hnext, hrounds⟩ := advance_with_rounds hr h
  have hpiece : Piece.read c rest = .token .comment (rest.takeWhile (!isLineBreak ·))
      ((rest.takeWhile (!isLineBreak ·)).length + 1) := by simp [Piece.read, hc, isBlank]
  rw [hpiece]
  unfold Machine.comment
  change (s.cursor.advance >>= _) = _
  rw [hadvance, pure_bind]
  dsimp only
  rw [loop_takeRun [] hrounds, hnext, pure_bind, List.nil_append]
  exact machine_accept hl .comment (by simp) (rest.takeWhile (!isLineBreak ·))
    ((rest.takeWhile (!isLineBreak ·)).length + 1)

theorem machine_word (hc : startsWord c = true) :
    s.machine.word rounds = settled (outcome (s.take (.read c rest))) := by
  have hcontinues : continuesWord c = true := by rw [continuesWord, hc, Bool.true_or]
  have htext : s.cursor.rest.takeWhile continuesWord = c :: rest.takeWhile continuesWord := by
    rw [hr, List.takeWhile_cons_of_pos hcontinues]
  rw [Piece.read_of_startsWord hc]
  unfold Machine.word
  change (loop (takeRun continuesWord) rounds ([], s.cursor) >>= _) = _
  rw [loop_takeRun [] h, htext, pure_bind, List.nil_append]
  exact machine_accept hl _ (Kind.ofWord_ne (by simp)) _ _

theorem machine_number (hc : Unicode.isDecimalDigit c = true) :
    s.machine.number rounds = settled (outcome (s.take (.read c rest))) := by
  have htext : numeral s.cursor.rest = c :: numeral rest := by rw [hr, numeral_cons hc]
  rw [Piece.read_of_isDecimalDigit hc]
  unfold Machine.number
  change (loop takeNumeral rounds (false, [], s.cursor) >>= _) = _
  rw [loop_takeNumeral h, htext, pure_bind]
  exact machine_accept hl .number (by simp) _ _

theorem machine_literal (hc : c = '"') :
    s.machine.literal rounds = settled (outcome (s.take (.read c rest))) := by
  obtain ⟨hadvance, hnext, hrounds⟩ := advance_with_rounds hr h
  rw [hc, Piece.read_quote]
  unfold Machine.literal
  change (s.cursor.advance >>= _) = _
  rw [hadvance, pure_bind]
  dsimp only
  rw [loop_takeLiteral hrounds, hnext]
  cases Literal.read rest with
  | closed value width => exact machine_accept hl .string (by simp) value (width + 1)
  | broken width => rfl
  | unterminated width => rfl

omit h in
theorem machine_symbol : s.machine.symbol = settled (outcome (s.take (.ofSymbol c rest))) := by
  have hahead : c :: (s.cursor.peekAhead? 1).toList = (c :: rest).take 2 := by
    rw [Cursor.peekAhead?, hr, List.getElem?_cons_succ, ← List.head?_eq_getElem?,
      ← List.take_one]
    rfl
  unfold Machine.symbol
  change (s.cursor.peek >>= fun x => match Kind.symbolAt? (x :: (s.cursor.peekAhead? 1).toList) with
    | some (lexeme, kind) => _
    | none => _) = _
  rw [Cursor.peek_of_cons hr, pure_bind, hahead, ← Kind.symbolAt?_take]
  unfold Piece.ofSymbol
  cases hs : Kind.symbolAt? (c :: rest) with
  | none => rfl
  | some symbol =>
    obtain ⟨lexeme, kind⟩ := symbol
    obtain ⟨-, more, hm⟩ := Kind.exists_of_symbolAt? hs
    have hlength : lexeme.length ≤ s.cursor.rest.length := by
      rw [hr, hm, List.length_append]
      exact Nat.le_add_right _ _
    dsimp only
    change (s.cursor.advanceBy lexeme.length >>= _) = _
    rw [Cursor.advanceBy_eq hlength, pure_bind]
    exact machine_accept hl kind (Kind.symbolAt?_ne hs (by simp)) _ _

theorem machine_piece : s.machine.piece rounds = settled (outcome s.step) := by
  rw [step_eq_take hl hr]
  unfold Machine.piece
  change (s.cursor.peek >>= _) = _
  rw [Cursor.peek_of_cons hr, pure_bind]
  -- The branches stand in the order of the machine, which is that of `Piece.read`.
  by_cases hb : isBlank c = true
  · rw [if_pos hb, Piece.read, if_pos hb]
    change (s.cursor.advance >>= _) = _
    rw [Cursor.advance_of_cons hr, pure_bind]
    rfl
  rw [if_neg hb]
  by_cases hc : c = '#'
  · rw [if_pos hc]
    exact machine_comment hl hr h hc
  rw [if_neg hc]
  by_cases hn : isLineBreak c = true
  · rw [if_pos hn, machine_breakLine hr, Piece.read, if_neg hb, if_neg hc, if_pos hn]
    rfl
  rw [if_neg hn]
  by_cases hw : startsWord c = true
  · rw [if_pos hw]
    exact machine_word hl hr h hw
  rw [if_neg hw]
  by_cases hd : Unicode.isDecimalDigit c = true
  · rw [if_pos hd]
    exact machine_number hl hr h hd
  rw [if_neg hd]
  by_cases hq : c = '"'
  · rw [if_pos hq]
    exact machine_literal hl hr h hq
  · rw [if_neg hq, machine_symbol hl hr, Piece.read, if_neg hb, if_neg hc, if_neg hn, if_neg hw,
      if_neg hd, if_neg hq]

end Pieces

/-- A round of the machine is a step of the scan. -/
theorem machine_round (h : s.cursor.rest.length < rounds) (hr : s.cursor.rest ≠ []) :
    s.machine.round rounds = settled ((outcome s.step).map .inl) := by
  obtain ⟨c, rest, hr⟩ := List.exists_cons_of_ne_nil hr
  unfold Machine.round
  change (if s.cursor.atEnd = true then _ else if s.lineStart = true then _ else _) = _
  rw [if_neg (by simp [Cursor.atEnd_of_cons hr])]
  cases hl : s.lineStart with
  | true =>
    rw [if_pos rfl, machine_enterLine s h, step_of_lineStart hl]
    cases outcome s.enterLine <;> rfl
  | false =>
    rw [if_neg (by simp), machine_piece hl hr h]
    cases outcome s.step <;> rfl

theorem machine_run (h : s.remaining < rounds) :
    loop (Machine.round rounds) rounds s.machine = settled (outcome s.run) := by
  refine loop_eq machine (fun s => outcome s.run) remaining (fun s hs => ?_) h
  -- The rounds that are enough for the steps are enough for the loops within a step.
  have hrest : s.cursor.rest.length < rounds := by
    unfold remaining at hs
    omega
  by_cases hr : s.cursor.rest = []
  · left
    unfold Machine.round
    change (if s.cursor.atEnd = true then _ else _) = _
    rw [if_pos (Cursor.atEnd_of_nil hr), run_of_rest_eq_nil hr]
    rfl
  · rw [machine_round hrest hr]
    rcases advance_or_stop hr with ⟨t, ht⟩ | ⟨stopped, hstop⟩
    · right
      rw [ht.moves.2, run_of_moves ht.moves]
      exact ⟨t, rfl, remaining_step_lt hr ht.moves.2, rfl⟩
    · left
      rw [hstop.step_eq, hstop.run_eq]
      rfl

theorem machine_finish (s : Scan) : s.machine.finish = s.finish.tokens := by
  unfold Machine.finish finish tokens machine openLevels
  dsimp only
  rw [Machine.closeLevels_eq]
  split <;> rfl

end Scan

/-- With a round for each step and one more, the machine ends as the scan does. -/
theorem Machine.scan_eq {rounds : Nat} {source : Text} (h : 2 * source.length + 1 < rounds) :
    Machine.scan rounds source = settled (Offside.scan source) := by
  have hremaining : (Scan.start source).remaining < rounds := h
  unfold Machine.scan
  change (loop (Machine.round rounds) rounds (Scan.start source).machine >>= _) = _
  rw [Scan.machine_run hremaining]
  unfold Offside.scan Scan.ofSource
  cases (Scan.start source).run with
  | error stopped => rfl
  | ok s =>
    change (pure s.machine.finish : Attempt (List Token)) = _
    rw [s.machine_finish]
    rfl

end Offside
