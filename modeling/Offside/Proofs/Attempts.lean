import Offside.Proofs.Margins
import Offside.Proofs.PrintedTokens
import Offside.Scan.Cursor

/-! Reading one character at a time, in loops that have a number of rounds. There is nothing to
look at behind the last character and nothing to do without rounds left: an attempt at it is
stuck. -/
namespace Offside

/-- An attempt that is not stuck ends with a value or a fault. -/
abbrev Attempt (α : Type) := ExceptT Fault Option α

namespace Attempt

variable {α β ι : Type} {rounds : Nat}

def stuck : Attempt α := .mk none

def settled (result : Except Fault α) : Attempt α := .mk (some result)

def loop (round : α → Attempt (α ⊕ β)) : Nat → α → Attempt β
  | 0, _ => stuck
  | rounds + 1, a => do
    match ← round a with
    | .inl next => loop round rounds next
    | .inr result => return result

/-- A loop has rounds enough if every round that does not leave it makes its state smaller, and
then it has the result that the rounds keep. -/
theorem loop_eq {round : α → Attempt (α ⊕ β)} (state : ι → α) (result : ι → Except Fault β)
    (size : ι → Nat)
    (h : ∀ i, size i < rounds → round (state i) = settled ((result i).map .inr) ∨
      ∃ j, round (state i) = pure (.inl (state j)) ∧ size j < size i ∧ result j = result i)
    {i : ι} (hi : size i < rounds) : loop round rounds (state i) = settled (result i) := by
  induction rounds generalizing i with
  | zero => exact absurd hi (Nat.not_lt_zero _)
  | succ rounds ih =>
    unfold loop
    rcases h i hi with hleave | ⟨j, hnext, hlt, hresult⟩
    · rw [hleave]
      cases result i <;> rfl
    · rw [hnext, pure_bind, ← hresult]
      exact ih (fun k hk => h k (Nat.lt_succ_of_lt hk))
        (Nat.lt_of_lt_of_le hlt (Nat.le_of_lt_succ hi))

end Attempt

open Attempt

namespace Cursor

variable {c : Cursor} {x : Char} {rest : Text} {rounds : Nat}

def atEnd (c : Cursor) : Bool := c.rest.isEmpty

def peek (c : Cursor) : Attempt Char :=
  match c.rest with
  | [] => stuck
  | x :: _ => return x

/-- Unlike `peek` it may look behind the last character. -/
def peekAhead? (c : Cursor) (n : Nat) : Option Char := c.rest[n]?

def advance (c : Cursor) : Attempt (Char × Cursor) :=
  match c.rest with
  | [] => stuck
  | x :: _ => return (x, c.next)

def advanceBy (c : Cursor) : Nat → Attempt Cursor
  | 0 => return c
  | n + 1 => do
    let (_, c) ← c.advance
    c.advanceBy n

theorem atEnd_of_nil (h : c.rest = []) : c.atEnd = true := by simp [atEnd, h]

theorem atEnd_of_cons (h : c.rest = x :: rest) : c.atEnd = false := by simp [atEnd, h]

theorem peek_of_cons (h : c.rest = x :: rest) : c.peek = pure x := by simp [peek, h]

theorem peek_unless_atEnd {α : Type} (h : c.rest = x :: rest) (ended : Attempt α)
    (seen : Char → Attempt α) :
    (if c.atEnd = true then ended else c.peek >>= seen) = seen x := by
  rw [if_neg (by simp [atEnd_of_cons h]), peek_of_cons h, pure_bind]

theorem advance_of_cons (h : c.rest = x :: rest) : c.advance = pure (x, c.next) := by
  simp [advance, h]

theorem rest_next_of_cons (h : c.rest = x :: rest) : c.next.rest = rest := by simp [h]

theorem skip_next (c : Cursor) (n : Nat) : c.next.skip n = c.skip (n + 1) := rfl

theorem advanceBy_eq {n : Nat} (h : n ≤ c.rest.length) : c.advanceBy n = pure (c.skip n) := by
  induction n generalizing c with
  | zero => rfl
  | succ n ih =>
    obtain ⟨x, rest, hr⟩ := List.exists_cons_of_length_pos (Nat.lt_of_lt_of_le n.succ_pos h)
    have hn : n ≤ c.next.rest.length := by
      rw [rest_next_of_cons hr]
      simpa [hr] using h
    rw [advanceBy, advance_of_cons hr, pure_bind]
    exact ih hn

end Cursor

namespace Margin

variable {mark : Option Char} {x m : Char} {rest : Text}

theorem read_of_ends (h : ∀ c, rest.head? = some c → isBlank c = false) :
    read mark rest = ⟨mark, 0, false⟩ := by
  have hr : read mark ([] ++ rest) = read mark [] := read_append (by simp) h
  rw [List.nil_append] at hr
  rw [hr]
  simp [read]

theorem read_cons (hx : isBlank x = true) (hm : mark.or (some x) = some x) :
    read mark (x :: rest) =
      ⟨(read (some x) rest).mark, (read (some x) rest).depth + 1, (read (some x) rest).mixed⟩ := by
  have hblanks : (x :: rest).takeWhile isBlank = x :: rest.takeWhile isBlank :=
    List.takeWhile_cons_of_pos hx
  have hagreed : (x :: rest.takeWhile isBlank).takeWhile (some · == some x) =
      x :: (rest.takeWhile isBlank).takeWhile (some · == some x) :=
    List.takeWhile_cons_of_pos (beq_self_eq_true (some x))
  unfold read
  dsimp only
  rw [hblanks, List.head?_cons, hm, hagreed, Option.some_or]
  simp only [List.length_cons, Nat.add_lt_add_iff_right]

theorem read_cons_of_ne (hx : isBlank x = true) (hne : x ≠ m) :
    read (some m) (x :: rest) = ⟨some m, 0, true⟩ := by
  have h : read (some m) ([] ++ x :: rest) = ⟨some m, 0, true⟩ :=
    read_of_mixed (by simp) (by simp) rfl hx hne rest
  exact h

end Margin

section Loops

variable {rounds : Nat} {p : Char → Bool} {mark : Option Char} {t : Text} {x : Char} {c : Cursor}

def takeRun (p : Char → Bool) : Text × Cursor → Attempt ((Text × Cursor) ⊕ (Text × Cursor))
  | (text, c) => do
    if c.atEnd then return .inr (text, c)
    else
      let x ← c.peek
      if p x then
        let (x, c) ← c.advance
        return .inl (text ++ [x], c)
      else return .inr (text, c)

theorem loop_takeRun (text : Text) (h : c.rest.length < rounds) :
    loop (takeRun p) rounds (text, c) =
      pure (text ++ c.rest.takeWhile p, c.skip (c.rest.takeWhile p).length) := by
  refine loop_eq id (fun i => .ok (i.1 ++ i.2.rest.takeWhile p,
    i.2.skip (i.2.rest.takeWhile p).length)) (fun i => i.2.rest.length)
    (fun (text, c) _ => ?_) (i := (text, c)) h
  unfold takeRun id
  dsimp only
  cases hr : c.rest with
  | nil =>
    left
    rw [if_pos (Cursor.atEnd_of_nil hr)]
    simp [Except.map]
    rfl
  | cons x rest =>
    rw [Cursor.peek_unless_atEnd hr]
    by_cases hx : p x = true
    · right
      rw [if_pos hx, Cursor.advance_of_cons hr, pure_bind]
      refine ⟨(text ++ [x], c.next), rfl, by simp [hr], ?_⟩
      simp [hr, hx, Cursor.skip]
    · left
      rw [if_neg hx]
      simp [hx, Except.map]
      rfl

/-- Take one more character of a numeral, with a point only where there has been none. -/
def takeNumeral : Bool × Text × Cursor → Attempt ((Bool × Text × Cursor) ⊕ (Text × Cursor))
  | (pointed, text, c) => do
    if c.atEnd then return .inr (text, c)
    else
      let x ← c.peek
      if Unicode.isDecimalDigit x then
        let (x, c) ← c.advance
        return .inl (pointed, text ++ [x], c)
      else if x = '.' ∧ pointed = false then
        let (x, c) ← c.advance
        return .inl (true, text ++ [x], c)
      else return .inr (text, c)

def restOfNumeral (pointed : Bool) (t : Text) : Text :=
  if pointed then t.takeWhile Unicode.isDecimalDigit else numeral t

theorem restOfNumeral_digit (pointed : Bool) (hx : Unicode.isDecimalDigit x = true) (t : Text) :
    restOfNumeral pointed (x :: t) = x :: restOfNumeral pointed t := by
  cases pointed with
  | false => exact numeral_cons hx t
  | true => exact List.takeWhile_cons_of_pos hx

theorem restOfNumeral_point (t : Text) :
    restOfNumeral false ('.' :: t) = '.' :: restOfNumeral true t := by
  simp [restOfNumeral, numeral, isDecimalDigit_point]

theorem restOfNumeral_of_ends {pointed : Bool} (hx : Unicode.isDecimalDigit x = false)
    (hp : ¬ (x = '.' ∧ pointed = false)) (t : Text) : restOfNumeral pointed (x :: t) = [] := by
  cases pointed with
  | true => simp [restOfNumeral, hx]
  | false =>
    have hx' : x ≠ '.' := fun he => hp ⟨he, rfl⟩
    simp [restOfNumeral, numeral, hx, hx']

theorem loop_takeNumeral (h : c.rest.length < rounds) :
    loop takeNumeral rounds (false, [], c) =
      pure (numeral c.rest, c.skip (numeral c.rest).length) := by
  refine loop_eq id (fun i => .ok (i.2.1 ++ restOfNumeral i.1 i.2.2.rest,
    i.2.2.skip (restOfNumeral i.1 i.2.2.rest).length)) (fun i => i.2.2.rest.length)
    (fun (pointed, text, c) _ => ?_) (i := (false, [], c)) h
  unfold takeNumeral id
  dsimp only
  cases hr : c.rest with
  | nil =>
    left
    have hn : restOfNumeral pointed [] = [] := by cases pointed <;> rfl
    rw [if_pos (Cursor.atEnd_of_nil hr), hn, List.append_nil]
    rfl
  | cons x rest =>
    rw [Cursor.peek_unless_atEnd hr]
    by_cases hx : Unicode.isDecimalDigit x = true
    · right
      rw [if_pos hx, Cursor.advance_of_cons hr, pure_bind]
      refine ⟨(pointed, text ++ [x], c.next), rfl, by simp [hr], ?_⟩
      simp [hr, restOfNumeral_digit pointed hx, Cursor.skip]
    have hx : Unicode.isDecimalDigit x = false := by simpa using hx
    rw [if_neg (by simp [hx])]
    by_cases hp : x = '.' ∧ pointed = false
    · right
      rw [if_pos hp, Cursor.advance_of_cons hr, pure_bind]
      obtain ⟨rfl, rfl⟩ := hp
      refine ⟨(true, text ++ ['.'], c.next), rfl, by simp [hr], ?_⟩
      simp [hr, restOfNumeral_point, Cursor.skip]
    · left
      rw [if_neg hp, restOfNumeral_of_ends hx hp, List.append_nil]
      rfl

def takeLiteral : Text × Cursor → Attempt ((Text × Cursor) ⊕ (Text × Cursor))
  | (value, c) => do
    if c.atEnd then throw ⟨.unterminatedString, c.place⟩
    else
      let x ← c.peek
      if x = '"' then
        let (_, c) ← c.advance
        return .inr (value, c)
      else if isLineBreak x then throw ⟨.brokenString, c.place⟩
      else if x = '\\' then
        let (_, c) ← c.advance
        if c.atEnd then throw ⟨.unterminatedString, c.place⟩
        else
          let (x, c) ← c.advance
          return .inl (value ++ [Literal.unescape x], c)
      else
        let (x, c) ← c.advance
        return .inl (value ++ [x], c)

/-- What comes of a literal behind the part of it that has been taken. -/
def Literal.outcome (value : Text) (c : Cursor) : Literal → Except Fault (Text × Cursor)
  | closed more width => .ok (value ++ more, c.skip width)
  | broken width => .error ⟨.brokenString, (c.skip width).place⟩
  | unterminated width => .error ⟨.unterminatedString, (c.skip width).place⟩

theorem Literal.outcome_cons (value : Text) (c : Cursor) (x : Char) (n : Nat) (l : Literal) :
    (l.cons x n).outcome value c = l.outcome (value ++ [x]) (c.skip n) := by
  cases l <;> simp [cons, outcome, Nat.add_comm, Cursor.skip_add]

theorem loop_takeLiteral (h : c.rest.length < rounds) :
    loop takeLiteral rounds ([], c) = settled ((Literal.read c.rest).outcome [] c) := by
  refine loop_eq id (fun i => (Literal.read i.2.rest).outcome i.1 i.2) (fun i => i.2.rest.length)
    (fun (value, c) _ => ?_) (i := ([], c)) h
  unfold takeLiteral id
  dsimp only
  cases hr : c.rest with
  | nil =>
    left
    rw [if_pos (Cursor.atEnd_of_nil hr)]
    rfl
  | cons x rest =>
    rw [Cursor.peek_unless_atEnd hr]
    have hnext := Cursor.rest_next_of_cons hr
    by_cases hq : x = '"'
    · left
      rw [if_pos hq, Cursor.advance_of_cons hr, pure_bind, hq, Literal.read, Literal.outcome,
        List.append_nil]
      rfl
    rw [if_neg hq]
    by_cases hl : isLineBreak x = true
    · left
      rw [if_pos hl, Literal.read_lineBreak hl]
      rfl
    rw [if_neg hl]
    -- A backslash takes the next character with it, so the end may stand between the two.
    by_cases hb : x = '\\'
    · rw [if_pos hb, Cursor.advance_of_cons hr, pure_bind, hb]
      dsimp only
      cases rest with
      | nil =>
        left
        rw [if_pos (Cursor.atEnd_of_nil hnext)]
        rfl
      | cons y rest =>
        right
        rw [if_neg (by simp [Cursor.atEnd_of_cons hnext]), Cursor.advance_of_cons hnext, pure_bind,
          Literal.read_escaped_char, Literal.outcome_cons]
        have hlt : c.next.next.rest.length < (x :: y :: rest).length := by
          rw [Cursor.rest_next_of_cons hnext, List.length_cons, List.length_cons]
          omega
        refine ⟨(value ++ [Literal.unescape y], c.next.next), rfl, hlt, ?_⟩
        dsimp only
        rw [Cursor.rest_next_of_cons hnext]
        rfl
    · right
      have hl : isLineBreak x = false := by simpa using hl
      rw [if_neg hb, Cursor.advance_of_cons hr, pure_bind, Literal.read_plain hq hb hl,
        Literal.outcome_cons]
      refine ⟨(value ++ [x], c.next), rfl, by simp [hr], ?_⟩
      dsimp only
      rw [hnext]
      rfl

def takeMargin : Option Char × Nat × Cursor →
    Attempt ((Option Char × Nat × Cursor) ⊕ (Option Char × Nat × Cursor))
  | (mark, depth, c) => do
    if c.atEnd then return .inr (mark, depth, c)
    else
      let x ← c.peek
      if isBlank x then
        match mark with
        | none =>
          let (_, c) ← c.advance
          return .inl (some x, depth + 1, c)
        | some m =>
          if x = m then
            let (_, c) ← c.advance
            return .inl (some m, depth + 1, c)
          else throw ⟨.mixedIndentation, c.place⟩
      else return .inr (mark, depth, c)

def Margin.outcome (depth : Nat) (c : Cursor) (margin : Margin) :
    Except Fault (Option Char × Nat × Cursor) :=
  if margin.mixed then .error ⟨.mixedIndentation, (c.skip margin.depth).place⟩
  else .ok (margin.mark, depth + margin.depth, c.skip margin.depth)

theorem Margin.outcome_read_cons {rest : Text} (depth : Nat) (hr : c.rest = x :: rest)
    (hx : isBlank x = true) (hm : mark.or (some x) = some x) :
    (Margin.read mark (x :: rest)).outcome depth c =
      (Margin.read (some x) c.next.rest).outcome (depth + 1) c.next := by
  rw [Margin.read_cons hx hm, Cursor.rest_next_of_cons hr]
  unfold outcome
  dsimp only
  rw [Cursor.skip_next, Nat.add_assoc, Nat.add_comm 1]

theorem loop_takeMargin (mark : Option Char) (h : c.rest.length < rounds) :
    loop takeMargin rounds (mark, 0, c) = settled ((Margin.read mark c.rest).outcome 0 c) := by
  refine loop_eq id (fun i => (Margin.read i.1 i.2.2.rest).outcome i.2.1 i.2.2)
    (fun i => i.2.2.rest.length) (fun (mark, depth, c) _ => ?_) (i := (mark, 0, c)) h
  unfold takeMargin id
  dsimp only
  cases hr : c.rest with
  | nil =>
    left
    rw [if_pos (Cursor.atEnd_of_nil hr), Margin.read_of_ends (by simp)]
    rfl
  | cons x rest =>
    rw [Cursor.peek_unless_atEnd hr]
    by_cases hx : isBlank x = true
    · rw [if_pos hx, Cursor.advance_of_cons hr]
      -- With no mark yet this blank becomes the mark; otherwise it has to be the mark.
      cases mark with
      | none =>
        right
        refine ⟨(some x, depth + 1, c.next), rfl, by simp [hr], ?_⟩
        exact (Margin.outcome_read_cons depth hr hx rfl).symm
      | some m =>
        dsimp only
        by_cases hm : x = m
        · right
          subst hm
          rw [if_pos rfl]
          refine ⟨(some x, depth + 1, c.next), rfl, by simp [hr], ?_⟩
          exact (Margin.outcome_read_cons depth hr hx rfl).symm
        · left
          rw [if_neg hm, Margin.read_cons_of_ne hx hm]
          rfl
    · left
      have hx' : ∀ y, (x :: rest).head? = some y → isBlank y = false := by simpa using hx
      rw [if_neg hx, Margin.read_of_ends hx']
      rfl

end Loops

end Offside
