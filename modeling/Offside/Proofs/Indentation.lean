import Offside.Proofs.Margins
import Offside.Proofs.Place
import Offside.Proofs.Spelling
import Offside.Proofs.SuffixMinima

/-! The open levels before a line are the suffix minima of the depths of the lines before it. -/
namespace Offside
namespace Scan

variable {s t : Scan} {source : Text} {depths : List Nat}

/-- The depth of the line that is about to be entered: its leading blanks, if they can be read
through and something other than a line break or the end of the input stands behind them. -/
def lineDepth? (s : Scan) : Option Nat :=
  if s.lineStart && !s.margin.mixed then
    match s.cursor.rest.dropWhile isBlank with
    | [] => none
    | c :: _ => if isLineBreak c then none else some (s.cursor.rest.takeWhile isBlank).length
  else none

/-- The states of a scan, each with the depths of the lines entered so far, oldest first. -/
inductive Visits (source : Text) : List Nat → Scan → Prop
  | start : Visits source [] (.start source)
  | step {depths : List Nat} {s t : Scan} (h : Visits source depths s) (hm : s.Moves t) :
      Visits source (depths ++ s.lineDepth?.toList) t

/-- The open levels with the level of depth 0, innermost first. -/
def openLevels (s : Scan) : List Nat := s.levels ++ [0]

theorem stack_eq (s : Scan) : s.stack = s.openLevels.reverse := by
  simp [stack, openLevels]

theorem headD_levels (s : Scan) : s.openLevels.head? = some (s.levels.headD 0) := by
  cases h : s.levels <;> simp [openLevels, h]

theorem dropWhile_openLevels (s : Scan) (depth : Nat) :
    s.openLevels.dropWhile (depth < ·) = s.levels.dropWhile (depth < ·) ++ [0] := by
  unfold openLevels
  rw [List.dropWhile_append]
  cases h : s.levels.dropWhile (depth < ·) <;> simp

theorem headD_dropWhile_openLevels (s : Scan) (depth : Nat) :
    (s.openLevels.dropWhile (depth < ·)).headD 0 = (s.levels.dropWhile (depth < ·)).headD 0 := by
  rw [dropWhile_openLevels]
  cases s.levels.dropWhile (depth < ·) <;> rfl

theorem takeWhile_openLevels (s : Scan) (depth : Nat) :
    s.openLevels.takeWhile (depth < ·) = s.levels.takeWhile (depth < ·) := by
  unfold openLevels
  induction s.levels with
  | nil => simp
  | cons a l ih =>
    by_cases hd : depth < a <;> simp [hd, ih]

section LineDepth

variable {c : Char} {rest : Text}

theorem lineDepth?_eq_some (hl : s.lineStart = true) (hm : s.margin.mixed = false)
    (hr : s.behindMargin.cursor.rest = c :: rest) (hc : isLineBreak c = false) :
    s.lineDepth? = some s.margin.depth := by
  have hd : s.margin.depth = (s.cursor.rest.takeWhile isBlank).length :=
    Margin.depth_of_not_mixed hm
  rw [rest_behindMargin_of_not_mixed hm] at hr
  simp [lineDepth?, hl, hm, hr, hc, hd]

theorem lineDepth?_of_mixed (hm : s.margin.mixed = true) : s.lineDepth? = none := by
  simp [lineDepth?, hm]

theorem lineDepth?_of_not_lineStart (hl : s.lineStart = false) : s.lineDepth? = none := by
  simp [lineDepth?, hl]

theorem lineDepth?_of_nil (hm : s.margin.mixed = false) (hr : s.behindMargin.cursor.rest = []) :
    s.lineDepth? = none := by
  rw [rest_behindMargin_of_not_mixed hm] at hr
  simp [lineDepth?, hr]

theorem lineDepth?_of_lineBreak (hm : s.margin.mixed = false)
    (hr : s.behindMargin.cursor.rest = c :: rest) (hc : isLineBreak c = true) :
    s.lineDepth? = none := by
  rw [rest_behindMargin_of_not_mixed hm] at hr
  simp [lineDepth?, hr, hc]

theorem exists_of_lineDepth? {depth : Nat} (h : s.lineDepth? = some depth) :
    s.lineStart = true ∧ s.margin.mixed = false ∧ s.margin.depth = depth ∧
      ∃ c rest, s.behindMargin.cursor.rest = c :: rest ∧ isLineBreak c = false := by
  cases hl : s.lineStart with
  | false => rw [lineDepth?_of_not_lineStart hl] at h; cases h
  | true =>
    cases hm : s.margin.mixed with
    | true => rw [lineDepth?_of_mixed hm] at h; cases h
    | false =>
      cases hr : s.behindMargin.cursor.rest with
      | nil => rw [lineDepth?_of_nil hm hr] at h; cases h
      | cons c rest =>
        cases hc : isLineBreak c with
        | true => rw [lineDepth?_of_lineBreak hm hr hc] at h; cases h
        | false =>
          rw [lineDepth?_eq_some hl hm hr hc] at h
          exact ⟨rfl, rfl, Option.some.inj h, c, rest, rfl, hc⟩

end LineDepth

def lastDepth (depths : List Nat) : Nat := depths.getLastD 0

/-- The open levels are a descending list of the suffix minima of all depths, the depth 0 of the
start among them. -/
structure Levelled (depths : List Nat) (s : Scan) : Prop where
  descending : s.openLevels.Pairwise (· > ·)
  toFinset_eq : s.openLevels.toFinset = suffixMinima (0 :: depths)
  head_eq : s.levels.headD 0 = lastDepth depths

namespace Levelled

theorem start (source : Text) : Levelled [] (.start source) where
  descending := List.pairwise_singleton _ _
  toFinset_eq := (suffixMinima_singleton 0).symm
  head_eq := rfl

variable (h : Levelled depths s)
include h

theorem mem_iff {x : Nat} : x ∈ s.openLevels ↔ x ∈ suffixMinima (0 :: depths) := by
  rw [← h.toFinset_eq, List.mem_toFinset]

theorem stack_eq_sort : s.stack = (suffixMinima (0 :: depths)).sort (· ≤ ·) := by
  have hp : s.stack.Pairwise (· < ·) := by
    rw [stack_eq, List.pairwise_reverse]
    exact h.descending
  have hf : s.stack.toFinset = suffixMinima (0 :: depths) := by
    rw [stack_eq, List.toFinset_reverse, h.toFinset_eq]
  have hn : s.stack.Nodup := hp.imp Nat.ne_of_lt
  rw [← hf]
  exact ((List.toFinset_sort (· ≤ ·) hn).2 (hp.imp Nat.le_of_lt)).symm

theorem getLast?_stack : s.stack.getLast? = some (lastDepth depths) := by
  rw [stack_eq, List.getLast?_reverse, headD_levels, h.head_eq]

theorem le_lastDepth {x : Nat} (hx : x ∈ s.openLevels) : x ≤ lastDepth depths := by
  have hh := s.headD_levels
  have hd := h.descending
  rw [h.head_eq] at hh
  obtain ⟨tail, ht⟩ := List.head?_eq_some_iff.1 hh
  rw [ht] at hx hd
  rcases List.mem_cons.1 hx with rfl | hx
  · exact Nat.le_refl _
  · exact Nat.le_of_lt ((List.pairwise_cons.1 hd).1 x hx)

/-- A deeper line is one more suffix minimum and replaces none. -/
theorem opening {u : Scan} {depth : Nat} {place : Position} (hu : u.levels = s.levels)
    (hd : lastDepth depths < depth) :
    Levelled (depths ++ [depth]) (u.opening depth place) := by
  have ho : (u.opening depth place).openLevels = depth :: s.openLevels := by
    simp [openLevels, Scan.opening, hu]
  have hlt : ∀ x ∈ s.openLevels, x < depth := fun x hx =>
    Nat.lt_of_le_of_lt (h.le_lastDepth hx) hd
  refine ⟨?_, ?_, ?_⟩
  · rw [ho]
    exact List.pairwise_cons.2 ⟨hlt, h.descending⟩
  · have hf : (suffixMinima (0 :: depths)).filter (· ≤ depth) = suffixMinima (0 :: depths) :=
      Finset.filter_true_of_mem fun x hx => Nat.le_of_lt (hlt x (h.mem_iff.2 hx))
    rw [ho, List.toFinset_cons, h.toFinset_eq, ← List.cons_append, suffixMinima_concat, hf]
  · simp [Scan.opening, lastDepth]

/-- A line that is not deeper replaces the suffix minima above it, and is one already. -/
theorem closing {u : Scan} {depth : Nat} {place : Position} (hu : u.levels = s.levels)
    (hk : (s.levels.dropWhile (depth < ·)).headD 0 = depth) :
    Levelled (depths ++ [depth]) (u.closing depth place) := by
  have ho : (u.closing depth place).openLevels = s.openLevels.dropWhile (depth < ·) := by
    rw [dropWhile_openLevels]
    simp [openLevels, Scan.closing, hu]
  have hmem : depth ∈ s.openLevels := by
    rw [← headD_dropWhile_openLevels] at hk
    exact (headD_dropWhile_lt_eq_iff h.descending (by simp [openLevels])).1 hk
  refine ⟨?_, ?_, ?_⟩
  · rw [ho]
    exact h.descending.sublist (List.dropWhile_sublist _)
  · ext x
    rw [ho, List.mem_toFinset, mem_dropWhile_lt_iff h.descending, ← List.cons_append,
      suffixMinima_concat, Finset.mem_insert, Finset.mem_filter, ← h.mem_iff]
    constructor
    · exact .inr
    · rintro (rfl | hx)
      · exact ⟨hmem, Nat.le_refl _⟩
      · exact hx
  · simpa [Scan.closing, lastDepth, hu] using hk

theorem mem_iff_headD {depth : Nat} :
    (s.levels.dropWhile (depth < ·)).headD 0 = depth ↔ depth ∈ suffixMinima (0 :: depths) := by
  rw [← headD_dropWhile_openLevels, ← h.mem_iff]
  exact headD_dropWhile_lt_eq_iff h.descending (by simp [openLevels])

theorem length_closed (depth : Nat) :
    (s.levels.takeWhile (depth < ·)).length =
      ((suffixMinima (0 :: depths)).filter (depth < ·)).card := by
  rw [← takeWhile_openLevels, length_takeWhile_lt h.descending, h.toFinset_eq]

end Levelled

theorem Levelled.step (h : Levelled depths s) (ha : s.Advance t) :
    Levelled (depths ++ s.lineDepth?.toList) t := by
  cases ha with
  | lastMargin hb hl hm hr =>
    rw [lineDepth?_of_nil hm hr]
    simpa using ⟨h.descending, h.toFinset_eq, h.head_eq⟩
  | emptyLine hl hm hr hc =>
    rw [lineDepth?_of_lineBreak hm hr hc]
    simpa using ⟨h.descending, h.toFinset_eq, h.head_eq⟩
  | opens hl hm hr hc hd =>
    rw [lineDepth?_eq_some hl hm hr hc]
    exact h.opening rfl (h.head_eq ▸ hd)
  | closes hl hm hr hc hd hk =>
    rw [lineDepth?_eq_some hl hm hr hc]
    exact h.closing rfl hk
  | blank hl hr hp =>
    rw [lineDepth?_of_not_lineStart hl]
    simpa using ⟨h.descending, h.toFinset_eq, h.head_eq⟩
  | token hl hr hp =>
    rw [lineDepth?_of_not_lineStart hl]
    simpa using ⟨h.descending, h.toFinset_eq, h.head_eq⟩

namespace Visits

theorem levelled (h : Visits source depths s) : Levelled depths s := by
  induction h with
  | start => exact .start source
  | step _ hm ih => exact ih.step (moves_iff_advance.1 hm)

theorem reaches (h : Visits source depths s) : (Scan.start source).Reaches s := by
  induction h with
  | start => exact .refl _
  | step _ hm ih => exact ih.tail hm

theorem exists_of_reaches (h : (Scan.start source).Reaches s) :
    ∃ depths, Visits source depths s := by
  refine h.preserves (P := fun s => ∃ depths, Visits source depths s) ?_ ⟨[], .start⟩
  rintro s t ha ⟨depths, hs⟩
  exact ⟨_, hs.step ha.moves⟩

end Visits

theorem Advance.column_eq (ha : s.Advance t) (hl : t.lineStart = true) :
    t.cursor.place.column = 1 := by
  cases ha with
  | lastMargin => cases hl
  | emptyLine _ hm hr hc =>
    have hp := Cursor.place_skip_lineBreak hr hc
    exact congrArg Position.column hp
  | opens => cases hl
  | closes => cases hl
  | blank hs hr hp => cases hs.symm.trans hl
  | @token c rest kind lexeme width hs hr hp =>
    have hk : kind = .newline := by simpa [accept] using hl
    obtain ⟨hc, rfl, rfl⟩ := (tokenAt_of_read hp).lineBreak_of_newline hk
    have hp := Cursor.place_skip_lineBreak hr hc
    exact congrArg Position.column hp

def linePlace (source : Text) (s : Scan) : Position :=
  ⟨(Position.at source s.cursor.offset).line, 1⟩

theorem place_eq_linePlace (h : (start source).Reaches s) (hl : s.lineStart = true) :
    s.cursor.place = linePlace source s := by
  have hcol : s.lineStart = true → s.cursor.place.column = 1 :=
    h.preserves (P := fun s => s.lineStart = true → s.cursor.place.column = 1)
      (fun ha _ => ha.column_eq) fun _ => rfl
  unfold linePlace
  rw [← (cursor_in_of_reaches h).place_eq, ← hcol hl]

/-- The tokens of a line that say how its depth differs from that of the line before it. -/
def layout (depths : List Nat) (depth : Nat) (place : Position) : List Token :=
  if lastDepth depths < depth then [⟨.indent, [], place⟩]
  else if depth < lastDepth depths then
    List.replicate ((suffixMinima (0 :: depths)).filter (depth < ·)).card ⟨.dedent, [], place⟩
  else []

/-- A line returns to a depth that no open line has. -/
def Unmatched (depths : List Nat) (depth : Nat) : Prop :=
  depth < lastDepth depths ∧ depth ∉ suffixMinima (0 :: depths)

instance (depths : List Nat) (depth : Nat) : Decidable (Unmatched depths depth) :=
  inferInstanceAs (Decidable (_ ∧ _))

namespace Levelled

theorem lastDepth_mem (h : Levelled depths s) : lastDepth depths ∈ suffixMinima (0 :: depths) := by
  rw [← h.mem_iff, ← h.head_eq]
  exact List.mem_of_mem_head? s.headD_levels

theorem layout_of_le {depth : Nat} {place : Position} (h : Levelled depths s)
    (hd : depth ≤ lastDepth depths) :
    layout depths depth place =
      List.replicate (s.levels.takeWhile (depth < ·)).length ⟨.dedent, [], place⟩ := by
  unfold layout
  rw [if_neg (Nat.not_lt.2 hd), h.length_closed]
  split
  · rfl
  · have hn : (suffixMinima (0 :: depths)).filter (depth < ·) = ∅ := by
      rw [Finset.filter_eq_empty_iff]
      intro x hx
      have := h.le_lastDepth (h.mem_iff.2 hx)
      omega
    rw [hn]
    rfl

theorem step_eq {depth : Nat} (h : Levelled depths s) (hd : s.lineDepth? = some depth) :
    ∃ t : Scan, t.tokens = s.tokens ++ layout depths depth s.cursor.place ∧
      s.step = if Unmatched depths depth then .error ⟨⟨.unmatchedDedent, s.cursor.place⟩, t⟩
        else .ok t := by
  obtain ⟨hl, hm, rfl, c, rest, hr, hc⟩ := exists_of_lineDepth? hd
  -- Deeper, as deep as a level that is open, or in between: the three ways to enter a line.
  by_cases hlt : lastDepth depths < s.margin.depth
  · have ha : s.Advance (s.behindMargin.opening s.margin.depth s.cursor.place) :=
      .opens hl hm hr hc (h.head_eq.symm ▸ hlt)
    refine ⟨s.behindMargin.opening s.margin.depth s.cursor.place, ?_, ?_⟩
    · rw [tokens_opening, layout, if_pos hlt]
      rfl
    · rw [if_neg fun hu => Nat.lt_asymm hlt hu.1]
      exact ha.moves.2
  have hle : s.margin.depth ≤ lastDepth depths := Nat.not_lt.1 hlt
  refine ⟨s.behindMargin.closing s.margin.depth s.cursor.place, ?_, ?_⟩
  · rw [tokens_closing, h.layout_of_le hle]
    rfl
  by_cases hmem : s.margin.depth ∈ suffixMinima (0 :: depths)
  · have ha : s.Advance (s.behindMargin.closing s.margin.depth s.cursor.place) :=
      .closes hl hm hr hc (h.head_eq.symm ▸ hle) (h.mem_iff_headD.2 hmem)
    rw [if_neg fun hu => hu.2 hmem]
    exact ha.moves.2
  · have hne : s.margin.depth ≠ lastDepth depths := fun he => hmem (he ▸ h.lastDepth_mem)
    have hu : Unmatched depths s.margin.depth := ⟨Nat.lt_of_le_of_ne hle hne, hmem⟩
    have hs : s.Stop ⟨⟨.unmatchedDedent, s.cursor.place⟩,
        s.behindMargin.closing s.margin.depth s.cursor.place⟩ :=
      .unmatched hl hm hr hc (h.head_eq.symm ▸ hle) (fun hk => hmem (h.mem_iff_headD.1 hk))
    rw [if_pos hu]
    exact hs.step_eq

theorem length_levels (h : Levelled depths s) :
    s.levels.length = ((suffixMinima (0 :: depths)).filter (0 < ·)).card := by
  rw [← h.length_closed]
  have hp := (List.pairwise_append.1 h.descending).2.2
  have ht : s.levels.takeWhile (0 < ·) = s.levels := by
    rw [List.takeWhile_eq_self_iff]
    intro x hx
    exact decide_eq_true (hp x hx 0 (List.mem_singleton.2 rfl))
  rw [ht]

end Levelled

theorem Advance.tokens_of_blankLine (ha : s.Advance t) (hl : s.lineStart = true)
    (hd : s.lineDepth? = none) :
    t.stack = s.stack ∧ ∃ lexeme place, t.tokens = s.tokens ++ [⟨.newline, lexeme, place⟩] := by
  cases ha with
  | lastMargin => exact ⟨rfl, [], _, tokens_emit s.behindMargin .newline⟩
  | emptyLine => exact ⟨rfl, _, _, tokens_accept s.behindMargin .newline _ _⟩
  | opens _ hm hr hc => cases (lineDepth?_eq_some hl hm hr hc).symm.trans hd
  | closes _ hm hr hc => cases (lineDepth?_eq_some hl hm hr hc).symm.trans hd
  | blank hn => cases hl.symm.trans hn
  | token hn => cases hl.symm.trans hn

theorem Advance.tokens_of_within (ha : s.Advance t) (hl : s.lineStart = false) :
    t.stack = s.stack ∧ ∃ new, t.tokens = s.tokens ++ new ∧
      ∀ token ∈ new, token.kind ≠ .indent ∧ token.kind ≠ .dedent := by
  cases ha with
  | lastMargin _ hs => cases hl.symm.trans hs
  | emptyLine hs => cases hl.symm.trans hs
  | opens hs => cases hl.symm.trans hs
  | closes hs => cases hl.symm.trans hs
  | blank => exact ⟨rfl, [], (List.append_nil _).symm, by simp⟩
  | token _ _ hp =>
    refine ⟨rfl, _, tokens_accept _ _ _ _, fun token ht => ?_⟩
    rw [List.mem_singleton.1 ht]
    obtain ⟨text, -, -, -, -, hs⟩ := (tokenAt_of_read hp).spells
    cases hs with
    | verbatim hk =>
      simp only [List.mem_cons, not_or] at hk
      exact ⟨hk.1, hk.2.1⟩
    | comment => exact ⟨nofun, nofun⟩
    | string => exact ⟨nofun, nofun⟩

theorem Stop.exists_lineDepth? {stopped : Halt} (hs : s.Stop stopped)
    (hc : stopped.fault.cause = .unmatchedDedent) : ∃ depth, s.lineDepth? = some depth := by
  cases hs with
  | mixed => cases hc
  | unmatched hl hm hr hb => exact ⟨_, lineDepth?_eq_some hl hm hr hb⟩
  | piece hl hr hp =>
    cases hc
    exact absurd rfl (Piece.ne_unmatchedDedent_of_read hp)

/-- What the depths of the lines before it say about a state of a scan. -/
structure Indented (source : Text) (depths : List Nat) (s : Scan) : Prop where
  stack_eq : s.stack = (suffixMinima (0 :: depths)).sort (· ≤ ·)
  top_eq : s.stack.getLast? = some (lastDepth depths)
  /-- A line with a depth adds its layout in its first column, and is refused there just if its
  depth is less than the last one and no suffix minimum. -/
  line : ∀ depth, s.lineDepth? = some depth →
    ∃ t : Scan, t.tokens = s.tokens ++ layout depths depth (linePlace source s) ∧
      s.step =
        if depth < lastDepth depths ∧ depth ∉ suffixMinima (0 :: depths) then
          .error ⟨⟨.unmatchedDedent, linePlace source s⟩, t⟩
        else .ok t
  blankLine : s.lineStart = true → s.lineDepth? = none → ∀ t, s.Moves t →
    t.stack = s.stack ∧ ∃ lexeme place, t.tokens = s.tokens ++ [⟨.newline, lexeme, place⟩]
  within : s.lineStart = false → ∀ t, s.Moves t →
    t.stack = s.stack ∧ ∃ new, t.tokens = s.tokens ++ new ∧
      ∀ token ∈ new, token.kind ≠ .indent ∧ token.kind ≠ .dedent
  finish : ∃ ending, s.finish.tokens = s.tokens ++ ending ++
      List.replicate ((suffixMinima (0 :: depths)).filter (0 < ·)).card
        ⟨.dedent, [], s.cursor.place⟩ ++ [⟨.eof, [], s.cursor.place⟩] ∧
    ∀ token ∈ ending, token.kind = .newline

theorem Visits.indented (h : Visits source depths s) : Indented source depths s where
  stack_eq := h.levelled.stack_eq_sort
  top_eq := h.levelled.getLast?_stack
  line := by
    intro depth hd
    obtain ⟨hl, -⟩ := exists_of_lineDepth? hd
    rw [← place_eq_linePlace h.reaches hl]
    exact h.levelled.step_eq hd
  blankLine hl hd t hm := (moves_iff_advance.1 hm).tokens_of_blankLine hl hd
  within hl t hm := (moves_iff_advance.1 hm).tokens_of_within hl
  finish := by
    rw [tokens_finish, h.levelled.length_levels]
    refine ⟨_, rfl, fun token ht => ?_⟩
    split at ht
    · cases ht
    · rw [List.mem_singleton.1 ht]

end Scan

open Scan in
/-- Indentation means what the depths of the lines say, with no stack to carry along: each state
of a scan agrees with the depths of the lines before it and holds the first of the tokens that are
returned, and the scan is refused for its indentation just where a line returns to a depth that is
no suffix minimum. -/
theorem indentation_law (source : Text) :
    (∀ s, (start source).Reaches s → ∃ depths, Visits source depths s) ∧
    (∀ depths s, Visits source depths s → Indented source depths s) ∧
    (∀ tokens, scan source = .ok tokens →
      (∀ depths s, Visits source depths s → s.tokens <+: tokens) ∧
      ∃ depths s, Visits source depths s ∧ s.cursor.rest = [] ∧ tokens = s.finish.tokens) ∧
    ∀ place, scan source = .error ⟨.unmatchedDedent, place⟩ ↔
      ∃ depths s depth, Visits source depths s ∧ s.lineDepth? = some depth ∧
        depth < lastDepth depths ∧ depth ∉ suffixMinima (0 :: depths) ∧
        place = linePlace source s := by
  refine ⟨fun s h => Visits.exists_of_reaches h, fun depths s h => h.indented, fun tokens h => ?_,
    fun place => ?_⟩
  · refine ⟨fun depths s hv => hv.reaches.prefix_of_scan h, ?_⟩
    obtain ⟨s, hs, hr, rfl⟩ := scan_eq_ok_iff.1 h
    obtain ⟨depths, hv⟩ := Visits.exists_of_reaches hs
    exact ⟨depths, s, hv, hr, rfl⟩
  rw [scan_eq_error_iff]
  constructor
  -- A stop is a step of a line with a depth, and of these only the unmatched ones fail.
  · rintro ⟨s, ⟨fault, u⟩, hs, hstop, rfl⟩
    obtain ⟨depths, hv⟩ := Visits.exists_of_reaches hs
    obtain ⟨depth, hd⟩ := hstop.exists_lineDepth? rfl
    obtain ⟨t, -, ht⟩ := hv.indented.line depth hd
    have he := hstop.step_eq.symm.trans ht
    split at he
    · rename_i hu
      cases he
      exact ⟨depths, s, depth, hv, hd, hu.1, hu.2, rfl⟩
    · cases he
  · rintro ⟨depths, s, depth, hv, hd, hlt, hmem, rfl⟩
    obtain ⟨t, -, ht⟩ := hv.indented.line depth hd
    rw [if_pos ⟨hlt, hmem⟩] at ht
    obtain ⟨-, -, -, c, rest, hr, -⟩ := exists_of_lineDepth? hd
    exact ⟨s, _, hv.reaches, (step_eq_error_iff (rest_ne_nil_of_behindMargin hr)).1 ht, rfl⟩

open Scan in
/-- The last line returns to a depth between those of the two lines before it. -/
theorem indentation_law_of_partial_dedent :
    let source := "a\n  b\n c".toList
    scan source = .error ⟨.unmatchedDedent, ⟨3, 1⟩⟩ ∧
      ∃ depths s depth, Visits source depths s ∧ s.lineDepth? = some depth ∧
        depth < lastDepth depths ∧ depth ∉ suffixMinima (0 :: depths) ∧
        ⟨3, 1⟩ = linePlace source s :=
  ⟨by decide +kernel, ((indentation_law _).2.2.2 ⟨3, 1⟩).1 (by decide +kernel)⟩

end Offside
