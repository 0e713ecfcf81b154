import Mathlib.Logic.Relation
import Offside.Proofs.Margins
import Offside.Scan.Basic

/-! The states that a scan goes through, and all that one step can do to a state. -/
namespace Offside
namespace Scan

variable {s t : Scan} {source : Text}

def margin (s : Scan) : Margin := .read s.mark s.cursor.rest

def behindMargin (s : Scan) : Scan :=
  { s with cursor := s.cursor.skip s.margin.depth, mark := s.margin.mark }

def opening (s : Scan) (depth : Nat) (place : Position) : Scan :=
  { s with
    lineStart := false
    levels := depth :: s.levels
    output := ⟨.indent, [], place⟩ :: s.output }

def closing (s : Scan) (depth : Nat) (place : Position) : Scan :=
  { s with
    lineStart := false
    levels := s.levels.dropWhile (depth < ·)
    output := List.replicate (s.levels.takeWhile (depth < ·)).length ⟨.dedent, [], place⟩ ++
      s.output }

@[simp] theorem tokens_opening (s : Scan) (depth : Nat) (place : Position) :
    (s.opening depth place).tokens = s.tokens ++ [⟨.indent, [], place⟩] := by
  simp [tokens, opening]

@[simp] theorem tokens_closing (s : Scan) (depth : Nat) (place : Position) :
    (s.closing depth place).tokens = s.tokens ++
      List.replicate (s.levels.takeWhile (depth < ·)).length ⟨.dedent, [], place⟩ := by
  simp [tokens, closing]

theorem tokens_finish (s : Scan) :
    s.finish.tokens = s.tokens ++
      (if s.output.head?.any (·.kind == .newline) then []
        else [⟨.newline, [], s.cursor.place⟩]) ++
      List.replicate s.levels.length ⟨.dedent, [], s.cursor.place⟩ ++
      [⟨.eof, [], s.cursor.place⟩] := by
  unfold finish
  split <;> simp [tokens, emit]

/-- All that a step can do where nothing is wrong, with the conditions under which it does so. -/
inductive Advance (s : Scan) : Scan → Prop
  | lastMargin (hb : s.cursor.rest ≠ []) (hl : s.lineStart = true)
      (hm : s.margin.mixed = false) (hr : s.behindMargin.cursor.rest = []) :
      Advance s { s.behindMargin.emit .newline with lineStart := false }
  | emptyLine {c rest} (hl : s.lineStart = true) (hm : s.margin.mixed = false)
      (hr : s.behindMargin.cursor.rest = c :: rest) (hc : isLineBreak c = true) :
      Advance s (s.behindMargin.accept .newline (lineBreakAt c rest) (lineBreakAt c rest).length)
  | opens {c rest} (hl : s.lineStart = true) (hm : s.margin.mixed = false)
      (hr : s.behindMargin.cursor.rest = c :: rest) (hc : isLineBreak c = false)
      (hd : s.levels.headD 0 < s.margin.depth) :
      Advance s (s.behindMargin.opening s.margin.depth s.cursor.place)
  | closes {c rest} (hl : s.lineStart = true) (hm : s.margin.mixed = false)
      (hr : s.behindMargin.cursor.rest = c :: rest) (hc : isLineBreak c = false)
      (hd : s.margin.depth ≤ s.levels.headD 0)
      (hk : (s.levels.dropWhile (s.margin.depth < ·)).headD 0 = s.margin.depth) :
      Advance s (s.behindMargin.closing s.margin.depth s.cursor.place)
  | blank {c rest} (hl : s.lineStart = false) (hr : s.cursor.rest = c :: rest)
      (hp : Piece.read c rest = .blank) : Advance s { s with cursor := s.cursor.next }
  | token {c rest kind lexeme width} (hl : s.lineStart = false) (hr : s.cursor.rest = c :: rest)
      (hp : Piece.read c rest = .token kind lexeme width) :
      Advance s (s.accept kind lexeme width)

/-- All that can stop a step, with the state it leaves. -/
inductive Stop (s : Scan) : Halt → Prop
  | mixed (hl : s.lineStart = true) (hm : s.margin.mixed = true) :
      Stop s ⟨⟨.mixedIndentation, s.behindMargin.cursor.place⟩, s.behindMargin⟩
  | unmatched {c rest} (hl : s.lineStart = true) (hm : s.margin.mixed = false)
      (hr : s.behindMargin.cursor.rest = c :: rest) (hc : isLineBreak c = false)
      (hd : s.margin.depth ≤ s.levels.headD 0)
      (hk : (s.levels.dropWhile (s.margin.depth < ·)).headD 0 ≠ s.margin.depth) :
      Stop s ⟨⟨.unmatchedDedent, s.cursor.place⟩,
        s.behindMargin.closing s.margin.depth s.cursor.place⟩
  | piece {c rest cause width} (hl : s.lineStart = false) (hr : s.cursor.rest = c :: rest)
      (hp : Piece.read c rest = .fault cause width) :
      Stop s ⟨⟨cause, (s.cursor.skip width).place⟩, { s with cursor := s.cursor.skip width }⟩

section Settle

variable {depth : Nat} {place : Position}

theorem settle_of_lt (h : s.levels.headD 0 < depth) :
    s.settle depth place = .ok (s.opening depth place) := by
  unfold settle
  exact if_pos h

theorem settle_of_le (h : depth ≤ s.levels.headD 0) :
    s.settle depth place =
      if (s.levels.dropWhile (depth < ·)).headD 0 = depth then .ok (s.closing depth place)
      else .error ⟨⟨.unmatchedDedent, place⟩, s.closing depth place⟩ := by
  unfold settle
  exact if_neg (Nat.not_lt.2 h)

end Settle

theorem rest_behindMargin (s : Scan) :
    s.behindMargin.cursor.rest = s.cursor.rest.drop s.margin.depth := by
  simp [behindMargin]

theorem rest_behindMargin_of_not_mixed (hm : s.margin.mixed = false) :
    s.behindMargin.cursor.rest = s.cursor.rest.dropWhile isBlank := by
  rw [rest_behindMargin]
  exact Margin.drop_depth_of_not_mixed hm

theorem rest_ne_nil_of_behindMargin {c : Char} {rest : Text}
    (h : s.behindMargin.cursor.rest = c :: rest) : s.cursor.rest ≠ [] := by
  intro hn
  rw [rest_behindMargin, hn, List.drop_nil] at h
  cases h

section EnterLine

variable {c : Char} {rest : Text}

theorem enterLine_of_mixed (hm : s.margin.mixed = true) :
    s.enterLine = s.behindMargin.halt .mixedIndentation := by
  unfold enterLine
  exact if_pos hm

theorem enterLine_of_not_mixed (hm : s.margin.mixed = false) :
    s.enterLine =
      match s.behindMargin.cursor.rest with
      | [] => .ok { s.behindMargin.emit .newline with lineStart := false }
      | c :: rest =>
        if isLineBreak c then
          .ok (s.behindMargin.accept .newline (lineBreakAt c rest) (lineBreakAt c rest).length)
        else s.behindMargin.settle s.margin.depth s.cursor.place := by
  unfold enterLine
  exact if_neg (by simpa [margin] using hm)

theorem enterLine_of_nil (hm : s.margin.mixed = false) (hr : s.behindMargin.cursor.rest = []) :
    s.enterLine = .ok { s.behindMargin.emit .newline with lineStart := false } := by
  rw [enterLine_of_not_mixed hm, hr]

theorem enterLine_of_lineBreak (hm : s.margin.mixed = false)
    (hr : s.behindMargin.cursor.rest = c :: rest) (hc : isLineBreak c = true) :
    s.enterLine =
      .ok (s.behindMargin.accept .newline (lineBreakAt c rest) (lineBreakAt c rest).length) := by
  rw [enterLine_of_not_mixed hm, hr]
  exact if_pos hc

theorem enterLine_of_content (hm : s.margin.mixed = false)
    (hr : s.behindMargin.cursor.rest = c :: rest) (hc : isLineBreak c = false) :
    s.enterLine = s.behindMargin.settle s.margin.depth s.cursor.place := by
  rw [enterLine_of_not_mixed hm, hr]
  exact if_neg (by simp [hc])

end EnterLine

theorem step_of_lineStart (hl : s.lineStart = true) : s.step = s.enterLine := by
  unfold step
  exact if_pos hl

theorem step_of_not_lineStart {c : Char} {rest : Text} (hl : s.lineStart = false)
    (hr : s.cursor.rest = c :: rest) :
    s.step =
      match Piece.read c rest with
      | .blank => .ok { s with cursor := s.cursor.next }
      | .token kind lexeme width => .ok (s.accept kind lexeme width)
      | .fault cause width => { s with cursor := s.cursor.skip width }.halt cause := by
  have hn : ¬ s.lineStart = true := by simp [hl]
  unfold step
  rw [if_neg hn]
  split
  · rename_i he
    cases hr.symm.trans he
  · rename_i he
    cases hr.symm.trans he
    rfl

/-- One step of the run: there is text left, and nothing is wrong. -/
def Moves (s t : Scan) : Prop := s.cursor.rest ≠ [] ∧ s.step = .ok t

theorem Advance.moves (h : s.Advance t) : s.Moves t := by
  cases h with
  | lastMargin hb hl hm hr => exact ⟨hb, by rw [step_of_lineStart hl, enterLine_of_nil hm hr]⟩
  | emptyLine hl hm hr hc =>
    refine ⟨rest_ne_nil_of_behindMargin hr, ?_⟩
    rw [step_of_lineStart hl, enterLine_of_lineBreak hm hr hc]
  | opens hl hm hr hc hd =>
    refine ⟨rest_ne_nil_of_behindMargin hr, ?_⟩
    rw [step_of_lineStart hl, enterLine_of_content hm hr hc]
    exact settle_of_lt hd
  | closes hl hm hr hc hd hk =>
    refine ⟨rest_ne_nil_of_behindMargin hr, ?_⟩
    rw [step_of_lineStart hl, enterLine_of_content hm hr hc, settle_of_le (by exact hd)]
    exact if_pos hk
  | blank hl hr hp => exact ⟨by simp [hr], by rw [step_of_not_lineStart hl hr, hp]⟩
  | token hl hr hp => exact ⟨by simp [hr], by rw [step_of_not_lineStart hl hr, hp]⟩

theorem Stop.step_eq {stopped : Halt} (h : s.Stop stopped) : s.step = .error stopped := by
  cases h with
  | mixed hl hm =>
    rw [step_of_lineStart hl, enterLine_of_mixed hm]
    rfl
  | unmatched hl hm hr hc hd hk =>
    rw [step_of_lineStart hl, enterLine_of_content hm hr hc, settle_of_le (by exact hd)]
    exact if_neg hk
  | piece hl hr hp =>
    rw [step_of_not_lineStart hl hr, hp]
    rfl

theorem advance_or_stop (hr : s.cursor.rest ≠ []) :
    (∃ t, s.Advance t) ∨ ∃ stopped, s.Stop stopped := by
  -- The cases of `step` in its own order, each one a constructor.
  by_cases hl : s.lineStart = true
  · by_cases hm : s.margin.mixed = true
    · exact .inr ⟨_, .mixed hl hm⟩
    have hm : s.margin.mixed = false := by simpa using hm
    cases hb : s.behindMargin.cursor.rest with
    | nil => exact .inl ⟨_, .lastMargin hr hl hm hb⟩
    | cons c rest =>
      by_cases hc : isLineBreak c = true
      · exact .inl ⟨_, .emptyLine hl hm hb hc⟩
      have hc : isLineBreak c = false := by simpa using hc
      by_cases hd : s.levels.headD 0 < s.margin.depth
      · exact .inl ⟨_, .opens hl hm hb hc hd⟩
      have hd : s.margin.depth ≤ s.levels.headD 0 := Nat.not_lt.1 hd
      by_cases hk : (s.levels.dropWhile (s.margin.depth < ·)).headD 0 = s.margin.depth
      · exact .inl ⟨_, .closes hl hm hb hc hd hk⟩
      · exact .inr ⟨_, .unmatched hl hm hb hc hd hk⟩
  · have hl : s.lineStart = false := by simpa using hl
    obtain ⟨c, rest, hb⟩ := List.exists_cons_of_ne_nil hr
    cases hp : Piece.read c rest with
    | blank => exact .inl ⟨_, .blank hl hb hp⟩
    | token kind lexeme width => exact .inl ⟨_, .token hl hb hp⟩
    | fault cause width => exact .inr ⟨_, .piece hl hb hp⟩

theorem moves_iff_advance : s.Moves t ↔ s.Advance t := by
  constructor
  · intro ⟨hr, hs⟩
    rcases advance_or_stop hr with ⟨u, hu⟩ | ⟨stopped, hu⟩
    · have he : Except.ok t = Except.ok u := hs.symm.trans hu.moves.2
      cases he
      exact hu
    · cases hs.symm.trans hu.step_eq
  · exact Advance.moves

theorem step_eq_error_iff {stopped : Halt} (hr : s.cursor.rest ≠ []) :
    s.step = .error stopped ↔ s.Stop stopped := by
  constructor
  · intro hs
    rcases advance_or_stop hr with ⟨u, hu⟩ | ⟨other, hu⟩
    · cases hs.symm.trans hu.moves.2
    · have he : Except.error stopped = Except.error other := hs.symm.trans hu.step_eq
      cases he
      exact hu
  · exact Stop.step_eq

theorem Moves.unique {u : Scan} (h : s.Moves t) (h' : s.Moves u) : t = u :=
  Except.ok.inj (h.2.symm.trans h'.2)

theorem Stop.not_moves {stopped : Halt} (h : s.Stop stopped) : ¬ s.Moves t := by
  intro hm
  cases hm.2.symm.trans h.step_eq

def Reaches : Scan → Scan → Prop := Relation.ReflTransGen Moves

theorem Reaches.refl (s : Scan) : s.Reaches s := Relation.ReflTransGen.refl

theorem Reaches.trans {u : Scan} (h : s.Reaches t) (h' : t.Reaches u) : s.Reaches u :=
  Relation.ReflTransGen.trans h h'

theorem Reaches.tail {u : Scan} (h : s.Reaches t) (h' : t.Moves u) : s.Reaches u :=
  Relation.ReflTransGen.tail h h'

theorem Advance.reaches (h : s.Advance t) : s.Reaches t :=
  Relation.ReflTransGen.single h.moves

/-- What every step keeps, every run keeps. -/
theorem Reaches.preserves {P : Scan → Prop} (hP : ∀ {s t : Scan}, s.Advance t → P s → P t)
    (h : s.Reaches t) (hs : P s) : P t := by
  induction h with
  | refl => exact hs
  | tail _ hm ih => exact hP (moves_iff_advance.1 hm) ih

theorem run_of_rest_eq_nil (h : s.cursor.rest = []) : s.run = .ok s := by
  rw [run, dif_pos h]

theorem run_of_moves (h : s.Moves t) : s.run = t.run := by
  rw [run, dif_neg h.1]
  split
  · rename_i hs
    cases hs.symm.trans h.2
  · rename_i u hs
    cases hs.symm.trans h.2
    rfl

theorem run_of_step_eq_error {stopped : Halt} (hr : s.cursor.rest ≠ [])
    (h : s.step = .error stopped) : s.run = .error stopped := by
  rw [run, dif_neg hr]
  split
  · rename_i hs
    exact hs.symm.trans h
  · rename_i hs
    cases hs.symm.trans h

theorem Reaches.run_eq (h : s.Reaches t) : s.run = t.run := by
  induction h with
  | refl => rfl
  | tail _ hm ih => exact ih.trans (run_of_moves hm)

theorem Stop.rest_ne_nil {stopped : Halt} (h : s.Stop stopped) : s.cursor.rest ≠ [] := by
  cases h with
  | mixed hl hm =>
    intro hn
    simp [margin, hn, Margin.read] at hm
  | unmatched hl hm hr hc hd hk => exact rest_ne_nil_of_behindMargin hr
  | piece hl hr hp => simp [hr]

theorem Stop.run_eq {stopped : Halt} (h : s.Stop stopped) : s.run = .error stopped :=
  run_of_step_eq_error h.rest_ne_nil h.step_eq

theorem Reaches.total {u : Scan} (h : s.Reaches t) (h' : s.Reaches u) :
    t.Reaches u ∨ u.Reaches t :=
  Relation.ReflTransGen.total_of_right_unique (fun _ _ _ hm hm' => hm.unique hm') h h'

theorem Reaches.eq_or_moves (h : s.Reaches t) : s = t ∨ ∃ u, s.Moves u ∧ u.Reaches t :=
  Relation.ReflTransGen.cases_head h

theorem Reaches.of_stop {u : Scan} {stopped : Halt} (h : s.Reaches t) (h' : s.Reaches u)
    (hstop : u.Stop stopped) : t.Reaches u := by
  rcases h.total h' with hu | ht
  · exact hu
  · rcases ht.eq_or_moves with rfl | ⟨v, hm, -⟩
    · exact .refl _
    · exact absurd hm hstop.not_moves

/-- A run goes on until nothing is left to read, or until a step stops. -/
theorem exists_reaches (s : Scan) :
    ∃ t, s.Reaches t ∧ (t.cursor.rest = [] ∨ ∃ stopped, t.Stop stopped) := by
  by_cases hr : s.cursor.rest = []
  · exact ⟨s, .refl s, .inl hr⟩
  rcases advance_or_stop hr with ⟨t, ht⟩ | hs
  · have hlt := remaining_step_lt hr ht.moves.2
    obtain ⟨u, hu, he⟩ := exists_reaches t
    exact ⟨u, ht.reaches.trans hu, he⟩
  · exact ⟨s, .refl s, .inr hs⟩
termination_by s.remaining

theorem run_eq_ok_iff : s.run = .ok t ↔ s.Reaches t ∧ t.cursor.rest = [] := by
  constructor
  · intro h
    obtain ⟨u, hu, hr | ⟨stopped, hstop⟩⟩ := exists_reaches s
    · have he : Except.ok t = Except.ok u :=
        (h.symm.trans hu.run_eq).trans (run_of_rest_eq_nil hr)
      cases he
      exact ⟨hu, hr⟩
    · cases (h.symm.trans hu.run_eq).trans hstop.run_eq
  · intro ⟨hs, hr⟩
    exact hs.run_eq.trans (run_of_rest_eq_nil hr)

theorem run_eq_error_iff {stopped : Halt} :
    s.run = .error stopped ↔ ∃ t, s.Reaches t ∧ t.Stop stopped := by
  constructor
  · intro h
    obtain ⟨u, hu, hr | ⟨other, hstop⟩⟩ := exists_reaches s
    · cases (h.symm.trans hu.run_eq).trans (run_of_rest_eq_nil hr)
    · have he : Except.error stopped = Except.error other :=
        (h.symm.trans hu.run_eq).trans hstop.run_eq
      cases he
      exact ⟨u, hu, hstop⟩
  · intro ⟨t, ht, hs⟩
    exact ht.run_eq.trans hs.run_eq

theorem ofSource_eq_ok_iff :
    ofSource source = .ok t ↔
      ∃ s, (start source).Reaches s ∧ s.cursor.rest = [] ∧ t = s.finish := by
  unfold ofSource
  cases hr : (start source).run with
  | error stopped =>
    refine ⟨nofun, fun ⟨s, hs, he, _⟩ => ?_⟩
    cases hr.symm.trans (run_eq_ok_iff.2 ⟨hs, he⟩)
  | ok u =>
    constructor
    · intro h
      cases h
      have hu := run_eq_ok_iff.1 hr
      exact ⟨u, hu.1, hu.2, rfl⟩
    · rintro ⟨s, hs, he, rfl⟩
      cases hr.symm.trans (run_eq_ok_iff.2 ⟨hs, he⟩)
      rfl

theorem ofSource_eq_error_iff {stopped : Halt} :
    ofSource source = .error stopped ↔ ∃ s, (start source).Reaches s ∧ s.Stop stopped := by
  rw [← run_eq_error_iff]
  unfold ofSource
  cases (start source).run with
  | error other => simp [Except.map]
  | ok u => simp [Except.map]

theorem Advance.tokens_prefix (h : s.Advance t) : s.tokens <+: t.tokens := by
  have hm : s.behindMargin.tokens = s.tokens := rfl
  cases h with
  | lastMargin =>
    change s.tokens <+: (s.behindMargin.emit .newline).tokens
    rw [tokens_emit, hm]
    exact List.prefix_append _ _
  | emptyLine =>
    rw [tokens_accept, hm]
    exact List.prefix_append _ _
  | opens =>
    rw [tokens_opening, hm]
    exact List.prefix_append _ _
  | closes =>
    rw [tokens_closing, hm]
    exact List.prefix_append _ _
  | blank => exact List.prefix_rfl
  | token =>
    rw [tokens_accept]
    exact List.prefix_append _ _

theorem Stop.tokens_prefix (h : s.Stop stopped) : s.tokens <+: stopped.scan.tokens := by
  cases h with
  | mixed => exact List.prefix_rfl
  | unmatched =>
    rw [tokens_closing]
    exact List.prefix_append _ _
  | piece => exact List.prefix_rfl

theorem Reaches.tokens_prefix (h : s.Reaches t) : s.tokens <+: t.tokens :=
  h.preserves (P := fun u => s.tokens <+: u.tokens) (fun ha hs => hs.trans ha.tokens_prefix)
    List.prefix_rfl

theorem tokens_prefix_finish (s : Scan) : s.tokens <+: s.finish.tokens := by
  rw [tokens_finish, List.append_assoc, List.append_assoc]
  exact List.prefix_append _ _

end Scan

theorem scan_eq_ok_iff {source : Text} {tokens : List Token} :
    scan source = .ok tokens ↔
      ∃ s, (Scan.start source).Reaches s ∧ s.cursor.rest = [] ∧ tokens = s.finish.tokens := by
  unfold scan
  cases h : Scan.ofSource source with
  | error stopped =>
    refine ⟨nofun, fun ⟨s, hs, hr, _⟩ => ?_⟩
    cases h.symm.trans (Scan.ofSource_eq_ok_iff.2 ⟨s, hs, hr, rfl⟩)
  | ok t =>
    obtain ⟨s, hs, hr, rfl⟩ := Scan.ofSource_eq_ok_iff.1 h
    constructor
    · intro ht
      cases ht
      exact ⟨s, hs, hr, rfl⟩
    · rintro ⟨u, hu, hru, rfl⟩
      have he := h.symm.trans (Scan.ofSource_eq_ok_iff.2 ⟨u, hu, hru, rfl⟩)
      rw [Except.ok.inj he]

theorem scan_eq_error_iff {source : Text} {fault : Fault} :
    scan source = .error fault ↔
      ∃ s stopped, (Scan.start source).Reaches s ∧ s.Stop stopped ∧ stopped.fault = fault := by
  unfold scan
  cases h : Scan.ofSource source with
  | error stopped =>
    obtain ⟨s, hs, hstop⟩ := Scan.ofSource_eq_error_iff.1 h
    constructor
    · intro hf
      cases hf
      exact ⟨s, stopped, hs, hstop, rfl⟩
    · rintro ⟨u, other, hu, hother, rfl⟩
      cases h.symm.trans (Scan.ofSource_eq_error_iff.2 ⟨u, hu, hother⟩)
      rfl
  | ok t =>
    refine ⟨nofun, fun ⟨s, stopped, hs, hstop, _⟩ => ?_⟩
    cases h.symm.trans (Scan.ofSource_eq_error_iff.2 ⟨s, hs, hstop⟩)

/-- What a run has found is part of what the scan returns. -/
theorem Scan.Reaches.prefix_of_scan {source : Text} {s : Scan} {tokens : List Token}
    (h : (Scan.start source).Reaches s) (hscan : scan source = .ok tokens) :
    s.tokens <+: tokens := by
  obtain ⟨t, ht, hr | ⟨stopped, hstop⟩⟩ := Scan.exists_reaches s
  · cases hscan.symm.trans (scan_eq_ok_iff.2 ⟨t, h.trans ht, hr, rfl⟩)
    exact ht.tokens_prefix.trans t.tokens_prefix_finish
  · cases hscan.symm.trans (scan_eq_error_iff.2 ⟨t, stopped, h.trans ht, hstop, rfl⟩)

end Offside
