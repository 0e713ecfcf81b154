import Mathlib.Data.List.DropRight
import Offside.Proofs.Continuation
import Offside.Proofs.Streams
import Offside.Scan.Session

/-! Carrying on from a line boundary: of the lines before it only the open levels, the mark and
the number of lines matter, and where no level is open a text is scanned there as it is alone. -/
namespace Offside

def Token.lower (lines : Int) (t : Token) : Token := { t with place := t.place.lower lines }

def Fault.lower (lines : Int) (f : Fault) : Fault := { f with place := f.place.lower lines }

/-- The tokens before the end of the input and the levels that it closes. -/
def withoutEnd (tokens : List Token) : List Token :=
  tokens.dropLast.rdropWhile (·.kind == .dedent)

/-- Two marks are not two different blanks. -/
def MarksAgree (mark mark' : Option Char) : Prop := ∀ c ∈ mark, ∀ c' ∈ mark', c = c'

/-- A mark of earlier lines changes nothing where it agrees with the one that is found. -/
theorem Margin.read_or {mark mark' : Option Char} {line : Text}
    (h : MarksAgree mark (read mark' line).mark) :
    read (mark.or mark') line =
      { read mark' line with mark := mark.or (read mark' line).mark } := by
  cases mark with
  | none => simp only [Option.none_or]
  | some c =>
    cases hm : (read mark' line).mark with
    | some c' =>
      have hc : c = c' := h c rfl c' hm
      unfold read at hm ⊢
      dsimp only at hm ⊢
      rw [hm, hc]
      rfl
    | none =>
      have hb : (line.takeWhile isBlank).head? = none := (Option.or_eq_none_iff.1 hm).2
      unfold read
      dsimp only
      rw [List.head?_eq_none_iff.1 hb]
      rfl

namespace Cursor

def lower (offset : Nat) (lines : Int) (c : Cursor) : Cursor :=
  ⟨c.rest, offset + c.offset, c.place.lower lines⟩

theorem next_lower (offset : Nat) (lines : Int) (c : Cursor) :
    (c.lower offset lines).next = c.next.lower offset lines := by
  unfold next lower
  cases hr : c.rest with
  | nil => simp [hr]
  | cons x rest =>
    dsimp only
    rw [Position.after_lower]
    rfl

theorem skip_lower (offset : Nat) (lines : Int) (c : Cursor) (n : Nat) :
    (c.lower offset lines).skip n = (c.skip n).lower offset lines := by
  induction n generalizing c with
  | zero => rfl
  | succ n ih => rw [skip, next_lower, ih, skip]

end Cursor

namespace Scan

variable {s t base : Scan} {stopped : Halt} {source text : Text}

def linesAbove (s : Scan) : Int := s.cursor.place.line - 1

/-- The scan as it goes on behind another one, that is at a line boundary without open levels. -/
def upon (s base : Scan) : Scan where
  cursor := s.cursor.lower base.cursor.offset base.linesAbove
  levels := s.levels
  mark := base.mark.or s.mark
  lineStart := s.lineStart
  output := s.output.map (Token.lower base.linesAbove) ++ base.output

theorem start_upon (h : base.AtLine) (hl : base.levels = []) (text : Text) :
    (start text).upon base = base.withRest text := by
  have hp : Position.start.lower base.linesAbove = base.cursor.place := by
    have hc := h.column_eq
    generalize hb : base.cursor.place = place at hc
    cases place
    unfold linesAbove Position.lower Position.start
    simp only [hb, Position.mk.injEq]
    exact ⟨by omega, hc.symm⟩
  unfold upon withRest start Cursor.lower Cursor.start
  dsimp only
  rw [hp, hl, h.lineStart_eq, Option.or_none]
  rfl

theorem tokens_upon (s base : Scan) :
    (s.upon base).tokens = base.tokens ++ s.tokens.map (Token.lower base.linesAbove) := by
  unfold tokens upon
  rw [List.reverse_append, List.map_reverse]

section Step

theorem margin_upon (hm : MarksAgree base.mark s.margin.mark) :
    (s.upon base).margin = { s.margin with mark := base.mark.or s.margin.mark } :=
  Margin.read_or hm

theorem behindMargin_upon (hm : MarksAgree base.mark s.margin.mark) :
    (s.upon base).behindMargin = s.behindMargin.upon base := by
  unfold behindMargin
  rw [margin_upon hm]
  unfold upon
  dsimp only
  rw [Cursor.skip_lower]

theorem mixed_margin_upon (hm : MarksAgree base.mark s.margin.mark) :
    (s.upon base).margin.mixed = s.margin.mixed := by
  rw [margin_upon hm]

theorem depth_margin_upon (hm : MarksAgree base.mark s.margin.mark) :
    (s.upon base).margin.depth = s.margin.depth := by
  rw [margin_upon hm]

theorem rest_behindMargin_upon (hm : MarksAgree base.mark s.margin.mark) :
    (s.upon base).behindMargin.cursor.rest = s.behindMargin.cursor.rest := by
  rw [behindMargin_upon hm]
  rfl

theorem accept_upon (s base : Scan) (kind : Kind) (lexeme : Text) (width : Nat) :
    (s.upon base).accept kind lexeme width = (s.accept kind lexeme width).upon base := by
  unfold accept upon
  dsimp only
  rw [Cursor.skip_lower]
  rfl

theorem closing_upon (s base : Scan) (depth : Nat) (place : Position) :
    (s.upon base).closing depth (place.lower base.linesAbove) =
      (s.closing depth place).upon base := by
  unfold closing upon
  dsimp only
  rw [List.map_append, List.map_replicate, List.append_assoc]
  rfl

theorem mem_mark_margin {c : Char} (hc : c ∈ s.mark) : c ∈ s.margin.mark := by
  rw [Option.mem_def] at hc
  unfold margin Margin.read
  rw [hc]
  rfl

theorem Advance.mem_mark (h : s.Advance t) {c : Char} (hc : c ∈ s.mark) : c ∈ t.mark := by
  cases h with
  | lastMargin => exact mem_mark_margin hc
  | emptyLine => exact mem_mark_margin hc
  | opens => exact mem_mark_margin hc
  | closes => exact mem_mark_margin hc
  | blank => exact hc
  | token => exact hc

theorem Stop.mem_mark (h : s.Stop stopped) {c : Char} (hc : c ∈ s.mark) :
    c ∈ stopped.scan.mark := by
  cases h with
  | mixed => exact mem_mark_margin hc
  | unmatched => exact mem_mark_margin hc
  | piece => exact hc

theorem Advance.upon (h : s.Advance t) (hm : MarksAgree base.mark t.mark) :
    (s.upon base).Advance (t.upon base) := by
  cases h with
  | lastMargin hb hl hn hr =>
    have hs := Advance.lastMargin (s := s.upon base) hb hl ((mixed_margin_upon hm).trans hn)
      ((rest_behindMargin_upon hm).trans hr)
    rw [behindMargin_upon hm] at hs
    exact hs
  | emptyLine hl hn hr hc =>
    have hs := Advance.emptyLine (s := s.upon base) hl ((mixed_margin_upon hm).trans hn)
      ((rest_behindMargin_upon hm).trans hr) hc
    rw [behindMargin_upon hm, accept_upon] at hs
    exact hs
  | opens hl hn hr hc hd =>
    rw [← depth_margin_upon hm] at hd
    have hs := Advance.opens (s := s.upon base) hl ((mixed_margin_upon hm).trans hn)
      ((rest_behindMargin_upon hm).trans hr) hc hd
    rw [depth_margin_upon hm, behindMargin_upon hm] at hs
    exact hs
  | closes hl hn hr hc hd hk =>
    rw [← depth_margin_upon hm] at hd hk
    have hs := Advance.closes (s := s.upon base) hl ((mixed_margin_upon hm).trans hn)
      ((rest_behindMargin_upon hm).trans hr) hc hd hk
    rw [depth_margin_upon hm, behindMargin_upon hm] at hs
    rw [← closing_upon]
    exact hs
  | blank hl hr hp =>
    have hnext : (s.upon base).cursor.next = _ := Cursor.next_lower _ _ s.cursor
    have hs := Advance.blank (s := s.upon base) hl hr hp
    rw [hnext] at hs
    exact hs
  | token hl hr hp =>
    rw [← accept_upon]
    exact .token hl hr hp

theorem Stop.upon (h : s.Stop stopped) (hm : MarksAgree base.mark stopped.scan.mark) :
    (s.upon base).Stop ⟨stopped.fault.lower base.linesAbove, stopped.scan.upon base⟩ := by
  cases h with
  | mixed hl hn =>
    have hs := Stop.mixed (s := s.upon base) hl ((mixed_margin_upon hm).trans hn)
    rw [behindMargin_upon hm] at hs
    exact hs
  | unmatched hl hn hr hc hd hk =>
    rw [← depth_margin_upon hm] at hd hk
    have hs := Stop.unmatched (s := s.upon base) hl ((mixed_margin_upon hm).trans hn)
      ((rest_behindMargin_upon hm).trans hr) hc hd hk
    rw [depth_margin_upon hm, behindMargin_upon hm] at hs
    rw [← closing_upon]
    exact hs
  | @piece c rest cause width hl hr hp =>
    have hskip : (s.upon base).cursor.skip width = _ := Cursor.skip_lower _ _ s.cursor width
    have hs := Stop.piece (s := s.upon base) hl hr hp
    rw [hskip] at hs
    exact hs

end Step

/-- A run behind a line boundary is a run from the start, further down. -/
theorem Reaches.upon (h : s.Reaches t) (hm : MarksAgree base.mark t.mark) :
    (s.upon base).Reaches (t.upon base) := by
  induction h with
  | refl => exact .refl _
  | tail _ hmove ih =>
    have ha := moves_iff_advance.1 hmove
    have hs := ih fun c hc c' hc' => hm c hc c' (ha.mem_mark hc')
    exact hs.tail (ha.upon hm).moves

section Output

theorem mark_finish (s : Scan) : s.finish.mark = s.mark := by
  unfold finish
  split <;> rfl

theorem Advance.output_ne_nil (h : s.Advance t) (hl : t.lineStart = true) : t.output ≠ [] := by
  cases h with
  | lastMargin => cases hl
  | emptyLine => exact List.cons_ne_nil _ _
  | opens => cases hl
  | closes => cases hl
  | blank hn => cases hn.symm.trans hl
  | token => exact List.cons_ne_nil _ _

theorem Reaches.output_ne_nil (h : (start text).Reaches t) (hr : t.cursor.rest = [])
    (hne : text ≠ []) : t.output ≠ [] := by
  have hforms : t.forms ≠ [] → t.output ≠ [] := by
    intro hf hn
    exact hf (by rw [forms, tokens, hn]; rfl)
  cases progress_of_reaches h with
  | between hl hs =>
    cases h with
    | refl => exact absurd hr hne
    | tail _ hm => exact (moves_iff_advance.1 hm).output_ne_nil hl
  | within hl hs hy hf hc =>
    rw [hr] at hc
    apply hforms
    rw [hf]
    simp [hc.contents_of_nil.ne_nil]
  | ended he hs hf =>
    apply hforms
    rw [hf]
    simp

theorem tokens_finish_upon (ho : s.output ≠ []) :
    (s.upon base).finish.tokens =
      base.tokens ++ s.finish.tokens.map (Token.lower base.linesAbove) := by
  have hhead : (s.upon base).output.head?.any (·.kind == .newline) =
      s.output.head?.any (·.kind == .newline) := by
    obtain ⟨token, output, hs⟩ := List.exists_cons_of_ne_nil ho
    unfold upon
    rw [hs]
    rfl
  rw [tokens_finish, tokens_finish, tokens_upon, hhead]
  split <;> simp [upon, Cursor.lower, Token.lower]

theorem AtLine.tokens_finish (h : s.AtLine) :
    s.finish.tokens = s.tokens ++
      List.replicate s.levels.length ⟨.dedent, [], s.cursor.place⟩ ++
      [⟨.eof, [], s.cursor.place⟩] := by
  have hended : s.output.head?.any (·.kind == .newline) = true := by
    obtain ⟨lexeme, place, output, ho⟩ := h.output_eq
    rw [ho]
    rfl
  rw [Scan.tokens_finish, if_pos hended, List.append_nil]

theorem AtLine.withoutEnd_finish (h : s.AtLine) : withoutEnd s.finish.tokens = s.tokens := by
  obtain ⟨lexeme, place, output, ho⟩ := h.output_eq
  unfold withoutEnd
  rw [h.tokens_finish, List.dropLast_concat]
  generalize s.levels.length = n
  induction n with
  | zero =>
    unfold tokens
    rw [List.replicate_zero, List.append_nil, ho, List.reverse_cons]
    exact List.rdropWhile_concat_neg _ _ _ (by simp)
  | succ n ih =>
    rw [List.replicate_succ', ← List.append_assoc]
    exact (List.rdropWhile_concat_pos _ _ _ (by simp)).trans ih

theorem AtLine.levels_eq_nil (h : s.AtLine)
    (hd : withoutEnd s.finish.tokens = s.finish.tokens.dropLast) : s.levels = [] := by
  rw [h.withoutEnd_finish, h.tokens_finish, List.dropLast_concat] at hd
  have hlen := congrArg List.length hd
  rw [List.length_append, List.length_replicate] at hlen
  apply List.eq_nil_of_length_eq_zero
  omega

end Output

/-- The scan of a source as it is left, at the end or where a fault stopped it. -/
def leave (source : Text) : Scan := (Session.ofSource source).scan.2.last

theorem leave_of_ok (h : ofSource source = .ok s) : leave source = s := by
  unfold leave
  rw [Session.scan_of_ok h]
  rfl

theorem leave_of_error (h : ofSource source = .error stopped) : leave source = stopped.scan := by
  unfold leave
  rw [Session.scan_of_error h]
  rfl

theorem Reaches.tokens_prefix_leave (h : (start source).Reaches s) :
    s.tokens <+: (leave source).tokens := by
  obtain ⟨t, ht, hr | ⟨stopped, hstop⟩⟩ := exists_reaches s
  · rw [leave_of_ok (ofSource_eq_ok_iff.2 ⟨t, h.trans ht, hr, rfl⟩)]
    exact ht.tokens_prefix.trans t.tokens_prefix_finish
  · rw [leave_of_error (ofSource_eq_error_iff.2 ⟨t, h.trans ht, hstop⟩)]
    exact ht.tokens_prefix.trans hstop.tokens_prefix

/-- Without open levels a text behind a line boundary is scanned as it is alone. -/
theorem AtLine.scan_append (h : base.AtLine) (hl : base.levels = [])
    (hreach : (start (source ++ text)).Reaches (base.withRest text)) (hne : text ≠ [])
    (hm : MarksAgree base.mark (leave text).mark) :
    scan (source ++ text) =
      ((scan text).map fun tokens =>
        base.tokens ++ tokens.map (Token.lower base.linesAbove)).mapError
          (Fault.lower base.linesAbove) := by
  rw [← start_upon h hl] at hreach
  obtain ⟨t, ht, hr | ⟨stopped, hstop⟩⟩ := exists_reaches (start text)
  · have htext : ofSource text = .ok t.finish := ofSource_eq_ok_iff.2 ⟨t, ht, hr, rfl⟩
    rw [leave_of_ok htext, mark_finish] at hm
    have hgo := hreach.trans (ht.upon hm)
    rw [scan_eq_ok_iff.2 ⟨t, ht, hr, rfl⟩, scan_eq_ok_iff.2 ⟨_, hgo, hr, rfl⟩,
      tokens_finish_upon (ht.output_ne_nil hr hne)]
    rfl
  · rw [leave_of_error (ofSource_eq_error_iff.2 ⟨t, ht, hstop⟩)] at hm
    have hgo := hreach.trans (ht.upon fun c hc c' hc' => hm c hc c' (hstop.mem_mark hc'))
    rw [scan_eq_error_iff.2 ⟨t, stopped, ht, hstop, rfl⟩,
      scan_eq_error_iff.2 ⟨_, _, hgo, hstop.upon hm, rfl⟩]
    rfl

end Scan

/-- Carrying on from a line boundary. The tokens of whole lines stay whatever follows them; and
where they leave no level open, a text that does not mix blanks with them is scanned behind them
as it is alone, as many lines further down. -/
theorem scan_append_of_lineFeed {source : Text} {tokens : List Token}
    (h : scan source = .ok tokens) (hl : source.getLast? = some '\n') :
    (∀ text, withoutEnd tokens <+: (Scan.leave (source ++ text)).tokens) ∧
    ∃ eof, tokens.getLast? = some eof ∧ eof.kind = .eof ∧
      (withoutEnd tokens = tokens.dropLast → ∀ text, text ≠ [] →
        MarksAgree (Scan.leave source).mark (Scan.leave text).mark →
        scan (source ++ text) =
          ((scan text).map fun more =>
            withoutEnd tokens ++ more.map (Token.lower (eof.place.line - 1))).mapError
              (Fault.lower (eof.place.line - 1))) := by
  obtain ⟨s, hs, hr, rfl⟩ := scan_eq_ok_iff.1 h
  obtain ⟨hline, hgo⟩ := hs.behind_lineFeed hr hl
  constructor
  · intro text
    rw [hline.withoutEnd_finish]
    exact (hgo text).tokens_prefix_leave
  · refine ⟨⟨.eof, [], s.cursor.place⟩, ?_, rfl, ?_⟩
    · rw [hline.tokens_finish, List.getLast?_concat]
    · intro hd text hne hm
      rw [Scan.leave_of_ok (Scan.ofSource_eq_ok_iff.2 ⟨s, hs, hr, rfl⟩), Scan.mark_finish] at hm
      rw [hline.withoutEnd_finish]
      exact hline.scan_append (hline.levels_eq_nil hd) (hgo text) hne hm

/-- A line in a level that is closed before the boundary, and a text that opens one. -/
theorem scan_append_of_closed_level :
    let source := "a\n\tb\nc\n".toList
    let tokens : List Token := [
      ⟨.identifier, ['a'], ⟨1, 1⟩⟩, ⟨.newline, ['\n'], ⟨1, 2⟩⟩, ⟨.indent, [], ⟨2, 1⟩⟩,
      ⟨.identifier, ['b'], ⟨2, 2⟩⟩, ⟨.newline, ['\n'], ⟨2, 3⟩⟩, ⟨.dedent, [], ⟨3, 1⟩⟩,
      ⟨.identifier, ['c'], ⟨3, 1⟩⟩, ⟨.newline, ['\n'], ⟨3, 2⟩⟩, ⟨.eof, [], ⟨4, 1⟩⟩]
    scan source = .ok tokens ∧
      withoutEnd tokens <+: (Scan.leave (source ++ "\td \"".toList)).tokens ∧
      scan (source ++ "\td \"".toList) = .error ⟨.unterminatedString, ⟨4, 5⟩⟩ := by
  intro source tokens
  have h : scan source = .ok tokens := by decide +kernel
  obtain ⟨hkept, eof, heof, -, happend⟩ := scan_append_of_lineFeed h rfl
  cases heof
  have hm : MarksAgree (Scan.leave source).mark (Scan.leave "\td \"".toList).mark := by
    have hs : (Scan.leave source).mark = some '\t' := by decide +kernel
    have ht : (Scan.leave "\td \"".toList).mark = some '\t' := by decide +kernel
    rw [hs, ht]
    simp [MarksAgree]
  have ht : scan "\td \"".toList = .error ⟨.unterminatedString, ⟨1, 5⟩⟩ := by decide +kernel
  refine ⟨h, hkept _, ?_⟩
  rw [happend (by decide +kernel) _ (by decide) hm, ht]
  rfl

end Offside
