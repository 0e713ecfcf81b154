import Offside.Proofs.Grammar
import Offside.Proofs.Lists
import Offside.Proofs.Steps

/-! Every scan gives a well-formed stream. -/
namespace Offside
namespace Scan

open Grammar

variable {s t : Scan} {source : Text}

def forms (s : Scan) : List Form := s.tokens.map Token.form

theorem forms_of_tokens {new : List Token} (h : t.tokens = s.tokens ++ new) :
    t.forms = s.forms ++ new.map Token.form := by
  simp [forms, h]

theorem lineEnded_forms (s : Scan) :
    lineEnded s.forms = s.output.head?.any (·.kind == .newline) := by
  simp only [lineEnded, forms, tokens, List.getLast?_map, List.getLast?_reverse]
  cases s.output.head? <;> rfl

theorem forms_finish (s : Scan) :
    s.finish.forms = s.forms ++
      (if lineEnded s.forms then [] else [(.newline, [])]) ++
      List.replicate s.levels.length (.dedent, []) ++ [(.eof, [])] := by
  rw [lineEnded_forms]
  unfold forms
  rw [tokens_finish]
  split <;> simp [Token.form]

/-- What can follow the contents of a line so far: behind the margin a character that begins a
token, and behind a comment the end of the line. -/
inductive Follows : List Form → Text → Prop
  | margin {c rest} (hb : isBlank c = false) (hl : isLineBreak c = false) :
      Follows [] (c :: rest)
  | contents {contents rest} (hc : Contents contents)
      (hl : ∀ f c tail, contents.getLast? = some f → f.1 = .comment → rest = c :: tail →
        isLineBreak c = true) : Follows contents rest

/-- How far a scan is in its stream. -/
inductive Progress (s : Scan) : Prop
  | between (hl : s.lineStart = true) (hs : Lines IsLineEnd 0 s.forms s.levels.length)
  | within {lines layout contents : List Form} {level : Nat} (hl : s.lineStart = false)
      (hs : Lines IsLineEnd 0 lines level) (hy : Layout level layout s.levels.length)
      (hf : s.forms = lines ++ (layout ++ contents)) (hc : Follows contents s.cursor.rest)
  | ended {lines : List Form} (hr : s.cursor.rest = [])
      (hs : Lines IsLineEnd 0 lines s.levels.length) (hf : s.forms = lines ++ [(.newline, [])])

section Follows

variable {contents : List Form} {c : Char} {rest lexeme : Text} {kind : Kind} {width : Nat}

theorem Follows.not_comment (h : Follows contents (c :: rest)) (hl : isLineBreak c = false) :
    ∀ f ∈ contents, f.1 ≠ .comment := by
  cases h with
  | margin => simp
  | contents hc hlast =>
    intro f hf hk
    rcases List.eq_nil_or_concat contents with rfl | ⟨before, last, rfl⟩
    · exact hc.ne_nil rfl
    rw [List.concat_eq_append] at hc hf hlast
    rcases List.mem_append.1 hf with hf | hf
    · exact hc.comment f (by simpa using hf) hk
    · rw [List.mem_singleton.1 hf] at hk
      have hb := hlast last c rest (by simp) hk rfl
      exact absurd hb (by simp [hl])

theorem Follows.blank (h : Follows contents (c :: rest)) (hb : isBlank c = true) :
    Follows contents rest := by
  have hl : isLineBreak c = false := by
    rcases isBlank_iff.1 hb with rfl | rfl
    · rfl
    · rfl
  have hn := h.not_comment hl
  cases h with
  | margin hc => exact absurd hb (by simp [hc])
  | contents hc hlast =>
    refine .contents hc fun f x tail hf hk _ => ?_
    exact absurd hk (hn f (List.mem_of_getLast? hf))

theorem Follows.token (h : Follows contents (c :: rest))
    (hp : Piece.read c rest = .token kind lexeme width) (hk : kind ≠ .newline) :
    Follows (contents ++ [(kind, lexeme)]) ((c :: rest).drop width) := by
  have hl : isLineBreak c = false := by
    cases hb : isLineBreak c with
    | false => rfl
    | true => exact absurd (Piece.kind_of_read hp hb) hk
  have ht := tokenAt_of_read hp
  have hcontent : ∀ f ∈ contents, Content f.1 f.2 := by
    cases h with
    | margin => simp
    | contents hc => exact hc.content
  refine .contents ⟨by simp, fun f hf => ?_, fun f hf => ?_⟩ fun f x tail hf hc hd => ?_
  · rcases List.mem_append.1 hf with hf | hf
    · exact hcontent f hf
    · rw [List.mem_singleton.1 hf]
      exact ht.content hk
  · rw [List.dropLast_concat] at hf
    exact h.not_comment hl f hf
  · rw [List.getLast?_concat] at hf
    cases hf
    exact ht.isLineBreak_of_comment hc hd

theorem Follows.contents_of_lineBreak (h : Follows contents (c :: rest))
    (hl : isLineBreak c = true) : Contents contents := by
  cases h with
  | margin _ hc => exact absurd hl (by simp [hc])
  | contents hc => exact hc

theorem Follows.contents_of_nil (h : Follows contents []) : Contents contents := by
  cases h with
  | contents hc => exact hc

end Follows

theorem isLineEnd_lineBreakAt {c : Char} (hc : isLineBreak c = true) (rest : Text) :
    IsLineEnd (lineBreakAt c rest) := by
  unfold lineBreakAt IsLineEnd
  rcases isLineBreak_iff.1 hc with rfl | rfl
  · simp
  · split <;> simp

/-- Closing levels is layout, as long as some are closed. -/
theorem layout_closing (levels : List Nat) (depth : Nat) :
    Layout levels.length (List.replicate (levels.takeWhile (depth < ·)).length (.dedent, []))
      (levels.dropWhile (depth < ·)).length := by
  have hs := length_takeWhile_add_dropWhile (depth < ·) levels
  by_cases hk : (levels.takeWhile (depth < ·)).length = 0
  · have hd : (levels.dropWhile (depth < ·)).length = levels.length := by omega
    rw [hk, hd]
    exact .same
  · have hd : (levels.dropWhile (depth < ·)).length =
        levels.length - (levels.takeWhile (depth < ·)).length := by omega
    rw [hd]
    exact .shallower (by omega) (by omega)

namespace Progress

theorem start (source : Text) : (Scan.start source).Progress := .between rfl .nil

theorem lines_of_lineStart (h : s.Progress) (hl : s.lineStart = true)
    (hr : s.cursor.rest ≠ []) : Lines IsLineEnd 0 s.forms s.levels.length := by
  cases h with
  | between _ hs => exact hs
  | within hn => cases hl.symm.trans hn
  | ended he => exact absurd he hr

theorem follows_behindMargin {c : Char} {rest : Text} (hm : s.margin.mixed = false)
    (hr : s.behindMargin.cursor.rest = c :: rest) (hc : isLineBreak c = false) :
    Follows [] s.behindMargin.cursor.rest := by
  have hb := List.head?_dropWhile_not isBlank s.cursor.rest
  rw [← rest_behindMargin_of_not_mixed hm, hr] at hb
  rw [hr]
  exact .margin hb hc

section Within

variable {c : Char} {rest lexeme : Text} {kind : Kind} {width : Nat}

theorem exists_within (h : s.Progress) (hl : s.lineStart = false)
    (hr : s.cursor.rest = c :: rest) :
    ∃ lines layout contents : List Form, ∃ level, Lines IsLineEnd 0 lines level ∧
      Layout level layout s.levels.length ∧ s.forms = lines ++ (layout ++ contents) ∧
      Follows contents (c :: rest) := by
  cases h with
  | between hn => cases hl.symm.trans hn
  | @within lines layout contents level _ hs hy hf hc =>
    rw [hr] at hc
    exact ⟨lines, layout, contents, level, hs, hy, hf, hc⟩
  | ended he => cases hr.symm.trans he

theorem blank (h : s.Progress) (hl : s.lineStart = false) (hr : s.cursor.rest = c :: rest)
    (hp : Piece.read c rest = .blank) : Progress { s with cursor := s.cursor.next } := by
  obtain ⟨lines, layout, contents, level, hs, hy, hf, hc⟩ := h.exists_within hl hr
  have hn : s.cursor.next.rest = rest := by rw [Cursor.rest_next, hr, List.tail_cons]
  have hfollows := hc.blank (Piece.isBlank_of_read hp)
  rw [← hn] at hfollows
  exact .within hl hs hy hf hfollows

theorem lineBreak (h : s.Progress) (hl : s.lineStart = false) (hr : s.cursor.rest = c :: rest)
    (hp : Piece.read c rest = .token .newline lexeme width) :
    (s.accept .newline lexeme width).Progress := by
  obtain ⟨lines, layout, contents, level, hs, hy, hf, hc⟩ := h.exists_within hl hr
  obtain ⟨hb, rfl, -⟩ := (tokenAt_of_read hp).lineBreak_of_newline rfl
  have hforms : (s.accept .newline (lineBreakAt c rest) width).forms =
      s.forms ++ [(.newline, lineBreakAt c rest)] := forms_of_tokens (tokens_accept s ..)
  refine .between rfl ?_
  rw [hforms, hf, List.append_assoc]
  exact hs.snoc (.content hy (hc.contents_of_lineBreak hb) (isLineEnd_lineBreakAt hb rest))

theorem content (h : s.Progress) (hl : s.lineStart = false) (hr : s.cursor.rest = c :: rest)
    (hp : Piece.read c rest = .token kind lexeme width) (hk : kind ≠ .newline) :
    (s.accept kind lexeme width).Progress := by
  obtain ⟨lines, layout, contents, level, hs, hy, hf, hc⟩ := h.exists_within hl hr
  have hforms : (s.accept kind lexeme width).forms = s.forms ++ [(kind, lexeme)] :=
    forms_of_tokens (tokens_accept s ..)
  have hrest : (s.accept kind lexeme width).cursor.rest = (c :: rest).drop width := by
    simp [accept, hr]
  have hfollows := hc.token hp hk
  rw [← hrest] at hfollows
  refine .within (by simpa [accept] using hk) hs hy ?_ hfollows
  rw [hforms, hf, List.append_assoc, List.append_assoc]

end Within

theorem step (h : s.Progress) (ha : s.Advance t) : t.Progress := by
  have hne := ha.moves.1
  cases ha with
  | lastMargin hb hl hm hr =>
    refine .ended hr (h.lines_of_lineStart hl hne) ?_
    exact forms_of_tokens (tokens_emit s.behindMargin .newline)
  | @emptyLine c rest hl hm hr hc =>
    have hf : (s.behindMargin.accept .newline (lineBreakAt c rest)
        (lineBreakAt c rest).length).forms = s.forms ++ [(.newline, lineBreakAt c rest)] :=
      forms_of_tokens (tokens_accept s.behindMargin .newline _ _)
    refine .between rfl ?_
    rw [hf]
    exact (h.lines_of_lineStart hl hne).snoc (.blank (isLineEnd_lineBreakAt hc rest))
  | opens hl hm hr hc hd =>
    have hlayout : Layout s.levels.length [(.indent, [])] (s.levels.length + 1) := .deeper
    refine .within rfl (h.lines_of_lineStart hl hne) hlayout ?_ (follows_behindMargin hm hr hc)
    exact forms_of_tokens (tokens_opening s.behindMargin _ _)
  | closes hl hm hr hc hd hk =>
    have hlayout := layout_closing s.levels s.margin.depth
    refine .within rfl (h.lines_of_lineStart hl hne) hlayout ?_ (follows_behindMargin hm hr hc)
    have hf := forms_of_tokens (tokens_closing s.behindMargin s.margin.depth s.cursor.place)
    rw [List.map_replicate] at hf
    rw [List.append_nil]
    exact hf
  | blank hl hr hp => exact h.blank hl hr hp
  | @token c rest kind lexeme width hl hr hp =>
    by_cases hk : kind = .newline
    · subst hk
      exact h.lineBreak hl hr hp
    · exact h.content hl hr hp hk

theorem stream_finish (h : s.Progress) (hr : s.cursor.rest = []) :
    Stream IsLineEnd (fun t => IsLineEnd t ∨ t = []) s.finish.forms := by
  rw [forms_finish]
  -- Between lines, within a line, and behind a last margin that has been ended already.
  cases h with
  | between hl hs =>
    generalize hf : s.forms = forms at hs
    generalize s.levels.length = level at hs
    cases hs with
    | nil => exact .intro .nil (.blank (.inr rfl))
    | @snoc level _ lines line hs hline =>
      rw [if_pos (hline.lineEnded_append lines), List.append_nil]
      exact .intro hs (hline.mono fun _ => .inl)
  | @within lines layout contents level hl hs hy hf hc =>
    rw [hr] at hc
    have hcs := hc.contents_of_nil
    have hopen : lineEnded s.forms = false := by
      rw [hf, ← List.append_assoc]
      exact hcs.not_lineEnded_append (lines ++ layout)
    rw [hopen, if_neg (by simp), hf, List.append_assoc lines]
    exact .intro hs (.content hy hcs (.inr rfl))
  | ended he hs hf =>
    have hended : lineEnded s.forms = true := by
      rw [hf]
      exact lineEnded_concat _ []
    rw [if_pos hended, List.append_nil, hf]
    exact .intro hs (.blank (.inr rfl))

end Progress

theorem progress_of_reaches (h : (start source).Reaches s) : s.Progress :=
  h.preserves (P := Progress) (fun ha hs => hs.step ha) (.start source)

end Scan

/-- Every scan gives a well-formed stream, in which only the last line may lack a line break. -/
theorem scan_stream {source : Text} {tokens : List Token} (h : scan source = .ok tokens) :
    Grammar.Stream Grammar.IsLineEnd (fun t => Grammar.IsLineEnd t ∨ t = [])
      (tokens.map Token.form) := by
  obtain ⟨s, hs, hr, rfl⟩ := scan_eq_ok_iff.1 h
  exact (Scan.progress_of_reaches hs).stream_finish hr

/-- A line in a deeper level, and behind it a last line of blanks alone. -/
theorem scan_stream_of_last_margin :
    let tokens : List Token := [
      ⟨.identifier, ['a'], ⟨1, 1⟩⟩, ⟨.newline, ['\n'], ⟨1, 2⟩⟩, ⟨.indent, [], ⟨2, 1⟩⟩,
      ⟨.identifier, ['b'], ⟨2, 3⟩⟩, ⟨.newline, ['\r'], ⟨2, 4⟩⟩, ⟨.newline, [], ⟨3, 2⟩⟩,
      ⟨.dedent, [], ⟨3, 2⟩⟩, ⟨.eof, [], ⟨3, 2⟩⟩]
    scan "a\n  b\r ".toList = .ok tokens ∧
      Grammar.Stream Grammar.IsLineEnd (fun t => Grammar.IsLineEnd t ∨ t = [])
        (tokens.map Token.form) := by
  intro tokens
  have h : scan "a\n  b\r ".toList = .ok tokens := by decide +kernel
  exact ⟨h, scan_stream h⟩

end Offside
