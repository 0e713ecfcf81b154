import Offside.Proofs.PrintedTokens
import Offside.Proofs.Streams

/-! Scanning a printed stream gives the stream again. -/
namespace Offside

open Grammar

/-- The levels of lines that are indented by one space for each. -/
def nested : Nat → List Nat
  | 0 => []
  | level + 1 => (level + 1) :: nested level

section Nested

variable {level depth : Nat}

@[simp] theorem length_nested (level : Nat) : (nested level).length = level := by
  induction level with
  | zero => rfl
  | succ level ih => rw [nested, List.length_cons, ih]

@[simp] theorem headD_nested (level : Nat) : (nested level).headD 0 = level := by
  cases level <;> rfl

theorem dropWhile_nested (h : depth ≤ level) :
    (nested level).dropWhile (depth < ·) = nested depth := by
  induction level with
  | zero =>
    rw [Nat.le_zero.1 h]
    rfl
  | succ level ih =>
    by_cases hd : depth = level + 1
    · rw [hd, nested, List.dropWhile_cons, if_neg (by simp)]
    · have hlt : depth < level + 1 := by omega
      rw [nested, List.dropWhile_cons, if_pos (by simpa using hlt)]
      exact ih (by omega)

theorem length_takeWhile_nested (h : depth ≤ level) :
    ((nested level).takeWhile (depth < ·)).length = level - depth := by
  have hs := length_takeWhile_add_dropWhile (depth < ·) (nested level)
  rw [dropWhile_nested h, length_nested, length_nested] at hs
  omega

end Nested

theorem Margin.read_spaces {mark : Option Char} (hm : mark = none ∨ mark = some ' ') {c : Char}
    (hc : isBlank c = false) (depth : Nat) (rest : Text) :
    ∃ mark', Margin.read mark (List.replicate depth ' ' ++ c :: rest) = ⟨mark', depth, false⟩ ∧
      (mark' = none ∨ mark' = some ' ') := by
  have hb : (List.replicate depth ' ' ++ c :: rest).takeWhile isBlank =
      List.replicate depth ' ' := by
    refine takeWhile_append_cons (fun a ha => ?_) hc rest
    rw [List.eq_of_mem_replicate ha]
    rfl
  unfold Margin.read
  rw [hb]
  cases depth with
  | zero => exact ⟨mark, by simp, hm⟩
  | succ depth =>
    have hk : mark.or (List.replicate (depth + 1) ' ').head? = some ' ' := by
      rcases hm with rfl | rfl <;> rfl
    refine ⟨some ' ', ?_, .inr rfl⟩
    dsimp only
    rw [hk, List.takeWhile_replicate]
    simp

namespace Grammar

theorem exists_separator (level : Nat) (contents : List Form)
    (hc : ∀ f ∈ contents, Content f.1 f.2) (forms : List Form) :
    ∃ x rest, x ∈ separators ∧ (contents = [] → x = '\n') ∧
      printFrom level false (contents ++ (.newline, ['\n']) :: forms) = x :: rest := by
  cases contents with
  | nil => exact ⟨'\n', _, by decide, fun _ => rfl, rfl⟩
  | cons f contents =>
    rw [List.cons_append, printFrom_content (hc f List.mem_cons_self)]
    exact ⟨' ', _, by decide, nofun, rfl⟩

/-- The tokens of a printed line neither merge with what follows them nor fall apart. -/
theorem Contents.begins {kind : Kind} {lexeme : Text} {contents : List Form}
    (hc : Contents ((kind, lexeme) :: contents)) (level : Nat) (forms : List Form) :
    Begins (kind.write lexeme)
      (printFrom level false (contents ++ (.newline, ['\n']) :: forms)) kind lexeme := by
  have hcontent : Content kind lexeme := hc.content (kind, lexeme) List.mem_cons_self
  have hbehind : ∀ f ∈ contents, Content f.1 f.2 := fun f hf =>
    hc.content f (List.mem_cons_of_mem _ hf)
  obtain ⟨x, rest, hx, hend, hp⟩ := exists_separator level contents hbehind forms
  rw [hp]
  apply hcontent.begins hx
  intro hk
  exact hend (hc.eq_nil_of_comment hk)

end Grammar

namespace Scan

variable {s t u : Scan} {level level' : Nat} {lineStart : Bool} {text rest : Text}
  {kind : Kind} {lexeme : Text} {new more : List Form}

/-- A scan within a printed text: what is left, and the levels that are open. -/
structure At (s : Scan) (lineStart : Bool) (level : Nat) (rest : Text) : Prop where
  rest_eq : s.cursor.rest = rest
  lineStart_eq : s.lineStart = lineStart
  levels_eq : s.levels = nested level
  mark_eq : s.mark = none ∨ s.mark = some ' '

def Yields (s : Scan) (new : List Form) (t : Scan) : Prop :=
  s.Reaches t ∧ t.forms = s.forms ++ new

theorem Advance.yields (h : s.Advance t) {tokens : List Token}
    (ht : t.tokens = s.tokens ++ tokens) : s.Yields (tokens.map Token.form) t :=
  ⟨h.reaches, forms_of_tokens ht⟩

theorem Yields.trans (h : s.Yields new t) (h' : t.Yields more u) : s.Yields (new ++ more) u := by
  refine ⟨h.1.trans h'.1, ?_⟩
  rw [h'.2, h.2, List.append_assoc]

theorem At.token (h : s.At false level (text ++ rest)) (hb : Begins text rest kind lexeme)
    (hk : kind ≠ .newline) : ∃ t, s.Yields [(kind, lexeme)] t ∧ t.At false level rest := by
  obtain ⟨c, tail, he, -, -, hp⟩ := hb
  have ha : s.Advance (s.accept kind lexeme text.length) :=
    .token h.lineStart_eq (h.rest_eq.trans he) hp
  refine ⟨_, ha.yields (tokens_accept ..), ?_, ?_, h.levels_eq, h.mark_eq⟩
  · show (s.cursor.skip text.length).rest = rest
    rw [Cursor.rest_skip, h.rest_eq, List.drop_left]
  · simpa [accept] using hk

theorem At.space (h : s.At false level (' ' :: rest)) :
    ∃ t, s.Yields [] t ∧ t.At false level rest := by
  have ha : s.Advance { s with cursor := s.cursor.next } :=
    .blank h.lineStart_eq h.rest_eq rfl
  refine ⟨_, ha.yields (List.append_nil _).symm, ?_, h.lineStart_eq, h.levels_eq, h.mark_eq⟩
  show s.cursor.next.rest = rest
  rw [Cursor.rest_next, h.rest_eq, List.tail_cons]

theorem At.newline (h : s.At false level ('\n' :: rest)) :
    ∃ t, s.Yields [(.newline, ['\n'])] t ∧ t.At true level rest := by
  have ha : s.Advance (s.accept .newline ['\n'] 1) :=
    .token h.lineStart_eq h.rest_eq rfl
  refine ⟨_, ha.yields (tokens_accept ..), ?_, rfl, h.levels_eq, h.mark_eq⟩
  show (s.cursor.skip 1).rest = rest
  rw [Cursor.rest_skip, h.rest_eq]
  rfl

theorem At.behindMargin (depth : Nat) {c : Char} (hc : isBlank c = false)
    (h : s.At true level (List.replicate depth ' ' ++ c :: rest)) :
    s.margin.depth = depth ∧ s.margin.mixed = false ∧
      s.behindMargin.cursor.rest = c :: rest ∧
      (s.behindMargin.mark = none ∨ s.behindMargin.mark = some ' ') := by
  obtain ⟨mark, hm, hmark⟩ := Margin.read_spaces h.mark_eq hc depth rest
  have hmargin : s.margin = ⟨mark, depth, false⟩ := by
    rw [margin, h.rest_eq]
    exact hm
  rw [rest_behindMargin, h.rest_eq, Scan.behindMargin, hmargin]
  exact ⟨rfl, rfl, List.drop_left' List.length_replicate, hmark⟩

theorem At.emptyLine (h : s.At true level ('\n' :: rest)) :
    ∃ t, s.Yields [(.newline, ['\n'])] t ∧ t.At true level rest := by
  obtain ⟨-, hm, hr, hmark⟩ := At.behindMargin 0 (c := '\n') rfl h
  have ha := Advance.emptyLine h.lineStart_eq hm hr rfl
  refine ⟨_, ha.yields (tokens_accept s.behindMargin ..), ?_, rfl, h.levels_eq, hmark⟩
  show (s.behindMargin.cursor.skip 1).rest = rest
  rw [Cursor.rest_skip, hr]
  rfl

section Layout

variable {c : Char}

theorem At.opens (hb : isBlank c = false) (hl : isLineBreak c = false)
    (h : s.At true level (List.replicate (level + 1) ' ' ++ c :: rest)) :
    ∃ t, s.Yields [(.indent, [])] t ∧ t.At false (level + 1) (c :: rest) := by
  obtain ⟨hd, hm, hr, hmark⟩ := h.behindMargin _ hb
  have hlt : s.levels.headD 0 < s.margin.depth := by
    rw [h.levels_eq, headD_nested, hd]
    exact Nat.lt_succ_self level
  have ha := Advance.opens h.lineStart_eq hm hr hl hlt
  refine ⟨_, ha.yields (tokens_opening s.behindMargin ..), hr, rfl, ?_, hmark⟩
  show s.margin.depth :: s.levels = nested (level + 1)
  rw [hd, h.levels_eq, nested]

theorem At.closes (hle : level' ≤ level) (hb : isBlank c = false) (hl : isLineBreak c = false)
    (h : s.At true level (List.replicate level' ' ' ++ c :: rest)) :
    ∃ t, s.Yields (List.replicate (level - level') (.dedent, [])) t ∧
      t.At false level' (c :: rest) := by
  obtain ⟨hd, hm, hr, hmark⟩ := h.behindMargin _ hb
  have hopen : s.levels.dropWhile (s.margin.depth < ·) = nested level' := by
    rw [hd, h.levels_eq, dropWhile_nested hle]
  have hclosed : (s.levels.takeWhile (s.margin.depth < ·)).length = level - level' := by
    rw [hd, h.levels_eq, length_takeWhile_nested hle]
  have hdeep : s.margin.depth ≤ s.levels.headD 0 := by
    rw [hd, h.levels_eq, headD_nested]
    exact hle
  have hknown : (s.levels.dropWhile (s.margin.depth < ·)).headD 0 = s.margin.depth := by
    rw [hopen, headD_nested, hd]
  have ha := Advance.closes h.lineStart_eq hm hr hl hdeep hknown
  refine ⟨s.behindMargin.closing s.margin.depth s.cursor.place, ?_, hr, rfl, hopen, hmark⟩
  have hy := ha.yields (tokens_closing s.behindMargin ..)
  rw [List.map_replicate] at hy
  rw [← hclosed]
  exact hy

theorem At.layout {layout : List Form} (hy : Layout level layout level')
    (hb : isBlank c = false) (hl : isLineBreak c = false)
    (h : s.At true level (List.replicate level' ' ' ++ c :: rest)) :
    ∃ t, s.Yields layout t ∧ t.At false level' (c :: rest) := by
  cases hy with
  | same =>
    have hc := h.closes (Nat.le_refl level) hb hl
    rwa [Nat.sub_self] at hc
  | deeper => exact h.opens hb hl
  | @shallower k _ hle =>
    have hc := h.closes (Nat.sub_le level k) hb hl
    rwa [Nat.sub_sub_self hle] at hc

end Layout

section Contents

variable {contents forms : List Form}

theorem At.content (hc : Contents ((kind, lexeme) :: contents))
    (h : s.At false level (kind.write lexeme ++
      printFrom level false (contents ++ (.newline, ['\n']) :: forms))) :
    ∃ t, s.Yields [(kind, lexeme)] t ∧
      t.At false level (printFrom level false (contents ++ (.newline, ['\n']) :: forms)) := by
  have hcontent : Content kind lexeme := hc.content (kind, lexeme) List.mem_cons_self
  apply h.token (hc.begins level forms)
  intro hk
  rw [hk] at hcontent
  exact hcontent.not_structural rfl

theorem At.tokens (hc : Contents ((kind, lexeme) :: contents))
    (h : s.At false level (kind.write lexeme ++
      printFrom level false (contents ++ (.newline, ['\n']) :: forms))) :
    ∃ t, s.Yields ((kind, lexeme) :: contents ++ [(.newline, ['\n'])]) t ∧
      t.At true level (printFrom level true forms) := by
  induction contents generalizing s kind lexeme with
  | nil =>
    obtain ⟨t, hy, ht⟩ := h.content hc
    obtain ⟨u, hy', hu⟩ := At.newline ht
    exact ⟨u, hy.trans hy', hu⟩
  | cons f contents ih =>
    obtain ⟨t, hy, ht⟩ := h.content hc
    rw [List.cons_append, printFrom_content (hc.tail.content f List.mem_cons_self)] at ht
    obtain ⟨u, hy', hu⟩ := At.space ht
    obtain ⟨v, hy'', hv⟩ := ih hc.tail hu
    exact ⟨v, hy.trans (hy'.trans hy''), hv⟩

end Contents

/-- A printed line gives its tokens, and leaves the scan where the next line begins. -/
theorem At.line {line : List Form} (hl : Line (· = ['\n']) level line level') {forms : List Form}
    (h : s.At true level (printFrom level true (line ++ forms))) :
    ∃ t, s.Yields line t ∧ t.At true level' (printFrom level' true forms) := by
  cases hl with
  | blank he =>
    rw [he] at h ⊢
    exact At.emptyLine h
  | @content _ layout contents ending hy hc he =>
    subst he
    obtain ⟨⟨kind, lexeme⟩, behind, rfl⟩ := List.exists_cons_of_ne_nil hc.ne_nil
    have hcontent : Content kind lexeme := hc.content (kind, lexeme) List.mem_cons_self
    have happend : layout ++ (kind, lexeme) :: behind ++ [(.newline, ['\n'])] ++ forms =
        layout ++ (kind, lexeme) :: (behind ++ (.newline, ['\n']) :: forms) := by
      simp
    rw [happend, printFrom_line hy hcontent] at h
    -- The margin ends where the first token begins.
    obtain ⟨c, tail, hw, hb, hn, -⟩ := hc.begins level' forms
    rw [hw] at h
    obtain ⟨t, hy', ht⟩ := h.layout hy hb hn
    rw [← hw] at ht
    obtain ⟨u, hy'', hu⟩ := ht.tokens hc
    refine ⟨u, ?_, hu⟩
    rw [List.append_assoc]
    exact hy'.trans hy''

theorem At.lines {start : Nat} {lines : List Form} (hl : Lines (· = ['\n']) start lines level)
    {forms : List Form} (h : s.At true start (printFrom start true (lines ++ forms))) :
    ∃ t, s.Yields lines t ∧ t.At true level (printFrom level true forms) := by
  induction hl generalizing forms with
  | nil => exact ⟨s, ⟨.refl s, (List.append_nil _).symm⟩, h⟩
  | snoc _ hline ih =>
    rw [List.append_assoc] at h
    obtain ⟨t, hy, ht⟩ := ih h
    obtain ⟨u, hy', hu⟩ := ht.line hline
    exact ⟨u, hy.trans hy', hu⟩

theorem exists_finish_of_print {stream : List Form}
    (h : Stream (· = ['\n']) (· = ['\n']) stream) :
    ∃ s, (start (print stream)).Reaches s ∧ s.cursor.rest = [] ∧ s.finish.forms = stream := by
  cases h with
  | @intro lines line level level' hs hl =>
    have hstart : (start (print (lines ++ line ++ List.replicate level' (.dedent, []) ++
        [(.eof, [])]))).At true 0 _ := ⟨rfl, rfl, rfl, .inl rfl⟩
    rw [print, List.append_assoc, List.append_assoc] at hstart
    obtain ⟨t, hy, ht⟩ := hstart.lines hs
    obtain ⟨u, hy', hu⟩ := ht.line hl
    rw [printFrom_end] at hu
    have hforms : u.forms = lines ++ line := (hy.trans hy').2
    have hended : lineEnded u.forms = true := by
      rw [hforms]
      exact hl.lineEnded_append lines
    have hfinish := forms_finish u
    rw [if_pos hended, hforms, hu.levels_eq, length_nested, List.append_nil] at hfinish
    refine ⟨u, ?_, hu.rest_eq, hfinish⟩
    rw [print, List.append_assoc, List.append_assoc]
    exact hy.1.trans hy'.1

end Scan

/-- Every well-formed stream can be printed, and scanning what is printed gives the same tokens
again. -/
theorem scan_print {stream : List Form} (h : Stream (· = ['\n']) (· = ['\n']) stream) :
    ∃ tokens, scan (print stream) = .ok tokens ∧ tokens.map Token.form = stream := by
  obtain ⟨s, hs, hr, hf⟩ := Scan.exists_finish_of_print h
  exact ⟨s.finish.tokens, scan_eq_ok_iff.2 ⟨s, hs, hr, rfl⟩, hf⟩

/-- Nested lines, a literal with escapes before a comment, a blank line, and a level that only the
end of the input closes. -/
theorem scan_print_of_nested_lines :
    let stream : List Form := [
      (.kwStart, "start".toList), (.newline, ['\n']),
      (.indent, []), (.string, "\"\\\n".toList), (.comment, ['#']), (.newline, ['\n']),
      (.newline, ['\n']),
      (.indent, []), (.number, "1.".toList), (.newline, ['\n']),
      (.dedent, []), (.dedent, []), (.identifier, ['_']), (.newline, ['\n']),
      (.indent, []), (.le, "<=".toList), (.assign, ['=']), (.newline, ['\n']),
      (.dedent, []), (.eof, [])]
    print stream = "start\n \"\\\"\\\\\\n\" ##\n\n  1.\n_\n <= =\n".toList ∧
      Stream (· = ['\n']) (· = ['\n']) stream ∧
      ∃ tokens, scan (print stream) = .ok tokens ∧ tokens.map Token.form = stream := by
  intro stream
  have hstart : Contents [(.kwStart, "start".toList)] := .singleton (.reserved (by decide))
  have hstring : Contents [(.string, "\"\\\n".toList), (.comment, ['#'])] :=
    .cons .string (by decide) (.singleton (.comment (by simp [isLineBreak])))
  have hdigit : ∀ c ∈ ['1'], Unicode.isDecimalDigit c = true :=
    List.all_eq_true.1 (by decide +kernel)
  have hnumber : Contents [(.number, "1.".toList)] :=
    .singleton (.number ⟨['1'], by simp, hdigit, .inr ⟨[], rfl, by simp⟩⟩)
  have hword : Contents [(.identifier, ['_'])] :=
    .singleton (.identifier ⟨'_', [], rfl, by decide +kernel, by simp⟩ (by decide))
  have hsymbols : Contents [(.le, "<=".toList), (.assign, ['='])] :=
    .cons (.symbol (by decide)) (by decide) (.singleton (.symbol (by decide)))
  have hnone : Lines (· = ['\n']) 0 [] 0 := .nil
  have houter := hnone.snoc (.content .same hstart rfl)
  have hinner := (houter.snoc (.content .deeper hstring rfl)).snoc (.blank rfl)
  have hdeepest := hinner.snoc (.content .deeper hnumber rfl)
  have hback := hdeepest.snoc (.content (.shallower (k := 2) (by omega) (by omega)) hword rfl)
  have hlast : Line (· = ['\n']) 0 _ 1 := .content .deeper hsymbols rfl
  have hs : Stream (· = ['\n']) (· = ['\n']) stream := .intro hback hlast
  exact ⟨by decide +kernel, hs, scan_print hs⟩

/-- Two well-formed streams are never printed alike. -/
theorem print_injective {a b : List Form} (ha : Stream (· = ['\n']) (· = ['\n']) a)
    (hb : Stream (· = ['\n']) (· = ['\n']) b) (h : print a = print b) : a = b := by
  obtain ⟨s, hs, hrs, hfs⟩ := Scan.exists_finish_of_print ha
  obtain ⟨t, ht, hrt, hft⟩ := Scan.exists_finish_of_print hb
  rw [h] at hs
  have hrun : (Scan.start (print b)).run = .ok s := Scan.run_eq_ok_iff.2 ⟨hs, hrs⟩
  have he : Except.ok s = Except.ok t := hrun.symm.trans (Scan.run_eq_ok_iff.2 ⟨ht, hrt⟩)
  rw [← hfs, ← hft, Except.ok.inj he]

end Offside
