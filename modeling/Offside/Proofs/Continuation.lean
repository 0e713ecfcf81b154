import Mathlib.Data.List.Basic
import Offside.Proofs.Passage

/-! What a scan has done depends on the text that it has read: its steps can be taken in front of
other texts, as far as these end the last token alike. -/
namespace Offside

variable {text rest rest' lexeme : Text} {kind : Kind}

/-- What may stand behind a text in place of what stands there: a text that begins alike or is
empty, and any text behind a line feed. -/
inductive Resumes (text rest rest' : Text) : Prop
  | alike (h : rest'.head? = rest.head?)
  | ended (h : rest' = [])
  | lineFeed (h : text.getLast? = some '\n')

theorem BreakBefore.head?_ne_of_resumes (h : BreakBefore rest text)
    (hr : Resumes text rest rest') (ht : text.getLast? = some '\r') : rest'.head? ≠ some '\n' := by
  cases hr with
  | alike he =>
    rw [he]
    exact h.head?_ne ht
  | ended he =>
    rw [he]
    exact nofun
  | lineFeed hl => cases hl.symm.trans ht

theorem TokenAt.resumes (h : TokenAt (text ++ rest) kind lexeme text.length)
    (hr : Resumes text rest rest') :
    TokenAt (text ++ rest') kind lexeme text.length ∧
      ∀ p : Position, p.behind text rest' = p.behind text rest := by
  by_cases hk : kind = .newline
  · subst hk
    obtain ⟨rfl, hb⟩ := tokenAt_newline_iff.1 h
    have hn := hb.head?_ne_of_resumes hr
    refine ⟨tokenAt_newline_iff.2 ⟨rfl, hb.resume hn⟩, fun p => ?_⟩
    exact Position.behind_congr fun ht => iff_of_false (hn ht) (hb.head?_ne ht)
  · have hlast : ∀ x, text.getLast? = some x → isLineBreak x = false := fun x =>
      h.spells_text.2.not_isLineBreak_of_getLast? (h.content hk)
    refine ⟨h.resume hk fun x hx => ?_, fun p => ?_⟩
    · cases hr with
      | alike he =>
        left
        rw [← he]
        exact hx
      | ended he =>
        rw [he] at hx
        cases hx
      | lineFeed hl => cases hlast _ hl
    · exact Position.behind_congr fun ht => nomatch hlast _ ht

namespace Scan

variable {s t : Scan} {blanks x y z z' source : Text}

def withRest (s : Scan) (rest : Text) : Scan := { s with cursor := { s.cursor with rest } }

theorem HasMargin.withRest (h : s.HasMargin blanks rest)
    (hr : ∀ c, rest'.head? = some c → Offside.isBlank c = false) :
    (s.withRest (blanks ++ rest')).HasMargin blanks rest' where
  rest_eq := rfl
  isBlank := h.isBlank
  ends := hr
  agrees := h.agrees

theorem HasMargin.pastMargin_withRest (h : s.HasMargin blanks rest) :
    (s.withRest (blanks ++ rest')).pastMargin blanks rest' =
      (s.pastMargin blanks rest).withRest rest' := by
  have hp : s.cursor.place.behind blanks rest' = s.cursor.place.behind blanks rest := by
    apply Position.behind_congr
    intro ht
    cases h.isBlank _ (List.mem_of_getLast? ht)
  unfold pastMargin Cursor.past Scan.withRest
  dsimp only
  rw [hp]

theorem pastToken_withRest (hp : ∀ p : Position, p.behind text rest' = p.behind text rest) :
    (s.withRest (text ++ rest')).pastToken kind lexeme text rest' =
      (s.pastToken kind lexeme text rest).withRest rest' := by
  unfold pastToken Cursor.past withRest
  dsimp only
  rw [hp]

theorem HasMargin.emptyLine_withRest {u : Scan} (hl : s.lineStart = true)
    (hm : s.HasMargin blanks (text ++ rest)) (ht : BreakBefore rest text)
    (hr : Resumes text rest rest')
    (hu : u = (s.pastMargin blanks (text ++ rest)).pastToken .newline text text rest) :
    (s.withRest (blanks ++ text ++ rest')).Reads (blanks ++ text) (u.withRest rest') := by
  obtain ⟨htoken, hp⟩ := (tokenAt_newline_iff.2 ⟨rfl, ht⟩).resumes hr
  have ht' := (tokenAt_newline_iff.1 htoken).2
  obtain ⟨c, tail, hs, hc, -⟩ := ht'.exists_cons
  have hends : ∀ x, (text ++ rest').head? = some x → Offside.isBlank x = false := by
    rw [hs]
    rintro x ⟨⟩
    exact not_isBlank_of_isLineBreak hc
  rw [hu, List.append_assoc, ← pastToken_withRest hp, ← hm.pastMargin_withRest]
  exact .emptyLine hl (hm.withRest hends) ht'

namespace Reads

/-- A step is taken alike wherever the text behind it may stand there; behind a margin, though,
the line must go on alike. -/
theorem withRest (h : s.Reads text t) (hr : Resumes text t.cursor.rest rest')
    (hm : s.lineStart = true → t.lineStart = true ∨ rest'.head? = t.cursor.rest.head?) :
    (s.withRest (text ++ rest')).Reads text (t.withRest rest') := by
  have hgo : s.lineStart = true → t.lineStart = false → ∀ {c rest}, t.cursor.rest = c :: rest →
      ∃ tail, rest' = c :: tail := by
    intro hl hn c rest hrest
    rcases hm hl with hf | he
    · cases hn.symm.trans hf
    · rw [hrest] at he
      exact List.head?_eq_some_iff.1 he
  cases h with
  | lastMargin hl hmargin hb =>
    have hn : rest' = [] := by
      rcases hm hl with hf | he
      · cases hf
      · exact List.head?_eq_none_iff.1 he
    rw [hn, List.append_nil]
    have hs : (s.withRest (text ++ [])).HasMargin text [] := hmargin.withRest nofun
    rw [List.append_nil] at hs
    exact .lastMargin hl hs hb
  | @emptyLine blanks text rest hl hmargin ht =>
    -- A line break is never empty, so what ends both texts together ends the line break.
    have hresumes : Resumes text rest rest' := by
      cases hr with
      | alike he => exact .alike he
      | ended he => exact .ended he
      | lineFeed hf =>
        rw [List.getLast?_append_of_ne_nil _ ht.ne_nil] at hf
        exact .lineFeed hf
    exact hmargin.emptyLine_withRest hl ht hresumes rfl
  | @opens _ c rest hl hmargin hc hd =>
    obtain ⟨tail, rfl⟩ := hgo hl rfl rfl
    have hends : ∀ x, (c :: tail).head? = some x → isBlank x = false := hmargin.ends
    have hs := Reads.opens (s := s.withRest (text ++ c :: tail)) hl (hmargin.withRest hends) hc hd
    rw [hmargin.pastMargin_withRest] at hs
    exact hs
  | @closes _ c rest hl hmargin hc hd hk =>
    obtain ⟨tail, rfl⟩ := hgo hl rfl rfl
    have hends : ∀ x, (c :: tail).head? = some x → isBlank x = false := hmargin.ends
    have hs := Reads.closes (s := s.withRest (text ++ c :: tail)) hl (hmargin.withRest hends)
      hc hd hk
    rw [hmargin.pastMargin_withRest] at hs
    exact hs
  | @blank c rest hl hrest hc =>
    have hp : s.cursor.place.behind [c] rest = s.cursor.place.behind [c] rest' := by
      apply Position.behind_congr
      rintro ⟨⟩
      cases hc
    unfold Cursor.past
    rw [hp]
    exact .blank (s := s.withRest (c :: rest')) hl rfl hc
  | token hl hrest ht =>
    obtain ⟨ht', hp⟩ := ht.resumes hr
    rw [← pastToken_withRest hp]
    exact .token hl rfl ht'

/-- At the end of the input a step ends as well, if only as the margin of a last line. -/
theorem ended (h : s.Reads text t) (hne : text ≠ []) :
    ∃ u, (s.withRest text).Reads text u ∧ u.cursor.rest = [] := by
  have hlast : s.lineStart = true → ∀ {rest}, s.HasMargin text rest →
      ∃ u, (s.withRest text).Reads text u ∧ u.cursor.rest = [] := by
    intro hl rest hmargin
    have hs : (s.withRest (text ++ [])).HasMargin text [] := hmargin.withRest nofun
    rw [List.append_nil] at hs
    exact ⟨_, .lastMargin hl hs hne, rfl⟩
  have hstays : (s.lineStart = true → t.lineStart = true) →
      ∃ u, (s.withRest text).Reads text u ∧ u.cursor.rest = [] := by
    intro hl
    have hs := h.withRest (.ended rfl) fun hs => .inl (hl hs)
    rw [List.append_nil] at hs
    exact ⟨_, hs, rfl⟩
  cases h with
  | lastMargin hl hm hb => exact hlast hl hm
  | emptyLine hl hm ht => exact hstays fun _ => rfl
  | opens hl hm hc hd => exact hlast hl hm
  | closes hl hm hc hd hk => exact hlast hl hm
  | blank hl hr hc => exact hstays fun hs => hs
  | token hl hr ht => exact hstays fun hs => nomatch hl.symm.trans hs

theorem exists_newline (h : s.Reads text t) (hf : text.getLast? = some '\n') :
    t.lineStart = true ∧
      ∃ lexeme place, t.output = ⟨.newline, lexeme, place⟩ :: s.output := by
  have hmem := List.mem_of_getLast? hf
  cases h with
  | lastMargin hl hm hb => cases hm.isBlank _ hmem
  | emptyLine hl hm ht => exact ⟨rfl, _, _, rfl⟩
  | opens hl hm hc hd => cases hm.isBlank _ hmem
  | closes hl hm hc hd hk => cases hm.isBlank _ hmem
  | blank hl hr hc =>
    rw [← List.mem_singleton.1 hmem] at hc
    cases hc
  | @token kind lexeme _ _ hl hr ht =>
    by_cases hk : kind = .newline
    · subst hk
      exact ⟨rfl, _, _, rfl⟩
    · cases ht.spells_text.2.not_isLineBreak_of_getLast? (ht.content hk) hf

end Reads

/-- A scan that has not reached the end of a text goes the same way whatever follows the text. -/
theorem Reaches.withRest (h : (start (x ++ z)).Reaches t) (hy : y ≠ [])
    (ht : t.cursor.rest = y ++ z) (z' : Text) :
    (start (x ++ z')).Reaches (t.withRest (y ++ z')) := by
  induction h generalizing y with
  | refl =>
    have he : x = y := List.append_cancel_right ht
    subst he
    exact .refl _
  | @tail s t _ hm ih =>
    obtain ⟨text, hr⟩ := (moves_iff_advance.1 hm).reads
    have hs : s.cursor.rest = (text ++ y) ++ z := by rw [hr.rest_eq, ht, List.append_assoc]
    have hreach := ih (List.append_ne_nil_of_right_ne_nil text hy) hs
    have hhead : (y ++ z').head? = t.cursor.rest.head? := by
      rw [ht, List.head?_append_of_ne_nil _ hy, List.head?_append_of_ne_nil _ hy]
    have hstep := hr.withRest (.alike hhead) fun _ => .inr hhead
    rw [← List.append_assoc] at hstep
    exact hreach.tail hstep.advance.moves

theorem Reaches.ended (h : (start (x ++ z)).Reaches t) (ht : t.cursor.rest = z) :
    ∃ u, (start x).Reaches u ∧ u.cursor.rest = [] := by
  induction h with
  | refl =>
    have hx : x = [] := List.append_left_eq_self.1 ht
    exact ⟨start x, .refl _, hx⟩
  | @tail s t hs hm ih =>
    obtain ⟨text, hr⟩ := (moves_iff_advance.1 hm).reads
    have hrest : s.cursor.rest = text ++ z := by rw [hr.rest_eq, ht]
    by_cases hne : text = []
    · rw [hne] at hrest
      exact ih hrest
    · have hreach := Reaches.withRest hs hne hrest []
      rw [List.append_nil, List.append_nil] at hreach
      obtain ⟨u, hu, hend⟩ := hr.ended hne
      exact ⟨u, hreach.tail hu.advance.moves, hend⟩

/-- A scan of whole lines: it stands at the start of a line, behind the end of another. -/
structure AtLine (s : Scan) : Prop where
  lineStart_eq : s.lineStart = true
  column_eq : s.cursor.place.column = 1
  output_eq : ∃ lexeme place output, s.output = ⟨.newline, lexeme, place⟩ :: output

theorem Reaches.behind_lineFeed (h : (start source).Reaches t) (ht : t.cursor.rest = [])
    (hs : source.getLast? = some '\n') :
    t.AtLine ∧ ∀ more, (start (source ++ more)).Reaches (t.withRest more) := by
  cases h with
  | refl =>
    rw [show source = [] from ht] at hs
    cases hs
  | @tail s _ hreach hm =>
    obtain ⟨text, hr⟩ := (moves_iff_advance.1 hm).reads
    have hrest : s.cursor.rest = text := by rw [hr.rest_eq, ht, List.append_nil]
    have hne : text ≠ [] := hrest ▸ hm.1
    have hf : text.getLast? = some '\n' := by
      have hin := cursor_in_of_reaches hreach
      rw [← hrest, hin.rest_eq] at hne ⊢
      rw [List.getLast?_drop, if_neg (by simpa using hne), hs]
    obtain ⟨hl, lexeme, place, ho⟩ := hr.exists_newline hf
    have hcolumn : t.cursor.place.column = 1 := by
      rw [hr.cursor_eq]
      exact Position.column_behind_lineFeed hf _ _
    refine ⟨⟨hl, hcolumn, lexeme, place, s.output, ho⟩, fun more => ?_⟩
    have hreach' : (start (source ++ [])).Reaches s := by rwa [List.append_nil]
    have hgo := hreach'.withRest hne (by rw [hrest, List.append_nil]) more
    exact hgo.tail (hr.withRest (.lineFeed hf) fun _ => .inl hl).advance.moves

end Scan
end Offside
