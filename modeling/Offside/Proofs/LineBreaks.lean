import Mathlib.Data.List.Forall2
import Offside.Proofs.Passage

/-! The three forms of a line break are scanned alike: a source and the source with line feeds in
place of all its breaks have the same tokens at the same places, or the same fault. -/
namespace Offside

variable {c : Char} {text rest body value lexeme source before : Text} {kind : Kind}

section Unify

/-- A cut that does not split a line break. -/
def Unsplit (text rest : Text) : Prop := text.getLast? = some '\r' → rest.head? ≠ some '\n'

theorem Unsplit.tail (h : Unsplit (c :: text) rest) : Unsplit text rest := by
  intro hl
  apply h
  rw [List.getLast?_cons, hl]
  rfl

theorem Unsplit.head?_ne (h : Unsplit ('\r' :: text) rest)
    (hn : ∀ tail, text ≠ '\n' :: tail) : (text ++ rest).head? ≠ some '\n' := by
  cases text with
  | nil => exact h rfl
  | cons x text =>
    intro hx
    exact hn text (by rw [Option.some.inj hx])

theorem unsplit_of_not_isLineBreak (h : ∀ x ∈ text, isLineBreak x = false) (rest : Text) :
    Unsplit text rest := by
  intro hl
  cases h _ (List.mem_of_getLast? hl)

theorem unifyBreaks_cons (h : c = '\r' → rest.head? ≠ some '\n') :
    unifyBreaks (c :: rest) = (if c = '\r' then '\n' else c) :: unifyBreaks rest := by
  rw [unifyBreaks]
  rintro tail hc rfl
  exact h hc rfl

theorem unifyBreaks_cons_of_ne (h : c ≠ '\r') (rest : Text) :
    unifyBreaks (c :: rest) = c :: unifyBreaks rest := by
  rw [unifyBreaks_cons fun hc => absurd hc h, if_neg h]

theorem unifyBreaks_return (h : rest.head? ≠ some '\n') :
    unifyBreaks ('\r' :: rest) = '\n' :: unifyBreaks rest := by
  rw [unifyBreaks_cons fun _ => h, if_pos rfl]

theorem unifyBreaks_append (h : Unsplit text rest) :
    unifyBreaks (text ++ rest) = unifyBreaks text ++ unifyBreaks rest := by
  fun_induction unifyBreaks text with
  | case1 => rfl
  | case2 tail ih =>
    rw [List.cons_append, List.cons_append, unifyBreaks, ih h.tail.tail, List.cons_append]
  | case3 c tail hn ih =>
    rw [List.cons_append, unifyBreaks_cons, ih h.tail, List.cons_append]
    rintro rfl
    exact h.head?_ne fun rest => hn rest rfl

theorem unifyBreaks_of_not_isLineBreak (h : ∀ x ∈ text, isLineBreak x = false) :
    unifyBreaks text = text := by
  apply unifyBreaks_of_not_mem
  intro hr
  cases h _ hr

theorem head?_unifyBreaks (text : Text) :
    (unifyBreaks text).head? = text.head?.map fun c => if c = '\r' then '\n' else c := by
  fun_cases unifyBreaks text with
  | case1 => rfl
  | case2 => rfl
  | case3 => rfl

theorem exists_unifyBreaks_of_isLineBreak (h : isLineBreak c = true) (rest : Text) :
    ∃ tail, unifyBreaks (c :: rest) = '\n' :: tail := by
  have hh := head?_unifyBreaks (c :: rest)
  rcases isLineBreak_iff.1 h with rfl | rfl
  · exact List.head?_eq_some_iff.1 hh
  · exact List.head?_eq_some_iff.1 hh

theorem endsAlike_unifyBreaks (rest : Text) : EndsAlike rest (unifyBreaks rest) := by
  intro x hx
  rw [head?_unifyBreaks] at hx
  obtain ⟨c, hc, rfl⟩ := Option.map_eq_some_iff.1 hx
  by_cases hr : c = '\r'
  · rw [if_pos hr]
    exact .inr rfl
  · rw [if_neg hr]
    exact .inl hc

/-- Every line break ends one line, and leads to its end at once. -/
theorem Position.behind_unifyBreaks (p : Position) (h : Unsplit text rest) :
    p.behind (unifyBreaks text) (unifyBreaks rest) = p.behind text rest := by
  fun_induction unifyBreaks text generalizing p with
  | case1 => rfl
  | case2 tail ih => exact ih _ h.tail.tail
  | case3 c tail hn ih =>
    have hc : p.after (if c = '\r' then '\n' else c) (unifyBreaks tail ++ unifyBreaks rest) =
        p.after c (tail ++ rest) := by
      by_cases hr : c = '\r'
      · subst hr
        have hreturn : endsLine '\r' (tail ++ rest) = true :=
          bne_iff_ne.2 (h.head?_ne fun rest => hn rest rfl)
        rw [if_pos rfl, after, after, if_pos hreturn]
        rfl
      · rw [if_neg hr]
        exact after_congr fun he => absurd he hr
    rw [behind, hc, ih _ h.tail, behind]

theorem BreakBefore.unifyBreaks (h : BreakBefore rest text) :
    Offside.unifyBreaks text = ['\n'] := by
  cases h with
  | lineFeed => rfl
  | pair => rfl
  | carriageReturn => rfl

end Unify

/-- The values of a literal body before and after its line breaks are unified: a carriage return
that is escaped alone becomes a line feed. -/
inductive UnifiedValue : Text → Text → Text → Prop
  | nil : UnifiedValue [] [] []
  | plain {c body value value'} (hc : c ∉ ['\\', '"', '\n', '\r'])
      (h : UnifiedValue body value value') : UnifiedValue (c :: body) (c :: value) (c :: value')
  | escaped {c body value value'} (hc : c ≠ '\r') (h : UnifiedValue body value value') :
      UnifiedValue ('\\' :: c :: body) (Literal.unescape c :: value) (Literal.unescape c :: value')
  | loneReturn {body value value'} (hn : body.head? ≠ some '\n')
      (h : UnifiedValue body value value') :
      UnifiedValue ('\\' :: '\r' :: body) ('\r' :: value) ('\n' :: value')

/-- A token of a source, and the same token where the line breaks of the source are unified. -/
inductive UnifiedToken (source : Text) : Token → Token → Prop
  | newline {lexeme lexeme' place} (h : unifyBreaks lexeme = unifyBreaks lexeme') :
      UnifiedToken source ⟨.newline, lexeme, place⟩ ⟨.newline, lexeme', place⟩
  | string {before body behind value value'} (hs : source = before ++ '"' :: body ++ '"' :: behind)
      (h : UnifiedValue body value value') :
      UnifiedToken source ⟨.string, value, .at source before.length⟩
        ⟨.string, value', .at source before.length⟩
  | same {token} (hk : token.kind ∉ [.newline, .string]) : UnifiedToken source token token

theorem Decodes.head?_ne (h : Decodes body value) : body.head? ≠ some '\n' := by
  cases h with
  | nil => exact nofun
  | plain hc =>
    intro hn
    rw [Option.some.inj hn] at hc
    exact hc (by decide)
  | lineFeed => exact nofun
  | carriageReturn => exact nofun
  | tab => exact nofun
  | itself => exact nofun

theorem Decodes.escaped_of_getLast? (h : Decodes body value) (hl : body.getLast? = some '\r') :
    ['\\', '\r'] <:+ body := by
  -- Behind an escape either nothing is left of the body, or its end is that of the whole.
  have hescaped : ∀ {c body}, (body.getLast? = some '\r' → ['\\', '\r'] <:+ body) →
      ('\\' :: c :: body).getLast? = some '\r' → ['\\', '\r'] <:+ '\\' :: c :: body := by
    intro c body ih hl
    cases body with
    | nil =>
      cases hl
      exact List.suffix_rfl
    | cons x body =>
      rw [List.getLast?_cons_cons, List.getLast?_cons_cons] at hl
      exact (ih hl).trans ((List.suffix_cons _ _).trans (List.suffix_cons _ _))
  induction h with
  | nil => cases hl
  | @plain c body value hc _ ih =>
    cases body with
    | nil =>
      cases hl
      exact absurd (by decide) hc
    | cons x body =>
      rw [List.getLast?_cons_cons] at hl
      exact (ih hl).trans (List.suffix_cons _ _)
  | lineFeed _ ih => exact hescaped ih hl
  | carriageReturn _ ih => exact hescaped ih hl
  | tab _ ih => exact hescaped ih hl
  | itself _ _ ih => exact hescaped ih hl

theorem Decodes.unifyBreaks (h : Decodes body value) :
    ∃ value', Decodes (Offside.unifyBreaks body) value' ∧ UnifiedValue body value value' := by
  have hbackslash : ∀ {c : Char}, c ≠ '\r' → ∀ rest, Offside.unifyBreaks ('\\' :: c :: rest) =
      '\\' :: c :: Offside.unifyBreaks rest := by
    intro c hc rest
    rw [unifyBreaks_cons_of_ne (by decide), unifyBreaks_cons_of_ne hc]
  induction h with
  | nil => exact ⟨[], .nil, .nil⟩
  | plain hc _ ih =>
    obtain ⟨value', hd, hv⟩ := ih
    refine ⟨_, ?_, .plain hc hv⟩
    rw [unifyBreaks_cons_of_ne fun hr => hc (by simp [hr])]
    exact .plain hc hd
  | lineFeed _ ih =>
    obtain ⟨value', hd, hv⟩ := ih
    refine ⟨_, ?_, .escaped (by decide) hv⟩
    rw [hbackslash (by decide)]
    exact .lineFeed hd
  | carriageReturn _ ih =>
    obtain ⟨value', hd, hv⟩ := ih
    refine ⟨_, ?_, .escaped (by decide) hv⟩
    rw [hbackslash (by decide)]
    exact .carriageReturn hd
  | tab _ ih =>
    obtain ⟨value', hd, hv⟩ := ih
    refine ⟨_, ?_, .escaped (by decide) hv⟩
    rw [hbackslash (by decide)]
    exact .tab hd
  | @itself c body value hc h ih =>
    obtain ⟨value', hd, hv⟩ := ih
    -- An escaped carriage return is a line feed afterwards, in the body as in the value.
    by_cases hr : c = '\r'
    · subst hr
      refine ⟨_, ?_, .loneReturn h.head?_ne hv⟩
      rw [unifyBreaks_cons_of_ne (by decide), unifyBreaks_return h.head?_ne]
      exact .itself (by decide) hd
    · have hs := UnifiedValue.escaped hr hv
      rw [Literal.unescape_of_not_mem hc] at hs
      refine ⟨_, ?_, hs⟩
      rw [hbackslash hr]
      exact .itself hc hd

/-- A token ends where it did when the line breaks are unified. -/
theorem TokenAt.unifyBreaks (h : TokenAt (text ++ rest) kind lexeme text.length)
    (hs : source = before ++ (text ++ rest)) :
    Unsplit text rest ∧ ∃ lexeme',
      TokenAt (Offside.unifyBreaks text ++ Offside.unifyBreaks rest) kind lexeme'
        (Offside.unifyBreaks text).length ∧
      UnifiedToken source ⟨kind, lexeme, .at source before.length⟩
        ⟨kind, lexeme', .at source before.length⟩ := by
  by_cases hk : kind = .newline
  · subst hk
    obtain ⟨rfl, hb⟩ := tokenAt_newline_iff.1 h
    refine ⟨hb.head?_ne, ['\n'], ?_, .newline hb.unifyBreaks⟩
    rw [hb.unifyBreaks]
    exact tokenAt_newline_iff.2 ⟨rfl, .lineFeed⟩
  have hcontent := h.content hk
  obtain ⟨-, hspells⟩ := h.spells_text
  refine ⟨fun hl => absurd (hspells.not_isLineBreak_of_getLast? hcontent hl) (by decide), ?_⟩
  by_cases hstring : kind = .string
  · subst hstring
    cases hspells with
    | verbatim hn => simp at hn
    | @string body _ hd =>
      obtain ⟨value', hd', hv⟩ := hd.unifyBreaks
      have hquote : Offside.unifyBreaks ('"' :: body ++ ['"']) =
          '"' :: Offside.unifyBreaks body ++ ['"'] := by
        rw [List.cons_append, unifyBreaks_cons_of_ne (by decide),
          unifyBreaks_append fun _ => by decide]
        rfl
      have hsource : source = before ++ '"' :: body ++ '"' :: rest := by simpa using hs
      refine ⟨value', ?_, .string hsource hv⟩
      rw [hquote, List.append_assoc, List.length_append, List.length_cons]
      exact .string (Literal.read_closed hd' _)
  · have hplain := unifyBreaks_of_not_isLineBreak (hspells.not_isLineBreak hcontent hstring)
    refine ⟨lexeme, ?_, .same (by simp [hk, hstring])⟩
    rw [hplain]
    exact h.resume hk (endsAlike_unifyBreaks rest)

theorem UnifiedToken.of_empty (hk : kind ≠ .string) (place : Position) :
    UnifiedToken source ⟨kind, [], place⟩ ⟨kind, [], place⟩ := by
  by_cases hn : kind = .newline
  · subst hn
    exact .newline rfl
  · exact .same (by simp [hn, hk])

theorem forall₂_closing (n : Nat) (place : Position) :
    List.Forall₂ (UnifiedToken source) (List.replicate n ⟨.dedent, [], place⟩)
      (List.replicate n ⟨.dedent, [], place⟩) := by
  apply List.forall₂_same.2
  intro token ht
  rw [List.eq_of_mem_replicate ht]
  exact .of_empty (by decide) place

theorem UnifiedToken.kind_eq {token token' : Token} (h : UnifiedToken source token token') :
    token'.kind = token.kind := by
  cases h with
  | newline => rfl
  | string => rfl
  | same => rfl

theorem UnifiedToken.place_eq {token token' : Token} (h : UnifiedToken source token token') :
    token'.place = token.place := by
  cases h with
  | newline => rfl
  | string => rfl
  | same => rfl

namespace Scan

variable {s s' t : Scan} {stopped : Halt} {blanks : Text} {place : Position} {depth : Nat}

/-- Two scans that have come equally far, in a source and where its line breaks are unified. -/
structure Unified (source : Text) (s s' : Scan) : Prop where
  rest_eq : s'.cursor.rest = unifyBreaks s.cursor.rest
  place_eq : s'.cursor.place = s.cursor.place
  levels_eq : s'.levels = s.levels
  mark_eq : s'.mark = s.mark
  lineStart_eq : s'.lineStart = s.lineStart
  output : List.Forall₂ (UnifiedToken source) s.output s'.output

theorem HasMargin.not_isLineBreak (h : s.HasMargin blanks rest) :
    ∀ c ∈ blanks, isLineBreak c = false := fun c hc =>
  not_isLineBreak_of_isBlank (h.isBlank c hc)

namespace Unified

theorem start (source : Text) :
    Unified source (Scan.start source) (Scan.start (unifyBreaks source)) where
  rest_eq := rfl
  place_eq := rfl
  levels_eq := rfl
  mark_eq := rfl
  lineStart_eq := rfl
  output := .nil

variable (h : Unified source s s')
include h

theorem past (hw : Unsplit text rest) :
    Unified source { s with cursor := s.cursor.past text rest }
      { s' with cursor := s'.cursor.past (unifyBreaks text) (unifyBreaks rest) } where
  rest_eq := rfl
  place_eq := by
    dsimp only [Cursor.past]
    rw [h.place_eq, Position.behind_unifyBreaks _ hw]
  levels_eq := h.levels_eq
  mark_eq := h.mark_eq
  lineStart_eq := h.lineStart_eq
  output := h.output

theorem emit (kind : Kind) (hk : kind ≠ .string) : Unified source (s.emit kind) (s'.emit kind) where
  rest_eq := h.rest_eq
  place_eq := h.place_eq
  levels_eq := h.levels_eq
  mark_eq := h.mark_eq
  lineStart_eq := h.lineStart_eq
  output := by
    have ht : UnifiedToken source _ _ := .of_empty hk s.cursor.place
    unfold Scan.emit
    rw [h.place_eq]
    exact .cons ht h.output

theorem opening : Unified source (s.opening depth place) (s'.opening depth place) where
  rest_eq := h.rest_eq
  place_eq := h.place_eq
  levels_eq := congrArg (depth :: ·) h.levels_eq
  mark_eq := h.mark_eq
  lineStart_eq := rfl
  output := .cons (.of_empty (by decide) place) h.output

theorem closing : Unified source (s.closing depth place) (s'.closing depth place) where
  rest_eq := h.rest_eq
  place_eq := h.place_eq
  levels_eq := congrArg (List.dropWhile (depth < ·)) h.levels_eq
  mark_eq := h.mark_eq
  lineStart_eq := rfl
  output := by
    unfold Scan.closing
    rw [h.levels_eq]
    exact List.rel_append (forall₂_closing _ _) h.output

theorem margin (hm : s.HasMargin blanks rest) :
    s'.HasMargin blanks (unifyBreaks rest) ∧
      Unified source (s.pastMargin blanks rest) (s'.pastMargin blanks (unifyBreaks rest)) := by
  have hw := unsplit_of_not_isLineBreak hm.not_isLineBreak rest
  have hunify := unifyBreaks_of_not_isLineBreak hm.not_isLineBreak
  have hpast := h.past hw
  rw [hunify] at hpast
  constructor
  · constructor
    · rw [h.rest_eq, hm.rest_eq, unifyBreaks_append hw, hunify]
    · exact hm.isBlank
    · intro c hc
      rcases endsAlike_unifyBreaks rest c hc with hr | hc
      · exact hm.ends c hr
      · exact not_isBlank_of_isLineBreak hc
    · rw [h.mark_eq]
      exact hm.agrees
  · constructor
    · rfl
    · exact hpast.place_eq
    · exact h.levels_eq
    · exact congrArg (·.or blanks.head?) h.mark_eq
    · exact h.lineStart_eq
    · exact h.output

theorem token (hin : s.cursor.In source) (hr : s.cursor.rest = text ++ rest)
    (ht : TokenAt (text ++ rest) kind lexeme text.length) :
    s'.cursor.rest = unifyBreaks text ++ unifyBreaks rest ∧
    ∃ lexeme', TokenAt (unifyBreaks text ++ unifyBreaks rest) kind lexeme'
        (unifyBreaks text).length ∧
      Unified source (s.pastToken kind lexeme text rest)
        (s'.pastToken kind lexeme' (unifyBreaks text) (unifyBreaks rest)) := by
  have hsource := hin.source_eq
  rw [hr] at hsource
  obtain ⟨hw, lexeme', ht', hu⟩ := ht.unifyBreaks hsource
  have hpast := h.past hw
  rw [List.length_take_of_le hin.offset_le, ← hin.place_eq] at hu
  refine ⟨by rw [h.rest_eq, hr, unifyBreaks_append hw], lexeme', ht', ?_⟩
  constructor
  · rfl
  · exact hpast.place_eq
  · exact h.levels_eq
  · exact h.mark_eq
  · rfl
  · unfold pastToken
    rw [h.place_eq]
    exact .cons hu h.output

theorem marginOfLine (hm : s.HasMargin blanks (c :: rest)) (hc : isLineBreak c = false) :
    unifyBreaks blanks = blanks ∧ s'.HasMargin blanks (c :: unifyBreaks rest) ∧
      Unified source (s.pastMargin blanks (c :: rest))
        (s'.pastMargin blanks (c :: unifyBreaks rest)) := by
  have hmargin := h.margin hm
  rw [unifyBreaks_cons_of_ne (not_isLineBreak_iff.1 hc).2] at hmargin
  exact ⟨unifyBreaks_of_not_isLineBreak hm.not_isLineBreak, hmargin⟩

theorem lastMargin (hl : s.lineStart = true) (hm : s.HasMargin blanks []) (hb : blanks ≠ []) :
    ∃ t', s'.Reads (unifyBreaks blanks) t' ∧
      Unified source { (s.pastMargin blanks []).emit .newline with lineStart := false } t' := by
  obtain ⟨hm', hpast⟩ := h.margin hm
  have hend := hpast.emit .newline (by decide)
  rw [unifyBreaks_of_not_isLineBreak hm.not_isLineBreak]
  refine ⟨_, .lastMargin (h.lineStart_eq.trans hl) hm' hb, ?_⟩
  exact ⟨hend.rest_eq, hend.place_eq, hend.levels_eq, hend.mark_eq, rfl, hend.output⟩

theorem emptyLine (hin : s.cursor.In source) (hl : s.lineStart = true)
    (hm : s.HasMargin blanks (text ++ rest)) (ht : BreakBefore rest text) :
    ∃ t', s'.Reads (unifyBreaks (blanks ++ text)) t' ∧
      Unified source ((s.pastMargin blanks (text ++ rest)).pastToken .newline text text rest)
        t' := by
  obtain ⟨hm', hpast⟩ := h.margin hm
  have hin' : (s.pastMargin blanks (text ++ rest)).cursor.In source := by
    unfold pastMargin
    rw [← Cursor.past_eq_skip hm.rest_eq]
    exact hin.skip _
  obtain ⟨hrest, lexeme', ht', hline⟩ := hpast.token hin' rfl (tokenAt_newline_iff.2 ⟨rfl, ht⟩)
  obtain ⟨rfl, hbreak⟩ := tokenAt_newline_iff.1 ht'
  have hsplit : unifyBreaks (text ++ rest) = unifyBreaks text ++ unifyBreaks rest := hrest
  rw [hsplit] at hm' hline
  rw [unifyBreaks_append (unsplit_of_not_isLineBreak hm.not_isLineBreak text),
    unifyBreaks_of_not_isLineBreak hm.not_isLineBreak]
  exact ⟨_, .emptyLine (h.lineStart_eq.trans hl) hm' hbreak, hline⟩

theorem opens (hl : s.lineStart = true) (hm : s.HasMargin blanks (c :: rest))
    (hc : isLineBreak c = false) (hd : s.levels.headD 0 < blanks.length) :
    ∃ t', s'.Reads (unifyBreaks blanks) t' ∧
      Unified source ((s.pastMargin blanks (c :: rest)).opening blanks.length s.cursor.place)
        t' := by
  obtain ⟨hblanks, hm', hpast⟩ := h.marginOfLine hm hc
  rw [hblanks]
  rw [← h.levels_eq] at hd
  rw [← h.place_eq]
  exact ⟨_, .opens (h.lineStart_eq.trans hl) hm' hc hd, hpast.opening⟩

theorem closes (hl : s.lineStart = true) (hm : s.HasMargin blanks (c :: rest))
    (hc : isLineBreak c = false) (hd : blanks.length ≤ s.levels.headD 0)
    (hk : (s.levels.dropWhile (blanks.length < ·)).headD 0 = blanks.length) :
    ∃ t', s'.Reads (unifyBreaks blanks) t' ∧
      Unified source ((s.pastMargin blanks (c :: rest)).closing blanks.length s.cursor.place)
        t' := by
  obtain ⟨hblanks, hm', hpast⟩ := h.marginOfLine hm hc
  rw [hblanks]
  rw [← h.levels_eq] at hd hk
  rw [← h.place_eq]
  exact ⟨_, .closes (h.lineStart_eq.trans hl) hm' hc hd hk, hpast.closing⟩

theorem blank (hl : s.lineStart = false) (hr : s.cursor.rest = c :: rest) (hc : isBlank c = true) :
    ∃ t', s'.Reads (unifyBreaks [c]) t' ∧
      Unified source { s with cursor := s.cursor.past [c] rest } t' := by
  have hne : c ≠ '\r' := by
    rintro rfl
    cases hc
  have hone : unifyBreaks [c] = [c] := unifyBreaks_cons_of_ne hne []
  have hw : Unsplit [c] rest := fun hl => absurd (Option.some.inj hl) hne
  have hrest : s'.cursor.rest = c :: unifyBreaks rest := by
    rw [h.rest_eq, hr, unifyBreaks_cons_of_ne hne]
  have hpast := h.past hw
  rw [hone] at hpast ⊢
  exact ⟨_, .blank (h.lineStart_eq.trans hl) hrest hc, hpast⟩

end Unified

/-- Each step is taken where line breaks are unified as well. -/
theorem Reads.unifyBreaks (h : s.Reads text t) (hin : s.cursor.In source)
    (hu : Unified source s s') :
    ∃ t', s'.Reads (Offside.unifyBreaks text) t' ∧ Unified source t t' := by
  cases h with
  | lastMargin hl hm hb => exact hu.lastMargin hl hm hb
  | emptyLine hl hm ht => exact hu.emptyLine hin hl hm ht
  | opens hl hm hc hd => exact hu.opens hl hm hc hd
  | closes hl hm hc hd hk => exact hu.closes hl hm hc hd hk
  | blank hl hr hc => exact hu.blank hl hr hc
  | token hl hr ht =>
    obtain ⟨hrest, lexeme', ht', hnext⟩ := hu.token hin hr ht
    exact ⟨_, .token (hu.lineStart_eq.trans hl) hrest ht', hnext⟩

theorem Reaches.unifyBreaks (h : (start source).Reaches s) :
    ∃ s', (start (Offside.unifyBreaks source)).Reaches s' ∧ Unified source s s' := by
  induction h with
  | refl => exact ⟨_, .refl _, .start source⟩
  | tail hs hm ih =>
    obtain ⟨s', hs', hu⟩ := ih
    obtain ⟨text, hr⟩ := (moves_iff_advance.1 hm).reads
    obtain ⟨t', hr', hu'⟩ := hr.unifyBreaks (cursor_in_of_reaches hs) hu
    exact ⟨t', hs'.tail hr'.advance.moves, hu'⟩

theorem Unified.finish (h : Unified source s s') :
    List.Forall₂ (UnifiedToken source) s.finish.tokens s'.finish.tokens := by
  have hhead : ∀ {output output'}, List.Forall₂ (UnifiedToken source) output output' →
      output'.head?.any (·.kind == .newline) = output.head?.any (·.kind == .newline) := by
    intro output output' ho
    cases ho with
    | nil => rfl
    | cons ht _ => exact congrArg (· == Kind.newline) ht.kind_eq
  have htokens : List.Forall₂ (UnifiedToken source) s.tokens s'.tokens :=
    List.forall₂_reverse_iff.2 h.output
  have hempty : ∀ kind, kind ≠ .string → List.Forall₂ (UnifiedToken source)
      [⟨kind, [], s.cursor.place⟩] [⟨kind, [], s.cursor.place⟩] := fun kind hk =>
    .cons (.of_empty hk _) .nil
  rw [tokens_finish, tokens_finish, hhead h.output, h.levels_eq, h.place_eq]
  refine List.rel_append (List.rel_append (List.rel_append htokens ?_) ?_) (hempty .eof (by decide))
  · split
    · exact .nil
    · exact hempty .newline (by decide)
  · exact forall₂_closing _ _

namespace Unified

variable {m x : Char} {value : Text}

theorem behind_eq (h : Unified source s s') (hw : Unsplit text rest) :
    s'.cursor.place.behind (unifyBreaks text) (unifyBreaks rest) =
      s.cursor.place.behind text rest := (h.past hw).place_eq

variable (h : Unified source s s')
include h

theorem mixed (hl : s.lineStart = true) (hr : s.cursor.rest = blanks ++ x :: rest)
    (hb : ∀ c ∈ blanks, c = m) (hblank : ∀ c ∈ blanks, isBlank c = true)
    (hm : s.mark.or blanks.head? = some m) (hx : isBlank x = true) (hne : x ≠ m) :
    ∃ stopped', s'.Refuses (unifyBreaks blanks) stopped' ∧
      stopped'.fault = ⟨.mixedIndentation, s.cursor.place.behind blanks (x :: rest)⟩ := by
  have hplain : ∀ c ∈ blanks, isLineBreak c = false := fun c hc =>
    not_isLineBreak_of_isBlank (hblank c hc)
  have hblanks := unifyBreaks_of_not_isLineBreak hplain
  have hw := unsplit_of_not_isLineBreak hplain (x :: rest)
  have hxbreak := not_isLineBreak_of_isBlank hx
  have hcons := unifyBreaks_cons_of_ne (not_isLineBreak_iff.1 hxbreak).2 rest
  have hrest : s'.cursor.rest = blanks ++ x :: unifyBreaks rest := by
    rw [h.rest_eq, hr, unifyBreaks_append hw, hblanks, hcons]
  have hplace := h.behind_eq hw
  rw [hblanks, hcons] at hplace
  rw [← h.mark_eq] at hm
  rw [hblanks, ← hplace]
  exact ⟨_, .mixed (h.lineStart_eq.trans hl) hrest hb hblank hm hx hne, rfl⟩

theorem unmatched (hl : s.lineStart = true) (hm : s.HasMargin blanks (c :: rest))
    (hc : isLineBreak c = false) (hd : blanks.length ≤ s.levels.headD 0)
    (hk : (s.levels.dropWhile (blanks.length < ·)).headD 0 ≠ blanks.length) :
    ∃ stopped', s'.Refuses (unifyBreaks blanks) stopped' ∧
      stopped'.fault = ⟨.unmatchedDedent, s.cursor.place⟩ := by
  obtain ⟨hblanks, hm', -⟩ := h.marginOfLine hm hc
  rw [hblanks]
  rw [← h.levels_eq] at hd hk
  rw [← h.place_eq]
  exact ⟨_, .unmatched (h.lineStart_eq.trans hl) hm' hc hd hk, rfl⟩

theorem broken (hl : s.lineStart = false) (hr : s.cursor.rest = '"' :: body ++ c :: rest)
    (hd : Decodes body value) (hc : isLineBreak c = true) (hw : Unsplit ('"' :: body) (c :: rest)) :
    ∃ stopped', s'.Refuses (unifyBreaks ('"' :: body)) stopped' ∧
      stopped'.fault = ⟨.brokenString, s.cursor.place.behind ('"' :: body) (c :: rest)⟩ := by
  obtain ⟨value', hd', -⟩ := hd.unifyBreaks
  obtain ⟨tail, ht⟩ := exists_unifyBreaks_of_isLineBreak hc rest
  have hquote : unifyBreaks ('"' :: body) = '"' :: unifyBreaks body :=
    unifyBreaks_cons_of_ne (by decide) body
  have hrest : s'.cursor.rest = '"' :: unifyBreaks body ++ '\n' :: tail := by
    rw [h.rest_eq, hr, unifyBreaks_append hw, hquote, ht]
  rw [← h.behind_eq hw, hquote, ht]
  exact ⟨_, .broken (h.lineStart_eq.trans hl) hrest hd' rfl, rfl⟩

theorem unterminated {t : Text} (hl : s.lineStart = false) (hr : s.cursor.rest = '"' :: t)
    (hd : Decodes body value) (ht : t = body ∨ t = body ++ ['\\']) :
    ∃ stopped', s'.Refuses (unifyBreaks ('"' :: t)) stopped' ∧
      stopped'.fault = ⟨.unterminatedString, s.cursor.place.behind ('"' :: t) []⟩ := by
  obtain ⟨value', hd', -⟩ := hd.unifyBreaks
  have ht' : unifyBreaks t = unifyBreaks body ∨ unifyBreaks t = unifyBreaks body ++ ['\\'] := by
    rcases ht with rfl | rfl
    · exact .inl rfl
    · exact .inr (unifyBreaks_append fun _ => by decide)
  have hquote : unifyBreaks ('"' :: t) = '"' :: unifyBreaks t :=
    unifyBreaks_cons_of_ne (by decide) t
  have hrest : s'.cursor.rest = '"' :: unifyBreaks t := by rw [h.rest_eq, hr, hquote]
  have hw : Unsplit ('"' :: t) [] := fun _ => by simp
  rw [← h.behind_eq hw, hquote]
  exact ⟨_, .unterminated (h.lineStart_eq.trans hl) hrest hd' ht', rfl⟩

theorem bareBang (hl : s.lineStart = false) (hr : s.cursor.rest = '!' :: rest)
    (hn : rest.head? ≠ some '=') :
    ∃ stopped', s'.Refuses [] stopped' ∧
      stopped'.fault = ⟨.bareBang, s.cursor.place.behind [] ('!' :: rest)⟩ := by
  have hn' : (unifyBreaks rest).head? ≠ some '=' := by
    intro he
    rcases endsAlike_unifyBreaks rest _ he with he | he
    · exact hn he
    · cases he
  have hrest : s'.cursor.rest = '!' :: unifyBreaks rest := by
    rw [h.rest_eq, hr, unifyBreaks_cons_of_ne (by decide)]
  refine ⟨_, .bareBang (h.lineStart_eq.trans hl) hrest hn', ?_⟩
  exact congrArg (Fault.mk .bareBang) h.place_eq

theorem unexpected (hl : s.lineStart = false) (hr : s.cursor.rest = c :: rest)
    (hp : ∀ more, Piece.read c more = .fault (.unexpected c) 0) :
    ∃ stopped', s'.Refuses [] stopped' ∧
      stopped'.fault = ⟨.unexpected c, s.cursor.place.behind [] (c :: rest)⟩ := by
  have hne : c ≠ '\r' := by
    rintro rfl
    cases hp []
  have hrest : s'.cursor.rest = c :: unifyBreaks rest := by
    rw [h.rest_eq, hr, unifyBreaks_cons_of_ne hne]
  refine ⟨_, .unexpected (h.lineStart_eq.trans hl) hrest hp, ?_⟩
  exact congrArg (Fault.mk (.unexpected c)) h.place_eq

end Unified

/-- A stop is the same where line breaks are unified, unless it splits a line break. -/
theorem Refuses.unifyBreaks (h : s.Refuses text stopped) (hu : Unified source s s')
    (hw : Unsplit text stopped.scan.cursor.rest) :
    ∃ stopped', s'.Refuses (Offside.unifyBreaks text) stopped' ∧
      stopped'.fault = stopped.fault := by
  cases h with
  | mixed hl hr hb hblank hm hx hne => exact hu.mixed hl hr hb hblank hm hx hne
  | unmatched hl hm hc hd hk => exact hu.unmatched hl hm hc hd hk
  | broken hl hr hd hc => exact hu.broken hl hr hd hc hw
  | unterminated hl hr hd ht => exact hu.unterminated hl hr hd ht
  | bareBang hl hr hn => exact hu.bareBang hl hr hn
  | unexpected hl hr hp => exact hu.unexpected hl hr hp

/-- A fault between the halves of a line break is in a literal that escapes the first alone. -/
theorem Refuses.broken_of_split (h : s.Refuses text stopped) (hl : text.getLast? = some '\r')
    (hn : stopped.scan.cursor.rest.head? = some '\n') :
    stopped.fault.cause = .brokenString ∧ ['\\', '\r'] <:+ text := by
  cases h with
  | mixed hstart hr hb hblank hm hx hne => cases hblank _ (List.mem_of_getLast? hl)
  | unmatched hstart hm hc hd hk => cases hm.isBlank _ (List.mem_of_getLast? hl)
  | @broken body value c rest hstart hr hd hc =>
    refine ⟨rfl, ?_⟩
    cases body with
    | nil => cases hl
    | cons x body =>
      rw [List.getLast?_cons_cons] at hl
      exact (hd.escaped_of_getLast? hl).trans (List.suffix_cons _ _)
  | unterminated => cases hn
  | bareBang => cases hl
  | unexpected => cases hl

end Scan

/-- A fault between the two halves of a line break, of which a literal escapes the first alone. -/
structure Halt.SplitsBreak (source : Text) (stopped : Halt) : Prop where
  cause_eq : stopped.fault.cause = .brokenString
  behind : ['\\', '\r'] <:+ source.take stopped.scan.cursor.offset
  before : stopped.scan.cursor.rest.head? = some '\n'

/-- The tokens of a source and those where its line breaks are unified, or the fault of both. -/
inductive SameOutcome (source : Text) :
    Except Fault (List Token) → Except Fault (List Token) → Prop
  | tokens {tokens tokens'} (h : List.Forall₂ (UnifiedToken source) tokens tokens') :
      SameOutcome source (.ok tokens) (.ok tokens')
  | fault (f : Fault) : SameOutcome source (.error f) (.error f)

theorem sameOutcome_of_not_split
    (h : ∀ stopped, Scan.ofSource source = .error stopped → ¬ stopped.SplitsBreak source) :
    SameOutcome source (scan source) (scan (unifyBreaks source)) := by
  obtain ⟨s, hs, hr | ⟨stopped, hstop⟩⟩ := Scan.exists_reaches (Scan.start source)
  · obtain ⟨s', hs', hu⟩ := hs.unifyBreaks
    have hr' : s'.cursor.rest = [] := by rw [hu.rest_eq, hr]; rfl
    rw [scan_eq_ok_iff.2 ⟨s, hs, hr, rfl⟩, scan_eq_ok_iff.2 ⟨s', hs', hr', rfl⟩]
    exact .tokens hu.finish
  · obtain ⟨s', hs', hu⟩ := hs.unifyBreaks
    obtain ⟨text, hrefuses⟩ := hstop.refuses
    have hw : Unsplit text stopped.scan.cursor.rest := by
      intro hl hn
      obtain ⟨hc, hbehind⟩ := hrefuses.broken_of_split hl hn
      obtain ⟨htake, -⟩ := hrefuses.take_and_drop hs
      refine h stopped (Scan.ofSource_eq_error_iff.2 ⟨s, hs, hstop⟩) ⟨hc, ?_, hn⟩
      rw [htake]
      exact hbehind.trans (List.suffix_append _ _)
    obtain ⟨stopped', hrefuses', hfault⟩ := hrefuses.unifyBreaks hu hw
    rw [scan_eq_error_iff.2 ⟨s, stopped, hs, hstop, rfl⟩,
      scan_eq_error_iff.2 ⟨s', stopped', hs', hrefuses'.stop, hfault⟩]
    exact .fault _

theorem Halt.SplitsBreak.infix_source {stopped : Halt} (h : stopped.SplitsBreak source)
    (hs : Scan.ofSource source = .error stopped) : ['\\', '\r', '\n'] <:+: source := by
  obtain ⟨s, hreach, hstop⟩ := Scan.ofSource_eq_error_iff.1 hs
  obtain ⟨text, hr⟩ := hstop.refuses
  obtain ⟨-, hdrop⟩ := hr.take_and_drop hreach
  obtain ⟨front, hfront⟩ := h.behind
  obtain ⟨tail, htail⟩ := List.head?_eq_some_iff.1 h.before
  have hcut := List.take_append_drop stopped.scan.cursor.offset source
  rw [hdrop, htail, ← hfront] at hcut
  exact ⟨front, tail, by rw [← hcut]; simp⟩

/-- Line-ending independence: a source in which no line break of two characters stands behind a
backslash has the tokens, or the fault, that it has with line feeds in place of its line breaks. -/
theorem scan_unifyBreaks (h : ¬ ['\\', '\r', '\n'] <:+: source) :
    SameOutcome source (scan source) (scan (unifyBreaks source)) :=
  sameOutcome_of_not_split fun _ hs hsplit => h (hsplit.infix_source hs)

/-- All three forms of a line break, and one that is escaped. -/
theorem scan_unifyBreaks_of_mixed_forms :
    let source := "a\r\n b\r\"\\\r\"\n".toList
    let tokens : List Token := [
      ⟨.identifier, ['a'], ⟨1, 1⟩⟩, ⟨.newline, ['\r', '\n'], ⟨1, 2⟩⟩, ⟨.indent, [], ⟨2, 1⟩⟩,
      ⟨.identifier, ['b'], ⟨2, 2⟩⟩, ⟨.newline, ['\r'], ⟨2, 3⟩⟩, ⟨.dedent, [], ⟨3, 1⟩⟩,
      ⟨.string, ['\r'], ⟨3, 1⟩⟩, ⟨.newline, ['\n'], ⟨4, 2⟩⟩, ⟨.eof, [], ⟨5, 1⟩⟩]
    scan source = .ok tokens ∧
      SameOutcome source (.ok tokens) (scan "a\n b\n\"\\\n\"\n".toList) := by
  intro source tokens
  have h : scan source = .ok tokens := by decide +kernel
  have hno : ¬ ['\\', '\r', '\n'] <:+: source := by decide +kernel
  refine ⟨h, ?_⟩
  rw [← h]
  exact scan_unifyBreaks hno

end Offside
