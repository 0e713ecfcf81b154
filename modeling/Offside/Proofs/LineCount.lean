import Offside.Proofs.CursorPlaces
import Offside.Proofs.LineBreaks
import Offside.Proofs.Spans

/-! Line breaks are accounted for: each of them ends a line or is escaped within a literal, and a
last line that has none is ended by the end of the input. -/
namespace Offside

variable {source text rest lexeme : Text} {kind : Kind} {tiles : List Tile} {tokens : List Token}

/-- How many line breaks a text holds, in any of the three forms. -/
def lineBreaks (t : Text) : Nat := (unifyBreaks t).count '\n'

section Count

theorem lineBreaks_append (h : Unsplit text rest) :
    lineBreaks (text ++ rest) = lineBreaks text + lineBreaks rest := by
  unfold lineBreaks
  rw [unifyBreaks_append h, List.count_append]

theorem lineBreaks_of_not_isLineBreak (h : ∀ x ∈ text, isLineBreak x = false) :
    lineBreaks text = 0 := by
  unfold lineBreaks
  rw [unifyBreaks_of_not_isLineBreak h]
  refine List.count_eq_zero.2 fun hmem => ?_
  cases h _ hmem

theorem BreakBefore.lineBreaks_eq (h : BreakBefore rest text) : lineBreaks text = 1 := by
  unfold lineBreaks
  rw [h.unifyBreaks]
  rfl

namespace Position

theorem line_behind_of_not_mem (h : '\r' ∉ text) (p : Position) (rest : Text) :
    (p.behind text rest).line = p.line + text.count '\n' := by
  induction text generalizing p with
  | nil => simp [behind]
  | cons c text ih =>
    rw [List.mem_cons, not_or] at h
    rw [behind, ih h.2, List.count_cons]
    by_cases hc : c = '\n'
    · subst hc
      simp only [after, endsLine, beq_self_eq_true, Bool.true_or, if_true]
      push_cast
      omega
    · have hl : isLineBreak c = false := not_isLineBreak_iff.2 ⟨hc, fun hr => h.1 hr.symm⟩
      rw [after_of_not_isLineBreak hl, beq_eq_false_iff_ne.2 hc]
      rfl

theorem line_behind (h : Unsplit text rest) (p : Position) :
    (p.behind text rest).line = p.line + lineBreaks text := by
  rw [← behind_unifyBreaks p h, line_behind_of_not_mem (not_mem_unifyBreaks text)]
  rfl

theorem line_at_length (source : Text) :
    (Position.at source source.length).line = 1 + lineBreaks source := by
  have hpast := Cursor.past_eq_skip (c := .start source) (List.append_nil source).symm
  have hin := (Cursor.in_start source).skip source.length
  rw [hpast] at hin
  have hplace : Position.start.behind source [] = .at source (0 + source.length) := hin.place_eq
  rw [Nat.zero_add] at hplace
  rw [← hplace, line_behind (by simp [Unsplit])]
  rfl

end Position
end Count

def Token.breaksLine (t : Token) : Bool := t.kind == .newline && t.lexeme != []

def Tile.literalBreaks : List Tile → Nat
  | [] => 0
  | .blank _ :: tiles => literalBreaks tiles
  | .span token text :: tiles =>
    (if token.kind = .string then lineBreaks text else 0) + literalBreaks tiles

/-- Of all tokens, the ends of lines hold one line break and only literals may hold others. -/
theorem TokenAt.lineBreaks_eq {token : Token}
    (h : TokenAt (text ++ rest) token.kind token.lexeme text.length) :
    lineBreaks text =
      token.breaksLine.toNat + if token.kind = .string then lineBreaks text else 0 := by
  obtain ⟨kind, lexeme, place⟩ := token
  dsimp only at h ⊢
  obtain ⟨hne, hspells⟩ := h.spells_text
  by_cases hnewline : kind = .newline
  · subst hnewline
    obtain ⟨rfl, hb⟩ := tokenAt_newline_iff.1 h
    have hbreaks : Token.breaksLine ⟨.newline, lexeme, place⟩ = true := by
      simpa [Token.breaksLine] using hne
    rw [hbreaks, hb.lineBreaks_eq]
    rfl
  have hbreaks : Token.breaksLine ⟨kind, lexeme, place⟩ = false := by
    simp [Token.breaksLine, hnewline]
  rw [hbreaks]
  by_cases hstring : kind = .string
  · rw [if_pos hstring, Bool.toNat_false, Nat.zero_add]
  · rw [if_neg hstring,
      lineBreaks_of_not_isLineBreak (hspells.not_isLineBreak (h.content hnewline) hstring)]
    rfl

theorem ReadTiling.lineBreaks_join (h : ReadTiling source tiles tokens [])
    {before behind : List Tile} (he : tiles = before ++ behind) :
    (behind.filterMap Tile.token?).countP Token.breaksLine + Tile.literalBreaks behind =
      lineBreaks (Tile.join behind) := by
  induction behind generalizing before with
  | nil => rfl
  | cons tile behind ih =>
    have htail : tiles = (before ++ [tile]) ++ behind := by rw [he, List.append_cons]
    cases tile with
    | blank c =>
      have hc : ∀ x ∈ [c], isLineBreak x = false := by
        intro x hx
        rw [List.mem_singleton.1 hx]
        exact not_isLineBreak_of_isBlank (isBlank_iff.2 (h.blanks c (by simp [he])))
      have hsplit := lineBreaks_append (unsplit_of_not_isLineBreak hc (Tile.join behind))
      rw [lineBreaks_of_not_isLineBreak hc, Nat.zero_add] at hsplit
      exact (ih htail).trans hsplit.symm
    | span token text =>
      have hat := h.tokenAt before token text behind he
      rw [List.append_nil] at hat
      obtain ⟨hcut, -⟩ := hat.unifyBreaks (List.nil_append _).symm
      have htokens : (Tile.span token text :: behind).filterMap Tile.token? =
          token :: behind.filterMap Tile.token? := rfl
      have hliterals : Tile.literalBreaks (.span token text :: behind) =
          (if token.kind = .string then lineBreaks text else 0) + Tile.literalBreaks behind := rfl
      have hcount : (token :: behind.filterMap Tile.token?).countP Token.breaksLine =
          token.breaksLine.toNat + (behind.filterMap Tile.token?).countP Token.breaksLine := by
        rw [List.countP_cons, Nat.add_comm]
        cases token.breaksLine <;> rfl
      have htext := hat.lineBreaks_eq
      have hjoin : Tile.join (.span token text :: behind) = text ++ Tile.join behind := rfl
      rw [htokens, hliterals, hcount, hjoin, lineBreaks_append hcut, ← ih htail]
      omega

theorem ReadTiling.lineBreaks_eq (h : ReadTiling source tiles tokens []) :
    tokens.countP Token.breaksLine + Tile.literalBreaks tiles = lineBreaks source := by
  have hspan : ∀ token : Token, (token.breaksLine && token.hasSpan) = token.breaksLine := by
    intro token
    unfold Token.breaksLine Token.hasSpan
    cases hk : token.kind == .newline with
    | false => rfl
    | true =>
      rw [beq_iff_eq] at hk
      simp [hk]
  have hcount : (tokens.filter Token.hasSpan).countP Token.breaksLine =
      tokens.countP Token.breaksLine := by
    rw [List.countP_filter]
    simp only [hspan]
  have hjoin := h.join_eq
  rw [List.append_nil] at hjoin
  rw [← hcount, ← h.tokens_eq, h.lineBreaks_join (List.nil_append tiles).symm, hjoin]

def EndsInBreak (t : Text) : Prop := ∃ c, t.getLast? = some c ∧ isLineBreak c = true

def AllBroken (tokens : List Token) : Prop :=
  ∀ token ∈ tokens, token.kind = .newline → token.lexeme ≠ []

theorem not_endsInBreak (h : ∀ c, text.getLast? = some c → isLineBreak c = false) :
    ¬ EndsInBreak text := by
  rintro ⟨c, hc, hb⟩
  cases hb.symm.trans (h c hc)

theorem BreakBefore.endsInBreak (h : BreakBefore rest text) : EndsInBreak text := by
  cases h with
  | lineFeed => exact ⟨'\n', rfl, rfl⟩
  | pair => exact ⟨'\n', rfl, rfl⟩
  | carriageReturn => exact ⟨'\r', rfl, rfl⟩

theorem Cursor.In.endsInBreak_iff {c : Cursor} (h : c.In source) (hr : c.rest ≠ []) :
    EndsInBreak source ↔ EndsInBreak c.rest := by
  unfold EndsInBreak
  rw [h.source_eq, List.getLast?_append_of_ne_nil _ hr]

namespace Scan

variable {s t : Scan}

/-- Behind the end of a line its margin is read: what stands there is no blank. -/
theorem not_isBlank_of_newline (h : (start source).Reaches s) (hl : s.lineStart = false)
    {token : Token} (ht : s.output.head? = some token) (hk : token.kind = .newline) :
    ∀ c, s.cursor.rest.head? = some c → isBlank c = false := by
  revert hl token
  refine h.preserves (P := fun s => s.lineStart = false → ∀ {token : Token},
    s.output.head? = some token → token.kind = .newline →
      ∀ c, s.cursor.rest.head? = some c → isBlank c = false) ?_ nofun
  intro s t ha hs hl token ht hk
  obtain ⟨text, hr⟩ := ha.reads
  cases hr with
  | lastMargin => exact nofun
  | emptyLine => cases hl
  | opens =>
    cases ht
    cases hk
  | closes _ hm => exact hm.ends
  | @blank c _ hn hrest hc => cases hc.symm.trans (hs hn ht hk c (by rw [hrest]; rfl))
  | token =>
    cases ht
    dsimp only at hk
    rw [hk] at hl
    cases hl

/-- How the last line of a source has ended where nothing is left to read. -/
inductive LastLine (source : Text) (s : Scan) : Prop
  | broken {lexeme place output} (ho : s.output = ⟨.newline, lexeme, place⟩ :: output)
      (hn : lexeme ≠ []) (ha : AllBroken output) (he : EndsInBreak source)
  | flushed {output} (ho : s.output = ⟨.newline, [], s.cursor.place⟩ :: output)
      (ha : AllBroken output) (he : ¬ EndsInBreak source)
  | unended (ho : ∀ token, s.output.head? = some token → token.kind ≠ .newline)
      (ha : AllBroken s.output) (he : ¬ EndsInBreak source)

theorem lastLine_of_reaches (h : (start source).Reaches s) (hr : s.cursor.rest = []) :
    s.LastLine source := by
  cases h with
  | refl =>
    obtain rfl : source = [] := hr
    exact .unended nofun nofun (not_endsInBreak nofun)
  -- Only the last step can leave nothing to read, so no induction is needed.
  | @tail s t hs hm =>
    obtain ⟨text, hreads⟩ := (moves_iff_advance.1 hm).reads
    have hall : AllBroken s.output := by
      intro token ht hk hl
      have hmem : token ∈ s.tokens := List.mem_reverse.2 ht
      exact hm.1 (lineEndsLast_of_reaches hs token hmem hk hl).1
    have hends := (cursor_in_of_reaches hs).endsInBreak_iff hm.1
    have hrest := hreads.rest_eq
    rw [hr, List.append_nil] at hrest
    rw [hrest] at hends
    cases hreads with
    | lastMargin _ hmargin =>
      refine .flushed rfl hall fun he => not_endsInBreak ?_ (hends.1 he)
      exact fun c hc => hmargin.not_isLineBreak c (List.mem_of_getLast? hc)
    | @emptyLine blanks text rest _ _ ht =>
      refine .broken rfl ht.ne_nil hall (hends.2 ?_)
      obtain ⟨c, hc, hb⟩ := ht.endsInBreak
      exact ⟨c, by rw [List.getLast?_append_of_ne_nil _ ht.ne_nil, hc], hb⟩
    | opens => cases hr
    | closes => cases hr
    | @blank c _ hl hcons hc =>
      refine .unended ?_ hall fun he => not_endsInBreak ?_ (hends.1 he)
      · intro token ht hk
        have hn := not_isBlank_of_newline hs hl ht hk c (by rw [hcons]; rfl)
        cases hc.symm.trans hn
      · rintro x ⟨⟩
        exact not_isLineBreak_of_isBlank hc
    | @token kind lexeme _ rest _ _ ht =>
      by_cases hk : kind = .newline
      · subst hk
        obtain ⟨rfl, hb⟩ := tokenAt_newline_iff.1 ht
        exact .broken rfl hb.ne_nil hall (hends.2 hb.endsInBreak)
      · refine .unended ?_ ?_ fun he => not_endsInBreak ?_ (hends.1 he)
        · rintro _ ⟨⟩
          exact hk
        · intro token hmem hkind
          rcases List.mem_cons.1 hmem with rfl | hmem
          · exact absurd hkind hk
          · exact hall token hmem hkind
        · exact fun c => ht.spells_text.2.not_isLineBreak_of_getLast? (ht.content hk)

theorem LastLine.finish (h : s.LastLine source) :
    ∃ lines last behind, s.finish.tokens = lines ++ last :: behind ∧ last.kind = .newline ∧
      AllBroken lines ∧ (∀ token ∈ behind, token.kind ≠ .newline) ∧
      (last.lexeme = [] ∧ last.place = s.cursor.place ∧ ¬ EndsInBreak source ∨
        last.lexeme ≠ [] ∧ EndsInBreak source) := by
  have hfinish := s.tokens_finish
  rw [List.append_assoc] at hfinish
  have hbehind : ∀ token ∈ List.replicate s.levels.length ⟨.dedent, [], s.cursor.place⟩ ++
      [⟨.eof, [], s.cursor.place⟩], Token.kind token ≠ .newline := by
    intro token hmem hk
    rcases List.mem_append.1 hmem with hmem | hmem
    · rw [List.eq_of_mem_replicate hmem] at hk
      cases hk
    · rw [List.mem_singleton.1 hmem] at hk
      cases hk
  -- What ends the stream matters only in that no line ends in it.
  generalize List.replicate s.levels.length (Token.mk .dedent [] s.cursor.place) ++
    [⟨.eof, [], s.cursor.place⟩] = behind at hfinish hbehind
  have hlines : ∀ {output}, AllBroken output → AllBroken output.reverse := fun ha token hmem =>
    ha token (List.mem_reverse.1 hmem)
  have hended : ∀ {lexeme place output}, s.output = ⟨.newline, lexeme, place⟩ :: output →
      s.finish.tokens = output.reverse ++ ⟨.newline, lexeme, place⟩ :: behind := by
    intro lexeme place output ho
    have hhead : s.output.head?.any (·.kind == .newline) = true := by rw [ho]; rfl
    rw [hfinish, if_pos hhead, tokens, ho, List.reverse_cons, List.append_nil, List.append_assoc]
    rfl
  cases h with
  | @broken _ _ output ho hn ha he =>
    exact ⟨output.reverse, _, behind, hended ho, rfl, hlines ha, hbehind, .inr ⟨hn, he⟩⟩
  | @flushed output ho ha he =>
    exact ⟨output.reverse, _, behind, hended ho, rfl, hlines ha, hbehind, .inl ⟨rfl, rfl, he⟩⟩
  | unended ho ha he =>
    have hhead : ¬ s.output.head?.any (·.kind == .newline) = true := by
      rw [Option.any_eq_true]
      rintro ⟨token, ht, hk⟩
      exact ho token ht (beq_iff_eq.1 hk)
    rw [if_neg hhead, List.append_assoc] at hfinish
    exact ⟨s.tokens, _, behind, hfinish, rfl, hlines ha, hbehind, .inl ⟨rfl, rfl, he⟩⟩

end Scan

/-- The lines of a source are accounted for. Its tokens can be placed in it in one way only; each
of its line breaks ends a line or is escaped in a literal, and the end of the input is as many
lines down. One more line is ended, as the last and where the source ends, just if the source is
empty or does not end in a line break. -/
theorem scan_lineBreaks (h : scan source = .ok tokens) :
    ∃ tiles, (∀ other, Tiling source other tokens [] ↔ other = tiles) ∧
      tokens.countP Token.breaksLine + Tile.literalBreaks tiles = lineBreaks source ∧
      tokens.getLast? = some ⟨.eof, [], .at source source.length⟩ ∧
      (Position.at source source.length).line - 1 = lineBreaks source ∧
      (¬ EndsInBreak source ↔ ∃ lines behind,
        tokens = lines ++ ⟨.newline, [], .at source source.length⟩ :: behind ∧
          AllBroken lines ∧ ∀ token ∈ behind, token.kind ≠ .newline) ∧
      (EndsInBreak source → AllBroken tokens) := by
  obtain ⟨tiles, htiles⟩ := exists_readTiling h
  have hline := Position.line_at_length source
  have hunique : ∀ other, Tiling source other tokens [] ↔ other = tiles := by
    intro other
    constructor
    · exact fun hother => hother.unique htiles.toTiling
    · rintro rfl
      exact htiles.toTiling
  obtain ⟨s, hs, hr, rfl⟩ := scan_eq_ok_iff.1 h
  have hin := Scan.cursor_in_of_reaches hs
  have hplace := hin.place_eq
  rw [Scan.offset_of_rest_eq_nil hin hr] at hplace
  have heof := congrArg List.getLast? s.tokens_finish
  obtain ⟨lines, last, behind, htokens, hk, hlines, hbehind, hlast⟩ :=
    (Scan.lastLine_of_reaches hs hr).finish
  rw [List.getLast?_concat, hplace] at heof
  rw [hplace] at hlast
  -- All lines in front of the last are broken; the last one is where the source ends in a break.
  have hbroken : EndsInBreak source → AllBroken s.finish.tokens := by
    intro hends token hmem hkind
    rw [htokens] at hmem
    rcases List.mem_append.1 hmem with hmem | hmem
    · exact hlines token hmem hkind
    rcases List.mem_cons.1 hmem with rfl | hmem
    · rcases hlast with ⟨-, -, hn⟩ | ⟨hlexeme, -⟩
      · exact absurd hends hn
      · exact hlexeme
    · exact absurd hkind (hbehind token hmem)
  refine ⟨tiles, hunique, htiles.lineBreaks_eq, heof, by omega, ⟨fun hn => ?_, ?_⟩, hbroken⟩
  · rcases hlast with ⟨hlexeme, hat, -⟩ | ⟨-, hends⟩
    · refine ⟨lines, behind, ?_, hlines, hbehind⟩
      rw [htokens, ← hk, ← hlexeme, ← hat]
    · exact absurd hends hn
  · rintro ⟨lines', behind', htokens', -, -⟩ hends
    refine hbroken hends ⟨.newline, [], .at source source.length⟩ ?_ rfl rfl
    rw [htokens']
    exact List.mem_append_right _ List.mem_cons_self

/-- A line break of two characters, one that is escaped, and blanks behind the last. -/
theorem scan_lineBreaks_of_escaped_and_last_margin :
    let source := "a\r\n\"\\\n\"\r\t".toList
    let tokens : List Token := [
      ⟨.identifier, ['a'], ⟨1, 1⟩⟩, ⟨.newline, ['\r', '\n'], ⟨1, 2⟩⟩, ⟨.string, ['\n'], ⟨2, 1⟩⟩,
      ⟨.newline, ['\r'], ⟨3, 2⟩⟩, ⟨.newline, [], ⟨4, 2⟩⟩, ⟨.eof, [], ⟨4, 2⟩⟩]
    scan source = .ok tokens ∧
      ∃ tiles, (∀ other, Tiling source other tokens [] ↔ other = tiles) ∧
        2 + Tile.literalBreaks tiles = lineBreaks source ∧ lineBreaks source = 3 := by
  intro source tokens
  have h : scan source = .ok tokens := by decide +kernel
  have hthree : lineBreaks source = 3 := by decide +kernel
  obtain ⟨tiles, hunique, hcount, -⟩ := scan_lineBreaks h
  exact ⟨h, tiles, hunique, hcount, hthree⟩

end Offside
