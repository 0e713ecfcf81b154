import Offside.Proofs.Place
import Offside.Proofs.TokenEnds

/-! Where reading a text leads to, and the text that each step of a scan reads. -/
namespace Offside
namespace Position

/-- The place behind a text, given what follows it. -/
def behind (p : Position) : Text → Text → Position
  | [], _ => p
  | c :: text, rest => (p.after c (text ++ rest)).behind text rest

def lower (lines : Int) (p : Position) : Position := ⟨p.line + lines, p.column⟩

variable {p : Position} {c : Char} {text more rest rest' : Text}

theorem after_lower (lines : Int) (p : Position) (c : Char) (rest : Text) :
    (p.lower lines).after c rest = (p.after c rest).lower lines := by
  unfold after lower
  split
  · simp only [Position.mk.injEq, and_true]
    omega
  · rfl

theorem behind_append (p : Position) (text more rest : Text) :
    p.behind (text ++ more) rest = (p.behind text (more ++ rest)).behind more rest := by
  induction text generalizing p with
  | nil => rfl
  | cons c text ih =>
    rw [List.cons_append, behind, behind, ih, List.append_assoc]

theorem after_congr (h : c = '\r' → (rest.head? = some '\n' ↔ rest'.head? = some '\n')) :
    p.after c rest = p.after c rest' := by
  have he : endsLine c rest = endsLine c rest' := by
    unfold endsLine
    by_cases hc : c = '\r'
    · have hn : (rest.head? != some '\n') = (rest'.head? != some '\n') := by
        rw [Bool.eq_iff_iff, bne_iff_ne, bne_iff_ne]
        exact not_congr (h hc)
      rw [hn]
    · have hb : (c == '\r') = false := beq_eq_false_iff_ne.2 hc
      rw [hb, Bool.false_and, Bool.false_and]
  unfold after
  rw [he]

/-- What follows a text matters only for a carriage return at its end. -/
theorem behind_congr (h : text.getLast? = some '\r' →
    (rest.head? = some '\n' ↔ rest'.head? = some '\n')) :
    p.behind text rest = p.behind text rest' := by
  induction text generalizing p with
  | nil => rfl
  | cons c text ih =>
    have ha : p.after c (text ++ rest) = p.after c (text ++ rest') := by
      apply after_congr
      intro hc
      cases text with
      | nil => exact h (by rw [hc]; rfl)
      | cons x text => rfl
    have hl : text.getLast? = some '\r' →
        (rest.head? = some '\n' ↔ rest'.head? = some '\n') := by
      intro ht
      apply h
      rw [List.getLast?_cons, ht]
      rfl
    unfold behind
    rw [ha]
    exact ih hl

theorem behind_of_blanks (h : ∀ c ∈ text, isBlank c = true) (p : Position)
    (rest : Text) : p.behind text rest = ⟨p.line, p.column + text.length⟩ := by
  induction text generalizing p with
  | nil => simp [behind]
  | cons c text ih =>
    have hc : isLineBreak c = false := by
      by_contra hb
      have hn := not_isBlank_of_isLineBreak (Bool.eq_true_of_not_eq_false hb)
      rw [h c List.mem_cons_self] at hn
      cases hn
    rw [behind, after_of_not_isLineBreak hc, ih fun x hx => h x (List.mem_cons_of_mem c hx)]
    simp only [List.length_cons, Position.mk.injEq, true_and]
    omega

theorem column_behind_lineFeed (h : text.getLast? = some '\n') (p : Position) (rest : Text) :
    (p.behind text rest).column = 1 := by
  obtain ⟨before, rfl⟩ := List.getLast?_eq_some_iff.1 h
  rw [behind_append]
  rfl

end Position

namespace Cursor

variable {c : Cursor} {text rest : Text}

def past (c : Cursor) (text rest : Text) : Cursor :=
  ⟨rest, c.offset + text.length, c.place.behind text rest⟩

theorem past_eq_skip (h : c.rest = text ++ rest) : c.skip text.length = c.past text rest := by
  induction text generalizing c with
  | nil =>
    rw [List.nil_append] at h
    unfold past
    rw [← h]
    rfl
  | cons x text ih =>
    have hn : c.next = ⟨text ++ rest, c.offset + 1, c.place.after x (text ++ rest)⟩ := by
      simp [next, h]
    have hs : c.next.skip text.length = _ := ih (by rw [hn])
    rw [hn] at hs
    rw [List.length_cons, skip, hn, hs]
    simp only [past, Cursor.mk.injEq, true_and]
    exact ⟨by simp; omega, rfl⟩

theorem In.past {source : Text} (h : c.In source) (hr : c.rest = text ++ rest) :
    (c.past text rest).In source := by
  rw [← past_eq_skip hr]
  exact h.skip _

theorem past_append (c : Cursor) (text more rest : Text) :
    (c.past text (more ++ rest)).past more rest = c.past (text ++ more) rest := by
  unfold past
  rw [Position.behind_append, List.length_append, Nat.add_assoc]

end Cursor

namespace Scan

variable {s t : Scan} {blanks text rest lexeme source : Text} {kind : Kind}

/-- The line at the cursor begins with the blanks and goes on with the rest, and the blanks
agree with the mark. -/
structure HasMargin (s : Scan) (blanks rest : Text) : Prop where
  rest_eq : s.cursor.rest = blanks ++ rest
  isBlank : ∀ c ∈ blanks, isBlank c = true
  ends : ∀ c, rest.head? = some c → Offside.isBlank c = false
  agrees : (Margin.read s.mark blanks).mixed = false

def pastMargin (s : Scan) (blanks rest : Text) : Scan :=
  { s with cursor := s.cursor.past blanks rest, mark := s.mark.or blanks.head? }

def pastToken (s : Scan) (kind : Kind) (lexeme text rest : Text) : Scan :=
  { s with
    cursor := s.cursor.past text rest
    lineStart := kind == .newline
    output := ⟨kind, lexeme, s.cursor.place⟩ :: s.output }

theorem tokens_pastToken (s : Scan) (kind : Kind) (lexeme text rest : Text) :
    (s.pastToken kind lexeme text rest).tokens = s.tokens ++ [⟨kind, lexeme, s.cursor.place⟩] := by
  simp [tokens, pastToken]

theorem pastToken_eq_accept (h : s.cursor.rest = text ++ rest) :
    s.accept kind lexeme text.length = s.pastToken kind lexeme text rest := by
  unfold accept pastToken
  rw [Cursor.past_eq_skip h]

namespace HasMargin

variable (h : s.HasMargin blanks rest)
include h

theorem margin_eq : s.margin = .read s.mark blanks := by
  unfold margin
  rw [h.rest_eq]
  exact Margin.read_append h.isBlank h.ends

theorem not_mixed : s.margin.mixed = false := by
  rw [h.margin_eq]
  exact h.agrees

theorem takeWhile_blanks : blanks.takeWhile Offside.isBlank = blanks :=
  List.takeWhile_eq_self_iff.2 h.isBlank

theorem depth_eq : s.margin.depth = blanks.length := by
  rw [h.margin_eq, Margin.depth_of_not_mixed h.agrees, h.takeWhile_blanks]

theorem mark_eq : s.margin.mark = s.mark.or blanks.head? := by
  rw [h.margin_eq, Margin.read, h.takeWhile_blanks]

theorem behindMargin_eq : s.behindMargin = s.pastMargin blanks rest := by
  unfold behindMargin pastMargin
  rw [h.depth_eq, h.mark_eq, Cursor.past_eq_skip h.rest_eq]

end HasMargin

theorem exists_hasMargin (h : s.margin.mixed = false) :
    ∃ blanks, s.HasMargin blanks s.behindMargin.cursor.rest := by
  have hall : ∀ c ∈ s.cursor.rest.takeWhile isBlank, isBlank c = true := fun c hc =>
    List.mem_takeWhile_imp hc
  have hends : ∀ c, (s.cursor.rest.dropWhile isBlank).head? = some c → isBlank c = false := by
    intro c hc
    have hn := List.head?_dropWhile_not isBlank s.cursor.rest
    rw [hc] at hn
    exact hn
  have hs := List.takeWhile_append_dropWhile (p := isBlank) (l := s.cursor.rest)
  rw [rest_behindMargin_of_not_mixed h]
  refine ⟨s.cursor.rest.takeWhile isBlank, hs.symm, hall, hends, ?_⟩
  rw [← Margin.read_append hall hends, hs]
  exact h

/-- A step, told by the text that it reads. -/
inductive Reads (s : Scan) : Text → Scan → Prop
  | lastMargin {blanks : Text} (hl : s.lineStart = true) (hm : s.HasMargin blanks [])
      (hb : blanks ≠ []) :
      Reads s blanks { (s.pastMargin blanks []).emit .newline with lineStart := false }
  | emptyLine {blanks text rest : Text} (hl : s.lineStart = true)
      (hm : s.HasMargin blanks (text ++ rest)) (ht : BreakBefore rest text) :
      Reads s (blanks ++ text)
        ((s.pastMargin blanks (text ++ rest)).pastToken .newline text text rest)
  | opens {blanks : Text} {c : Char} {rest : Text} (hl : s.lineStart = true)
      (hm : s.HasMargin blanks (c :: rest)) (hc : isLineBreak c = false)
      (hd : s.levels.headD 0 < blanks.length) :
      Reads s blanks ((s.pastMargin blanks (c :: rest)).opening blanks.length s.cursor.place)
  | closes {blanks : Text} {c : Char} {rest : Text} (hl : s.lineStart = true)
      (hm : s.HasMargin blanks (c :: rest)) (hc : isLineBreak c = false)
      (hd : blanks.length ≤ s.levels.headD 0)
      (hk : (s.levels.dropWhile (blanks.length < ·)).headD 0 = blanks.length) :
      Reads s blanks ((s.pastMargin blanks (c :: rest)).closing blanks.length s.cursor.place)
  | blank {c : Char} {rest : Text} (hl : s.lineStart = false) (hr : s.cursor.rest = c :: rest)
      (hc : isBlank c = true) : Reads s [c] { s with cursor := s.cursor.past [c] rest }
  | token {kind : Kind} {lexeme text rest : Text} (hl : s.lineStart = false)
      (hr : s.cursor.rest = text ++ rest) (ht : TokenAt (text ++ rest) kind lexeme text.length) :
      Reads s text (s.pastToken kind lexeme text rest)

theorem Advance.reads (h : s.Advance t) : ∃ text, s.Reads text t := by
  cases h with
  | lastMargin hb hl hm hr =>
    obtain ⟨blanks, hmargin⟩ := exists_hasMargin hm
    rw [hr] at hmargin
    refine ⟨blanks, ?_⟩
    rw [hmargin.behindMargin_eq]
    refine .lastMargin hl hmargin fun hn => hb ?_
    rw [hmargin.rest_eq, hn]
    rfl
  -- The line break is part of what is read, so that the step reads past both.
  | @emptyLine c rest hl hm hr hc =>
    obtain ⟨blanks, hmargin⟩ := exists_hasMargin hm
    obtain ⟨tail, ht, hbreak⟩ := breakBefore_lineBreakAt hc rest
    have hs := hr.trans ht
    rw [hs] at hmargin
    refine ⟨blanks ++ lineBreakAt c rest, ?_⟩
    rw [pastToken_eq_accept hs, hmargin.behindMargin_eq]
    exact .emptyLine hl hmargin hbreak
  | opens hl hm hr hc hd =>
    obtain ⟨blanks, hmargin⟩ := exists_hasMargin hm
    rw [hr] at hmargin
    rw [hmargin.depth_eq] at hd
    refine ⟨blanks, ?_⟩
    rw [hmargin.depth_eq, hmargin.behindMargin_eq]
    exact .opens hl hmargin hc hd
  | closes hl hm hr hc hd hk =>
    obtain ⟨blanks, hmargin⟩ := exists_hasMargin hm
    rw [hr] at hmargin
    rw [hmargin.depth_eq] at hd hk
    refine ⟨blanks, ?_⟩
    rw [hmargin.depth_eq, hmargin.behindMargin_eq]
    exact .closes hl hmargin hc hd hk
  | @blank c rest hl hr hp =>
    refine ⟨[c], ?_⟩
    have hcons : s.cursor.rest = [c] ++ rest := hr
    have hn : s.cursor.next = s.cursor.past [c] rest := Cursor.past_eq_skip hcons
    rw [hn]
    exact .blank hl hr (Piece.isBlank_of_read hp)
  | token hl hr hp =>
    have ht := tokenAt_of_read hp
    obtain ⟨text, rest, hs, rfl, -, -⟩ := ht.spells
    rw [hs] at ht hr
    refine ⟨text, ?_⟩
    rw [pastToken_eq_accept hr]
    exact .token hl hr ht

namespace Reads

theorem rest_eq (h : s.Reads text t) : s.cursor.rest = text ++ t.cursor.rest := by
  cases h with
  | lastMargin hl hm hb => exact hm.rest_eq
  | emptyLine hl hm ht =>
    rw [List.append_assoc]
    exact hm.rest_eq
  | opens hl hm hc hd => exact hm.rest_eq
  | closes hl hm hc hd hk => exact hm.rest_eq
  | blank hl hr hc => exact hr
  | token hl hr ht => exact hr

theorem cursor_eq (h : s.Reads text t) : t.cursor = s.cursor.past text t.cursor.rest := by
  cases h with
  | lastMargin => rfl
  | emptyLine => exact Cursor.past_append ..
  | opens => rfl
  | closes => rfl
  | blank => rfl
  | token => rfl

theorem offset_eq (h : s.Reads text t) :
    t.cursor.offset = s.cursor.offset + text.length := by
  rw [h.cursor_eq]
  rfl

theorem advance (h : s.Reads text t) : s.Advance t := by
  cases h with
  | lastMargin hl hm hb =>
    have hr : s.behindMargin.cursor.rest = [] := by rw [hm.behindMargin_eq]; rfl
    rw [← hm.behindMargin_eq]
    refine .lastMargin ?_ hl hm.not_mixed hr
    rw [hm.rest_eq, List.append_nil]
    exact hb
  | @emptyLine blanks text rest hl hm ht =>
    obtain ⟨c, tail, hs, hc, hlb⟩ := ht.exists_cons
    have hr : s.behindMargin.cursor.rest = text ++ rest := by rw [hm.behindMargin_eq]; rfl
    rw [← hm.behindMargin_eq, ← pastToken_eq_accept hr, ← hlb]
    exact .emptyLine hl hm.not_mixed (hr.trans hs) hc
  | opens hl hm hc hd =>
    rw [← hm.behindMargin_eq, ← hm.depth_eq]
    rw [← hm.depth_eq] at hd
    exact .opens hl hm.not_mixed (by rw [hm.behindMargin_eq]; rfl) hc hd
  | closes hl hm hc hd hk =>
    rw [← hm.behindMargin_eq, ← hm.depth_eq]
    rw [← hm.depth_eq] at hd hk
    exact .closes hl hm.not_mixed (by rw [hm.behindMargin_eq]; rfl) hc hd hk
  | @blank c rest hl hr hc =>
    have hcons : s.cursor.rest = [c] ++ rest := hr
    have hn : s.cursor.next = s.cursor.past [c] rest := Cursor.past_eq_skip hcons
    rw [← hn]
    exact .blank hl hr (if_pos hc)
  | token hl hr ht =>
    obtain ⟨hne, -⟩ := ht.spells_text
    obtain ⟨c, tail, rfl⟩ := List.exists_cons_of_ne_nil hne
    rw [← pastToken_eq_accept hr]
    exact .token hl hr ht.read_eq

end Reads

theorem Reaches.offset_le (h : s.Reaches t) : s.cursor.offset ≤ t.cursor.offset := by
  apply h.preserves (P := fun u => s.cursor.offset ≤ u.cursor.offset)
  · intro t u ha ht
    obtain ⟨text, hr⟩ := ha.reads
    rw [hr.offset_eq]
    exact Nat.le_add_right_of_le ht
  · exact Nat.le_refl _

theorem Moves.offset_lt (h : s.Moves t) (hl : s.lineStart = false) :
    s.cursor.offset < t.cursor.offset := by
  obtain ⟨text, hr⟩ := (moves_iff_advance.1 h).reads
  have hne : text ≠ [] := by
    cases hr with
    | lastMargin hs => cases hl.symm.trans hs
    | emptyLine hs => cases hl.symm.trans hs
    | opens hs => cases hl.symm.trans hs
    | closes hs => cases hl.symm.trans hs
    | blank => exact List.cons_ne_nil _ _
    | token _ _ ht => exact ht.spells_text.1
  have hlength := List.length_pos_iff.2 hne
  rw [hr.offset_eq]
  omega

def refusal (s : Scan) (cause : Cause) (text rest : Text) : Halt :=
  ⟨⟨cause, s.cursor.place.behind text rest⟩, { s with cursor := s.cursor.past text rest }⟩

/-- A stop, told by the text that is read before it. -/
inductive Refuses (s : Scan) : Text → Halt → Prop
  | mixed {blanks : Text} {m x : Char} {rest : Text} (hl : s.lineStart = true)
      (hr : s.cursor.rest = blanks ++ x :: rest) (hb : ∀ c ∈ blanks, c = m)
      (hblank : ∀ c ∈ blanks, isBlank c = true) (hm : s.mark.or blanks.head? = some m)
      (hx : isBlank x = true) (hne : x ≠ m) :
      Refuses s blanks ⟨⟨.mixedIndentation, s.cursor.place.behind blanks (x :: rest)⟩,
        s.pastMargin blanks (x :: rest)⟩
  | unmatched {blanks : Text} {c : Char} {rest : Text} (hl : s.lineStart = true)
      (hm : s.HasMargin blanks (c :: rest)) (hc : isLineBreak c = false)
      (hd : blanks.length ≤ s.levels.headD 0)
      (hk : (s.levels.dropWhile (blanks.length < ·)).headD 0 ≠ blanks.length) :
      Refuses s blanks ⟨⟨.unmatchedDedent, s.cursor.place⟩,
        (s.pastMargin blanks (c :: rest)).closing blanks.length s.cursor.place⟩
  | broken {body value : Text} {c : Char} {rest : Text} (hl : s.lineStart = false)
      (hr : s.cursor.rest = '"' :: body ++ c :: rest) (hd : Decodes body value)
      (hc : isLineBreak c = true) :
      Refuses s ('"' :: body) (s.refusal .brokenString ('"' :: body) (c :: rest))
  | unterminated {t body value : Text} (hl : s.lineStart = false)
      (hr : s.cursor.rest = '"' :: t) (hd : Decodes body value)
      (ht : t = body ∨ t = body ++ ['\\']) :
      Refuses s ('"' :: t) (s.refusal .unterminatedString ('"' :: t) [])
  | bareBang {rest : Text} (hl : s.lineStart = false) (hr : s.cursor.rest = '!' :: rest)
      (hn : rest.head? ≠ some '=') : Refuses s [] (s.refusal .bareBang [] ('!' :: rest))
  | unexpected {c : Char} {rest : Text} (hl : s.lineStart = false) (hr : s.cursor.rest = c :: rest)
      (hp : ∀ more, Piece.read c more = .fault (.unexpected c) 0) :
      Refuses s [] (s.refusal (.unexpected c) [] (c :: rest))

theorem margin_of_mixed {m x : Char} (hr : s.cursor.rest = blanks ++ x :: rest)
    (hb : ∀ c ∈ blanks, c = m) (hblank : ∀ c ∈ blanks, isBlank c = true)
    (hm : s.mark.or blanks.head? = some m) (hx : isBlank x = true) (hne : x ≠ m) :
    s.margin.mixed = true ∧ s.behindMargin = s.pastMargin blanks (x :: rest) := by
  have hmargin : s.margin = ⟨some m, blanks.length, true⟩ := by
    unfold margin
    rw [hr]
    exact Margin.read_of_mixed hb hblank hm hx hne rest
  unfold behindMargin pastMargin
  rw [hmargin, hm, Cursor.past_eq_skip hr]
  exact ⟨rfl, rfl⟩

theorem refusal_eq (text : Text) (h : s.cursor.rest = text ++ rest) (cause : Cause) {width : Nat}
    (hw : text.length = width) :
    s.refusal cause text rest =
      ⟨⟨cause, (s.cursor.skip width).place⟩, { s with cursor := s.cursor.skip width }⟩ := by
  subst hw
  unfold refusal
  rw [Cursor.past_eq_skip h]
  rfl

theorem Stop.refuses {stopped : Halt} (h : s.Stop stopped) : ∃ text, s.Refuses text stopped := by
  cases h with
  | mixed hl hm =>
    obtain ⟨m, blanks, x, rest, hr, hb, hblank, hmark, hx, hne⟩ := Margin.exists_of_mixed hm
    obtain ⟨-, hs⟩ := margin_of_mixed hr hb hblank hmark hx hne
    refine ⟨blanks, ?_⟩
    rw [hs]
    exact .mixed hl hr hb hblank hmark hx hne
  | unmatched hl hm hr hc hd hk =>
    obtain ⟨blanks, hmargin⟩ := exists_hasMargin hm
    rw [hr] at hmargin
    rw [hmargin.depth_eq] at hd hk
    refine ⟨blanks, ?_⟩
    rw [hmargin.depth_eq, hmargin.behindMargin_eq]
    exact .unmatched hl hmargin hc hd hk
  | @piece c rest cause width hl hr hp =>
    have hpiece := pieceAt_read c rest
    rw [hp] at hpiece
    cases hpiece with
    | broken hc hread =>
      obtain ⟨body, value, x, tail, rfl, rfl, hx, hd⟩ := Literal.decodes_of_read_broken hread
      subst hc
      refine ⟨'"' :: body, ?_⟩
      rw [← refusal_eq ('"' :: body) hr .brokenString List.length_cons]
      exact .broken hl hr hd hx
    | unterminated hc hread =>
      obtain ⟨rfl, body, value, hd, ht⟩ := Literal.decodes_of_read_unterminated hread
      subst hc
      refine ⟨'"' :: rest, ?_⟩
      have hs : s.cursor.rest = '"' :: rest ++ [] := by rw [hr, List.append_nil]
      rw [← refusal_eq _ hs .unterminatedString List.length_cons]
      exact .unterminated hl hr hd ht
    | bareBang hc hn =>
      subst hc
      refine ⟨[], ?_⟩
      rw [← refusal_eq [] hr .bareBang List.length_nil]
      exact .bareBang hl hr (Kind.symbolAt?_bang.1 hn)
    | unexpected hc hn =>
      refine ⟨[], ?_⟩
      rw [← refusal_eq [] hr (.unexpected c) List.length_nil]
      exact .unexpected hl hr (Piece.read_unexpected hp)

namespace Refuses

variable {stopped : Halt}

theorem stop (h : s.Refuses text stopped) : s.Stop stopped := by
  cases h with
  | mixed hl hr hb hblank hmark hx hne =>
    obtain ⟨hm, hs⟩ := margin_of_mixed hr hb hblank hmark hx hne
    have hstop := Stop.mixed hl hm
    rw [hs] at hstop
    exact hstop
  | unmatched hl hm hc hd hk =>
    rw [← hm.behindMargin_eq, ← hm.depth_eq]
    rw [← hm.depth_eq] at hd hk
    exact .unmatched hl hm.not_mixed (by rw [hm.behindMargin_eq]; rfl) hc hd hk
  | @broken body value c rest hl hr hd hc =>
    rw [refusal_eq _ hr .brokenString rfl]
    refine .piece hl hr ?_
    rw [Piece.read_quote]
    exact congrArg Piece.ofLiteral (Literal.read_broken hd hc rest)
  | @unterminated t body value hl hr hd ht =>
    have hs : s.cursor.rest = '"' :: t ++ [] := by rw [hr, List.append_nil]
    rw [refusal_eq _ hs .unterminatedString rfl]
    refine .piece hl hr ?_
    rw [Piece.read_quote]
    exact congrArg Piece.ofLiteral (Literal.read_unterminated hd ht)
  | bareBang hl hr hn =>
    rw [refusal_eq [] hr .bareBang rfl]
    exact .piece hl hr (Piece.read_bang hn)
  | @unexpected c rest hl hr hp =>
    rw [refusal_eq [] hr (.unexpected c) rfl]
    exact .piece hl hr (hp rest)

theorem rest_eq (h : s.Refuses text stopped) :
    s.cursor.rest = text ++ stopped.scan.cursor.rest := by
  cases h with
  | mixed hl hr hb hblank hmark hx hne => exact hr
  | unmatched hl hm hc hd hk => exact hm.rest_eq
  | broken hl hr hd hc => exact hr
  | unterminated hl hr hd ht =>
    rw [hr]
    exact (List.append_nil _).symm
  | bareBang hl hr hn => exact hr
  | unexpected hl hr hp => exact hr

theorem offset_eq (h : s.Refuses text stopped) :
    stopped.scan.cursor.offset = s.cursor.offset + text.length := by
  cases h with
  | mixed => rfl
  | unmatched => rfl
  | broken => rfl
  | unterminated => rfl
  | bareBang => rfl
  | unexpected => rfl

theorem take_and_drop (h : s.Refuses text stopped) (hs : (start source).Reaches s) :
    source.take stopped.scan.cursor.offset = source.take s.cursor.offset ++ text ∧
      source.drop stopped.scan.cursor.offset = stopped.scan.cursor.rest := by
  have hin := cursor_in_of_reaches hs
  have hsource := hin.source_eq
  have hle := hin.offset_le
  rw [h.rest_eq, ← List.append_assoc] at hsource
  have hlen : stopped.scan.cursor.offset = (source.take s.cursor.offset ++ text).length := by
    rw [List.length_append, List.length_take_of_le hle, h.offset_eq]
  generalize source.take s.cursor.offset ++ text = front at hsource hlen
  rw [hsource, hlen, List.take_left, List.drop_left]
  exact ⟨rfl, rfl⟩

end Refuses
end Scan
end Offside
