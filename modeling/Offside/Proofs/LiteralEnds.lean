import Mathlib.Order.Bounds.Basic
import Offside.Proofs.CursorPlaces
import Offside.Proofs.Passage

/-! Where a string literal ends, told by counting: at the first quote or line break in front of
which an even number of backslashes stands. -/
namespace Offside

/-- No backslash escapes what stands at the offset: an even number of them stands right before it,
counted back to the opening quote at most. -/
structure Live (source : Text) (quote offset : Nat) : Prop where
  behind_quote : quote < offset
  even : backslashes ((source.take offset).drop (quote + 1)) % 2 = 0

def literalEnds (source : Text) (quote : Nat) : Set Nat :=
  {k | Live source quote k ∧ ∃ c, source[k]? = some c ∧ (c = '"' ∨ isLineBreak c = true)}

variable {source body value value' before behind t rest : Text} {c x : Char} {quote k : Nat}

namespace Decodes

theorem unique (h : Decodes body value) (h' : Decodes body value') : value = value' := by
  have hr := Literal.read_closed h []
  rw [Literal.read_closed h' []] at hr
  cases hr
  rfl

theorem odd_backslashes_escaped {e : Char} (he : '\\' :: e :: body = before ++ x :: behind)
    (hx : x ≠ '\\')
    (ih : ∀ before', body = before' ++ x :: behind → backslashes before' % 2 = 1) :
    backslashes before % 2 = 1 := by
  cases before with
  | nil =>
    cases he
    exact absurd rfl hx
  | cons y before =>
    cases before with
    | nil =>
      cases he
      rfl
    | cons z before =>
      obtain ⟨hy, htail⟩ := List.cons.inj he
      obtain ⟨-, hbody⟩ := List.cons.inj htail
      rw [← hy, backslashes_escaped]
      exact ih before hbody

/-- In a decoded body every quote and every line break is escaped. -/
theorem odd_backslashes (h : Decodes body value) (he : body = before ++ x :: behind)
    (hx : x = '"' ∨ isLineBreak x = true) : backslashes before % 2 = 1 := by
  have hbackslash : x ≠ '\\' := by
    rintro rfl
    rcases hx with hx | hx
    · cases hx
    · cases hx
  induction h generalizing before with
  | nil => simp at he
  | @plain c body value hc _ ih =>
    simp only [List.mem_cons, List.not_mem_nil, or_false, not_or] at hc
    cases before with
    | nil =>
      cases he
      rcases hx with rfl | hx
      · exact absurd rfl hc.2.1
      · rw [not_isLineBreak_iff.2 hc.2.2] at hx
        cases hx
    | cons y before =>
      obtain ⟨rfl, hbody⟩ := List.cons.inj he
      have hskip := backslashes_append_cons hc.1 [] before
      rw [List.nil_append] at hskip
      rw [hskip]
      exact ih hbody
  | lineFeed _ ih => exact odd_backslashes_escaped he hbackslash fun _ hb => ih hb
  | carriageReturn _ ih => exact odd_backslashes_escaped he hbackslash fun _ hb => ih hb
  | tab _ ih => exact odd_backslashes_escaped he hbackslash fun _ hb => ih hb
  | itself _ _ ih => exact odd_backslashes_escaped he hbackslash fun _ hb => ih hb

end Decodes

section Ends

theorem getElem?_behind_quote (hs : source.drop (quote + 1) = before ++ c :: behind) :
    source[quote + 1 + before.length]? = some c := by
  rw [← List.getElem?_drop, hs, List.getElem?_append_right (Nat.le_refl _), Nat.sub_self]
  rfl

theorem take_behind_quote (hs : source.drop (quote + 1) = before ++ behind) :
    (source.take (quote + 1 + before.length)).drop (quote + 1) = before := by
  rw [List.drop_take, hs, Nat.add_sub_cancel_left, List.take_left]

theorem mem_literalEnds_iff (hs : source.drop (quote + 1) = t) :
    k ∈ literalEnds source quote ↔
      ∃ before c behind, t = before ++ c :: behind ∧ k = quote + 1 + before.length ∧
        backslashes before % 2 = 0 ∧ (c = '"' ∨ isLineBreak c = true) := by
  constructor
  · rintro ⟨⟨hlt, heven⟩, c, hget, hc⟩
    obtain ⟨n, rfl⟩ : ∃ n, k = quote + 1 + n := ⟨k - (quote + 1), by omega⟩
    rw [← List.getElem?_drop, hs] at hget
    rw [List.drop_take, hs, Nat.add_sub_cancel_left] at heven
    obtain ⟨hn, hcn⟩ := List.getElem?_eq_some_iff.1 hget
    have hsplit : t = t.take n ++ c :: t.drop (n + 1) := by
      rw [← hcn, List.getElem_cons_drop, List.take_append_drop]
    have hlength : (t.take n).length = n := List.length_take_of_le (Nat.le_of_lt hn)
    exact ⟨t.take n, c, t.drop (n + 1), hsplit, by rw [hlength], heven, hc⟩
  · rintro ⟨before, c, behind, ht, rfl, heven, hc⟩
    rw [ht] at hs
    refine ⟨⟨by omega, ?_⟩, c, getElem?_behind_quote hs, hc⟩
    rw [take_behind_quote hs]
    exact heven

/-- What ends a decoded body is the first that can. -/
theorem isLeast_literalEnds (hs : source.drop (quote + 1) = body ++ c :: rest)
    (hd : Decodes body value) (hc : c = '"' ∨ isLineBreak c = true) :
    IsLeast (literalEnds source quote) (quote + 1 + body.length) := by
  constructor
  · exact (mem_literalEnds_iff hs).2 ⟨body, c, rest, rfl, rfl, hd.even_backslashes, hc⟩
  · intro k hk
    obtain ⟨before, x, behind, he, rfl, heven, hx⟩ := (mem_literalEnds_iff hs).1 hk
    by_contra hlt
    rcases List.append_eq_append_iff.1 he with ⟨more, rfl, -⟩ | ⟨inner, rfl, hinner⟩
    · simp only [List.length_append] at hlt
      omega
    · cases inner with
      | nil =>
        simp only [List.append_nil] at hlt
        omega
      | cons y inner =>
        obtain ⟨rfl, -⟩ := List.cons.inj hinner
        have hodd := hd.odd_backslashes rfl hx
        omega

theorem literalEnds_eq_empty (hs : source.drop (quote + 1) = t) (hd : Decodes body value)
    (ht : t = body ∨ t = body ++ ['\\']) : literalEnds source quote = ∅ := by
  rw [Set.eq_empty_iff_forall_notMem]
  intro k hk
  obtain ⟨before, x, behind, he, rfl, heven, hx⟩ := (mem_literalEnds_iff hs).1 hk
  have hodd : ∀ inner, body = before ++ x :: inner → False := by
    intro inner hbody
    have := hd.odd_backslashes hbody hx
    omega
  rcases ht with rfl | rfl
  · exact hodd behind he
  · rcases append_cons_of_concat he with ⟨-, rfl, -⟩ | ⟨inner, -, hbody⟩
    · rcases hx with hx | hx
      · cases hx
      · cases hx
    · exact hodd inner hbody

/-- The ways in which what stands behind an opening quote goes on. -/
inductive LiteralEnding (source : Text) (quote : Nat) : Text → Prop
  | closed {body value rest : Text} (hd : Decodes body value)
      (hleast : IsLeast (literalEnds source quote) (quote + 1 + body.length))
      (hget : source[quote + 1 + body.length]? = some '"') :
      LiteralEnding source quote (body ++ '"' :: rest)
  | broken {body value rest : Text} {c : Char} (hd : Decodes body value)
      (hc : isLineBreak c = true)
      (hleast : IsLeast (literalEnds source quote) (quote + 1 + body.length))
      (hget : source[quote + 1 + body.length]? = some c) :
      LiteralEnding source quote (body ++ c :: rest)
  | unterminated {body value t : Text} (hd : Decodes body value)
      (ht : t = body ∨ t = body ++ ['\\'])
      (hempty : literalEnds source quote = ∅) : LiteralEnding source quote t

theorem literalEnding (hs : source.drop (quote + 1) = t) : LiteralEnding source quote t := by
  cases hread : Literal.read t with
  | closed value width =>
    obtain ⟨body, rest, rfl, -, hd⟩ := Literal.decodes_of_read hread
    exact .closed hd (isLeast_literalEnds hs hd (.inl rfl)) (getElem?_behind_quote hs)
  | broken width =>
    obtain ⟨body, value, c, rest, rfl, -, hc, hd⟩ := Literal.decodes_of_read_broken hread
    exact .broken hd hc (isLeast_literalEnds hs hd (.inr hc)) (getElem?_behind_quote hs)
  | unterminated width =>
    obtain ⟨-, body, value, hd, ht⟩ := Literal.decodes_of_read_unterminated hread
    exact .unterminated hd ht (literalEnds_eq_empty hs hd ht)

namespace LiteralEnding

theorem not_isLeast (h : literalEnds source quote = ∅) :
    ¬ IsLeast (literalEnds source quote) k := by
  intro hk
  have hmem := hk.1
  rw [h] at hmem
  cases hmem

theorem closed_of_quote (h : LiteralEnding source quote t)
    (hk : IsLeast (literalEnds source quote) k) (hq : source[k]? = some '"') :
    ∃ body value rest, t = body ++ '"' :: rest ∧ Decodes body value ∧
      k = quote + 1 + body.length := by
  cases h with
  | closed hd hleast => exact ⟨_, _, _, rfl, hd, hk.unique hleast⟩
  | broken hd hc hleast hget =>
    rw [hk.unique hleast, hget] at hq
    cases hq
    cases hc
  | unterminated _ _ hempty => exact absurd hk (not_isLeast hempty)

theorem broken_of_lineBreak (h : LiteralEnding source quote t)
    (hk : IsLeast (literalEnds source quote) k)
    (hb : source[k]? = some '\n' ∨ source[k]? = some '\r') :
    ∃ body value c rest, t = body ++ c :: rest ∧ isLineBreak c = true ∧ Decodes body value ∧
      k = quote + 1 + body.length := by
  cases h with
  | closed hd hleast hget =>
    rw [hk.unique hleast, hget] at hb
    simp at hb
  | broken hd hc hleast => exact ⟨_, _, _, _, rfl, hc, hd, hk.unique hleast⟩
  | unterminated _ _ hempty => exact absurd hk (not_isLeast hempty)

theorem unterminated_of_empty (h : LiteralEnding source quote t)
    (hempty : literalEnds source quote = ∅) :
    ∃ body value, Decodes body value ∧ (t = body ∨ t = body ++ ['\\']) := by
  cases h with
  | closed _ hleast => exact absurd hleast (not_isLeast hempty)
  | broken _ _ hleast => exact absurd hleast (not_isLeast hempty)
  | unterminated hd ht => exact ⟨_, _, hd, ht⟩

end LiteralEnding

end Ends

namespace Scan

variable {s : Scan} {text : Text}

theorem rest_of_quote (h : s.cursor.In source) (hq : source[s.cursor.offset]? = some '"') :
    s.cursor.rest = '"' :: source.drop (s.cursor.offset + 1) := by
  obtain ⟨hlt, hget⟩ := List.getElem?_eq_some_iff.1 hq
  rw [h.rest_eq, ← hget, List.getElem_cons_drop]

theorem scan_eq_of_refusal {cause : Cause} (h : (start source).Reaches s)
    (hr : s.Refuses text (s.refusal cause text rest)) :
    scan source = .error ⟨cause, .at source (s.cursor.offset + text.length)⟩ := by
  have hplace := (hr.stop.cursor_in (cursor_in_of_reaches h)).place_eq
  rw [scan_eq_error_iff]
  refine ⟨s, _, h, hr.stop, ?_⟩
  rw [← hr.offset_eq, ← hplace]
  rfl

theorem exists_moves_of_literal (h : s.cursor.In source) (hl : s.lineStart = false)
    (hr : s.cursor.rest = '"' :: (body ++ '"' :: rest)) (hd : Decodes body value) :
    ∃ t, s.Moves t ∧ t.cursor.In source ∧
      t.cursor.offset = s.cursor.offset + 1 + body.length + 1 ∧
      t = { s with
        cursor := t.cursor
        output := ⟨.string, value, .at source s.cursor.offset⟩ :: s.output } := by
  have htext : s.cursor.rest = ('"' :: body ++ ['"']) ++ rest := by
    rw [hr, List.append_assoc]
    rfl
  have hlength : ('"' :: body ++ ['"']).length = body.length + 1 + 1 := by simp
  have htoken : TokenAt (('"' :: body ++ ['"']) ++ rest) .string value
      ('"' :: body ++ ['"']).length := by
    rw [List.append_assoc, List.singleton_append, List.cons_append, hlength]
    exact .string (Literal.read_closed hd rest)
  have hreads := Reads.token hl htext htoken
  have hcursor := Cursor.past_eq_skip htext
  refine ⟨_, hreads.advance.moves, ?_, ?_, ?_⟩
  · change (s.cursor.past ('"' :: body ++ ['"']) rest).In source
    rw [← hcursor]
    exact h.skip _
  · change s.cursor.offset + ('"' :: body ++ ['"']).length = _
    omega
  · unfold pastToken
    rw [← h.place_eq, hl]
    rfl

end Scan

open Scan in
/-- A literal ends where its backslashes say: if the first live quote or line break behind its
opening quote is a quote, the literal is one token, whose value is what stands between the quotes,
decoded, and the scan goes on behind the quote. If it is a line break, the scan fails there; if
there is none, it fails at the end of the source. -/
theorem literal_ends {source : Text} {s : Scan} (h : (start source).Reaches s)
    (hl : s.lineStart = false) (hq : source[s.cursor.offset]? = some '"') :
    (∀ k, IsLeast (literalEnds source s.cursor.offset) k → source[k]? = some '"' →
      ∃ t value, s.Moves t ∧
        (∀ v, Decodes ((source.take k).drop (s.cursor.offset + 1)) v ↔ v = value) ∧
        t.cursor.In source ∧ t.cursor.offset = k + 1 ∧
        t = { s with
          cursor := t.cursor
          output := ⟨.string, value, .at source s.cursor.offset⟩ :: s.output } ∧
        ∀ tokens, scan source = .ok tokens →
          s.tokens ++ [⟨.string, value, .at source s.cursor.offset⟩] <+: tokens) ∧
    (∀ k, IsLeast (literalEnds source s.cursor.offset) k →
      source[k]? = some '\n' ∨ source[k]? = some '\r' →
      scan source = .error ⟨.brokenString, .at source k⟩) ∧
    (literalEnds source s.cursor.offset = ∅ →
      scan source = .error ⟨.unterminatedString, .at source source.length⟩) := by
  have hin := cursor_in_of_reaches h
  have hrest := rest_of_quote hin hq
  generalize hu : source.drop (s.cursor.offset + 1) = u at hrest
  -- How the text behind the quote goes on settles which of the three cases holds.
  have hending := literalEnding hu
  refine ⟨fun k hk hquote => ?_, fun k hk hbreak => ?_, fun hempty => ?_⟩
  · obtain ⟨body, value, rest, rfl, hd, rfl⟩ := hending.closed_of_quote hk hquote
    obtain ⟨t, hmoves, hcursor, hoffset, ht⟩ := exists_moves_of_literal hin hl hrest hd
    refine ⟨t, value, hmoves, fun v => ?_, hcursor, hoffset, ht, fun tokens hscan => ?_⟩
    · rw [take_behind_quote hu]
      constructor
      · exact fun hv => hv.unique hd
      · rintro rfl
        exact hd
    · have hprefix := (h.tail hmoves).prefix_of_scan hscan
      rw [ht] at hprefix
      rwa [Scan.tokens, List.reverse_cons] at hprefix
  · obtain ⟨body, value, c, rest, rfl, hc, hd, rfl⟩ := hending.broken_of_lineBreak hk hbreak
    rw [scan_eq_of_refusal h (.broken hl hrest hd hc), List.length_cons, Nat.add_right_comm,
      Nat.add_assoc]
  · obtain ⟨body, value, hd, ht⟩ := hending.unterminated_of_empty hempty
    have hr := Refuses.unterminated hl hrest hd ht
    have hend : s.cursor.offset + ('"' :: u).length = source.length := by
      have hoffset := offset_of_rest_eq_nil (hr.stop.cursor_in hin) rfl
      rwa [hr.offset_eq] at hoffset
    rw [scan_eq_of_refusal h hr, hend]

open Scan in
/-- An escaped backslash in front of an escaped quote, a line break of which only one half is
escaped, and a backslash at the end of the input. -/
theorem literal_ends_of_backslashes :
    let closed := "\"\\\\\\\"\"".toList
    let broken := "\"\\\r\n\"".toList
    let unterminated := "\"a\\".toList
    (∃ s t, (start closed).Reaches s ∧ s.Moves t ∧ IsLeast (literalEnds closed 0) 5 ∧
      t.cursor.offset = 6 ∧ t.output = [⟨.string, ['\\', '"'], ⟨1, 1⟩⟩]) ∧
    (IsLeast (literalEnds broken 0) 3 ∧ scan broken = .error ⟨.brokenString, ⟨1, 4⟩⟩) ∧
    literalEnds unterminated 0 = ∅ ∧
      scan unterminated = .error ⟨.unterminatedString, ⟨1, 4⟩⟩ := by
  intro closed broken unterminated
  have henter : ∀ source ∈ [closed, broken, unterminated],
      (start source).Moves { start source with lineStart := false } := by
    have hall : ∀ source ∈ [closed, broken, unterminated], source ≠ [] ∧
        (start source).step = .ok { start source with lineStart := false } := by
      decide +kernel
    exact fun source hs => hall source hs
  have hreach : ∀ source ∈ [closed, broken, unterminated],
      (start source).Reaches { start source with lineStart := false } :=
    fun source hs => (Reaches.refl _).tail (henter source hs)
  refine ⟨?_, ?_, ?_⟩
  · have hs := hreach closed (by simp)
    have hd : Decodes ['\\', '\\', '\\', '"'] ['\\', '"'] :=
      .itself (by decide) (.itself (by decide) .nil)
    have hbody : closed.drop 1 = ['\\', '\\', '\\', '"'] ++ '"' :: [] := rfl
    have hleast : IsLeast (literalEnds closed 0) 5 := isLeast_literalEnds hbody hd (.inl rfl)
    obtain ⟨t, value, hmoves, hvalue, -, hoffset, ht, -⟩ :=
      (literal_ends hs rfl rfl).1 5 hleast rfl
    have hv : ['\\', '"'] = value := (hvalue _).1 hd
    have hplace : Position.at closed 0 = ⟨1, 1⟩ := by decide +kernel
    refine ⟨_, t, hs, hmoves, hleast, hoffset, ?_⟩
    rw [ht, ← hv, ← hplace]
    rfl
  · have hs := hreach broken (by simp)
    have hd : Decodes ['\\', '\r'] ['\r'] := .itself (by decide) .nil
    have hbody : broken.drop 1 = ['\\', '\r'] ++ '\n' :: ['"'] := rfl
    have hleast : IsLeast (literalEnds broken 0) 3 := isLeast_literalEnds hbody hd (.inr rfl)
    have hplace : Position.at broken 3 = ⟨1, 4⟩ := by decide +kernel
    rw [← hplace]
    exact ⟨hleast, (literal_ends hs rfl rfl).2.1 3 hleast (.inl rfl)⟩
  · have hs := hreach unterminated (by simp)
    have hd : Decodes ['a'] ['a'] := .plain (by decide) .nil
    have hempty : literalEnds unterminated 0 = ∅ := literalEnds_eq_empty rfl hd (.inr rfl)
    have hplace : Position.at unterminated unterminated.length = ⟨1, 4⟩ := by decide +kernel
    rw [← hplace]
    exact ⟨hempty, (literal_ends hs rfl rfl).2.2 hempty⟩

end Offside
