import Offside.Proofs.Lists
import Offside.Proofs.Place
import Offside.Proofs.Spelling

/-! Every code point of a scanned source is a blank between tokens or belongs to the text of one
token, and every token is found where it says. -/
namespace Offside

/-- A part of a source: a blank that is skipped, or the text that a token is read from. -/
inductive Tile where
  | blank (c : Char)
  | span (token : Token) (text : Text)

namespace Tile

def text : Tile → Text
  | blank c => [c]
  | span _ text => text

def token? : Tile → Option Token
  | blank _ => none
  | span token _ => some token

def join (tiles : List Tile) : Text := tiles.flatMap text

end Tile

/-- Layout, the end of the input and the end of a line without a line break have no text. -/
def Token.hasSpan (t : Token) : Bool :=
  t.kind ∉ [.indent, .dedent, .eof] && (t.kind != .newline || t.lexeme != [])

/-- The tiles make up the source but for its rest, and hold the tokens that have a text. -/
structure Tiling (source : Text) (tiles : List Tile) (tokens : List Token)
    (rest : Text) : Prop where
  join_eq : Tile.join tiles ++ rest = source
  blanks : ∀ c, .blank c ∈ tiles → c = ' ' ∨ c = '\t'
  tokens_eq : tiles.filterMap Tile.token? = tokens.filter Token.hasSpan
  spans : ∀ before token text behind, tiles = before ++ .span token text :: behind →
    text ≠ [] ∧ Spells token.kind token.lexeme text ∧
      token.place = .at source (Tile.join before).length

theorem Spells.hasSpan {token : Token} {text : Text}
    (h : Spells token.kind token.lexeme text) (hne : text ≠ []) : token.hasSpan = true := by
  obtain ⟨kind, lexeme, place⟩ := token
  dsimp only at h
  cases h with
  | verbatim hk =>
    simp only [List.mem_cons, List.not_mem_nil, or_false, not_or] at hk
    simp [Token.hasSpan, hk, hne]
  | comment => rfl
  | string => rfl

namespace Tiling

variable {source rest text : Text} {tiles : List Tile} {tokens : List Token}

theorem nil (source : Text) : Tiling source [] [] source where
  join_eq := rfl
  blanks := by simp
  tokens_eq := rfl
  spans := by simp

theorem addBlank {c : Char} (h : Tiling source tiles tokens (c :: rest))
    (hc : isBlank c = true) : Tiling source (tiles ++ [.blank c]) tokens rest where
  join_eq := by
    rw [← h.join_eq]
    simp [Tile.join, Tile.text]
  blanks := by
    intro x hx
    rcases List.mem_append.1 hx with hx | hx
    · exact h.blanks x hx
    · cases List.mem_singleton.1 hx
      exact isBlank_iff.1 hc
  tokens_eq := by
    rw [List.filterMap_append, h.tokens_eq]
    simp [Tile.token?]
  spans := by
    intro before token text behind he
    rcases append_cons_of_concat he with ⟨-, hspan, -⟩ | ⟨tail, -, ht⟩
    · cases hspan
    · exact h.spans before token text tail ht

theorem addBlanks {blanks : Text} (h : Tiling source tiles tokens (blanks ++ rest))
    (hb : ∀ c ∈ blanks, isBlank c = true) : ∃ more, Tiling source more tokens rest := by
  induction blanks generalizing tiles with
  | nil => exact ⟨tiles, h⟩
  | cons c blanks ih =>
    exact ih (h.addBlank (hb c (by simp))) fun x hx => hb x (by simp [hx])

theorem addToken {token : Token} (h : Tiling source tiles tokens (text ++ rest))
    (hne : text ≠ []) (hs : Spells token.kind token.lexeme text)
    (hp : token.place = .at source (Tile.join tiles).length) :
    Tiling source (tiles ++ [.span token text]) (tokens ++ [token]) rest where
  join_eq := by
    rw [← h.join_eq]
    simp [Tile.join, Tile.text]
  blanks := by
    intro x hx
    rcases List.mem_append.1 hx with hx | hx
    · exact h.blanks x hx
    · cases List.mem_singleton.1 hx
  tokens_eq := by
    rw [List.filterMap_append, List.filter_append, h.tokens_eq]
    simp [Tile.token?, hs.hasSpan hne]
  spans := by
    intro before other written behind he
    rcases append_cons_of_concat he with ⟨hb, hspan, -⟩ | ⟨tail, -, ht⟩
    · cases hspan
      rw [hb]
      exact ⟨hne, hs, hp⟩
    · exact h.spans before other written tail ht

theorem addLayout {layout : List Token} (h : Tiling source tiles tokens rest)
    (hl : ∀ token ∈ layout, token.hasSpan = false) :
    Tiling source tiles (tokens ++ layout) rest where
  join_eq := h.join_eq
  blanks := h.blanks
  tokens_eq := by
    have hn : layout.filter Token.hasSpan = [] := by
      simpa [List.filter_eq_nil_iff] using hl
    rw [List.filter_append, hn, List.append_nil]
    exact h.tokens_eq
  spans := h.spans

theorem exists_span_iff {token : Token} (h : Tiling source tiles tokens rest) :
    (∃ text, .span token text ∈ tiles) ↔ token ∈ tokens ∧ token.hasSpan = true := by
  rw [← List.mem_filter, ← h.tokens_eq, List.mem_filterMap]
  constructor
  · intro ⟨text, hmem⟩
    exact ⟨_, hmem, rfl⟩
  · intro ⟨tile, hmem, ht⟩
    cases tile with
    | blank => cases ht
    | span other text =>
      cases ht
      exact ⟨text, hmem⟩

theorem length_join {c : Cursor} (h : Tiling source tiles tokens c.rest) (hc : c.In source) :
    (Tile.join tiles).length = c.offset := by
  have hj := congrArg List.length h.join_eq
  have hr := congrArg List.length hc.rest_eq
  have hle := hc.offset_le
  rw [List.length_append] at hj
  rw [List.length_drop] at hr
  omega

end Tiling

namespace Scan

variable {s t : Scan} {source : Text}

theorem tiling_behindMargin {tiles : List Tile}
    (h : Tiling source tiles s.tokens s.cursor.rest) :
    ∃ more, Tiling source more s.tokens s.behindMargin.cursor.rest := by
  rw [rest_behindMargin]
  rw [← List.take_append_drop s.margin.depth s.cursor.rest] at h
  exact h.addBlanks fun c hc => Margin.isBlank_of_mem_take hc

theorem tiling_accept {tiles : List Tile} {text rest lexeme : Text} {kind : Kind}
    (hc : s.cursor.In source) (h : Tiling source tiles s.tokens s.cursor.rest)
    (hr : s.cursor.rest = text ++ rest) (hne : text ≠ []) (hs : Spells kind lexeme text) :
    ∃ more, Tiling source more (s.accept kind lexeme text.length).tokens
      (s.accept kind lexeme text.length).cursor.rest := by
  have hd : (s.accept kind lexeme text.length).cursor.rest = rest := by
    simp [accept, hr]
  have hp : s.cursor.place = .at source (Tile.join tiles).length := by
    rw [h.length_join hc, hc.place_eq]
  rw [hd, tokens_accept]
  rw [hr] at h
  exact ⟨_, h.addToken hne hs hp⟩

theorem Advance.tiling {tiles : List Tile} (ha : s.Advance t) (hc : s.cursor.In source)
    (h : Tiling source tiles s.tokens s.cursor.rest) :
    ∃ more, Tiling source more t.tokens t.cursor.rest := by
  cases ha with
  | lastMargin hb hl hm hr =>
    obtain ⟨more, hmore⟩ := tiling_behindMargin h
    refine ⟨more, ?_⟩
    change Tiling source more (s.behindMargin.emit .newline).tokens s.behindMargin.cursor.rest
    rw [tokens_emit]
    exact hmore.addLayout (by simp [Token.hasSpan])
  | @emptyLine c rest hl hm hr hb =>
    obtain ⟨more, hmore⟩ := tiling_behindMargin h
    obtain ⟨tail, ht⟩ := lineBreakAt_append c rest
    exact tiling_accept (hc.skip _) hmore (hr.trans ht) (lineBreakAt_ne_nil c rest)
      (.verbatim (by decide))
  | opens hl hm hr hb hd =>
    obtain ⟨more, hmore⟩ := tiling_behindMargin h
    refine ⟨more, ?_⟩
    rw [tokens_opening]
    exact hmore.addLayout (by simp [Token.hasSpan])
  | closes hl hm hr hb hd hk =>
    obtain ⟨more, hmore⟩ := tiling_behindMargin h
    refine ⟨more, ?_⟩
    rw [tokens_closing]
    refine hmore.addLayout fun token ht => ?_
    rw [List.eq_of_mem_replicate ht]
    rfl
  | @blank c rest hl hr hp =>
    have hb : isBlank c = true := Piece.isBlank_of_read hp
    rw [hr] at h
    have hn : s.cursor.next.rest = rest := by rw [Cursor.rest_next, hr, List.tail_cons]
    exact ⟨_, hn ▸ h.addBlank hb⟩
  | @token c rest kind lexeme width hl hr hp =>
    obtain ⟨text, tail, ht, rfl, hne, hs⟩ := (tokenAt_of_read hp).spells
    exact tiling_accept hc h (hr.trans ht) hne hs

theorem exists_tiling_of_reaches (h : (start source).Reaches s) :
    s.cursor.In source ∧ ∃ tiles, Tiling source tiles s.tokens s.cursor.rest := by
  refine h.preserves (P := fun s => s.cursor.In source ∧
    ∃ tiles, Tiling source tiles s.tokens s.cursor.rest) ?_ ?_
  · rintro s t ha ⟨hc, tiles, ht⟩
    obtain ⟨n, hn⟩ := ha.exists_skip
    exact ⟨hn ▸ hc.skip n, ha.tiling hc ht⟩
  · exact ⟨Cursor.in_start source, [], .nil source⟩

theorem exists_ending (s : Scan) : ∃ ending, s.finish.tokens = s.tokens ++ ending ∧
    ∀ token ∈ ending, token.hasSpan = false := by
  have htokens := s.tokens_finish
  rw [List.append_assoc, List.append_assoc] at htokens
  refine ⟨_, htokens, fun token ht => ?_⟩
  simp only [List.mem_append, List.mem_replicate, List.mem_singleton] at ht
  rcases ht with ht | ⟨-, rfl⟩ | rfl
  · split at ht
    · cases ht
    · rw [List.mem_singleton.1 ht]
      rfl
  · rfl
  · rfl

theorem tiling_finish {tiles : List Tile} (h : Tiling source tiles s.tokens s.cursor.rest) :
    Tiling source tiles s.finish.tokens s.cursor.rest := by
  obtain ⟨ending, htokens, hending⟩ := s.exists_ending
  rw [htokens]
  exact h.addLayout hending

end Scan

/-- Lossless tiling: a scanned source is cut, without loss or overlap, into single blanks and the
texts of its tokens, in the order of the tokens. Each text is what its token is written as, and
stands at the place that the token gives. -/
theorem scan_tiling {source : Text} {tokens : List Token} (h : scan source = .ok tokens) :
    ∃ tiles : List Tile,
      tiles.flatMap Tile.text = source ∧
      (∀ c, .blank c ∈ tiles → c = ' ' ∨ c = '\t') ∧
      tiles.filterMap Tile.token? = tokens.filter Token.hasSpan ∧
      ∀ before token text behind, tiles = before ++ .span token text :: behind →
        text ≠ [] ∧ Spells token.kind token.lexeme text ∧
          token.place = .at source (before.flatMap Tile.text).length := by
  obtain ⟨s, hs, hr, rfl⟩ := scan_eq_ok_iff.1 h
  obtain ⟨-, tiles, ht⟩ := Scan.exists_tiling_of_reaches hs
  have hf := Scan.tiling_finish ht
  rw [hr] at hf
  refine ⟨tiles, ?_, hf.blanks, hf.tokens_eq, hf.spans⟩
  simpa [Tile.join] using hf.join_eq

/-- A quote within a literal, a line break of two characters, a margin and an empty comment. -/
theorem scan_tiling_of_quote_and_crlf :
    let source := "x=\"\\\"\"\r\n\t#".toList
    let tokens : List Token := [
      ⟨.identifier, ['x'], ⟨1, 1⟩⟩, ⟨.assign, ['='], ⟨1, 2⟩⟩, ⟨.string, ['"'], ⟨1, 3⟩⟩,
      ⟨.newline, ['\r', '\n'], ⟨1, 7⟩⟩, ⟨.indent, [], ⟨2, 1⟩⟩, ⟨.comment, [], ⟨2, 2⟩⟩,
      ⟨.newline, [], ⟨2, 3⟩⟩, ⟨.dedent, [], ⟨2, 3⟩⟩, ⟨.eof, [], ⟨2, 3⟩⟩]
    scan source = .ok tokens ∧
      ∃ tiles : List Tile,
        tiles.flatMap Tile.text = source ∧
        (∀ c, .blank c ∈ tiles → c = ' ' ∨ c = '\t') ∧
        tiles.filterMap Tile.token? = tokens.filter Token.hasSpan ∧
        ∀ before token text behind, tiles = before ++ .span token text :: behind →
          text ≠ [] ∧ Spells token.kind token.lexeme text ∧
            token.place = .at source (before.flatMap Tile.text).length := by
  intro source tokens
  have h : scan source = .ok tokens := by decide +kernel
  exact ⟨h, scan_tiling h⟩

end Offside
