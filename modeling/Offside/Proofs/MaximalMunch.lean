import Offside.Proofs.Grammar
import Offside.Proofs.Passage
import Offside.Proofs.PrintedTokens
import Offside.Proofs.Tiling

/-! Each token takes the longest text that any token could take where it begins; what may not
stand behind a token follows from that. -/
namespace Offside

def IsTokenText (t : Text) : Prop :=
  Grammar.IsLineEnd t ∨ ∃ kind lexeme, Content kind lexeme ∧ Spells kind lexeme t

def Kind.isWord (k : Kind) : Bool :=
  k == .identifier || k == .boolean || k.family? == some .keyword || k.family? == some .typeName

def Kind.pairs : List (Text × Kind) := [
  (['=', '='], .eq), (['!', '='], .neq), (['<', '='], .le), (['>', '='], .ge)]

/-- How a token is cut out of a source: the text it is read from, and the text behind it. -/
structure Munched (token : Token) (text rest : Text) : Prop where
  spells : Spells token.kind token.lexeme text
  /-- No longer text that begins with the token's is that of any token. -/
  longest : ∀ longer, longer <+: text ++ rest → IsTokenText longer → longer.length ≤ text.length
  word : token.kind.isWord = true → ∀ x, rest.head? = some x → continuesWord x = false
  /-- A word is of the kind that its spelling is reserved for, or else a name. -/
  kind_of_word : token.kind.isWord = true →
    (token.lexeme, token.kind) ∈ Kind.words ∨
      token.kind = .identifier ∧ ∀ entry ∈ Kind.words, entry.1 ≠ token.lexeme
  digit : token.kind = .number → ∀ x, rest.head? = some x → Unicode.isDecimalDigit x = false
  point : token.kind = .number → rest.head? = some '.' → '.' ∈ token.lexeme
  single : token.kind ∈ [.assign, .lt, .gt] → rest.head? ≠ some '='
  pair : ∀ entry ∈ Kind.pairs, token.kind = entry.2 ↔ entry.1 <+: text ++ rest
  comment : token.kind = .comment → ∀ x, rest.head? = some x → isLineBreak x = true
  lineBreak : token.kind = .newline → token.lexeme = ['\r'] → rest.head? ≠ some '\n'

variable {c x : Char} {t text rest lexeme lexeme' longer : Text} {kind kind' : Kind}
  {width width' : Nat}

section TokenText

theorem IsWord.isTokenText (h : IsWord t) : IsTokenText t := by
  have hs : Spells (.ofWord t) t t := .of_not_mem (Kind.ofWord_not_mem t)
  exact .inr ⟨_, t, content_ofWord h, hs⟩

theorem IsNumeral.isTokenText (h : IsNumeral t) : IsTokenText t :=
  .inr ⟨.number, t, .number h, .verbatim (by decide)⟩

theorem isTokenText_symbol {entry : Text × Kind} (h : entry ∈ Kind.symbols) :
    IsTokenText entry.1 :=
  .inr ⟨entry.2, entry.1, .symbol h, .of_not_mem (Kind.kinds_of_symbols entry h)⟩

theorem Spells.eq_of_not_mem (h : Spells kind lexeme text)
    (hk : kind ∉ [.indent, .dedent, .newline, .eof, .comment, .string]) : text = lexeme := by
  cases h with
  | verbatim => rfl
  | comment => simp at hk
  | string => simp at hk

theorem IsWord.exists_tokenAt (h : IsWord t) (rest : Text) :
    ∃ kind lexeme width, TokenAt (t ++ rest) kind lexeme width ∧ t.length ≤ width := by
  obtain ⟨c, tail, rfl, hc, ht⟩ := h
  have hrun : (tail ++ rest).takeWhile continuesWord = tail ++ rest.takeWhile continuesWord :=
    List.takeWhile_append_of_pos ht
  have hword : TokenAt (c :: tail ++ rest) _ (c :: (tail ++ rest).takeWhile continuesWord) _ :=
    .word hc rfl
  refine ⟨_, _, _, hword, ?_⟩
  rw [hrun, List.length_cons, List.length_cons, List.length_append]
  omega

theorem IsNumeral.length_le_numeral (h : IsNumeral t) (rest : Text) :
    t.length ≤ (numeral (t ++ rest)).length := by
  obtain ⟨whole, -, hw, rfl | ⟨part, rfl, hp⟩⟩ := h
  · have hrun : (t ++ rest).takeWhile Unicode.isDecimalDigit =
        t ++ rest.takeWhile Unicode.isDecimalDigit := List.takeWhile_append_of_pos hw
    unfold numeral
    dsimp only
    rw [hrun]
    split
    · simp only [List.length_append]
      omega
    · simp only [List.length_append]
      omega
  · have ht := takeWhile_append_cons hw isDecimalDigit_point (part ++ rest)
    have hd := dropWhile_append_cons hw isDecimalDigit_point (part ++ rest)
    have hrun : (part ++ rest).takeWhile Unicode.isDecimalDigit =
        part ++ rest.takeWhile Unicode.isDecimalDigit := List.takeWhile_append_of_pos hp
    unfold numeral
    rw [List.append_assoc, List.cons_append, ht, hd]
    show _ ≤ (whole ++ '.' :: (part ++ rest).takeWhile Unicode.isDecimalDigit).length
    rw [hrun]
    simp only [List.length_append, List.length_cons]
    omega

theorem IsNumeral.exists_tokenAt (h : IsNumeral t) (rest : Text) :
    ∃ kind lexeme width, TokenAt (t ++ rest) kind lexeme width ∧ t.length ≤ width := by
  have hle := h.length_le_numeral rest
  obtain ⟨whole, hne, hw, he⟩ := h
  obtain ⟨c, digits, rfl⟩ := List.exists_cons_of_ne_nil hne
  have hc := hw c List.mem_cons_self
  obtain ⟨tail, rfl⟩ : ∃ tail, t = c :: tail := by
    rcases he with rfl | ⟨part, rfl, -⟩
    · exact ⟨digits, rfl⟩
    · exact ⟨digits ++ '.' :: part, rfl⟩
  rw [List.cons_append, numeral_cons hc] at hle
  exact ⟨_, _, _, .number hc rfl, hle⟩

/-- A symbol of two characters is found before those of one. -/
theorem symbolAt?_pair {entry : Text × Kind} (he : entry ∈ Kind.pairs) (rest : Text) :
    Kind.symbolAt? (entry.1 ++ rest) = some entry := by
  have hall : ∀ entry ∈ Kind.pairs, entry.1.length = 2 ∧ Kind.symbolAt? entry.1 = some entry := by
    decide
  obtain ⟨hlength, hfound⟩ := hall entry he
  rw [Kind.symbolAt?_take, ← hlength, List.take_left]
  exact hfound

theorem exists_tokenAt_symbol {entry : Text × Kind} (he : entry ∈ Kind.symbols) (rest : Text) :
    ∃ kind lexeme width, TokenAt (entry.1 ++ rest) kind lexeme width ∧
      entry.1.length ≤ width := by
  have hone : ∀ entry ∈ Kind.symbols, entry ∈ Kind.pairs ∨ entry.1.length = 1 := by decide
  obtain ⟨c, tail, ht⟩ := List.exists_cons_of_ne_nil (Kind.symbols_ne_nil entry he)
  have hprefix : entry.1.isPrefixOf (entry.1 ++ rest) = true :=
    List.isPrefixOf_iff_prefix.2 (List.prefix_append entry.1 rest)
  cases hs : Kind.symbolAt? (entry.1 ++ rest) with
  | none => exact absurd hprefix (List.find?_eq_none.1 hs entry he)
  | some found =>
    have hle : entry.1.length ≤ found.1.length := by
      rcases hone entry he with hp | hl
      · have hsame := hs.symm.trans (symbolAt?_pair hp rest)
        rw [Option.some.inj hsame]
      · have hne := (Kind.exists_of_symbolAt? hs).1
        have hpos := List.length_pos_iff.2 hne
        omega
    rw [ht, List.cons_append] at hs ⊢
    rw [ht] at hle
    exact ⟨_, _, _, .symbol hs, hle⟩

theorem IsTokenText.exists_tokenAt (h : IsTokenText t) (rest : Text) :
    ∃ kind lexeme width, TokenAt (t ++ rest) kind lexeme width ∧ t.length ≤ width := by
  rcases h with (rfl | rfl | rfl) | ⟨kind, lexeme, hc, hs⟩
  · exact ⟨_, _, _, .lineBreak rfl, Nat.le_refl 1⟩
  · exact ⟨_, _, _, .lineBreak rfl, Nat.le_refl 2⟩
  -- A carriage return may go on with a line feed, so that only the length is known.
  · have hpos := List.length_pos_iff.2 (lineBreakAt_ne_nil '\r' rest)
    exact ⟨_, _, _, .lineBreak rfl, hpos⟩
  cases hc with
  | string =>
    cases hs with
    | verbatim hk => simp at hk
    | @string body _ hd =>
      have hr := Literal.read_closed hd rest
      rw [List.append_assoc, List.singleton_append, List.cons_append]
      exact ⟨_, _, _, .string hr, by simp⟩
  | comment hb =>
    cases hs with
    | verbatim hk => simp at hk
    | comment =>
      have hrun : (lexeme ++ rest).takeWhile (!isLineBreak ·) =
          lexeme ++ rest.takeWhile (!isLineBreak ·) :=
        List.takeWhile_append_of_pos fun x hx => by simp [hb x hx]
      have hcomment : TokenAt ('#' :: (lexeme ++ rest)) .comment
          ((lexeme ++ rest).takeWhile (!isLineBreak ·)) _ := .comment rfl
      refine ⟨_, _, _, hcomment, ?_⟩
      rw [hrun, List.length_cons, List.length_append]
      omega
  | number hn =>
    rw [hs.eq_of_not_mem (by decide)]
    exact hn.exists_tokenAt rest
  | identifier hw =>
    rw [hs.eq_of_not_mem (by decide)]
    exact hw.exists_tokenAt rest
  | reserved hw =>
    rw [hs.eq_of_not_mem (Kind.kinds_of_words _ hw)]
    exact (isWord_of_mem_words _ hw).exists_tokenAt rest
  | symbol he =>
    rw [hs.eq_of_not_mem (Kind.kinds_of_symbols _ he)]
    exact exists_tokenAt_symbol he rest

end TokenText

namespace TokenAt

/-- At most one token is read where a text begins. -/
theorem unique (h : TokenAt t kind lexeme width) (h' : TokenAt t kind' lexeme' width') :
    kind = kind' ∧ lexeme = lexeme' ∧ width = width' := by
  obtain ⟨text, rest, rfl, -, hne, -⟩ := h.spells
  obtain ⟨c, tail, rfl⟩ := List.exists_cons_of_ne_nil hne
  have he := h.read_eq.symm.trans h'.read_eq
  cases he
  exact ⟨rfl, rfl, rfl⟩

/-- A token takes all that any token could take there. -/
theorem longest (h : TokenAt t kind lexeme width) (hp : longer <+: t) (hl : IsTokenText longer) :
    longer.length ≤ width := by
  obtain ⟨rest, rfl⟩ := hp
  obtain ⟨kind', lexeme', width', h', hle⟩ := hl.exists_tokenAt rest
  obtain ⟨-, -, rfl⟩ := h.unique h'
  exact hle

end TokenAt

section Kinds

theorem Kind.not_mem_of_isWord (h : kind.isWord = true) :
    kind ∉ [.indent, .dedent, .newline, .eof, .comment, .string] := by
  have hall : ∀ k ∈ [Kind.indent, .dedent, .newline, .eof, .comment, .string],
      k.isWord = false := by decide
  intro hk
  rw [hall kind hk] at h
  cases h

theorem Content.isWord (h : Content kind lexeme) (hk : kind.isWord = true) : IsWord lexeme := by
  cases h with
  | string => exact absurd hk (by decide)
  | comment => exact absurd hk (by decide)
  | number => exact absurd hk (by decide)
  | identifier hw => exact hw
  | reserved hw => exact isWord_of_mem_words _ hw
  | symbol hs =>
    have hall : ∀ entry ∈ Kind.symbols, entry.2.isWord = false := by decide
    rw [hall _ hs] at hk
    cases hk

theorem Content.kind_of_word (h : Content kind lexeme) (hk : kind.isWord = true) :
    (lexeme, kind) ∈ Kind.words ∨
      kind = .identifier ∧ ∀ entry ∈ Kind.words, entry.1 ≠ lexeme := by
  cases h with
  | string => exact absurd hk (by decide)
  | comment => exact absurd hk (by decide)
  | number => exact absurd hk (by decide)
  | identifier hw hn => exact .inr ⟨rfl, hn⟩
  | reserved hw => exact .inl hw
  | symbol hs =>
    have hall : ∀ entry ∈ Kind.symbols, entry.2.isWord = false := by decide
    rw [hall _ hs] at hk
    cases hk

theorem Content.isNumeral (h : Content .number lexeme) : IsNumeral lexeme := by
  cases h with
  | number hn => exact hn
  | reserved hw =>
    have hall : ∀ entry ∈ Kind.words, entry.2 ≠ .number := by decide
    exact absurd rfl (hall _ hw)
  | symbol hs =>
    have hall : ∀ entry ∈ Kind.symbols, entry.2 ≠ .number := by decide
    exact absurd rfl (hall _ hs)

theorem Content.mem_symbols (h : Content kind lexeme) (hk : kind.family? = some .operator) :
    (lexeme, kind) ∈ Kind.symbols := by
  cases h with
  | string => cases hk
  | comment => cases hk
  | number => cases hk
  | identifier => cases hk
  | reserved hw =>
    have hall : ∀ entry ∈ Kind.words, entry.2.family? ≠ some .operator := by decide
    exact absurd hk (hall _ hw)
  | symbol hs => exact hs

theorem IsWord.concat (h : IsWord t) (hx : continuesWord x = true) : IsWord (t ++ [x]) := by
  obtain ⟨c, tail, rfl, hc, ht⟩ := h
  refine ⟨c, tail ++ [x], rfl, hc, fun y hy => ?_⟩
  rcases List.mem_append.1 hy with hy | hy
  · exact ht y hy
  · rw [List.mem_singleton.1 hy]
    exact hx

theorem IsNumeral.concat_digit (h : IsNumeral t) (hx : Unicode.isDecimalDigit x = true) :
    IsNumeral (t ++ [x]) := by
  have hdigits : ∀ l : Text, (∀ y ∈ l, Unicode.isDecimalDigit y = true) →
      ∀ y ∈ l ++ [x], Unicode.isDecimalDigit y = true := by
    intro l hl y hy
    rcases List.mem_append.1 hy with hy | hy
    · exact hl y hy
    · rw [List.mem_singleton.1 hy]
      exact hx
  obtain ⟨whole, hne, hw, rfl | ⟨part, rfl, hp⟩⟩ := h
  · exact ⟨t ++ [x], by simp, hdigits t hw, .inl rfl⟩
  · exact ⟨whole, hne, hw, .inr ⟨part ++ [x], by simp, hdigits part hp⟩⟩

theorem IsNumeral.concat_point (h : IsNumeral t) (hn : '.' ∉ t) : IsNumeral (t ++ ['.']) := by
  obtain ⟨whole, hne, hw, rfl | ⟨part, rfl, -⟩⟩ := h
  · exact ⟨t, hne, hw, .inr ⟨[], rfl, nofun⟩⟩
  · exact absurd (by simp) hn

end Kinds

namespace TokenAt

variable (h : TokenAt (text ++ rest) kind lexeme text.length)
include h

/-- What stands behind a token does not go on with it. -/
theorem not_isTokenText_concat (hx : rest.head? = some x) : ¬ IsTokenText (text ++ [x]) := by
  obtain ⟨tail, rfl⟩ := List.head?_eq_some_iff.1 hx
  intro hl
  have hp : text ++ [x] <+: text ++ x :: tail :=
    ⟨tail, by rw [List.append_assoc, List.singleton_append]⟩
  have hle := h.longest hp hl
  rw [List.length_append, List.length_singleton] at hle
  omega

theorem eq_and_content (hk : kind ∉ [.indent, .dedent, .newline, .eof, .comment, .string]) :
    text = lexeme ∧ Content kind lexeme := by
  have hs := h.spells_text.2
  refine ⟨hs.eq_of_not_mem hk, h.content fun hn => hk ?_⟩
  rw [hn]
  decide

theorem continuesWord_of_isWord (hk : kind.isWord = true) (hx : rest.head? = some x) :
    continuesWord x = false := by
  obtain ⟨rfl, hc⟩ := h.eq_and_content (Kind.not_mem_of_isWord hk)
  have hlonger := h.not_isTokenText_concat hx
  rw [Bool.eq_false_iff]
  intro hcont
  exact hlonger ((hc.isWord hk).concat hcont).isTokenText

theorem isDecimalDigit_of_number (hk : kind = .number) (hx : rest.head? = some x) :
    Unicode.isDecimalDigit x = false := by
  subst hk
  obtain ⟨rfl, hc⟩ := h.eq_and_content (by decide)
  have hlonger := h.not_isTokenText_concat hx
  rw [Bool.eq_false_iff]
  intro hdigit
  exact hlonger (hc.isNumeral.concat_digit hdigit).isTokenText

theorem point_mem_of_number (hk : kind = .number) (hx : rest.head? = some '.') :
    '.' ∈ lexeme := by
  subst hk
  obtain ⟨rfl, hc⟩ := h.eq_and_content (by decide)
  have hlonger := h.not_isTokenText_concat hx
  by_contra hn
  exact hlonger (hc.isNumeral.concat_point hn).isTokenText

theorem head?_ne_of_single (hk : kind ∈ [.assign, .lt, .gt]) : rest.head? ≠ some '=' := by
  have hfamily : ∀ k ∈ [Kind.assign, .lt, .gt], k.family? = some .operator ∧
      k ∉ [.indent, .dedent, .newline, .eof, .comment, .string] := by decide
  have hextended : ∀ entry ∈ Kind.symbols, entry.2 ∈ [Kind.assign, .lt, .gt] →
      ∃ longer ∈ Kind.symbols, longer.1 = entry.1 ++ ['='] := by decide
  obtain ⟨hoperator, hplain⟩ := hfamily kind hk
  obtain ⟨rfl, hc⟩ := h.eq_and_content hplain
  intro hx
  obtain ⟨longer, hmem, he⟩ := hextended _ (hc.mem_symbols hoperator) hk
  have hlonger := isTokenText_symbol hmem
  rw [he] at hlonger
  exact h.not_isTokenText_concat hx hlonger

theorem kind_eq_iff_of_pair {entry : Text × Kind} (he : entry ∈ Kind.pairs) :
    kind = entry.2 ↔ entry.1 <+: text ++ rest := by
  constructor
  · rintro rfl
    have hfamily : ∀ entry ∈ Kind.pairs, entry.2.family? = some .operator ∧
        entry.2 ∉ [.indent, .dedent, .newline, .eof, .comment, .string] := by decide
    have hspelling : ∀ entry ∈ Kind.pairs, ∀ other ∈ Kind.symbols, other.2 = entry.2 →
        other.1 = entry.1 := by decide
    obtain ⟨hoperator, hplain⟩ := hfamily entry he
    obtain ⟨rfl, hc⟩ := h.eq_and_content hplain
    have heq := hspelling entry he _ (hc.mem_symbols hoperator) rfl
    exact ⟨rest, by rw [← heq]⟩
  · rintro ⟨more, hmore⟩
    have hs := symbolAt?_pair he more
    rw [hmore] at hs
    obtain ⟨c, tail, ht⟩ := List.exists_cons_of_ne_nil
      (List.append_ne_nil_of_left_ne_nil h.spells_text.1 rest)
    rw [ht] at h hs
    exact (h.unique (.symbol hs)).1

end TokenAt

theorem TokenAt.munched {token : Token}
    (h : TokenAt (text ++ rest) token.kind token.lexeme text.length) :
    Munched token text rest where
  spells := h.spells_text.2
  longest _ hp hl := h.longest hp hl
  word hk _ hx := h.continuesWord_of_isWord hk hx
  kind_of_word hk := (h.eq_and_content (Kind.not_mem_of_isWord hk)).2.kind_of_word hk
  digit hk _ hx := h.isDecimalDigit_of_number hk hx
  point hk hx := h.point_mem_of_number hk hx
  single hk := h.head?_ne_of_single hk
  pair _ he := h.kind_eq_iff_of_pair he
  comment hk x hx := by
    obtain ⟨tail, rfl⟩ := List.head?_eq_some_iff.1 hx
    exact h.isLineBreak_of_comment hk List.drop_left
  lineBreak hk hl := by
    rw [hk] at h
    obtain ⟨he, hb⟩ := tokenAt_newline_iff.1 h
    rw [he] at hl
    exact hb.head?_ne (by rw [hl]; rfl)

/-- Tiles of a source that are read as they stand: each token is the one that its text, and all
that stands behind it, begins with. -/
structure ReadTiling (source : Text) (tiles : List Tile) (tokens : List Token) (rest : Text) : Prop
    extends Tiling source tiles tokens rest where
  tokenAt : ∀ before token text behind, tiles = before ++ .span token text :: behind →
    TokenAt (text ++ (Tile.join behind ++ rest)) token.kind token.lexeme text.length

namespace ReadTiling

variable {source blanks : Text} {tiles : List Tile} {tokens : List Token}

theorem nil (source : Text) : ReadTiling source [] [] source where
  toTiling := .nil source
  tokenAt := by simp

theorem exists_tokenAt {token : Token} {text : Text} (h : ReadTiling source tiles tokens rest)
    (hmem : .span token text ∈ tiles) :
    ∃ behind, TokenAt (text ++ behind) token.kind token.lexeme text.length := by
  obtain ⟨before, behind, he⟩ := List.append_of_mem hmem
  exact ⟨_, h.tokenAt before token text behind he⟩

theorem tokenAt_concat (tile : Tile) (h : ReadTiling source tiles tokens (tile.text ++ rest))
    (ht : ∀ token text, tile = .span token text →
      TokenAt (text ++ rest) token.kind token.lexeme text.length)
    (before : List Tile) (token : Token) (text : Text) (behind : List Tile)
    (he : tiles ++ [tile] = before ++ .span token text :: behind) :
    TokenAt (text ++ (Tile.join behind ++ rest)) token.kind token.lexeme text.length := by
  rcases append_cons_of_concat he with ⟨-, hspan, rfl⟩ | ⟨tail, rfl, htiles⟩
  · exact ht token text hspan.symm
  · have hold := h.tokenAt before token text tail htiles
    have hjoin : Tile.join (tail ++ [tile]) ++ rest = Tile.join tail ++ (tile.text ++ rest) := by
      simp [Tile.join]
    rw [hjoin]
    exact hold

theorem addBlank (h : ReadTiling source tiles tokens (c :: rest)) (hc : isBlank c = true) :
    ReadTiling source (tiles ++ [.blank c]) tokens rest where
  toTiling := h.toTiling.addBlank hc
  tokenAt := tokenAt_concat (.blank c) h nofun

theorem addBlanks (h : ReadTiling source tiles tokens (blanks ++ rest))
    (hb : ∀ c ∈ blanks, isBlank c = true) : ∃ more, ReadTiling source more tokens rest := by
  induction blanks generalizing tiles with
  | nil => exact ⟨tiles, h⟩
  | cons c blanks ih =>
    exact ih (h.addBlank (hb c List.mem_cons_self)) fun x hx => hb x (List.mem_cons_of_mem c hx)

theorem addToken {token : Token} (h : ReadTiling source tiles tokens (text ++ rest))
    (ht : TokenAt (text ++ rest) token.kind token.lexeme text.length)
    (hp : token.place = .at source (Tile.join tiles).length) :
    ReadTiling source (tiles ++ [.span token text]) (tokens ++ [token]) rest where
  toTiling := h.toTiling.addToken ht.spells_text.1 ht.spells_text.2 hp
  tokenAt := by
    apply tokenAt_concat (.span token text) h
    rintro _ _ ⟨⟩
    exact ht

theorem addLayout {layout : List Token} (h : ReadTiling source tiles tokens rest)
    (hl : ∀ token ∈ layout, token.hasSpan = false) :
    ReadTiling source tiles (tokens ++ layout) rest where
  toTiling := h.toTiling.addLayout hl
  tokenAt := h.tokenAt

/-- No tile begins with a point, so none stands behind a number whose scan goes on. -/
theorem head?_join_ne (h : ReadTiling source tiles tokens rest) {before behind : List Tile}
    (he : tiles = before ++ behind) : (Tile.join behind).head? ≠ some '.' := by
  cases behind with
  | nil => exact nofun
  | cons tile behind =>
    cases tile with
    | blank c =>
      have hc := h.blanks c (by simp [he])
      rintro ⟨⟩
      simp at hc
    | span token text =>
      have ht := h.tokenAt before token text behind he
      obtain ⟨c, tail, rfl⟩ := List.exists_cons_of_ne_nil ht.spells_text.1
      have halone : Piece.read '.' [] = .fault (.unexpected '.') 0 := by decide +kernel
      have hread : ∀ more, Piece.read '.' more = .fault (.unexpected '.') 0 :=
        Piece.read_unexpected halone
      rintro ⟨⟩
      have hr := ht.read_eq.symm.trans (hread _)
      cases hr

end ReadTiling

namespace Scan

variable {s t : Scan} {source blanks : Text} {tiles : List Tile}

theorem readTiling_pastToken (hc : s.cursor.In source)
    (h : ReadTiling source tiles s.tokens s.cursor.rest) (hr : s.cursor.rest = text ++ rest)
    (ht : TokenAt (text ++ rest) kind lexeme text.length) :
    ∃ more, ReadTiling source more (s.pastToken kind lexeme text rest).tokens rest := by
  have hp : s.cursor.place = .at source (Tile.join tiles).length := by
    rw [h.toTiling.length_join hc, hc.place_eq]
  rw [hr] at h
  rw [tokens_pastToken]
  exact ⟨_, h.addToken ht hp⟩

theorem HasMargin.readTiling (hm : s.HasMargin blanks rest)
    (h : ReadTiling source tiles s.tokens s.cursor.rest) :
    ∃ more, ReadTiling source more s.tokens rest := by
  rw [hm.rest_eq] at h
  exact h.addBlanks hm.isBlank

theorem Reads.readTiling (hr : s.Reads text t) (hc : s.cursor.In source)
    (h : ReadTiling source tiles s.tokens s.cursor.rest) :
    ∃ more, ReadTiling source more t.tokens t.cursor.rest := by
  cases hr with
  | lastMargin hl hm hb =>
    obtain ⟨more, hmore⟩ := hm.readTiling h
    have ht := tokens_emit (s.pastMargin text []) .newline
    change ∃ more, ReadTiling source more ((s.pastMargin text []).emit .newline).tokens []
    rw [ht]
    exact ⟨more, hmore.addLayout (by simp [Token.hasSpan])⟩
  | @emptyLine blanks text rest hl hm ht =>
    obtain ⟨more, hmore⟩ := hm.readTiling h
    have hin : (s.pastMargin blanks (text ++ rest)).cursor.In source := by
      have hskip := Cursor.past_eq_skip hm.rest_eq
      change (s.cursor.past blanks (text ++ rest)).In source
      rw [← hskip]
      exact hc.skip _
    exact readTiling_pastToken hin hmore rfl (tokenAt_newline_iff.2 ⟨rfl, ht⟩)
  | opens hl hm =>
    obtain ⟨more, hmore⟩ := hm.readTiling h
    rw [tokens_opening]
    exact ⟨more, hmore.addLayout (by simp [Token.hasSpan])⟩
  | closes hl hm =>
    obtain ⟨more, hmore⟩ := hm.readTiling h
    rw [tokens_closing]
    refine ⟨more, hmore.addLayout fun token ht => ?_⟩
    rw [List.eq_of_mem_replicate ht]
    rfl
  | blank hl hrest hb =>
    rw [hrest] at h
    exact ⟨_, h.addBlank hb⟩
  | token hl hrest ht => exact readTiling_pastToken hc h hrest ht

theorem exists_readTiling_of_reaches (h : (start source).Reaches s) :
    s.cursor.In source ∧ ∃ tiles, ReadTiling source tiles s.tokens s.cursor.rest := by
  refine h.preserves (P := fun s => s.cursor.In source ∧
    ∃ tiles, ReadTiling source tiles s.tokens s.cursor.rest) ?_ ?_
  · rintro s t ha ⟨hc, tiles, ht⟩
    obtain ⟨n, hn⟩ := ha.exists_skip
    obtain ⟨text, hr⟩ := ha.reads
    exact ⟨hn ▸ hc.skip n, hr.readTiling hc ht⟩
  · exact ⟨Cursor.in_start source, [], .nil source⟩

end Scan

/-- Maximal munch: a scanned source is tiled so that each token takes the longest text that any
token could take where it begins. What stands behind a token would not go on with it, and behind
a number there is never a point, for nothing begins with one. -/
theorem scan_maximal_munch {source : Text} {tokens : List Token} (h : scan source = .ok tokens) :
    ∃ tiles : List Tile, Tiling source tiles tokens [] ∧
      ∀ before token text behind, tiles = before ++ .span token text :: behind →
        Munched token text (Tile.join behind) ∧
          (token.kind = .number → (Tile.join behind).head? ≠ some '.') := by
  obtain ⟨s, hs, hr, rfl⟩ := scan_eq_ok_iff.1 h
  obtain ⟨-, tiles, ht⟩ := Scan.exists_readTiling_of_reaches hs
  have hfinish := Scan.tiling_finish ht.toTiling
  rw [hr] at ht hfinish
  refine ⟨tiles, hfinish, fun before token text behind he => ?_⟩
  have hat := ht.tokenAt before token text behind he
  rw [List.append_nil] at hat
  constructor
  · exact hat.munched
  · intro _
    have hsplit : tiles = (before ++ [.span token text]) ++ behind := by
      rw [he, List.append_assoc, List.singleton_append]
    exact ht.head?_join_ne hsplit

/-- A word that a reserved word begins, a pair of characters with another behind it, a number in
front of a word, and a line break of one character. -/
theorem scan_maximal_munch_of_runs :
    let source := "ends===1.5x\r#!=".toList
    let tokens : List Token := [
      ⟨.identifier, "ends".toList, ⟨1, 1⟩⟩, ⟨.eq, ['=', '='], ⟨1, 5⟩⟩, ⟨.assign, ['='], ⟨1, 7⟩⟩,
      ⟨.number, "1.5".toList, ⟨1, 8⟩⟩, ⟨.identifier, ['x'], ⟨1, 11⟩⟩, ⟨.newline, ['\r'], ⟨1, 12⟩⟩,
      ⟨.comment, ['!', '='], ⟨2, 1⟩⟩, ⟨.newline, [], ⟨2, 4⟩⟩, ⟨.eof, [], ⟨2, 4⟩⟩]
    scan source = .ok tokens ∧
      ∃ tiles : List Tile, Tiling source tiles tokens [] ∧
        ∀ before token text behind, tiles = before ++ .span token text :: behind →
          Munched token text (Tile.join behind) ∧
            (token.kind = .number → (Tile.join behind).head? ≠ some '.') := by
  intro source tokens
  have h : scan source = .ok tokens := by decide +kernel
  exact ⟨h, scan_maximal_munch h⟩

end Offside
