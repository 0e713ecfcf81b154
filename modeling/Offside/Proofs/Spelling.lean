import Offside.Scan.Piece

/-! How tokens are written: the text that a token is read from, and the lexemes of each kind. -/
namespace Offside

/-- The value that the body of a string literal stands for, read from left to right. A backslash
before a character that has no meaning of its own is dropped. -/
inductive Decodes : Text → Text → Prop
  | nil : Decodes [] []
  | plain {c body value} (hc : c ∉ ['\\', '"', '\n', '\r']) (h : Decodes body value) :
      Decodes (c :: body) (c :: value)
  | lineFeed {body value} (h : Decodes body value) :
      Decodes ('\\' :: 'n' :: body) ('\n' :: value)
  | carriageReturn {body value} (h : Decodes body value) :
      Decodes ('\\' :: 'r' :: body) ('\r' :: value)
  | tab {body value} (h : Decodes body value) : Decodes ('\\' :: 't' :: body) ('\t' :: value)
  | itself {c body value} (hc : c ∉ ['n', 'r', 't']) (h : Decodes body value) :
      Decodes ('\\' :: c :: body) (c :: value)

/-- A token of the kind and lexeme is written as the text. Layout and the end of the input have
no text of their own. -/
inductive Spells : Kind → Text → Text → Prop
  | verbatim {kind lexeme} (hk : kind ∉ [.indent, .dedent, .eof, .comment, .string]) :
      Spells kind lexeme lexeme
  | comment {body} : Spells .comment body ('#' :: body)
  | string {body value} (h : Decodes body value) : Spells .string value ('"' :: body ++ ['"'])

/-- One or more decimal digits, and behind a point any number of them. -/
def IsNumeral (t : Text) : Prop :=
  ∃ whole, whole ≠ [] ∧ (∀ c ∈ whole, Unicode.isDecimalDigit c = true) ∧
    (t = whole ∨ ∃ part, t = whole ++ '.' :: part ∧ ∀ c ∈ part, Unicode.isDecimalDigit c = true)

/-- A letter or an underscore, and behind it letters, decimal digits and underscores. -/
def IsWord (t : Text) : Prop :=
  ∃ c rest, t = c :: rest ∧ startsWord c = true ∧ ∀ x ∈ rest, continuesWord x = true

inductive Content : Kind → Text → Prop
  | string {value} : Content .string value
  | comment {body} (h : ∀ c ∈ body, isLineBreak c = false) : Content .comment body
  | number {t} (h : IsNumeral t) : Content .number t
  | identifier {t} (h : IsWord t) (hk : ∀ entry ∈ Kind.words, entry.1 ≠ t) :
      Content .identifier t
  | reserved {kind t} (h : (t, kind) ∈ Kind.words) : Content kind t
  | symbol {kind t} (h : (t, kind) ∈ Kind.symbols) : Content kind t

/-- The token that a text begins with, and how much of the text it takes. -/
inductive TokenAt : Text → Kind → Text → Nat → Prop
  | comment {rest body} (hb : body = rest.takeWhile (!isLineBreak ·)) :
      TokenAt ('#' :: rest) .comment body (body.length + 1)
  | lineBreak {c rest} (hc : isLineBreak c = true) :
      TokenAt (c :: rest) .newline (lineBreakAt c rest) (lineBreakAt c rest).length
  | word {c rest word} (hc : startsWord c = true) (hw : word = c :: rest.takeWhile continuesWord) :
      TokenAt (c :: rest) (.ofWord word) word word.length
  | number {c rest t} (hc : Unicode.isDecimalDigit c = true) (ht : t = c :: numeral rest) :
      TokenAt (c :: rest) .number t t.length
  | string {rest value width} (h : Literal.read rest = .closed value width) :
      TokenAt ('"' :: rest) .string value (width + 1)
  | symbol {c rest lexeme kind} (h : Kind.symbolAt? (c :: rest) = some (lexeme, kind)) :
      TokenAt (c :: rest) kind lexeme lexeme.length

/-- The piece that a character begins, without the order in which the pieces are tried. -/
inductive PieceAt (c : Char) (rest : Text) : Piece → Prop
  | blank (hc : isBlank c = true) : PieceAt c rest .blank
  | token {kind lexeme width} (h : TokenAt (c :: rest) kind lexeme width) :
      PieceAt c rest (.token kind lexeme width)
  | broken {width} (hc : c = '"') (h : Literal.read rest = .broken width) :
      PieceAt c rest (.fault .brokenString (width + 1))
  | unterminated {width} (hc : c = '"') (h : Literal.read rest = .unterminated width) :
      PieceAt c rest (.fault .unterminatedString (width + 1))
  | bareBang (hc : c = '!') (h : Kind.symbolAt? (c :: rest) = none) :
      PieceAt c rest (.fault .bareBang 0)
  | unexpected (hc : c ≠ '!') (h : Kind.symbolAt? (c :: rest) = none) :
      PieceAt c rest (.fault (.unexpected c) 0)

variable {c : Char} {rest t lexeme value : Text} {kind : Kind} {width : Nat}

theorem pieceAt_ofLiteral (rest : Text) : PieceAt '"' rest (.ofLiteral (.read rest)) := by
  cases hl : Literal.read rest with
  | closed value width => exact .token (.string hl)
  | broken width => exact .broken rfl hl
  | unterminated width => exact .unterminated rfl hl

theorem pieceAt_ofSymbol (c : Char) (rest : Text) : PieceAt c rest (.ofSymbol c rest) := by
  unfold Piece.ofSymbol
  cases hs : Kind.symbolAt? (c :: rest) with
  | some symbol => exact .token (.symbol hs)
  | none =>
    by_cases hc : c = '!'
    · subst hc
      exact .bareBang rfl hs
    · dsimp only
      rw [if_neg hc]
      exact .unexpected hc hs

theorem pieceAt_read (c : Char) (rest : Text) : PieceAt c rest (.read c rest) := by
  unfold Piece.read
  split
  · exact .blank ‹_›
  split
  · rename_i hc
    rw [hc]
    exact .token (.comment rfl)
  split
  · exact .token (.lineBreak ‹_›)
  split
  · exact .token (.word ‹_› rfl)
  split
  · exact .token (.number ‹_› rfl)
  split
  · rename_i hc
    rw [hc]
    exact pieceAt_ofLiteral rest
  · exact pieceAt_ofSymbol c rest

theorem tokenAt_of_read (h : Piece.read c rest = .token kind lexeme width) :
    TokenAt (c :: rest) kind lexeme width := by
  have hp := pieceAt_read c rest
  rw [h] at hp
  cases hp with
  | token ht => exact ht

theorem Piece.isBlank_of_read (h : Piece.read c rest = .blank) : isBlank c = true := by
  have hp := pieceAt_read c rest
  rw [h] at hp
  cases hp with
  | blank hc => exact hc

theorem Piece.kind_of_read (h : Piece.read c rest = .token kind lexeme width)
    (hc : isLineBreak c = true) : kind = .newline := by
  rcases isLineBreak_iff.1 hc with rfl | rfl
  · cases h
    rfl
  · cases h
    rfl

theorem Piece.ne_unmatchedDedent_of_read {cause : Cause}
    (h : Piece.read c rest = .fault cause width) : cause ≠ .unmatchedDedent := by
  have hp := pieceAt_read c rest
  rw [h] at hp
  cases hp with
  | broken => exact nofun
  | unterminated => exact nofun
  | bareBang => exact nofun
  | unexpected => exact nofun

namespace Literal

theorem exists_of_cons_eq_closed {l : Literal} {n : Nat} (h : l.cons c n = closed value width) :
    ∃ v w, l = closed v w ∧ value = c :: v ∧ width = w + n := by
  cases l with
  | closed v w =>
    cases h
    exact ⟨v, w, rfl, rfl, rfl⟩
  | broken w => cases h
  | unterminated w => cases h

theorem decodes_escaped {body : Text} (c : Char) (h : Decodes body value) :
    Decodes ('\\' :: c :: body) (unescape c :: value) := by
  unfold unescape
  split
  · exact .lineFeed h
  · exact .carriageReturn h
  · exact .tab h
  · exact .itself (by simp_all) h

/-- A literal that ends in a quote is its body, decoded from left to right. -/
theorem decodes_of_read (h : read t = closed value width) :
    ∃ body rest, t = body ++ '"' :: rest ∧ width = body.length + 1 ∧ Decodes body value := by
  fun_induction read t generalizing value width with
  | case1 => cases h
  | case2 rest =>
    cases h
    exact ⟨[], rest, rfl, rfl, .nil⟩
  | case3 => cases h
  | case4 c rest ih =>
    obtain ⟨v, w, hr, rfl, rfl⟩ := exists_of_cons_eq_closed h
    obtain ⟨body, tail, rfl, rfl, hd⟩ := ih hr
    exact ⟨'\\' :: c :: body, tail, rfl, rfl, decodes_escaped c hd⟩
  | case5 => cases h
  | case6 c rest hq hb hbc hl ih =>
    obtain ⟨v, w, hr, rfl, rfl⟩ := exists_of_cons_eq_closed h
    obtain ⟨body, tail, rfl, rfl, hd⟩ := ih hr
    refine ⟨c :: body, tail, rfl, rfl, .plain ?_ hd⟩
    -- A backslash that ends the body would escape the closing quote.
    have hbs : c ≠ '\\' := by
      rintro rfl
      cases body with
      | nil => exact hbc '"' tail rfl rfl
      | cons x body => exact hbc x (body ++ '"' :: tail) rfl rfl
    have hbreak := not_isLineBreak_iff.1 (Bool.eq_false_iff.2 hl)
    simp only [List.mem_cons, List.not_mem_nil, or_false, not_or]
    exact ⟨hbs, hq, hbreak.1, hbreak.2⟩

end Literal

namespace Kind

theorem kinds_of_words : ∀ entry ∈ words,
    entry.2 ∉ [indent, dedent, newline, eof, comment, string] := by
  decide

theorem kinds_of_symbols : ∀ entry ∈ symbols,
    entry.2 ∉ [indent, dedent, newline, eof, comment, string] := by
  decide

theorem mem_words_of_reserved? {word : Text} (h : reserved? word = some kind) :
    (word, kind) ∈ words := by
  obtain ⟨before, behind, he, _⟩ := List.lookup_eq_some_iff.1 h
  rw [he]
  simp

theorem ne_of_reserved?_eq_none {word : Text} (h : reserved? word = none) :
    ∀ entry ∈ words, entry.1 ≠ word := by
  intro entry he hw
  have hne := List.lookup_eq_none_iff.1 h entry he
  simp [hw] at hne

theorem ofWord_not_mem (word : Text) :
    ofWord word ∉ [indent, dedent, newline, eof, comment, string] := by
  unfold ofWord
  cases hr : reserved? word with
  | none => decide
  | some kind => exact kinds_of_words _ (mem_words_of_reserved? hr)

theorem ofWord_ne {word : Text} (hk : kind ∈ [indent, dedent, newline, eof, comment, string]) :
    ofWord word ≠ kind := by
  intro h
  exact ofWord_not_mem word (h ▸ hk)

theorem mem_symbols_of_symbolAt? (h : symbolAt? t = some (lexeme, kind)) :
    (lexeme, kind) ∈ symbols := List.mem_of_find?_eq_some h

theorem symbolAt?_not_mem (h : symbolAt? t = some (lexeme, kind)) :
    kind ∉ [indent, dedent, newline, eof, comment, string] :=
  kinds_of_symbols _ (mem_symbols_of_symbolAt? h)

theorem symbolAt?_ne {other : Kind} (h : symbolAt? t = some (lexeme, kind))
    (hk : other ∈ [indent, dedent, newline, eof, comment, string]) : kind ≠ other := by
  intro he
  exact symbolAt?_not_mem h (he ▸ hk)

end Kind

theorem numeral_append_drop (t : Text) : ∃ rest, t = numeral t ++ rest := by
  have hs := List.takeWhile_append_dropWhile (p := Unicode.isDecimalDigit) (l := t)
  unfold numeral
  dsimp only
  split
  · rename_i tail hd
    rw [hd] at hs
    refine ⟨tail.dropWhile Unicode.isDecimalDigit, ?_⟩
    rw [List.append_assoc, List.cons_append, List.takeWhile_append_dropWhile, hs]
  · exact ⟨_, hs.symm⟩

theorem lineBreakAt_append (c : Char) (rest : Text) :
    ∃ tail, c :: rest = lineBreakAt c rest ++ tail := by
  unfold lineBreakAt
  split
  · rename_i h
    obtain ⟨tail, rfl⟩ := List.head?_eq_some_iff.1 h.2
    exact ⟨tail, rfl⟩
  · exact ⟨rest, rfl⟩

theorem Spells.of_not_mem
    (h : kind ∉ [.indent, .dedent, .newline, .eof, .comment, .string]) :
    Spells kind lexeme lexeme := by
  refine .verbatim fun hk => h ?_
  simp only [List.mem_cons, List.not_mem_nil, or_false] at hk ⊢
  rcases hk with hk | hk | hk | hk | hk <;> simp [hk]

theorem TokenAt.lineBreak_of_newline (h : TokenAt (c :: rest) kind lexeme width)
    (hk : kind = .newline) :
    isLineBreak c = true ∧ lexeme = lineBreakAt c rest ∧ width = lexeme.length := by
  cases h with
  | comment => cases hk
  | lineBreak hc => exact ⟨hc, rfl, rfl⟩
  | word => exact absurd hk (Kind.ofWord_ne (by decide))
  | number => cases hk
  | string => cases hk
  | symbol hs => exact absurd hk (Kind.symbolAt?_ne hs (by decide))

theorem isNumeral_cons_numeral (hc : Unicode.isDecimalDigit c = true) (t : Text) :
    IsNumeral (c :: numeral t) := by
  have hdigit : ∀ u : Text, ∀ x ∈ u.takeWhile Unicode.isDecimalDigit,
      Unicode.isDecimalDigit x = true := fun u x hx =>
    List.all_eq_true.1 List.all_takeWhile x hx
  refine ⟨c :: t.takeWhile Unicode.isDecimalDigit, by simp, ?_, ?_⟩
  · intro x hx
    rcases List.mem_cons.1 hx with rfl | hx
    · exact hc
    · exact hdigit t x hx
  · unfold numeral
    dsimp only
    split
    · rename_i tail hd
      exact .inr ⟨_, rfl, hdigit tail⟩
    · exact .inl rfl

theorem content_ofWord {word : Text} (h : IsWord word) : Content (.ofWord word) word := by
  unfold Kind.ofWord
  cases hr : Kind.reserved? word with
  | none => exact .identifier h (Kind.ne_of_reserved?_eq_none hr)
  | some kind => exact .reserved (Kind.mem_words_of_reserved? hr)

theorem isWord_of_mem_words : ∀ entry ∈ Kind.words, IsWord entry.1 := by
  have hall : ∀ entry ∈ Kind.words, entry.1 ≠ [] ∧
      entry.1.head?.all startsWord = true ∧ entry.1.tail.all continuesWord = true := by
    decide +kernel
  intro entry he
  obtain ⟨hne, hc, ht⟩ := hall entry he
  obtain ⟨c, tail, hw⟩ := List.exists_cons_of_ne_nil hne
  rw [hw] at hc ht
  exact ⟨c, tail, hw, hc, List.all_eq_true.1 ht⟩

theorem TokenAt.content (h : TokenAt t kind lexeme width) (hk : kind ≠ .newline) :
    Content kind lexeme := by
  cases h with
  | @comment rest body hb =>
    refine .comment fun x hx => ?_
    rw [hb] at hx
    simpa using List.all_eq_true.1 List.all_takeWhile x hx
  | lineBreak => exact absurd rfl hk
  | @word c rest _ hc hw =>
    refine content_ofWord ⟨c, rest.takeWhile continuesWord, hw, hc, fun x hx => ?_⟩
    exact List.all_eq_true.1 List.all_takeWhile x hx
  | number hc ht =>
    rw [ht]
    exact .number (isNumeral_cons_numeral hc _)
  | string => exact .string
  | symbol hs => exact .symbol (Kind.mem_symbols_of_symbolAt? hs)

theorem TokenAt.isLineBreak_of_comment {x : Char} {tail : Text}
    (h : TokenAt t kind lexeme width) (hk : kind = .comment) (hd : t.drop width = x :: tail) :
    isLineBreak x = true := by
  cases h with
  | @comment rest body hb =>
    have hs := List.takeWhile_append_dropWhile (p := (!isLineBreak ·)) (l := rest)
    have hr : rest.drop lexeme.length = rest.dropWhile (!isLineBreak ·) := by
      have hl : (rest.takeWhile (!isLineBreak ·) ++ rest.dropWhile (!isLineBreak ·)).drop
          lexeme.length = rest.dropWhile (!isLineBreak ·) := by
        rw [hb, List.drop_left]
      rwa [hs] at hl
    rw [List.drop_succ_cons, hr] at hd
    have hx := List.head?_dropWhile_not (!isLineBreak ·) rest
    rw [hd] at hx
    simpa using hx
  | lineBreak => cases hk
  | word => exact absurd hk (Kind.ofWord_ne (by decide))
  | number => cases hk
  | string => cases hk
  | symbol hs => exact absurd hk (Kind.symbolAt?_ne hs (by decide))

/-- A token is read from a text that spells it. -/
theorem TokenAt.spells (h : TokenAt t kind lexeme width) :
    ∃ text rest, t = text ++ rest ∧ text.length = width ∧ text ≠ [] ∧
      Spells kind lexeme text := by
  cases h with
  | @comment rest body hb =>
    refine ⟨'#' :: lexeme, rest.dropWhile (!isLineBreak ·), ?_, rfl, by simp, .comment⟩
    rw [hb, List.cons_append, List.takeWhile_append_dropWhile]
  | @lineBreak c rest hc =>
    obtain ⟨tail, ht⟩ := lineBreakAt_append c rest
    exact ⟨_, tail, ht, rfl, lineBreakAt_ne_nil c rest, .verbatim (by decide)⟩
  | @word c rest _ hc hw =>
    refine ⟨lexeme, rest.dropWhile continuesWord, ?_, rfl, by simp [hw],
      .of_not_mem (Kind.ofWord_not_mem lexeme)⟩
    rw [hw, List.cons_append, List.takeWhile_append_dropWhile]
  | @number c rest _ hc ht =>
    obtain ⟨tail, hn⟩ := numeral_append_drop rest
    refine ⟨lexeme, tail, ?_, rfl, by simp [ht], .verbatim (by decide)⟩
    rw [ht, List.cons_append, ← hn]
  | string hr =>
    obtain ⟨body, tail, rfl, rfl, hd⟩ := Literal.decodes_of_read hr
    exact ⟨'"' :: body ++ ['"'], tail, by simp, by simp, by simp, .string hd⟩
  | symbol hs =>
    obtain ⟨hne, tail, ht⟩ := Kind.exists_of_symbolAt? hs
    exact ⟨lexeme, tail, ht, rfl, hne, .of_not_mem (Kind.symbolAt?_not_mem hs)⟩

end Offside
