import Mathlib.Data.List.Basic
import Mathlib.Data.List.Find
import Mathlib.Data.List.TakeWhile
import Offside.Proofs.Classes
import Offside.Proofs.Lists
import Offside.Proofs.Literals

/-! Where a token ends: of what stands behind it only the first code point matters. -/
namespace Offside

variable {c x : Char} {rest rest' text lexeme t : Text} {kind : Kind} {width : Nat}

theorem mem_marks_of_isLineBreak (h : isLineBreak x = true) : x ∈ marks := by
  rcases isLineBreak_iff.1 h with rfl | rfl
  · decide
  · decide

theorem Content.forall_mem {P : Char → Prop} (h : Content kind lexeme)
    (hk : kind ∉ [.string, .comment]) (hword : ∀ x, continuesWord x = true → P x)
    (hpoint : P '.') (hsymbol : ∀ entry ∈ Kind.symbols, ∀ x ∈ entry.1, P x) :
    ∀ x ∈ lexeme, P x := by
  have hwords : ∀ {t : Text}, IsWord t → ∀ x ∈ t, P x := by
    rintro t ⟨c, tail, rfl, hc, ht⟩ x hx
    apply hword
    rcases List.mem_cons.1 hx with rfl | hx
    · rw [continuesWord, hc, Bool.true_or]
    · exact ht x hx
  have hdigits : ∀ {t : Text}, (∀ x ∈ t, Unicode.isDecimalDigit x = true) → ∀ x ∈ t, P x := by
    intro t ht x hx
    apply hword
    rw [continuesWord, ht x hx, Bool.or_true]
  cases h with
  | string => exact absurd (by decide) hk
  | comment => exact absurd (by decide) hk
  | number hn =>
    obtain ⟨whole, -, hw, rfl | ⟨part, rfl, hp⟩⟩ := hn
    · exact hdigits hw
    · intro x hx
      rcases List.mem_append.1 hx with hx | hx
      · exact hdigits hw x hx
      · rcases List.mem_cons.1 hx with rfl | hx
        · exact hpoint
        · exact hdigits hp x hx
  | identifier hw => exact hwords hw
  | reserved hw => exact hwords (isWord_of_mem_words _ hw)
  | symbol hs => exact hsymbol _ hs

theorem Content.not_mem_marks (h : Content kind lexeme) (hk : kind ∉ [.string, .comment]) :
    ∀ x ∈ lexeme, x ∉ marks := by
  apply h.forall_mem (P := fun x => x ∉ marks) hk
  · intro x hx
    exact not_mem_marks_of_continuesWord hx
  · decide
  · intro entry hs x hx
    exact (symbols_apart hs hx).1

theorem Content.not_isLineBreak (h : Content kind lexeme) (hk : kind ≠ .string) :
    ∀ x ∈ lexeme, isLineBreak x = false := by
  by_cases hcomment : kind = .comment
  · subst hcomment
    cases h with
    | comment hb => exact hb
    | reserved hw => exact absurd (by simp) (Kind.kinds_of_words _ hw)
    | symbol hs => exact absurd (by simp) (Kind.kinds_of_symbols _ hs)
  · exact fun x hx => isLineBreak_of_not_mem_marks (h.not_mem_marks (by simp [hk, hcomment]) x hx)

/-- A token's text, as far as it is neither string nor comment, holds no character that is read
as it is. -/
theorem Spells.not_mem_marks (h : Spells kind lexeme text) (hc : Content kind lexeme)
    (hk : kind ∉ [.string, .comment]) : ∀ x ∈ text, x ∉ marks := by
  cases h with
  | verbatim => exact hc.not_mem_marks hk
  | comment => exact absurd (by decide) hk
  | string => exact absurd (by decide) hk

theorem Spells.not_isLineBreak (h : Spells kind lexeme text) (hc : Content kind lexeme)
    (hk : kind ≠ .string) : ∀ x ∈ text, isLineBreak x = false := by
  have hl := hc.not_isLineBreak hk
  cases h with
  | verbatim => exact hl
  | comment =>
    intro x hx
    rcases List.mem_cons.1 hx with rfl | hx
    · rfl
    · exact hl x hx
  | string => exact absurd rfl hk

theorem Spells.not_isLineBreak_of_getLast? (h : Spells kind lexeme text) (hc : Content kind lexeme)
    (hx : text.getLast? = some x) : isLineBreak x = false := by
  by_cases hk : kind = .string
  · subst hk
    cases h with
    | verbatim hn => simp at hn
    | string =>
      rw [List.getLast?_concat] at hx
      cases hx
      rfl
  · exact h.not_isLineBreak hc hk x (List.mem_of_getLast? hx)

namespace TokenAt

/-- A token that a text begins with is the one that is read. -/
theorem read_eq (h : TokenAt (c :: rest) kind lexeme width) :
    Piece.read c rest = .token kind lexeme width := by
  cases h with
  | comment hb =>
    rw [hb]
    rfl
  | lineBreak hc =>
    rcases isLineBreak_iff.1 hc with rfl | rfl
    · rfl
    · rfl
  | word hc hw =>
    rw [Piece.read_of_startsWord hc, ← hw]
    rfl
  | number hc ht =>
    rw [Piece.read_of_isDecimalDigit hc, ← ht]
    rfl
  | string hr =>
    rw [Piece.read_quote, hr]
    rfl
  | symbol hs =>
    obtain ⟨hne, tail, ht⟩ := Kind.exists_of_symbolAt? hs
    obtain ⟨x, behind, rfl⟩ := List.exists_cons_of_ne_nil hne
    rw [List.cons_append] at ht
    cases ht
    obtain ⟨hm, hw, hd⟩ := symbols_apart (Kind.mem_symbols_of_symbolAt? hs) List.mem_cons_self
    rw [Piece.read_of_not_mem_marks hm, if_neg (by simp [hw]), if_neg (by simp [hd]),
      Piece.ofSymbol, hs]
    rfl

theorem spells_text (h : TokenAt (text ++ rest) kind lexeme text.length) :
    text ≠ [] ∧ Spells kind lexeme text := by
  obtain ⟨text', rest', ht, hl, hne, hs⟩ := h.spells
  obtain ⟨rfl, -⟩ := List.append_inj ht hl.symm
  exact ⟨hne, hs⟩

end TokenAt

/-- What may stand behind a token in place of another text: it begins as that does, or with a
line break, or is empty. -/
def EndsAlike (rest rest' : Text) : Prop :=
  ∀ x, rest'.head? = some x → rest.head? = some x ∨ isLineBreak x = true

/-- A character that no token of the kind goes on with. Of all tokens that are read up to their
end, only comments go on with blanks. -/
def Kind.endedBy (kind : Kind) (x : Char) : Bool :=
  isLineBreak x || isBlank x && kind != .comment

/-- What may stand behind a token of the kind in place of another text: it begins as that does, or
with a character that ends the token, or is empty. -/
def Kind.EndsAs (kind : Kind) (rest rest' : Text) : Prop :=
  ∀ x, rest'.head? = some x → rest.head? = some x ∨ kind.endedBy x = true

theorem EndsAlike.endsAs (h : EndsAlike rest rest') (kind : Kind) : kind.EndsAs rest rest' := by
  intro x hx
  unfold Kind.endedBy
  rcases h x hx with hx | hx
  · exact .inl hx
  · exact .inr (by rw [hx, Bool.true_or])

theorem Kind.mem_marks_of_endedBy (h : kind.endedBy x = true) : x ∈ marks := by
  rcases Bool.or_eq_true_iff.1 h with hx | hx
  · exact mem_marks_of_isLineBreak hx
  · rcases isBlank_iff.1 (Bool.and_eq_true_iff.1 hx).1 with rfl | rfl
    · decide
    · decide

theorem Kind.EndsAs.takeWhile_append {p : Char → Bool} (he : kind.EndsAs rest rest')
    (hp : ∀ x, kind.endedBy x = true → p x = false) (h : (text ++ rest).takeWhile p = text) :
    (text ++ rest').takeWhile p = text := by
  obtain ⟨hall, hn⟩ := takeWhile_append_eq_iff.1 h
  refine takeWhile_append_eq_iff.2 ⟨hall, fun x hx => ?_⟩
  rcases he x hx with hx | hx
  · exact hn x hx
  · exact hp x hx

theorem Kind.isDecimalDigit_of_endedBy (h : kind.endedBy x = true) :
    Unicode.isDecimalDigit x = false := (marks_apart (mem_marks_of_endedBy h)).2

theorem Kind.continuesWord_of_endedBy (h : kind.endedBy x = true) : continuesWord x = false :=
  (marks_apart (mem_marks_of_endedBy h)).1

/-- A numeral ends behind digits: before the point another point would go on with it as well. -/
theorem numeral_append_eq_iff :
    numeral (text ++ rest) = text ↔
      ((∀ x ∈ text, Unicode.isDecimalDigit x = true) ∧
        ∀ x, rest.head? = some x → Unicode.isDecimalDigit x = false ∧ x ≠ '.') ∨
      ∃ whole part, text = whole ++ '.' :: part ∧
        (∀ x ∈ whole, Unicode.isDecimalDigit x = true) ∧
        (part ++ rest).takeWhile Unicode.isDecimalDigit = part := by
  have hs := List.takeWhile_append_dropWhile (p := Unicode.isDecimalDigit) (l := text ++ rest)
  -- Forwards by whether the digits go on with a point, backwards by computing the numeral.
  constructor
  · intro h
    unfold numeral at h
    dsimp only at h
    split at h
    · rename_i tail hd
      have hw : ∀ x ∈ (text ++ rest).takeWhile Unicode.isDecimalDigit,
          Unicode.isDecimalDigit x = true := fun x hx => List.mem_takeWhile_imp hx
      rw [hd] at hs
      generalize (text ++ rest).takeWhile Unicode.isDecimalDigit = whole at h hs hw
      have ht : tail.takeWhile Unicode.isDecimalDigit ++ rest = tail := by
        rw [← h, List.append_assoc, List.cons_append] at hs
        exact (List.cons.inj (List.append_cancel_left hs)).2.symm
      refine .inr ⟨whole, _, h.symm, hw, ?_⟩
      rw [ht]
    · rename_i hd
      obtain ⟨hall, hx⟩ := takeWhile_append_eq_iff.1 h
      rw [h] at hs
      rw [List.append_cancel_left hs] at hd
      refine .inl ⟨hall, fun x hr => ⟨hx x hr, ?_⟩⟩
      rintro rfl
      obtain ⟨tail, ht⟩ := List.head?_eq_some_iff.1 hr
      exact hd tail ht
  · rintro (⟨hall, hx⟩ | ⟨whole, part, rfl, hw, hp⟩)
    · have ht := takeWhile_append_eq_iff.2 ⟨hall, fun x hr => (hx x hr).1⟩
      rw [ht] at hs
      unfold numeral
      rw [ht, List.append_cancel_left hs]
      dsimp only
      split
      · exact absurd rfl (hx '.' rfl).2
      · rfl
    · unfold numeral
      rw [List.append_assoc, List.cons_append, takeWhile_append_cons hw isDecimalDigit_point,
        dropWhile_append_cons hw isDecimalDigit_point]
      show whole ++ '.' :: (part ++ rest).takeWhile Unicode.isDecimalDigit = _
      rw [hp]

theorem Kind.EndsAs.numeral_append (he : kind.EndsAs rest rest')
    (h : numeral (text ++ rest) = text) : numeral (text ++ rest') = text := by
  apply numeral_append_eq_iff.2
  rcases numeral_append_eq_iff.1 h with ⟨hall, hn⟩ | ⟨whole, part, rfl, hw, hp⟩
  · refine .inl ⟨hall, fun x hx => ?_⟩
    rcases he x hx with hx | hx
    · exact hn x hx
    · refine ⟨isDecimalDigit_of_endedBy hx, ?_⟩
      rintro rfl
      exact absurd (mem_marks_of_endedBy hx) (by decide)
  · have hp' := he.takeWhile_append (fun _ => isDecimalDigit_of_endedBy) hp
    exact .inr ⟨whole, part, rfl, hw, hp'⟩

namespace Kind

theorem symbolAt?_take (t : Text) : symbolAt? t = symbolAt? (t.take 2) := by
  have hlength : ∀ entry ∈ symbols, entry.1.length ≤ 2 := by decide
  refine List.find?_congr fun entry he => ?_
  rw [Bool.eq_iff_iff, List.isPrefixOf_iff_prefix, List.isPrefixOf_iff_prefix,
    List.prefix_take_iff]
  exact ⟨fun hp => ⟨hp, hlength entry he⟩, fun hp => hp.1⟩

theorem symbolAt?_of_ne_bang (hc : c ≠ '!') (h : symbolAt? (c :: rest) = none) (rest' : Text) :
    symbolAt? (c :: rest') = none := by
  have hone : ∀ entry ∈ symbols, entry.1.head? ≠ some '!' →
      ∃ one ∈ symbols, one.1 = entry.1.take 1 := by decide
  have hnone := List.find?_eq_none.1 h
  refine List.find?_eq_none.2 fun entry he hp => ?_
  obtain ⟨tail, ht⟩ := List.isPrefixOf_iff_prefix.1 hp
  obtain ⟨x, more, hx⟩ := List.exists_cons_of_ne_nil (symbols_ne_nil entry he)
  rw [hx, List.cons_append] at ht
  obtain ⟨rfl, -⟩ := List.cons.inj ht
  obtain ⟨one, hmem, htake⟩ := hone entry he (by simpa [hx] using hc)
  rw [hx] at htake
  refine hnone one hmem (List.isPrefixOf_iff_prefix.2 ?_)
  rw [htake]
  exact ⟨rest, rfl⟩

theorem symbolAt?_bang : symbolAt? ('!' :: rest) = none ↔ rest.head? ≠ some '=' := by
  have hbang : ∀ entry ∈ symbols, entry.1.head? = some '!' → entry.1 = ['!', '='] := by decide
  unfold symbolAt?
  rw [List.find?_eq_none]
  constructor
  · intro h hr
    obtain ⟨tail, rfl⟩ := List.head?_eq_some_iff.1 hr
    exact h (['!', '='], neq) (by decide) (List.isPrefixOf_iff_prefix.2 ⟨tail, rfl⟩)
  · intro h entry he hp
    obtain ⟨tail, ht⟩ := List.isPrefixOf_iff_prefix.1 hp
    have hhead : entry.1.head? = some '!' := by
      rw [← List.head?_append_of_ne_nil entry.1 (symbols_ne_nil entry he), ht]
      rfl
    rw [hbang entry he hhead] at ht
    obtain ⟨-, hr⟩ := List.cons.inj ht
    exact h (by rw [← hr]; rfl)

theorem symbolAt?_ends {entry : Text × Kind} (he : entry ∈ symbols)
    (hr : ∀ x, rest.head? = some x → x ∈ marks) :
    symbolAt? (entry.1 ++ rest) = some entry := by
  have hall : ∀ entry ∈ symbols, ([] :: marks.map ([·])).all (fun (t : Text) =>
      symbolAt? ((entry.1 ++ t).take 2) = some entry) = true := by decide
  have hone := List.all_eq_true.1 (hall entry he)
  have hne := symbols_ne_nil entry he
  have htake : ∀ t : Text, (entry.1 ++ t).take 2 = (entry.1 ++ t.take 1).take 2 := by
    intro t
    have hpos := List.length_pos_iff.2 hne
    rw [List.take_append, List.take_append, List.take_take]
    congr 2
    omega
  rw [symbolAt?_take, htake]
  cases rest with
  | nil => exact of_decide_eq_true (hone [] List.mem_cons_self)
  | cons x tail =>
    have hmem := List.mem_map_of_mem (f := ([·])) (hr x rfl)
    exact of_decide_eq_true (hone [x] (List.mem_cons_of_mem _ hmem))

end Kind

section Resume

variable {tail value : Text}

theorem Kind.EndsAs.takeWhile_eq {p : Char → Bool} (he : kind.EndsAs rest rest')
    (hp : ∀ x, kind.endedBy x = true → p x = false)
    (hl : ((tail ++ rest).takeWhile p).length = tail.length) :
    (tail ++ rest').takeWhile p = (tail ++ rest).takeWhile p := by
  have hr := takeWhile_append_of_length hl
  rw [he.takeWhile_append hp hr, hr]

theorem Kind.EndsAs.numeral_eq (he : kind.EndsAs rest rest')
    (hl : (numeral (tail ++ rest)).length = tail.length) :
    numeral (tail ++ rest') = numeral (tail ++ rest) := by
  obtain ⟨behind, hn⟩ := numeral_append_drop (tail ++ rest)
  obtain ⟨hr, -⟩ := List.append_inj hn hl.symm
  rw [he.numeral_append hr.symm, ← hr]

theorem Literal.read_resume (h : read (tail ++ rest) = .closed value tail.length)
    (rest' : Text) : read (tail ++ rest') = .closed value tail.length := by
  obtain ⟨body, behind, hb, hwidth, hd⟩ := decodes_of_read h
  have hsplit : tail ++ rest = (body ++ ['"']) ++ behind := by
    rw [hb, List.append_assoc]
    rfl
  obtain ⟨rfl, -⟩ := List.append_inj hsplit (by simp [hwidth])
  rw [hwidth, List.append_assoc, List.singleton_append]
  exact read_closed hd rest'

theorem Kind.EndsAs.symbolAt?_eq (he : kind.EndsAs rest rest') (hne : text ≠ [])
    (h : symbolAt? (text ++ rest) = some (text, kind)) :
    symbolAt? (text ++ rest') = some (text, kind) := by
  have hmem := mem_symbols_of_symbolAt? h
  cases rest' with
  | nil => exact symbolAt?_ends hmem (by simp)
  | cons x more =>
    rcases he x rfl with hx | hx
    · obtain ⟨behind, rfl⟩ := List.head?_eq_some_iff.1 hx
      obtain ⟨c, tail, rfl⟩ := List.exists_cons_of_ne_nil hne
      have htake : (c :: tail ++ x :: more).take 2 = (c :: tail ++ x :: behind).take 2 := by
        cases tail <;> simp
      rw [symbolAt?_take, htake, ← symbolAt?_take]
      exact h
    · refine symbolAt?_ends hmem fun y hy => ?_
      cases hy
      exact mem_marks_of_endedBy hx

/-- A token that is no line break is read alike wherever what stands behind it ends it as well. -/
theorem TokenAt.resume_of_ends (h : TokenAt (text ++ rest) kind lexeme text.length)
    (hk : kind ≠ .newline) (he : kind.EndsAs rest rest') :
    TokenAt (text ++ rest') kind lexeme text.length := by
  obtain ⟨hne, -⟩ := h.spells_text
  obtain ⟨c, tail, rfl⟩ := List.exists_cons_of_ne_nil hne
  rw [List.cons_append] at h ⊢
  -- The constructors of `TokenAt` do not speak of appended texts.
  generalize hw : (c :: tail).length = w at h ⊢
  generalize ht : tail ++ rest = t at h
  rw [List.length_cons] at hw
  cases h with
  | comment hb =>
    subst ht
    have hends : ∀ x, Kind.comment.endedBy x = true → (!isLineBreak x) = false := by
      intro x hx
      simpa [Kind.endedBy] using hx
    exact .comment (by rw [he.takeWhile_eq hends (by rw [← hb]; omega), hb])
  | lineBreak => exact absurd rfl hk
  | word hc hb =>
    subst ht
    have hlen := congrArg List.length hb
    rw [List.length_cons] at hlen
    have hends := fun x (hx : (Kind.ofWord lexeme).endedBy x = true) =>
      Kind.continuesWord_of_endedBy hx
    exact .word hc (by rw [he.takeWhile_eq hends (by omega), hb])
  | number hc hb =>
    subst ht
    have hlen := congrArg List.length hb
    rw [List.length_cons] at hlen
    exact .number hc (by rw [he.numeral_eq (by omega), hb])
  | string hr =>
    subst ht
    obtain rfl := Nat.succ.inj hw
    exact .string (Literal.read_resume hr rest')
  | symbol hs =>
    subst ht
    obtain ⟨-, behind, hb⟩ := Kind.exists_of_symbolAt? hs
    rw [← List.cons_append] at hb hs
    obtain ⟨rfl, -⟩ := List.append_inj hb (by simp; omega)
    exact .symbol (he.symbolAt?_eq hne hs)

end Resume

theorem TokenAt.resume (h : TokenAt (text ++ rest) kind lexeme text.length)
    (hk : kind ≠ .newline) (he : EndsAlike rest rest') :
    TokenAt (text ++ rest') kind lexeme text.length := h.resume_of_ends hk (he.endsAs kind)

namespace Piece

/-- A fault right at a character is found by looking for a symbol, whatever follows. -/
theorem read_eq_ofSymbol {cause : Cause} (h : read c rest = .fault cause 0) (rest' : Text) :
    read c rest' = ofSymbol c rest' := by
  unfold read at h ⊢
  split at h
  · cases h
  split at h
  · cases h
  split at h
  · cases h
  split at h
  · cases h
  split at h
  · cases h
  split at h
  · unfold ofLiteral at h
    split at h <;> cases h
  · simp_all

theorem read_unexpected (h : read c rest = .fault (.unexpected c) 0) (rest' : Text) :
    read c rest' = .fault (.unexpected c) 0 := by
  have hs := (read_eq_ofSymbol h rest).symm.trans h
  rw [read_eq_ofSymbol h rest']
  have hp := pieceAt_read c rest
  rw [h] at hp
  cases hp with
  | unexpected hc hn =>
    unfold ofSymbol
    rw [Kind.symbolAt?_of_ne_bang hc hn rest']
    exact congrArg (fault · 0) (if_neg hc)

theorem read_bang (h : rest.head? ≠ some '=') : read '!' rest = .fault .bareBang 0 := by
  have hw : startsWord '!' = false := by decide +kernel
  have hd : Unicode.isDecimalDigit '!' = false := by decide +kernel
  rw [read_of_not_mem_marks (by decide), if_neg (by simp [hw]), if_neg (by simp [hd]), ofSymbol,
    Kind.symbolAt?_bang.2 h]
  rfl

end Piece

inductive BreakBefore (rest : Text) : Text → Prop
  | lineFeed : BreakBefore rest ['\n']
  | pair : BreakBefore rest ['\r', '\n']
  | carriageReturn (h : rest.head? ≠ some '\n') : BreakBefore rest ['\r']

theorem breakBefore_lineBreakAt (hc : isLineBreak c = true) (rest : Text) :
    ∃ tail, c :: rest = lineBreakAt c rest ++ tail ∧ BreakBefore tail (lineBreakAt c rest) := by
  unfold lineBreakAt
  split
  · rename_i h
    obtain ⟨rfl, hh⟩ := h
    obtain ⟨tail, rfl⟩ := List.head?_eq_some_iff.1 hh
    exact ⟨tail, rfl, .pair⟩
  · rename_i h
    refine ⟨rest, rfl, ?_⟩
    rcases isLineBreak_iff.1 hc with rfl | rfl
    · exact .lineFeed
    · exact .carriageReturn fun hh => h ⟨rfl, hh⟩

namespace BreakBefore

theorem exists_cons (h : BreakBefore rest text) :
    ∃ c tail, text ++ rest = c :: tail ∧ isLineBreak c = true ∧ lineBreakAt c tail = text := by
  cases h with
  | lineFeed => exact ⟨'\n', rest, rfl, rfl, rfl⟩
  | pair => exact ⟨'\r', '\n' :: rest, rfl, rfl, rfl⟩
  | carriageReturn hr => exact ⟨'\r', rest, rfl, rfl, if_neg fun h => hr h.2⟩

theorem ne_nil (h : BreakBefore rest text) : text ≠ [] := by
  cases h <;> simp

theorem resume (h : BreakBefore rest text)
    (hr : text.getLast? = some '\r' → rest'.head? ≠ some '\n') : BreakBefore rest' text := by
  cases h with
  | lineFeed => exact .lineFeed
  | pair => exact .pair
  | carriageReturn => exact .carriageReturn (hr rfl)

theorem head?_ne (h : BreakBefore rest text) (ht : text.getLast? = some '\r') :
    rest.head? ≠ some '\n' := by
  cases h with
  | lineFeed => cases ht
  | pair => cases ht
  | carriageReturn hr => exact hr

end BreakBefore

theorem tokenAt_newline_iff :
    TokenAt (text ++ rest) .newline lexeme text.length ↔ lexeme = text ∧ BreakBefore rest text := by
  constructor
  · intro h
    obtain ⟨hne, -⟩ := h.spells_text
    obtain ⟨c, tail, ht⟩ := List.exists_cons_of_ne_nil (List.append_ne_nil_of_left_ne_nil hne rest)
    rw [ht] at h
    obtain ⟨hc, rfl, hlen⟩ := h.lineBreak_of_newline rfl
    obtain ⟨behind, hb, hbreak⟩ := breakBefore_lineBreakAt hc tail
    obtain ⟨rfl, rfl⟩ := List.append_inj (ht.trans hb) hlen
    exact ⟨rfl, hbreak⟩
  · rintro ⟨rfl, hb⟩
    obtain ⟨c, tail, ht, hc, hl⟩ := hb.exists_cons
    rw [ht, ← hl]
    exact .lineBreak hc

theorem tokenAt_comment_iff :
    TokenAt ('#' :: text ++ rest) .comment text (text.length + 1) ↔
      (text ++ rest).takeWhile (!isLineBreak ·) = text := by
  constructor
  · intro h
    have hread : Piece.read '#' (text ++ rest) = _ := h.read_eq
    obtain ⟨-, hbody, -⟩ := Piece.token.inj hread
    exact hbody
  · exact fun h => .comment h.symm

end Offside
