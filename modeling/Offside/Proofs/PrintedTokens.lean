import Mathlib.Data.List.Find
import Offside.Proofs.Classes
import Offside.Proofs.Lists
import Offside.Proofs.Literals
import Offside.Proofs.Printing

/-! A printed token is read as what it was printed for, and its text ends where the next
separator stands. -/
namespace Offside

variable {c x : Char} {rest t lexeme value : Text} {kind : Kind}

namespace Literal

theorem read_escape (c : Char) (rest : Text) :
    read (escape c ++ rest) = (read rest).cons c (escape c).length := by
  unfold escape
  split
  · show read ('\\' :: 'n' :: rest) = _
    rw [read]
    rfl
  · show read ('\\' :: 'r' :: rest) = _
    rw [read]
    rfl
  · show read ('\\' :: 't' :: rest) = _
    rw [read]
    rfl
  · show read ('\\' :: '"' :: rest) = _
    rw [read]
    rfl
  · show read ('\\' :: '\\' :: rest) = _
    rw [read]
    rfl
  · rename_i hn hr _ hq hb
    have hl : isLineBreak c = false :=
      Bool.or_eq_false_iff.2 ⟨beq_eq_false_iff_ne.2 hn, beq_eq_false_iff_ne.2 hr⟩
    exact read_plain hq hb hl rest

/-- A printed literal ends at its own closing quote and has the value that it was printed for. -/
theorem read_escaped (value rest : Text) :
    read (value.flatMap escape ++ '"' :: rest) =
      closed value ((value.flatMap escape).length + 1) := by
  induction value with
  | nil =>
    rw [List.flatMap_nil, List.nil_append, read]
    rfl
  | cons c value ih =>
    rw [List.flatMap_cons, List.append_assoc, read_escape, ih, cons, List.length_append]
    congr 1
    omega

end Literal

def separators : List Char := [' ', '\n']

theorem separators_apart (hx : x ∈ separators) :
    continuesWord x = false ∧ Unicode.isDecimalDigit x = false := by
  have hmarks : separators ⊆ marks := by decide
  exact marks_apart (hmarks hx)

theorem IsNumeral.numeral_eq (h : IsNumeral t) (hx : x ∈ separators) (rest : Text) :
    numeral (t ++ x :: rest) = t := by
  obtain ⟨whole, -, hw, rfl | ⟨part, rfl, hp⟩⟩ := h
  · have hd := dropWhile_append_cons hw (separators_apart hx).2 rest
    have ht := takeWhile_append_cons hw (separators_apart hx).2 rest
    unfold numeral
    rw [hd, ht]
    simp only [separators, List.mem_cons, List.not_mem_nil, or_false] at hx
    rcases hx with rfl | rfl <;> rfl
  · have hd := dropWhile_append_cons hw isDecimalDigit_point (part ++ x :: rest)
    have ht := takeWhile_append_cons hw isDecimalDigit_point (part ++ x :: rest)
    unfold numeral
    rw [List.append_assoc, List.cons_append, hd, ht]
    show whole ++ '.' :: (part ++ x :: rest).takeWhile Unicode.isDecimalDigit = _
    rw [takeWhile_append_cons hp (separators_apart hx).2]

theorem numeral_cons (h : Unicode.isDecimalDigit c = true) (t : Text) :
    numeral (c :: t) = c :: numeral t := by
  unfold numeral
  rw [List.takeWhile_cons, List.dropWhile_cons, if_pos h, if_pos h]
  dsimp only
  split <;> rfl

/-- The text begins with a token of the kind and lexeme that is as wide as `text`. -/
def Begins (text rest : Text) (kind : Kind) (lexeme : Text) : Prop :=
  ∃ c tail, text ++ rest = c :: tail ∧ isBlank c = false ∧ isLineBreak c = false ∧
    Piece.read c tail = .token kind lexeme text.length

theorem IsWord.begins (h : IsWord t) (hx : x ∈ separators) (rest : Text) :
    Begins t (x :: rest) (.ofWord t) t := by
  obtain ⟨c, tail, rfl, hc, ht⟩ := h
  have hm := not_mem_marks_of_startsWord hc
  refine ⟨c, tail ++ x :: rest, rfl, isBlank_of_not_mem_marks hm,
    isLineBreak_of_not_mem_marks hm, ?_⟩
  rw [Piece.read_of_startsWord hc, takeWhile_append_cons ht (separators_apart hx).1]
  rfl

theorem IsNumeral.begins (h : IsNumeral t) (hx : x ∈ separators) (rest : Text) :
    Begins t (x :: rest) .number t := by
  have hn := h.numeral_eq hx rest
  obtain ⟨whole, hne, hw, he⟩ := h
  obtain ⟨c, digits, rfl⟩ := List.exists_cons_of_ne_nil hne
  have hc := hw c List.mem_cons_self
  have hm := not_mem_marks_of_isDecimalDigit hc
  obtain ⟨tail, rfl⟩ : ∃ tail, t = c :: tail := by
    rcases he with rfl | ⟨part, rfl, -⟩
    · exact ⟨digits, rfl⟩
    · exact ⟨digits ++ '.' :: part, rfl⟩
  refine ⟨c, tail ++ x :: rest, rfl, isBlank_of_not_mem_marks hm,
    isLineBreak_of_not_mem_marks hm, ?_⟩
  rw [List.cons_append, numeral_cons hc] at hn
  rw [Piece.read_of_isDecimalDigit hc, hn]
  rfl

theorem ofWord_of_mem_words : ∀ entry ∈ Kind.words, Kind.ofWord entry.1 = entry.2 := by
  decide

theorem ofWord_of_not_mem_words (h : ∀ entry ∈ Kind.words, entry.1 ≠ t) :
    Kind.ofWord t = .identifier := by
  have hr : Kind.reserved? t = none := by
    refine List.lookup_eq_none_iff.2 fun entry he => ?_
    simpa using fun ht => h entry he ht.symm
  rw [Kind.ofWord, hr]
  rfl

/-- No symbol goes on with a separator, and the longer symbols are found first. -/
theorem symbolAt?_append {entry : Text × Kind} (he : entry ∈ Kind.symbols)
    (hx : x ∈ separators) (rest : Text) :
    Kind.symbolAt? (entry.1 ++ x :: rest) = some entry := by
  have hall : ∀ entry ∈ Kind.symbols, separators.all (fun x =>
      Kind.symbolAt? (entry.1 ++ [x]) = some entry) = true := by decide
  have hone : Kind.symbolAt? (entry.1 ++ [x]) = some entry :=
    of_decide_eq_true (List.all_eq_true.1 (hall entry he) x hx)
  have hlength : ∀ other ∈ Kind.symbols, ∀ entry ∈ Kind.symbols,
      other.1.length ≤ entry.1.length + 1 := by decide
  have hrest : entry.1 ++ x :: rest = entry.1 ++ [x] ++ rest := by simp
  rw [← hone, hrest]
  refine List.find?_congr fun other ho => ?_
  rw [Bool.eq_iff_iff, List.isPrefixOf_iff_prefix, List.isPrefixOf_iff_prefix]
  constructor
  · intro hp
    have hle : other.1.length ≤ (entry.1 ++ [x]).length := by simpa using hlength other ho entry he
    exact List.prefix_of_prefix_length_le hp (List.prefix_append _ rest) hle
  · intro hp
    exact List.prefix_append_of_prefix hp

theorem begins_symbol {entry : Text × Kind} (he : entry ∈ Kind.symbols)
    (hx : x ∈ separators) (rest : Text) :
    Begins entry.1 (x :: rest) entry.2 entry.1 := by
  obtain ⟨c, tail, ht⟩ := List.exists_cons_of_ne_nil (Kind.symbols_ne_nil entry he)
  obtain ⟨hm, hw, hd⟩ := symbols_apart he (c := c) (ht ▸ List.mem_cons_self)
  have hs := symbolAt?_append he hx rest
  rw [ht, List.cons_append] at hs
  refine ⟨c, tail ++ x :: rest, by rw [ht, List.cons_append], isBlank_of_not_mem_marks hm,
    isLineBreak_of_not_mem_marks hm, ?_⟩
  rw [Piece.read_of_not_mem_marks hm, if_neg (by simp [hw]), if_neg (by simp [hd]),
    Piece.ofSymbol, hs]
  rfl

theorem begins_string (value rest : Text) :
    Begins (Kind.string.write value) rest .string value := by
  refine ⟨'"', value.flatMap escape ++ '"' :: rest, ?_, rfl, rfl, ?_⟩
  · simp [Kind.write]
  · rw [Piece.read_quote, Literal.read_escaped]
    simp [Piece.ofLiteral, Kind.write]

theorem begins_comment {body : Text} (h : ∀ c ∈ body, isLineBreak c = false) (rest : Text) :
    Begins (Kind.comment.write body) ('\n' :: rest) .comment body := by
  have hb : (body ++ '\n' :: rest).takeWhile (!isLineBreak ·) = body :=
    takeWhile_append_cons (fun c hc => by simp [h c hc]) rfl rest
  refine ⟨'#', body ++ '\n' :: rest, rfl, rfl, rfl, ?_⟩
  show Piece.token _ _ _ = _
  rw [hb]
  rfl

theorem write_of_not_mem (h : kind ∉ [.indent, .dedent, .newline, .eof, .comment, .string]) :
    kind.write lexeme = lexeme := by
  simp only [List.mem_cons, not_or] at h
  unfold Kind.write
  split
  · simp at h
  · simp at h
  · rfl

/-- Every printed token is read as what it was printed for. -/
theorem Content.begins (h : Content kind lexeme) (hx : x ∈ separators)
    (hc : kind = .comment → x = '\n') (rest : Text) :
    Begins (kind.write lexeme) (x :: rest) kind lexeme := by
  cases h with
  | string => exact begins_string lexeme (x :: rest)
  | comment hb =>
    rw [hc rfl]
    exact begins_comment hb rest
  | number hn => exact hn.begins hx rest
  | identifier hw hk =>
    have hb := hw.begins hx rest
    rwa [ofWord_of_not_mem_words hk] at hb
  | reserved hw =>
    have hb := (isWord_of_mem_words _ hw).begins hx rest
    rw [ofWord_of_mem_words _ hw] at hb
    rwa [write_of_not_mem (Kind.kinds_of_words _ hw)]
  | symbol hs =>
    rw [write_of_not_mem (Kind.kinds_of_symbols _ hs)]
    exact begins_symbol hs hx rest

end Offside
