import Offside.Proofs.Spelling

/-! How literals end: closed by a quote, or cut off by a line break or the end of the input. What
would have closed them depends on the backslashes that they end in. -/
namespace Offside

variable {c : Char} {t body value rest : Text} {width : Nat}

namespace Literal

def prepend (value : Text) (width : Nat) : Literal → Literal
  | closed v w => closed (value ++ v) (w + width)
  | broken w => broken (w + width)
  | unterminated w => unterminated (w + width)

theorem prepend_nil (l : Literal) : l.prepend [] 0 = l := by
  cases l <;> rfl

theorem cons_prepend (c : Char) (n : Nat) (value : Text) (width : Nat) (l : Literal) :
    (l.prepend value width).cons c n = l.prepend (c :: value) (width + n) := by
  cases l <;> simp [prepend, cons, Nat.add_assoc]

theorem read_plain (hq : c ≠ '"') (hb : c ≠ '\\') (hl : isLineBreak c = false) (rest : Text) :
    read (c :: rest) = (read rest).cons c 1 := by
  rw [read, if_neg (by simp [hl])]
  · exact hq
  · intro hc
    exact absurd hc hb
  · intro y tail hc
    exact absurd hc hb

theorem read_escaped_char (c : Char) (rest : Text) :
    read ('\\' :: c :: rest) = (read rest).cons (unescape c) 2 := by
  rw [read]

theorem unescape_of_not_mem (hc : c ∉ ['n', 'r', 't']) : unescape c = c := by
  unfold unescape
  split <;> simp_all

/-- A decoded body is read as its value, whatever stands behind it. -/
theorem read_append (h : Decodes body value) (rest : Text) :
    read (body ++ rest) = (read rest).prepend value body.length := by
  induction h with
  | nil => exact (prepend_nil _).symm
  | plain hc _ ih =>
    simp only [List.mem_cons, List.not_mem_nil, or_false, not_or] at hc
    have hl := not_isLineBreak_iff.2 ⟨hc.2.2.1, hc.2.2.2⟩
    rw [List.cons_append, read_plain hc.2.1 hc.1 hl, ih, cons_prepend, List.length_cons]
  | lineFeed _ ih =>
    rw [List.cons_append, List.cons_append, read_escaped_char, ih, cons_prepend]
    rfl
  | carriageReturn _ ih =>
    rw [List.cons_append, List.cons_append, read_escaped_char, ih, cons_prepend]
    rfl
  | tab _ ih =>
    rw [List.cons_append, List.cons_append, read_escaped_char, ih, cons_prepend]
    rfl
  | itself hc _ ih =>
    rw [List.cons_append, List.cons_append, read_escaped_char, ih, cons_prepend,
      unescape_of_not_mem hc]
    rfl

theorem read_closed (h : Decodes body value) (rest : Text) :
    read (body ++ '"' :: rest) = closed value (body.length + 1) := by
  rw [read_append h, read, prepend, List.append_nil, Nat.add_comm]

theorem read_lineBreak (hc : isLineBreak c = true) (rest : Text) :
    read (c :: rest) = broken 0 := by
  rcases isLineBreak_iff.1 hc with rfl | rfl
  · rfl
  · rfl

theorem read_broken (h : Decodes body value) (hc : isLineBreak c = true) (rest : Text) :
    read (body ++ c :: rest) = broken body.length := by
  rw [read_append h, read_lineBreak hc, prepend, Nat.zero_add]

theorem read_unterminated (h : Decodes body value) (ht : t = body ∨ t = body ++ ['\\']) :
    read t = unterminated t.length := by
  rcases ht with rfl | rfl
  · have hr := read_append h []
    rw [List.append_nil] at hr
    rw [hr, read, prepend, Nat.zero_add]
  · rw [read_append h, read, prepend, List.length_append, List.length_singleton, Nat.add_comm]

section Inversion

theorem exists_of_cons_eq_broken {l : Literal} {n : Nat} (h : l.cons c n = broken width) :
    ∃ w, l = broken w ∧ width = w + n := by
  cases l with
  | closed v w => cases h
  | broken w =>
    cases h
    exact ⟨w, rfl, rfl⟩
  | unterminated w => cases h

theorem exists_of_cons_eq_unterminated {l : Literal} {n : Nat}
    (h : l.cons c n = unterminated width) : ∃ w, l = unterminated w ∧ width = w + n := by
  cases l with
  | closed v w => cases h
  | broken w => cases h
  | unterminated w =>
    cases h
    exact ⟨w, rfl, rfl⟩

theorem decodes_plain (hq : c = '"' → False) (hb : c = '\\' → rest = [] → False)
    (hbc : ∀ x tail, c = '\\' → rest = x :: tail → False) (hl : ¬ isLineBreak c = true)
    (h : Decodes body value) : Decodes (c :: body) (c :: value) := by
  refine .plain ?_ h
  have hbs : c ≠ '\\' := by
    intro hc
    cases rest with
    | nil => exact hb hc rfl
    | cons x tail => exact hbc x tail hc rfl
  have hbreak := not_isLineBreak_iff.1 (Bool.eq_false_iff.2 hl)
  simp only [List.mem_cons, List.not_mem_nil, or_false, not_or]
  exact ⟨hbs, hq, hbreak.1, hbreak.2⟩

/-- A literal that a line break cuts off can be decoded up to there. -/
theorem decodes_of_read_broken (h : read t = broken width) :
    ∃ body value c rest, t = body ++ c :: rest ∧ width = body.length ∧
      isLineBreak c = true ∧ Decodes body value := by
  fun_induction read t generalizing width with
  | case1 => cases h
  | case2 => cases h
  | case3 => cases h
  | case4 c rest ih =>
    obtain ⟨w, hr, rfl⟩ := exists_of_cons_eq_broken h
    obtain ⟨body, value, x, tail, rfl, rfl, hx, hd⟩ := ih hr
    exact ⟨'\\' :: c :: body, _, x, tail, rfl, rfl, hx, decodes_escaped c hd⟩
  | case5 c rest hq hb hbc hl =>
    cases h
    exact ⟨[], [], c, rest, rfl, rfl, hl, .nil⟩
  | case6 c rest hq hb hbc hl ih =>
    obtain ⟨w, hr, rfl⟩ := exists_of_cons_eq_broken h
    obtain ⟨body, value, x, tail, rfl, rfl, hx, hd⟩ := ih hr
    exact ⟨c :: body, _, x, tail, rfl, rfl, hx, decodes_plain hq hb hbc hl hd⟩

theorem decodes_of_read_unterminated (h : read t = unterminated width) :
    width = t.length ∧ ∃ body value, Decodes body value ∧ (t = body ∨ t = body ++ ['\\']) := by
  fun_induction read t generalizing width with
  | case1 =>
    cases h
    exact ⟨rfl, [], [], .nil, .inl rfl⟩
  | case2 => cases h
  | case3 =>
    cases h
    exact ⟨rfl, [], [], .nil, .inr rfl⟩
  | case4 c rest ih =>
    obtain ⟨w, hr, rfl⟩ := exists_of_cons_eq_unterminated h
    obtain ⟨hw, body, value, hd, he⟩ := ih hr
    refine ⟨by rw [hw]; rfl, '\\' :: c :: body, _, decodes_escaped c hd, ?_⟩
    rcases he with rfl | rfl
    · exact .inl rfl
    · exact .inr rfl
  | case5 => cases h
  | case6 c rest hq hb hbc hl ih =>
    obtain ⟨w, hr, rfl⟩ := exists_of_cons_eq_unterminated h
    obtain ⟨hw, body, value, hd, he⟩ := ih hr
    refine ⟨by rw [hw]; rfl, c :: body, _, decodes_plain hq hb hbc hl hd, ?_⟩
    rcases he with rfl | rfl
    · exact .inl rfl
    · exact .inr rfl

end Inversion

end Literal

/-- How many backslashes a text ends in. -/
def backslashes (t : Text) : Nat := (t.reverse.takeWhile (· == '\\')).length

theorem backslashes_concat (t : Text) : backslashes (t ++ ['\\']) = backslashes t + 1 := by
  simp [backslashes]

theorem backslashes_append_cons (hc : c ≠ '\\') (before t : Text) :
    backslashes (before ++ c :: t) = backslashes t := by
  have hr : (before ++ c :: t).reverse = t.reverse ++ c :: before.reverse := by simp
  unfold backslashes
  rw [hr, List.takeWhile_append]
  split
  · rename_i hl
    rw [List.takeWhile_cons, if_neg (by simpa using hc), List.append_nil, hl]
  · rfl

theorem backslashes_cons (t : Text) :
    backslashes ('\\' :: t) = backslashes t + if backslashes t = t.length then 1 else 0 := by
  unfold backslashes
  rw [List.reverse_cons, List.takeWhile_append, List.length_reverse]
  split
  · simp_all
  · rfl

theorem backslashes_le_length (t : Text) : backslashes t ≤ t.length := by
  have h := (List.takeWhile_prefix (· == '\\') (l := t.reverse)).length_le
  rwa [List.length_reverse] at h

theorem backslashes_escaped (c : Char) (t : Text) :
    backslashes ('\\' :: c :: t) % 2 = backslashes t % 2 := by
  by_cases hc : c = '\\'
  · have hle := backslashes_le_length t
    subst hc
    rw [backslashes_cons, backslashes_cons, List.length_cons]
    split <;> split <;> omega
  · rw [← List.singleton_append, backslashes_append_cons hc]

/-- A decoded body ends in no backslash that would escape what follows. -/
theorem Decodes.even_backslashes (h : Decodes body value) : backslashes body % 2 = 0 := by
  induction h with
  | nil => rfl
  | @plain c body value hc _ ih =>
    have hb : c ≠ '\\' := fun he => hc (by simp [he])
    rw [← List.nil_append (c :: body), backslashes_append_cons hb]
    exact ih
  | lineFeed _ ih => rw [backslashes_escaped, ih]
  | carriageReturn _ ih => rw [backslashes_escaped, ih]
  | tab _ ih => rw [backslashes_escaped, ih]
  | itself _ _ ih => rw [backslashes_escaped, ih]

/-- The quotes that close a literal behind a text: one more than usual behind a backslash that
escapes the first. -/
def closingQuotes (t : Text) : Text := if backslashes t % 2 = 1 then ['"', '"'] else ['"']

theorem closingQuotes_append_cons (hc : c ≠ '\\') (before t : Text) :
    closingQuotes (before ++ c :: t) = closingQuotes t := by
  unfold closingQuotes
  rw [backslashes_append_cons hc]

namespace Literal

theorem exists_read_closingQuotes (h : Decodes body value) (ht : t = body ∨ t = body ++ ['\\']) :
    ∃ v, read (t ++ closingQuotes t) = closed v (t ++ closingQuotes t).length := by
  have heven := h.even_backslashes
  rcases ht with rfl | rfl
  · have hq : closingQuotes t = ['"'] := if_neg (by omega)
    refine ⟨value, ?_⟩
    rw [hq, read_closed h, List.length_append, List.length_singleton]
  -- The first of two quotes is the one that the last backslash escapes.
  · have hq : closingQuotes (body ++ ['\\']) = ['"', '"'] := by
      apply if_pos
      rw [backslashes_concat]
      omega
    have hquote : read ['\\', '"', '"'] = closed ['"'] 3 := rfl
    refine ⟨value ++ ['"'], ?_⟩
    rw [hq, List.append_assoc, List.singleton_append, read_append h, hquote, prepend,
      List.length_append, List.length_cons, List.length_cons, List.length_singleton, Nat.add_comm]

end Literal
end Offside
