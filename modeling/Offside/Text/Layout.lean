import Offside.Text.Basic

/-! Blanks and the three forms of a line break. -/
namespace Offside

/-- The two characters that separate tokens and measure indentation. -/
def isBlank (c : Char) : Bool := c == ' ' || c == '\t'

def isLineBreak (c : Char) : Bool := c == '\n' || c == '\r'

theorem isBlank_iff {c : Char} : isBlank c = true ↔ c = ' ' ∨ c = '\t' := by
  simp [isBlank]

theorem isLineBreak_iff {c : Char} : isLineBreak c = true ↔ c = '\n' ∨ c = '\r' := by
  simp [isLineBreak]

theorem not_isLineBreak_iff {c : Char} : isLineBreak c = false ↔ c ≠ '\n' ∧ c ≠ '\r' := by
  simp [isLineBreak]

theorem not_isLineBreak_of_isBlank {c : Char} (h : isBlank c = true) : isLineBreak c = false := by
  rcases isBlank_iff.1 h with rfl | rfl
  · rfl
  · rfl

theorem not_isBlank_of_isLineBreak {c : Char} (h : isLineBreak c = true) : isBlank c = false := by
  rcases isLineBreak_iff.1 h with rfl | rfl
  · rfl
  · rfl

/-- A carriage return before a line feed leaves it to the line feed to end the line. -/
def endsLine (c : Char) (rest : Text) : Bool :=
  c == '\n' || c == '\r' && rest.head? != some '\n'

/-- The one line break that a break character begins, given what follows it. -/
def lineBreakAt (c : Char) (rest : Text) : Text :=
  if c = '\r' ∧ rest.head? = some '\n' then [c, '\n'] else [c]

theorem lineBreakAt_ne_nil (c : Char) (rest : Text) : lineBreakAt c rest ≠ [] := by
  unfold lineBreakAt; split <;> simp

/-- Every line break becomes a line feed. -/
def unifyBreaks : Text → Text
  | [] => []
  | '\r' :: '\n' :: rest => '\n' :: unifyBreaks rest
  | c :: rest => (if c = '\r' then '\n' else c) :: unifyBreaks rest

theorem unifyBreaks_of_not_mem {t : Text} (h : '\r' ∉ t) : unifyBreaks t = t := by
  fun_induction unifyBreaks t with
  | case1 => rfl
  | case2 => simp at h
  | case3 c rest _ ih =>
    rw [List.mem_cons, not_or] at h
    rw [ih h.2, if_neg fun hc => h.1 hc.symm]

theorem not_mem_unifyBreaks (t : Text) : '\r' ∉ unifyBreaks t := by
  fun_induction unifyBreaks t with
  | case1 => simp
  | case2 rest ih => simpa using ih
  | case3 c rest _ ih =>
    rw [List.mem_cons, not_or]
    refine ⟨?_, ih⟩
    split
    · decide
    · rename_i hc
      exact fun h => hc h.symm

end Offside
