import Offside.Scan.Piece

/-! The classes of characters that begin tokens are apart from each other. -/
namespace Offside

namespace Unicode

def RangeTable.apart (a b : RangeTable) : Bool :=
  a.all fun r => b.all fun q => r.2 < q.1 || q.2 < r.1

theorem RangeTable.not_contains_of_apart {a b : RangeTable} {m n : Nat}
    (ha : a.ascendingFrom m) (hb : b.ascendingFrom n) (h : a.apart b = true) {x : Nat}
    (hx : a.contains x = true) : b.contains x = false := by
  refine Bool.eq_false_iff.2 fun hy => ?_
  obtain ⟨r, hr, hr1, hr2⟩ := (RangeTable.contains_iff ha x).1 hx
  obtain ⟨q, hq, hq1, hq2⟩ := (RangeTable.contains_iff hb x).1 hy
  have hrq := List.all_eq_true.1 (List.all_eq_true.1 h r hr) q hq
  simp only [Bool.or_eq_true, decide_eq_true_eq] at hrq
  omega

theorem decimalDigits_apart_lettersBasic : decimalDigits.apart lettersBasic = true := by
  decide +kernel

theorem decimalDigits_apart_lettersBeyond : decimalDigits.apart lettersBeyond = true := by
  decide +kernel

theorem isLetter_of_isDecimalDigit {c : Char} (h : isDecimalDigit c = true) :
    isLetter c = false := by
  have hb := RangeTable.not_contains_of_apart decimalDigits_ascending lettersBasic_ascending
    decimalDigits_apart_lettersBasic h
  have hy := RangeTable.not_contains_of_apart decimalDigits_ascending lettersBeyond_ascending
    decimalDigits_apart_lettersBeyond h
  unfold isLetter
  split
  · exact hb
  · exact hy

end Unicode

/-- The characters that are read as they are, whatever stands behind them. -/
def marks : List Char := [' ', '\t', '#', '\n', '\r', '"']

variable {c : Char}

theorem marks_apart (h : c ∈ marks) :
    continuesWord c = false ∧ Unicode.isDecimalDigit c = false := by
  have hall : marks.all (fun c => !continuesWord c && !Unicode.isDecimalDigit c) = true := by
    decide +kernel
  have hc := List.all_eq_true.1 hall c h
  rwa [Bool.and_eq_true, Bool.not_eq_true', Bool.not_eq_true'] at hc

theorem not_mem_marks_of_continuesWord (h : continuesWord c = true) : c ∉ marks := by
  intro hc
  rw [(marks_apart hc).1] at h
  cases h

theorem not_mem_marks_of_startsWord (h : startsWord c = true) : c ∉ marks := by
  apply not_mem_marks_of_continuesWord
  rw [continuesWord, h, Bool.true_or]

theorem not_mem_marks_of_isDecimalDigit (h : Unicode.isDecimalDigit c = true) : c ∉ marks := by
  apply not_mem_marks_of_continuesWord
  rw [continuesWord, h, Bool.or_true]

theorem isDecimalDigit_point : Unicode.isDecimalDigit '.' = false := by decide +kernel

theorem startsWord_of_isDecimalDigit (h : Unicode.isDecimalDigit c = true) :
    startsWord c = false := by
  have hu : c ≠ '_' := by
    intro hc
    have hn : Unicode.isDecimalDigit '_' = false := by decide +kernel
    rw [← hc, h] at hn
    cases hn
  simp [startsWord, Unicode.isLetter_of_isDecimalDigit h, hu]

theorem isBlank_of_not_mem_marks (h : c ∉ marks) : isBlank c = false := by
  simp only [marks, List.mem_cons, not_or] at h
  simp [isBlank, h]

theorem isLineBreak_of_not_mem_marks (h : c ∉ marks) : isLineBreak c = false := by
  simp only [marks, List.mem_cons, not_or] at h
  simp [isLineBreak, h]

theorem symbols_apart {entry : Text × Kind} (he : entry ∈ Kind.symbols) (hc : c ∈ entry.1) :
    c ∉ marks ∧ startsWord c = false ∧ Unicode.isDecimalDigit c = false := by
  have hall : ∀ entry ∈ Kind.symbols, entry.1.all (fun c =>
      c ∉ marks && (!startsWord c && !Unicode.isDecimalDigit c)) = true := by
    decide +kernel
  have h := List.all_eq_true.1 (hall entry he) c hc
  rwa [Bool.and_eq_true, Bool.and_eq_true, decide_eq_true_iff, Bool.not_eq_true',
    Bool.not_eq_true'] at h

namespace Piece

variable {rest : Text}

theorem read_of_not_mem_marks (h : c ∉ marks) (rest : Text) :
    read c rest =
      if startsWord c then
        text (.ofWord (c :: rest.takeWhile continuesWord)) (c :: rest.takeWhile continuesWord)
      else if Unicode.isDecimalDigit c then text .number (c :: numeral rest)
      else ofSymbol c rest := by
  have hb := isBlank_of_not_mem_marks h
  have hl := isLineBreak_of_not_mem_marks h
  simp only [marks, List.mem_cons, not_or] at h
  simp [read, hb, hl, h]

theorem read_of_startsWord (h : startsWord c = true) (rest : Text) :
    read c rest =
      text (.ofWord (c :: rest.takeWhile continuesWord)) (c :: rest.takeWhile continuesWord) := by
  rw [read_of_not_mem_marks (not_mem_marks_of_startsWord h), if_pos h]

theorem read_of_isDecimalDigit (h : Unicode.isDecimalDigit c = true) (rest : Text) :
    read c rest = text .number (c :: numeral rest) := by
  have hw := startsWord_of_isDecimalDigit h
  rw [read_of_not_mem_marks (not_mem_marks_of_isDecimalDigit h), if_neg (by simp [hw]), if_pos h]

theorem read_quote (rest : Text) : read '"' rest = ofLiteral (.read rest) := by
  obtain ⟨hw, hd⟩ := marks_apart (c := '"') (by decide)
  rw [continuesWord, Bool.or_eq_false_iff] at hw
  simp [read, isBlank, isLineBreak, hw.1, hd]

end Piece
end Offside
