import Offside.Proofs.Steps

/-! Where an offset lies: its line and column, counted from the source alone. -/
namespace Offside

/-- A line break ends right before the offset. A carriage return before a line feed ends none:
the two are one line break. -/
def endsBefore (source : Text) : Nat → Bool
  | 0 => false
  | i + 1 => source[i]? == some '\n' || source[i]? == some '\r' && source[i + 1]? != some '\n'

def lineEnds (source : Text) (offset : Nat) : List Nat :=
  (List.range (offset + 1)).filter (endsBefore source)

/-- One line more than line breaks ended, one column more than code points behind the last. -/
def Position.at (source : Text) (offset : Nat) : Position where
  line := 1 + (lineEnds source offset).length
  column := 1 + (offset - (lineEnds source offset).getLastD 0 : Nat)

variable {source : Text}

theorem lineEnds_succ (source : Text) (offset : Nat) :
    lineEnds source (offset + 1) =
      lineEnds source offset ++ if endsBefore source (offset + 1) then [offset + 1] else [] := by
  unfold lineEnds
  rw [List.range_succ, List.filter_append]
  congr 1
  by_cases h : endsBefore source (offset + 1) = true <;> simp [h]

theorem le_of_mem_lineEnds {offset e : Nat} (h : e ∈ lineEnds source offset) : e ≤ offset := by
  have := List.mem_range.1 (List.mem_filter.1 h).1
  omega

theorem getLastD_lineEnds_le (source : Text) (offset : Nat) :
    (lineEnds source offset).getLastD 0 ≤ offset := by
  rw [List.getLastD_eq_getLast?]
  cases h : (lineEnds source offset).getLast? with
  | none => exact Nat.zero_le _
  | some e => exact le_of_mem_lineEnds (List.mem_of_getLast? h)

theorem getElem?_of_drop {offset : Nat} {c : Char} {rest : Text}
    (h : source.drop offset = c :: rest) : source[offset]? = some c := by
  rw [← List.head?_drop, h]
  rfl

theorem endsBefore_succ {offset : Nat} {c : Char} {rest : Text}
    (h : source.drop offset = c :: rest) :
    endsBefore source (offset + 1) = endsLine c rest := by
  have hc := getElem?_of_drop h
  have hr : source[offset + 1]? = rest.head? := by
    rw [← List.head?_drop, ← List.tail_drop, h]
    rfl
  simp [endsBefore, endsLine, hc, hr]

namespace Position

/-- Places counted from the source agree with places carried along. -/
theorem at_succ {offset : Nat} {c : Char} {rest : Text} (h : source.drop offset = c :: rest) :
    .at source (offset + 1) = (Position.at source offset).after c rest := by
  have hle := getLastD_lineEnds_le source offset
  unfold Position.at after
  rw [lineEnds_succ, endsBefore_succ h]
  by_cases hc : endsLine c rest = true
  · rw [if_pos hc, if_pos hc, List.length_append, List.getLastD_concat]
    simp only [List.length_singleton, Nat.sub_self, Position.mk.injEq]
    omega
  · rw [if_neg hc, if_neg hc, List.append_nil]
    simp only [Position.mk.injEq, true_and]
    omega

end Position

structure Cursor.In (c : Cursor) (source : Text) : Prop where
  offset_le : c.offset ≤ source.length
  rest_eq : c.rest = source.drop c.offset
  place_eq : c.place = .at source c.offset

namespace Cursor

theorem in_start (source : Text) : (start source).In source where
  offset_le := Nat.zero_le _
  rest_eq := rfl
  place_eq := rfl

theorem In.next {c : Cursor} (h : c.In source) : c.next.In source := by
  cases hr : c.rest with
  | nil =>
    have hn : c.next = c := by simp [Cursor.next, hr]
    rwa [hn]
  | cons x rest =>
    have hd : source.drop c.offset = x :: rest := h.rest_eq.symm.trans hr
    have hn : c.next = ⟨rest, c.offset + 1, c.place.after x rest⟩ := by simp [Cursor.next, hr]
    have hlen := congrArg List.length hd
    rw [List.length_drop, List.length_cons] at hlen
    rw [hn]
    constructor
    · dsimp only
      omega
    · dsimp only
      rw [← List.tail_drop, hd]
      rfl
    · dsimp only
      rw [h.place_eq, Position.at_succ hd]

theorem In.skip {c : Cursor} (h : c.In source) (n : Nat) : (c.skip n).In source := by
  induction n generalizing c with
  | zero => exact h
  | succ n ih => exact ih h.next

theorem In.source_eq {c : Cursor} (h : c.In source) : source = source.take c.offset ++ c.rest := by
  rw [h.rest_eq, List.take_append_drop]

theorem place_skip_lineBreak {cursor : Cursor} {c : Char} {rest : Text}
    (hr : cursor.rest = c :: rest) (hc : isLineBreak c = true) :
    (cursor.skip (lineBreakAt c rest).length).place = ⟨cursor.place.line + 1, 1⟩ := by
  have hn : cursor.next = ⟨rest, cursor.offset + 1, cursor.place.after c rest⟩ := by
    simp [Cursor.next, hr]
  unfold lineBreakAt
  split
  · rename_i h
    obtain ⟨rfl, hh⟩ := h
    obtain ⟨tail, rfl⟩ := List.head?_eq_some_iff.1 hh
    have ha : cursor.place.after '\r' ('\n' :: tail) =
        ⟨cursor.place.line, cursor.place.column + 1⟩ := if_neg (by simp [endsLine])
    change (cursor.next.next).place = _
    rw [hn, ha]
    rfl
  · rename_i h
    have he : endsLine c rest = true := by
      rcases isLineBreak_iff.1 hc with rfl | rfl
      · rfl
      · simpa [endsLine] using h
    change cursor.next.place = _
    rw [hn]
    exact if_pos he

end Cursor

namespace Scan

variable {s t : Scan}

theorem Advance.exists_skip (h : s.Advance t) : ∃ n, t.cursor = s.cursor.skip n := by
  cases h with
  | lastMargin => exact ⟨_, rfl⟩
  | emptyLine => exact ⟨_, (Cursor.skip_add _ _ _).symm⟩
  | opens => exact ⟨_, rfl⟩
  | closes => exact ⟨_, rfl⟩
  | blank => exact ⟨1, rfl⟩
  | token => exact ⟨_, rfl⟩

theorem cursor_in_of_reaches (h : (start source).Reaches s) : s.cursor.In source := by
  refine h.preserves (P := fun s => s.cursor.In source) (fun ha hs => ?_) (Cursor.in_start source)
  obtain ⟨n, hn⟩ := ha.exists_skip
  rw [hn]
  exact hs.skip n

end Scan
end Offside
