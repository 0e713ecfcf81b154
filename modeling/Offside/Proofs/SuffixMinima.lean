import Mathlib.Data.Finset.Sort
import Mathlib.Data.Fintype.Basic
import Offside.Proofs.Lists

/-! Suffix minima of a history of depths, and descending lists that hold them. -/
namespace Offside

/-- The members of a history that no later member is below. -/
def suffixMinima (ds : List Nat) : Finset Nat :=
  ({j : Fin ds.length | ∀ k, j ≤ k → ds.get j ≤ ds.get k} : Finset (Fin ds.length)).image ds.get

variable {ds l : List Nat} {d x : Nat}

theorem mem_suffixMinima :
    x ∈ suffixMinima ds ↔
      ∃ before behind, ds = before ++ x :: behind ∧ ∀ y ∈ behind, x ≤ y := by
  simp only [suffixMinima, Finset.mem_image, Finset.mem_filter, Finset.mem_univ, true_and]
  constructor
  · rintro ⟨j, hj, rfl⟩
    refine ⟨ds.take j, ds.drop (j + 1), ?_, fun y hy => ?_⟩
    · rw [List.get_eq_getElem, List.cons_getElem_drop_succ, List.take_append_drop]
    · obtain ⟨k, hk, rfl⟩ := List.mem_drop_iff_getElem.1 hy
      exact hj ⟨j + 1 + k, by omega⟩ (Fin.mk_le_mk.2 (by omega))
  · rintro ⟨before, behind, rfl, hb⟩
    refine ⟨⟨before.length, by simp⟩, fun k hk => ?_, by simp⟩
    obtain ⟨k, hlt⟩ := k
    obtain ⟨n, rfl⟩ := Nat.exists_eq_add_of_le (Fin.mk_le_mk.1 hk)
    cases n with
    | zero => simp
    | succ n =>
      have hn : n < behind.length := by
        simp only [List.length_append, List.length_cons] at hlt
        omega
      have hm := hb _ (List.getElem_mem hn)
      simpa [List.getElem_append_right] using hm

/-- A new member takes the place of all those above it. -/
theorem suffixMinima_concat (ds : List Nat) (d : Nat) :
    suffixMinima (ds ++ [d]) = insert d ((suffixMinima ds).filter (· ≤ d)) := by
  ext x
  rw [Finset.mem_insert, Finset.mem_filter, mem_suffixMinima, mem_suffixMinima]
  constructor
  · rintro ⟨before, behind, he, hb⟩
    rcases append_cons_of_concat he with ⟨-, hx, -⟩ | ⟨tail, rfl, hds⟩
    · exact .inl hx
    · refine .inr ⟨⟨before, tail, hds, fun y hy => hb y ?_⟩, hb d ?_⟩
      · exact List.mem_append_left _ hy
      · exact List.mem_append_right _ (List.mem_singleton.2 rfl)
  · rintro (rfl | ⟨⟨before, behind, rfl, hb⟩, hx⟩)
    · exact ⟨ds, [], rfl, by simp⟩
    · refine ⟨before, behind ++ [d], by simp, fun y hy => ?_⟩
      rcases List.mem_append.1 hy with hy | hy
      · exact hb y hy
      · rwa [List.mem_singleton.1 hy]

theorem suffixMinima_singleton (d : Nat) : suffixMinima [d] = {d} := by
  have hn : suffixMinima [] = ∅ := rfl
  have hc := suffixMinima_concat [] d
  rwa [hn, Finset.filter_empty] at hc

section Descending

theorem mem_dropWhile_lt_iff (h : l.Pairwise (· > ·)) :
    x ∈ l.dropWhile (d < ·) ↔ x ∈ l ∧ x ≤ d := by
  induction l with
  | nil => simp
  | cons a l ih =>
    obtain ⟨ha, hl⟩ := List.pairwise_cons.1 h
    by_cases hd : d < a
    · rw [List.dropWhile_cons_of_pos (by simpa using hd), ih hl, List.mem_cons]
      constructor
      · rintro ⟨hx, hle⟩
        exact ⟨.inr hx, hle⟩
      · rintro ⟨rfl | hx, hle⟩
        · omega
        · exact ⟨hx, hle⟩
    · rw [List.dropWhile_cons_of_neg (by simpa using hd)]
      constructor
      · intro hx
        refine ⟨hx, ?_⟩
        rcases List.mem_cons.1 hx with rfl | hx
        · omega
        · have := ha x hx
          omega
      · intro hx
        exact hx.1

theorem length_takeWhile_lt (h : l.Pairwise (· > ·)) :
    (l.takeWhile (d < ·)).length = (l.toFinset.filter (d < ·)).card := by
  have hf : l.takeWhile (d < ·) = l.filter (d < ·) := by
    induction l with
    | nil => rfl
    | cons a l ih =>
      obtain ⟨ha, hl⟩ := List.pairwise_cons.1 h
      by_cases hd : d < a
      · simp [hd, ih hl]
      · have hn : l.filter (d < ·) = [] := by
          rw [List.filter_eq_nil_iff]
          intro x hx
          have := ha x hx
          simp only [decide_eq_true_eq]
          omega
        simp [hd, hn]
  have hnodup : (l.filter (d < ·)).Nodup :=
    (h.imp fun {a b} hab => (Nat.ne_of_lt hab).symm).filter _
  rw [hf, ← List.toFinset_card_of_nodup hnodup, List.toFinset_filter]
  simp

theorem headD_dropWhile_lt_eq_iff (h : l.Pairwise (· > ·)) (h0 : 0 ∈ l) :
    (l.dropWhile (d < ·)).headD 0 = d ↔ d ∈ l := by
  have hmem := mem_dropWhile_lt_iff (d := d) h (x := d)
  have h0mem := (mem_dropWhile_lt_iff (d := d) h (x := 0)).2 ⟨h0, Nat.zero_le _⟩
  have hsub := h.sublist (List.dropWhile_sublist (d < ·))
  cases hd : l.dropWhile (d < ·) with
  | nil =>
    rw [hd] at h0mem
    cases h0mem
  | cons a tail =>
    rw [hd] at hmem hsub
    have ha := (mem_dropWhile_lt_iff (d := d) h (x := a)).1 (by rw [hd]; exact List.mem_cons_self)
    rw [List.headD_cons]
    constructor
    · rintro rfl
      exact ha.1
    · intro hl
      rcases List.mem_cons.1 (hmem.2 ⟨hl, Nat.le_refl d⟩) with rfl | ht
      · rfl
      · have := (List.pairwise_cons.1 hsub).1 d ht
        omega

end Descending

end Offside
