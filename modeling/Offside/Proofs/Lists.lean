/-! Where lists are cut: at a last member, and at the first member that fails a test. -/
namespace Offside

variable {α : Type} {l before behind : List α} {a x : α} {p : α → Bool}

theorem append_cons_of_concat (h : l ++ [a] = before ++ x :: behind) :
    (before = l ∧ x = a ∧ behind = []) ∨
      ∃ tail, behind = tail ++ [a] ∧ l = before ++ x :: tail := by
  rcases List.eq_nil_or_concat behind with rfl | ⟨tail, y, rfl⟩
  · left
    obtain ⟨hl, hx⟩ := List.append_inj' h rfl
    cases hx
    exact ⟨hl.symm, rfl, rfl⟩
  · right
    rw [List.concat_eq_append, ← List.cons_append, ← List.append_assoc] at h
    obtain ⟨hl, hy⟩ := List.append_inj' h rfl
    cases hy
    exact ⟨tail, List.concat_eq_append, hl⟩

theorem takeWhile_append_cons (hl : ∀ y ∈ l, p y = true) (hx : p x = false)
    (behind : List α) : (l ++ x :: behind).takeWhile p = l := by
  rw [List.takeWhile_append_of_pos hl, List.takeWhile_cons, hx]
  exact List.append_nil l

theorem dropWhile_append_cons (hl : ∀ y ∈ l, p y = true) (hx : p x = false)
    (behind : List α) : (l ++ x :: behind).dropWhile p = x :: behind := by
  rw [List.dropWhile_append_of_pos hl, List.dropWhile_cons, hx]
  rfl

theorem takeWhile_append_eq_iff :
    (l ++ behind).takeWhile p = l ↔
      (∀ x ∈ l, p x = true) ∧ ∀ x, behind.head? = some x → p x = false := by
  constructor
  · intro h
    have hall : ∀ x ∈ l, p x = true := fun x hx =>
      List.all_eq_true.1 List.all_takeWhile x (h.symm ▸ hx)
    refine ⟨hall, fun x hx => ?_⟩
    obtain ⟨tail, rfl⟩ := List.head?_eq_some_iff.1 hx
    rw [List.takeWhile_append_of_pos hall] at h
    have hn := List.append_cancel_left (h.trans (List.append_nil l).symm)
    cases hp : p x with
    | false => rfl
    | true => rw [List.takeWhile_cons, if_pos hp] at hn; cases hn
  · intro ⟨hall, hx⟩
    cases behind with
    | nil => rw [List.takeWhile_append_of_pos hall, List.takeWhile_nil, List.append_nil]
    | cons x tail => exact takeWhile_append_cons hall (hx x rfl) tail

theorem takeWhile_append_of_length (h : ((l ++ behind).takeWhile p).length = l.length) :
    (l ++ behind).takeWhile p = l := by
  have hp : (l ++ behind).takeWhile p <+: l := List.prefix_of_prefix_length_le
    (List.takeWhile_prefix p) (List.prefix_append l behind) (Nat.le_of_eq h)
  exact hp.eq_of_length h

theorem length_takeWhile_add_dropWhile (p : α → Bool) (l : List α) :
    (l.takeWhile p).length + (l.dropWhile p).length = l.length := by
  rw [← List.length_append, List.takeWhile_append_dropWhile]

end Offside
