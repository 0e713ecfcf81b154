import Mathlib.Data.List.TakeWhile
import Offside.Proofs.Lists
import Offside.Scan.Margin

/-! What is read of a margin. -/
namespace Offside.Margin

variable {mark : Option Char} {line : Text}

/-- The blanks of a margin up to the first that does not agree with the mark. -/
def agreed (mark : Option Char) (line : Text) : Text :=
  (line.takeWhile isBlank).takeWhile (some · == mark.or (line.takeWhile isBlank).head?)

theorem depth_read (mark : Option Char) (line : Text) :
    (read mark line).depth = (agreed mark line).length := rfl

theorem agreed_within_blanks (mark : Option Char) (line : Text) :
    agreed mark line <+: line.takeWhile isBlank := List.takeWhile_prefix _

theorem take_depth_read (mark : Option Char) (line : Text) :
    line.take (read mark line).depth = agreed mark line := by
  have hp := (agreed_within_blanks mark line).trans (List.takeWhile_prefix isBlank)
  exact (List.prefix_iff_eq_take.1 hp).symm

theorem isBlank_of_mem_take {c : Char} (h : c ∈ line.take (read mark line).depth) :
    isBlank c = true := by
  rw [take_depth_read] at h
  exact List.mem_takeWhile_imp ((agreed_within_blanks mark line).subset h)

theorem agreed_of_not_mixed (h : (read mark line).mixed = false) :
    agreed mark line = line.takeWhile isBlank := by
  have hl : ¬ (agreed mark line).length < (line.takeWhile isBlank).length := of_decide_eq_false h
  exact (agreed_within_blanks mark line).eq_of_length_le (Nat.not_lt.1 hl)

theorem depth_of_not_mixed (h : (read mark line).mixed = false) :
    (read mark line).depth = (line.takeWhile isBlank).length := by
  rw [depth_read, agreed_of_not_mixed h]

theorem drop_depth_of_not_mixed (h : (read mark line).mixed = false) :
    line.drop (read mark line).depth = line.dropWhile isBlank := by
  have hs := List.take_append_drop (read mark line).depth line
  rw [take_depth_read, agreed_of_not_mixed h] at hs
  exact List.append_cancel_left (hs.trans List.takeWhile_append_dropWhile.symm)

section Read

variable {blanks rest : Text} {m x : Char}

theorem read_append (hb : ∀ c ∈ blanks, isBlank c = true)
    (hr : ∀ c, rest.head? = some c → isBlank c = false) :
    read mark (blanks ++ rest) = read mark blanks := by
  have ht := takeWhile_append_eq_iff.2 ⟨hb, hr⟩
  have hn : blanks.takeWhile isBlank = blanks := List.takeWhile_eq_self_iff.2 hb
  unfold read
  rw [ht, hn]

theorem agreed_of_forall_eq (hb : ∀ c ∈ blanks, c = m) :
    blanks.takeWhile (some · == some m) = blanks := by
  rw [List.takeWhile_eq_self_iff]
  intro c hc
  rw [hb c hc]
  exact beq_self_eq_true (some m)

theorem not_mixed_of_forall_eq (hb : ∀ c ∈ blanks, c = m) (hblank : ∀ c ∈ blanks, isBlank c = true)
    (hm : mark.or blanks.head? = some m) : (read mark blanks).mixed = false := by
  have hn : blanks.takeWhile isBlank = blanks := List.takeWhile_eq_self_iff.2 hblank
  unfold read
  dsimp only
  rw [hn, hm, agreed_of_forall_eq hb]
  exact decide_eq_false (Nat.lt_irrefl _)

theorem read_of_mixed (hb : ∀ c ∈ blanks, c = m) (hblank : ∀ c ∈ blanks, isBlank c = true)
    (hm : mark.or blanks.head? = some m) (hx : isBlank x = true) (hne : x ≠ m) (rest : Text) :
    read mark (blanks ++ x :: rest) = ⟨some m, blanks.length, true⟩ := by
  have ht : (blanks ++ x :: rest).takeWhile isBlank = blanks ++ x :: rest.takeWhile isBlank := by
    rw [List.takeWhile_append_of_pos hblank, List.takeWhile_cons, if_pos hx]
  have hmark : mark.or (blanks ++ x :: rest.takeWhile isBlank).head? = some m := by
    cases blanks with
    | nil =>
      rw [List.head?_nil, Option.or_none] at hm
      rw [hm]
      rfl
    | cons c blanks => exact hm
  have ha : (blanks ++ x :: rest.takeWhile isBlank).takeWhile (some · == some m) = blanks :=
    takeWhile_append_cons (fun c hc => by simp [hb c hc]) (by simpa using hne) _
  unfold read
  dsimp only
  rw [ht, hmark, ha]
  simp

theorem exists_of_mixed (h : (read mark line).mixed = true) :
    ∃ m blanks x rest, line = blanks ++ x :: rest ∧ (∀ c ∈ blanks, c = m) ∧
      (∀ c ∈ blanks, isBlank c = true) ∧ mark.or blanks.head? = some m ∧
      isBlank x = true ∧ x ≠ m := by
  have hlt : (agreed mark line).length < (line.takeWhile isBlank).length := of_decide_eq_true h
  have hs := List.takeWhile_append_dropWhile (p := isBlank) (l := line)
  have hall : ∀ c ∈ line.takeWhile isBlank, isBlank c = true := fun c hc =>
    List.mem_takeWhile_imp hc
  unfold agreed at hlt
  generalize line.takeWhile isBlank = run at hlt hs hall
  obtain ⟨m, hm⟩ : ∃ m, mark.or run.head? = some m := by
    cases mark with
    | some m => exact ⟨m, rfl⟩
    | none =>
      cases run with
      | nil => simp at hlt
      | cons m run => exact ⟨m, rfl⟩
  rw [hm] at hlt
  have hp := List.takeWhile_append_dropWhile (p := (some · == some m)) (l := run)
  generalize hblanks : run.takeWhile (some · == some m) = blanks at hlt hp
  have heq : ∀ c ∈ blanks, c = m := by
    intro c hc
    rw [← hblanks] at hc
    simpa using List.mem_takeWhile_imp hc
  cases hd : run.dropWhile (some · == some m) with
  | nil =>
    rw [hd, List.append_nil] at hp
    rw [hp] at hlt
    exact absurd hlt (Nat.lt_irrefl _)
  | cons x tail =>
    have hx := List.head?_dropWhile_not (some · == some m) run
    rw [hd] at hx hp
    have hne : x ≠ m := by simpa using hx
    rw [← hp] at hall hs hm
    refine ⟨m, blanks, x, tail ++ line.dropWhile isBlank, ?_, heq,
      fun c hc => hall c (List.mem_append_left _ hc), ?_, hall x (by simp), hne⟩
    · rw [List.append_assoc, List.cons_append] at hs
      exact hs.symm
    · -- Without a mark the first blank is the mark, and the one that differs is a later one.
      cases blanks with
      | nil =>
        cases mark with
        | some c => exact hm
        | none => exact absurd (Option.some.inj hm) hne
      | cons c blanks => exact hm

end Read

end Offside.Margin
