import Offside.Command.Run
import Offside.Json.Read
import Offside.Proofs.Fitting

/-! What is printed where no source is shown: neither a listing nor a JSON array begins so. -/
namespace Offside

def Apart (t u : Text) : Prop := ¬ t <+: u ∧ ¬ u <+: t

instance (t u : Text) : Decidable (Apart t u) :=
  inferInstanceAs (Decidable (¬ t <+: u ∧ ¬ u <+: t))

theorem Apart.not_begins {t u : Text} (h : Apart t u) (v w : Text) : ¬ t ++ v <+: u ++ w := by
  intro hp
  rcases List.prefix_or_prefix_of_prefix ((List.prefix_append t v).trans hp)
    (List.prefix_append u w) with hp | hp
  · exact h.1 hp
  · exact h.2 hp

theorem apart_of_head? {t u : Text} {x y : Char} (ht : t.head? = some x) (hu : u.head? = some y)
    (h : x ≠ y) : Apart t u := by
  obtain ⟨t, rfl⟩ := List.head?_eq_some_iff.1 ht
  obtain ⟨u, rfl⟩ := List.head?_eq_some_iff.1 hu
  constructor
  · exact fun hp => h (List.cons_prefix_cons.1 hp).1
  · exact fun hp => h (List.cons_prefix_cons.1 hp).1.symm

namespace Json

theorem head?_of_readValue {t rest : Text} {items : List Json}
    (h : readValue t = some (array items, rest)) : t.head? = some '[' := by
  rw [readValue.eq_def] at h
  split at h
  · obtain ⟨_, _, heq⟩ := Option.map_eq_some_iff.1 h
    cases heq
  · rfl
  · split at h
    · cases h
    · obtain ⟨_, _, heq⟩ := Option.map_eq_some_iff.1 h
      cases heq
  · obtain ⟨_, _, heq⟩ := Option.map_eq_some_iff.1 h
    cases heq

/-- A document with an array begins with a bracket. -/
theorem read_ne_array {t : Text} (h : ∀ x, t.head? = some x → isSpace x = false ∧ x ≠ '[')
    (items : List Json) : read t ≠ some (.array items) := by
  intro hread
  have hskip : skipSpace t = t := by
    cases t with
    | nil => rfl
    | cons x t =>
      rw [skipSpace, List.dropWhile_cons, (h x rfl).1]
      rfl
  unfold read at hread
  rw [hskip] at hread
  split at hread
  · rename_i heq
    cases hread
    exact (h '[' (head?_of_readValue heq)).2 rfl
  · cases hread

end Json

namespace Command

variable {c : Console} {role : Role} {t : Text} {width : Nat}

/-- What is printed first where no source is shown. -/
def openers : List (Option Char) := [some 'E', some 'T', some 'L', some '⚠', some '\x1b']

structure Differs (title t : Text) : Prop where
  apart : Apart title t
  opener : t.head? ∈ openers

instance (title t : Text) : Decidable (Differs title t) :=
  decidable_of_iff (Apart title t ∧ t.head? ∈ openers)
    ⟨fun h => ⟨h.1, h.2⟩, fun h => ⟨h.apart, h.opener⟩⟩

/-- Where there is room something is printed, which does not begin with a listing; and it is no
JSON array. -/
structure Refusal (c : Console) (output : Text) : Prop where
  ne_nil : c.width ≠ 0 → output ≠ []
  not_listing : c.width ≠ 0 → ∀ listing : Listing, ¬ c.write (listing.lines c) <+: output
  not_array : ∀ items, Json.read output ≠ some (.array items)

theorem refusal_nil (h : c.width = 0) : Refusal c [] :=
  ⟨absurd h, absurd h, Json.read_ne_array (by simp)⟩

theorem refusal_of_apart (h : c.width ≠ 0 → Apart (c.print .title Listing.title) t)
    (ho : t.head? ∈ openers) (rest : Text) : Refusal c (t ++ rest) := by
  have hopeners : openers.all (·.any fun x => !Json.isSpace x && x != '[') = true := by decide
  obtain ⟨x, hhead, hx⟩ := (Option.any_eq_true ..).1 (List.all_eq_true.1 hopeners _ ho)
  obtain ⟨tail, rfl⟩ := List.head?_eq_some_iff.1 hhead
  refine ⟨fun _ => by simp, fun hw listing => ?_, Json.read_ne_array ?_⟩
  · rw [Listing.lines, List.append_assoc, c.write_append hw]
    exact (h hw).not_begins _ _
  · rintro y hy
    cases hy
    simpa using hx

section Widths

/-! Up to the width at which they fit on a line, paragraphs are broken in finitely many ways. -/

/-- Title and text as paragraphs of a width, written on consoles of each sort. -/
def DiffersAt (role : Role) (t : Text) (width : Nat) : Prop :=
  ∀ terminal color : Bool,
    Differs ((Console.paragraph ⟨width, false, false⟩ .title Listing.title).flatMap
        (Console.writeLine ⟨width, terminal, color⟩))
      ((Console.paragraph ⟨width, false, false⟩ role t).flatMap
        (Console.writeLine ⟨width, terminal, color⟩))

instance (role : Role) (t : Text) (width : Nat) : Decidable (DiffersAt role t width) :=
  inferInstanceAs (Decidable (∀ _ _ : Bool, Differs _ _))

theorem DiffersAt.print (h : DiffersAt role t c.width) :
    Differs (c.print .title Listing.title) (c.print role t) := by
  rw [c.print_eq, c.print_eq]
  exact h c.terminal c.color

theorem differs_of_fits (hh : Console.Fits width Listing.title) (ht : Console.Fits width t)
    (h : ∀ w ≤ width, w ≠ 0 → DiffersAt role t w) (c : Console) (hc : c.width ≠ 0) :
    Differs (c.print .title Listing.title) (c.print role t) := by
  have hpos := hh.width_pos
  have hmin := h (min c.width width) (Nat.min_le_right ..) (by omega)
  rw [c.print_min .title hh, c.print_min role ht]
  exact hmin.print (c := { c with width := min c.width width })

theorem head?_title (c : Console) (hc : c.width ≠ 0) :
    (c.print .title Listing.title).head? ∈ [some 'L', some '\x1b'] := by
  have hfits : Console.Fits 23 Listing.title := by decide +kernel
  have hnarrow : ∀ w ≤ 23, w ≠ 0 → ∀ terminal color : Bool,
      ((Console.paragraph ⟨w, false, false⟩ .title Listing.title).flatMap
        (Console.writeLine ⟨w, terminal, color⟩)).head? ∈ [some 'L', some '\x1b'] := by
    decide +kernel
  rw [c.print_min .title hfits, Console.print_eq]
  exact hnarrow (min c.width 23) (Nat.min_le_right ..) (by omega) c.terminal c.color

end Widths

theorem refusal_of_message (ht : t.head? = some 'E' ∨ t.head? = some 'T') (more : List Text) :
    Refusal c (lines (t :: more)) := by
  have hapart : c.width ≠ 0 → Apart (c.print .title Listing.title) t := by
    intro hc
    have hhead := head?_title c hc
    rw [List.mem_cons, List.mem_singleton] at hhead
    rcases hhead with hhead | hhead <;> rcases ht with ht | ht
    all_goals exact apart_of_head? hhead ht (by decide)
  have hopener : t.head? ∈ openers := by
    rcases ht with ht | ht <;> rw [ht] <;> decide
  rw [lines, List.flatMap_cons, List.append_assoc]
  exact refusal_of_apart hapart hopener _

/-- A paragraph that differs from the title at every width, with whatever stands below. -/
theorem refusal_of_paragraph (hh : Console.Fits width Listing.title) (ht : Console.Fits width t)
    (h : ∀ w ≤ width, w ≠ 0 → DiffersAt role t w) (c : Console) (below : List Line) :
    Refusal c (c.write (c.paragraph role t ++ below)) := by
  by_cases hc : c.width = 0
  · rw [Console.write, if_pos hc]
    exact refusal_nil hc
  · have hdiffers := differs_of_fits hh ht h c hc
    rw [c.write_append hc]
    exact refusal_of_apart (fun _ => hdiffers.apart) hdiffers.opener _

theorem refusal_warning (c : Console) : Refusal c (c.write (c.warning blankMessage)) := by
  -- The warning fits on a line of 52 cells; the ways to fold it on shorter ones are evaluated.
  have hnarrow : ∀ w ≤ 52, w ≠ 0 → DiffersAt .warning ('⚠' :: ' ' :: blankMessage) w := by
    decide +kernel
  have h := refusal_of_paragraph (by decide +kernel) (by decide +kernel) hnarrow c []
  rwa [List.append_nil] at h

theorem refusal_errorBlock (c : Console) (message : Text) :
    Refusal c (c.write (c.errorBlock "LEXICAL ERROR".toList message)) := by
  have hnarrow : ∀ w ≤ 23, w ≠ 0 → DiffersAt .error ("LEXICAL ERROR".toList ++ [':']) w := by
    decide +kernel
  exact refusal_of_paragraph (by decide +kernel) (by decide +kernel) hnarrow c _

end Command
end Offside
