import Offside.Proofs.Machine
import Offside.Proofs.Nesting
import Offside.Proofs.Passage

/-! Every source is scanned to an end, no step goes without progress, and the tokens are bounded
by the code points. -/
namespace Offside
namespace Scan

variable {s t : Scan} {text source : Text} {more : List Token} {place : Position}

/-- A step that reads nothing enters a line, and the step behind it reads or stops. -/
structure Enters (s t : Scan) : Prop where
  offset_eq : t.cursor.offset = s.cursor.offset
  lineStart : s.lineStart = true
  within : t.lineStart = false
  next : (∃ stopped, t.Stop stopped) ∨ ∃ u, t.Moves u ∧ t.cursor.offset < u.cursor.offset

theorem Reads.enters (h : s.Reads [] t) : s.Enters t := by
  have hoffset := h.offset_eq
  generalize htext : ([] : Text) = text at h hoffset
  cases h with
  | lastMargin _ _ hb => exact absurd htext.symm hb
  | emptyLine _ _ ht =>
    obtain ⟨-, rfl⟩ := List.append_eq_nil_iff.1 htext.symm
    exact absurd rfl ht.ne_nil
  | opens _ _ _ hd =>
    subst htext
    cases hd
  | @closes blanks c rest hl =>
    subst htext
    refine ⟨hoffset, hl, rfl, ?_⟩
    rcases advance_or_stop (s := (s.pastMargin [] (c :: rest)).closing 0 s.cursor.place)
      (List.cons_ne_nil c rest) with ⟨u, hu⟩ | hstop
    · exact .inr ⟨u, hu.moves, hu.moves.offset_lt rfl⟩
    · exact .inl hstop
  | blank => cases htext
  | token _ _ ht =>
    subst htext
    exact absurd rfl ht.spells_text.1

theorem Moves.progress (h : s.Moves t) :
    s.cursor.offset < t.cursor.offset ∨ s.Enters t := by
  obtain ⟨text, hr⟩ := (moves_iff_advance.1 h).reads
  cases text with
  | nil => exact .inr hr.enters
  | cons c text =>
    left
    rw [hr.offset_eq, List.length_cons]
    omega

/-- The tokens are paid for with the code points that have been read: each that closes no level
with one, and each opened level with two, of which the line that opens it still owes one where it
is entered. -/
structure Charged (s : Scan) : Prop where
  tokens_le : s.tokens.length ≤ s.cursor.offset + countKind .dedent s.tokens
  opened_le : 2 * countKind .indent s.tokens ≤ s.cursor.offset ∨
    s.lineStart = false ∧ s.cursor.rest ≠ [] ∧
      2 * countKind .indent s.tokens ≤ s.cursor.offset + 1

namespace Charged

theorem reads (h : s.Charged) (htokens : t.tokens = s.tokens ++ more) (hone : more.length ≤ 1)
    (hopen : countKind .indent more = 0) (hread : s.cursor.offset < t.cursor.offset) :
    t.Charged := by
  have htotal := h.tokens_le
  have hopened : 2 * countKind .indent s.tokens ≤ s.cursor.offset + 1 := by
    rcases h.opened_le with hle | ⟨-, -, hle⟩
    · omega
    · exact hle
  constructor
  · rw [htokens, List.length_append, countKind_append]
    omega
  · rw [htokens, countKind_append]
    omega

theorem opened_le_of_lineStart (h : s.Charged) (hl : s.lineStart = true) :
    2 * countKind .indent s.tokens ≤ s.cursor.offset := by
  rcases h.opened_le with hle | ⟨hn, -⟩
  · exact hle
  · cases hl.symm.trans hn

theorem opens {u : Scan} (h : s.Charged) (hl : s.lineStart = true) (hu : u.lineStart = false)
    (hrest : u.cursor.rest ≠ []) (htokens : u.tokens = s.tokens ++ [⟨.indent, [], place⟩])
    (hoffset : s.cursor.offset < u.cursor.offset) : u.Charged := by
  have htotal := h.tokens_le
  have hopened := h.opened_le_of_lineStart hl
  have hindent : countKind .indent [⟨.indent, [], place⟩] = 1 := rfl
  constructor
  · rw [htokens, List.length_append, countKind_append, List.length_singleton]
    omega
  · right
    refine ⟨hu, hrest, ?_⟩
    rw [htokens, countKind_append, hindent]
    omega

theorem closes {u : Scan} {closed : Nat} (h : s.Charged) (hl : s.lineStart = true)
    (htokens : u.tokens = s.tokens ++ List.replicate closed ⟨.dedent, [], place⟩)
    (hoffset : s.cursor.offset ≤ u.cursor.offset) : u.Charged := by
  have htotal := h.tokens_le
  have hopened := h.opened_le_of_lineStart hl
  have hindent : countKind .indent (List.replicate closed ⟨.dedent, [], place⟩) = 0 := by
    simp [countKind, List.countP_replicate]
  have hdedent : countKind .dedent (List.replicate closed ⟨.dedent, [], place⟩) = closed := by
    simp [countKind, List.countP_replicate]
  constructor
  · rw [htokens, List.length_append, countKind_append, hdedent, List.length_replicate]
    omega
  · left
    rw [htokens, countKind_append, hindent]
    omega

theorem step (h : s.Charged) (hr : s.Reads text t) : t.Charged := by
  have hoffset := hr.offset_eq
  cases hr with
  | lastMargin _ _ hb =>
    have hlength := List.length_pos_iff.2 hb
    exact h.reads (tokens_emit _ _) (Nat.le_refl 1) rfl (by omega)
  | @emptyLine blanks text _ _ _ ht =>
    have hlength := List.length_pos_iff.2 ht.ne_nil
    rw [List.length_append] at hoffset
    exact h.reads (List.reverse_cons ..) (Nat.le_refl 1) rfl (by omega)
  | @opens _ c rest hl _ _ hd =>
    have hlt : 0 < text.length := Nat.zero_lt_of_lt hd
    exact h.opens hl rfl (List.cons_ne_nil c rest) (tokens_opening ..) (by omega)
  | closes hl => exact h.closes hl (tokens_closing ..) (by omega)
  | blank =>
    rw [List.length_singleton] at hoffset
    exact h.reads (List.append_nil _).symm (Nat.zero_le 1) rfl (by omega)
  | @token kind lexeme text rest _ _ ht =>
    have hlength := List.length_pos_iff.2 ht.spells_text.1
    have hkind : kind ≠ .indent := by
      by_cases hk : kind = .newline
      · rw [hk]
        decide
      -- Content is no layout, so that only the layout of a line opens levels.
      · intro he
        exact (ht.content hk).not_structural (congrArg Kind.family? he)
    refine h.reads (List.reverse_cons ..) (Nat.le_refl 1) ?_ (by omega)
    simp [countKind, hkind]

/-- The levels that are open at the end are closed there, so that each opened level has brought
two tokens. -/
theorem length_finish_le (h : s.Charged) (hn : Nested s.tokens s.levels.length)
    (hr : s.cursor.rest = []) :
    s.finish.tokens.length ≤ s.cursor.offset + s.cursor.offset / 2 + 2 := by
  have htotal := h.tokens_le
  have hopened : 2 * countKind .indent s.tokens ≤ s.cursor.offset := by
    rcases h.opened_le with hle | ⟨-, hne, -⟩
    · exact hle
    · exact absurd hr hne
  have hbalance := hn.opened_eq
  have hended : (if s.output.head?.any (·.kind == .newline) then []
      else [⟨.newline, [], s.cursor.place⟩] : List Token).length ≤ 1 := by
    split <;> simp
  rw [tokens_finish, List.length_append, List.length_append, List.length_append,
    List.length_replicate, List.length_singleton]
  omega

end Charged

theorem charged_of_reaches (h : (start source).Reaches s) : s.Charged := by
  refine h.preserves (P := Charged) (fun ha hs => ?_) ⟨Nat.le_refl 0, .inl (Nat.le_refl 0)⟩
  obtain ⟨text, hr⟩ := ha.reads
  exact hs.step hr

end Scan

open Scan in
theorem length_tokens_le {source : Text} {tokens : List Token} (h : scan source = .ok tokens) :
    tokens.length ≤ source.length + source.length / 2 + 2 := by
  obtain ⟨s, hs, hr, rfl⟩ := scan_eq_ok_iff.1 h
  have hin := cursor_in_of_reaches hs
  have hoffset : s.cursor.offset = source.length := by
    have hsource := congrArg List.length hin.source_eq
    rw [hr, List.append_nil, List.length_take_of_le hin.offset_le] at hsource
    exact hsource.symm
  rw [← hoffset]
  exact (charged_of_reaches hs).length_finish_le (nested_of_reaches hs) hr

open Scan in
/-- The machine is stuck on no source if its loops have rounds enough for two steps at each code
point: it ends with the tokens or with the fault of the scan. No step goes without progress, and the
tokens are at most half as many again as the code points, and two more. -/
theorem scan_total (source : Text) :
    (∀ rounds, 2 * source.length + 1 < rounds →
      (Machine.scan rounds source).run = some (scan source)) ∧
    (∀ s t : Scan, s.Moves t → s.cursor.offset < t.cursor.offset ∨ s.Enters t) ∧
    ∀ tokens, scan source = .ok tokens →
      tokens.length ≤ source.length + source.length / 2 + 2 := by
  refine ⟨fun rounds h => ?_, fun s t h => h.progress, fun tokens h => length_tokens_le h⟩
  exact Machine.scan_eq h

open Scan in
/-- A letter behind a blank has as many tokens as two code points can have. A letter alone is not
read where its line is entered. -/
theorem scan_total_of_letter :
    let indented := [' ', 'a']
    (Machine.scan 6 indented).run = some (scan indented) ∧
    (∃ tokens, scan indented = .ok tokens ∧ tokens.length = 5 ∧
      tokens.length ≤ indented.length + indented.length / 2 + 2) ∧
    ∃ t, (start ['a']).Moves t ∧ (start ['a']).Enters t := by
  intro indented
  obtain ⟨hends, hprogress, hbound⟩ := scan_total indented
  refine ⟨hends 6 (by decide), ?_, ?_⟩
  · have hlength : (scan indented).toOption.map List.length = some 5 := by decide +kernel
    cases h : scan indented with
    | error fault =>
      rw [h] at hlength
      cases hlength
    | ok tokens =>
      rw [h] at hlength
      exact ⟨tokens, rfl, Option.some.inj hlength, hbound tokens h⟩
  · have hoffset : (start ['a']).step.toOption.map (·.cursor.offset) = some 0 := by decide +kernel
    cases h : (start ['a']).step with
    | error stopped =>
      rw [h] at hoffset
      cases hoffset
    | ok t =>
      rw [h] at hoffset
      have hmoves : (start ['a']).Moves t := ⟨List.cons_ne_nil _ _, h⟩
      refine ⟨t, hmoves, (hprogress _ t hmoves).resolve_left ?_⟩
      rw [show t.cursor.offset = 0 from Option.some.inj hoffset]
      exact Nat.not_lt_zero _

end Offside
