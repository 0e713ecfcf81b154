import Offside.Proofs.Grammar
import Offside.Proofs.Indentation

/-! The stack and the tokens tell the same story: each open level has been opened by a token and
closed by none. -/
namespace Offside

def countKind (kind : Kind) (tokens : List Token) : Nat := tokens.countP (·.kind = kind)

theorem countKind_append (kind : Kind) (a b : List Token) :
    countKind kind (a ++ b) = countKind kind a + countKind kind b := List.countP_append

/-- Nowhere are more levels closed than were opened before, and `height` of them stay open. -/
structure Nested (tokens : List Token) (height : Nat) : Prop where
  opened_eq : countKind .indent tokens = countKind .dedent tokens + height
  closed_le : ∀ before, before <+: tokens → countKind .dedent before ≤ countKind .indent before

namespace Nested

variable {tokens : List Token} {token : Token} {height height' : Nat}

theorem nil : Nested [] 0 where
  opened_eq := rfl
  closed_le before h := by
    rw [List.prefix_nil.1 h]
    exact Nat.le_refl _

theorem concat (h : Nested tokens height)
    (ht : countKind .indent [token] + height = countKind .dedent [token] + height') :
    Nested (tokens ++ [token]) height' := by
  have heq : countKind .indent (tokens ++ [token]) =
      countKind .dedent (tokens ++ [token]) + height' := by
    have := h.opened_eq
    rw [countKind_append, countKind_append]
    omega
  refine ⟨heq, fun before hb => ?_⟩
  rcases List.prefix_concat_iff.1 hb with rfl | hb
  · omega
  · exact h.closed_le before hb

theorem other (h : Nested tokens height) (hi : token.kind ≠ .indent) (hd : token.kind ≠ .dedent) :
    Nested (tokens ++ [token]) height :=
  h.concat (by simp [countKind, hi, hd])

theorem indent (h : Nested tokens height) (place : Position) :
    Nested (tokens ++ [⟨.indent, [], place⟩]) (height + 1) :=
  h.concat (by simp [countKind, Nat.add_comm])

theorem dedents {closed : Nat} (h : Nested tokens (height + closed)) (place : Position) :
    Nested (tokens ++ List.replicate closed ⟨.dedent, [], place⟩) height := by
  induction closed generalizing height with
  | zero => simpa using h
  | succ closed ih =>
    have hopen : Nested tokens (height + 1 + closed) := by
      rwa [Nat.add_right_comm, Nat.add_assoc]
    rw [List.replicate_succ', ← List.append_assoc]
    exact (ih hopen).concat (by simp [countKind, Nat.add_comm])

end Nested

namespace Scan

variable {s t : Scan} {source : Text} {stopped : Halt}

/-- The stack of open levels begins with the level of depth 0, ascends strictly, and is as high as
the tokens say. -/
structure Consistent (s : Scan) : Prop where
  bottom_eq : s.stack.head? = some 0
  ascending : s.stack.Pairwise (· < ·)
  nested : Nested s.tokens (s.stack.length - 1)

theorem length_stack (s : Scan) : s.stack.length - 1 = s.levels.length := by simp [stack]

theorem consistent_iff :
    s.Consistent ↔ s.openLevels.Pairwise (· > ·) ∧ Nested s.tokens s.levels.length := by
  have hp : s.stack.Pairwise (· < ·) ↔ s.openLevels.Pairwise (· > ·) := by
    rw [stack_eq, List.pairwise_reverse]
  constructor
  · intro h
    have hn := h.nested
    rw [length_stack] at hn
    exact ⟨hp.1 h.ascending, hn⟩
  · intro ⟨ha, hn⟩
    rw [← length_stack] at hn
    exact ⟨rfl, hp.2 ha, hn⟩

section Step

variable (h : Nested s.tokens s.levels.length)
include h

/-- Closing levels takes as many off the stack as it adds tokens. -/
theorem nested_closing (depth : Nat) (place : Position) :
    Nested (s.closing depth place).tokens (s.closing depth place).levels.length := by
  have hlength : s.levels.length = (s.levels.dropWhile (depth < ·)).length +
      (s.levels.takeWhile (depth < ·)).length := by
    rw [Nat.add_comm, length_takeWhile_add_dropWhile]
  rw [tokens_closing]
  rw [hlength] at h
  exact h.dedents place

theorem Advance.nested (ha : s.Advance t) : Nested t.tokens t.levels.length := by
  cases ha with
  | lastMargin =>
    change Nested (s.behindMargin.emit .newline).tokens _
    rw [tokens_emit]
    exact h.other (by simp) (by simp)
  | emptyLine =>
    rw [tokens_accept]
    exact h.other (by simp) (by simp)
  | opens =>
    rw [tokens_opening]
    exact h.indent _
  | closes => exact nested_closing (s := s.behindMargin) h _ _
  | blank => exact h
  | @token c rest kind lexeme width hl hr hp =>
    rw [tokens_accept]
    by_cases hk : kind = .newline
    · subst hk
      exact h.other (by simp) (by simp)
    · -- Layout is not read: no text stands for it.
      have hs := ((tokenAt_of_read hp).content hk).not_structural
      exact h.other (fun he => hs (congrArg Kind.family? he))
        fun he => hs (congrArg Kind.family? he)

theorem Stop.nested (hstop : s.Stop stopped) :
    Nested stopped.scan.tokens stopped.scan.levels.length := by
  cases hstop with
  | mixed => exact h
  | unmatched => exact nested_closing (s := s.behindMargin) h _ _
  | piece => exact h

theorem nested_finish : Nested s.finish.tokens 0 := by
  have hended : Nested (s.tokens ++ if s.output.head?.any (·.kind == .newline) then []
      else [⟨.newline, [], s.cursor.place⟩]) s.levels.length := by
    split
    · rwa [List.append_nil]
    · exact h.other (by simp) (by simp)
  rw [tokens_finish]
  rw [← Nat.zero_add s.levels.length] at hended
  exact (hended.dedents s.cursor.place).other (by simp) (by simp)

end Step

theorem nested_of_reaches (h : (start source).Reaches s) : Nested s.tokens s.levels.length :=
  h.preserves (P := fun s => Nested s.tokens s.levels.length) (fun ha hs => ha.nested hs) .nil

theorem consistent_of_reaches (h : (start source).Reaches s) : s.Consistent := by
  obtain ⟨depths, hv⟩ := Visits.exists_of_reaches h
  exact consistent_iff.2 ⟨hv.levelled.descending, nested_of_reaches h⟩

/-- A fault leaves the levels that are still open, fewer where some had been closed already. -/
theorem Stop.openLevels_suffix (h : s.Stop stopped) :
    stopped.scan.openLevels <:+ s.openLevels := by
  cases h with
  | mixed => exact List.suffix_rfl
  | unmatched =>
    change s.levels.dropWhile _ ++ [0] <:+ s.openLevels
    rw [← dropWhile_openLevels]
    exact List.dropWhile_suffix _
  | piece => exact List.suffix_rfl

theorem Stop.consistent (h : s.Stop stopped) (hs : s.Consistent) : stopped.scan.Consistent := by
  obtain ⟨ha, hn⟩ := consistent_iff.1 hs
  exact consistent_iff.2 ⟨ha.sublist h.openLevels_suffix.sublist, h.nested hn⟩

@[simp] theorem levels_finish (s : Scan) : s.finish.levels = [] := by
  unfold finish
  split <;> rfl

theorem stack_finish (s : Scan) : s.finish.stack = [0] := by simp [stack]

theorem consistent_finish (h : s.Consistent) : s.finish.Consistent := by
  refine consistent_iff.2 ⟨?_, ?_⟩
  · simp [openLevels]
  · rw [levels_finish]
    exact nested_finish (consistent_iff.1 h).2

end Scan

open Scan in
/-- Stack and tokens agree in every state of a scan, where a fault leaves it, in the middle of
closing levels too, and at its end, where no level is open. -/
theorem stack_consistent (source : Text) :
    (∀ s, (start source).Reaches s → s.Consistent) ∧
    (∀ stopped, ofSource source = .error stopped → stopped.scan.Consistent) ∧
    ∀ s, ofSource source = .ok s → s.Consistent ∧ s.stack = [0] ∧
      countKind .indent s.tokens = countKind .dedent s.tokens := by
  refine ⟨fun s h => consistent_of_reaches h, fun stopped h => ?_, fun t h => ?_⟩
  · obtain ⟨s, hs, hstop⟩ := ofSource_eq_error_iff.1 h
    exact hstop.consistent (consistent_of_reaches hs)
  · obtain ⟨s, hs, -, rfl⟩ := ofSource_eq_ok_iff.1 h
    have hc := consistent_finish (consistent_of_reaches hs)
    have heq := hc.nested.opened_eq
    rw [stack_finish] at heq
    exact ⟨hc, stack_finish s, heq⟩

open Scan in
/-- A line that closes two levels and then has no level to return to, and two levels that only the
end of the input closes. -/
theorem stack_consistent_of_partial_dedent :
    let unmatched := "a\n  b\n   c\n d".toList
    let nested := "a\n b\n  c".toList
    (∃ stopped, ofSource unmatched = .error stopped ∧ stopped.scan.stack = [0] ∧
      stopped.scan.Consistent) ∧
    (∃ s, (start nested).Reaches s ∧ s.cursor.rest = [] ∧ s.Consistent) ∧
    ∃ s, ofSource nested = .ok s ∧ countKind .indent s.tokens = 2 ∧
      countKind .dedent s.tokens = 2 ∧ s.Consistent := by
  intro unmatched nested
  obtain ⟨-, hunmatched, -⟩ := stack_consistent unmatched
  obtain ⟨hreaches, -, hnested⟩ := stack_consistent nested
  refine ⟨?_, ?_⟩
  · have hs : ((ofSource unmatched).map fun _ => ()).mapError (·.scan.stack) = .error [0] := by
      decide +kernel
    cases h : ofSource unmatched with
    | ok s =>
      rw [h] at hs
      cases hs
    | error stopped =>
      rw [h] at hs
      exact ⟨stopped, rfl, Except.error.inj hs, hunmatched stopped h⟩
  · have hcount : (ofSource nested).toOption.map (countKind .indent ·.tokens) = some 2 := by
      decide +kernel
    cases h : ofSource nested with
    | error stopped =>
      rw [h] at hcount
      cases hcount
    | ok t =>
      obtain ⟨s, hs, hr, -⟩ := ofSource_eq_ok_iff.1 h
      obtain ⟨hc, -, hbalance⟩ := hnested t h
      rw [h] at hcount
      have htwo : countKind .indent t.tokens = 2 := Option.some.inj hcount
      exact ⟨⟨s, hs, hr, hreaches s hs⟩, t, rfl, htwo, hbalance ▸ htwo, hc⟩

end Offside
