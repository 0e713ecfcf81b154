import Offside.Proofs.Place
import Offside.Proofs.Spelling

/-! Wherever a scan stands or is left, its place is counted from the source alone; so are the
places of the tokens that no text of the source stands for. -/
namespace Offside

/-- The end of a stream: behind the last line only levels are closed before the end is marked, and
what ends a line that has no line break does so in the same place. -/
structure EndsIn (place : Position) (tokens : List Token) : Prop where
  closed : ∃ lines last levels, last.kind = .newline ∧
    tokens = lines ++ last :: List.replicate levels ⟨.dedent, [], place⟩ ++ [⟨.eof, [], place⟩]
  lineEnd : ∀ token ∈ tokens, token.kind = .newline → token.lexeme = [] → token.place = place

namespace Scan

variable {s t : Scan} {source : Text} {stopped : Halt}

theorem Stop.exists_skip (h : s.Stop stopped) : ∃ n, stopped.scan.cursor = s.cursor.skip n := by
  cases h with
  | mixed => exact ⟨_, rfl⟩
  | unmatched => exact ⟨_, rfl⟩
  | piece => exact ⟨_, rfl⟩

theorem Stop.cursor_in (h : s.Stop stopped) (hs : s.cursor.In source) :
    stopped.scan.cursor.In source := by
  obtain ⟨n, hn⟩ := h.exists_skip
  rw [hn]
  exact hs.skip n

@[simp] theorem cursor_finish (s : Scan) : s.finish.cursor = s.cursor := by
  unfold finish
  split <;> rfl

theorem offset_of_rest_eq_nil (h : s.cursor.In source) (hr : s.cursor.rest = []) :
    s.cursor.offset = source.length := by
  have hd := h.rest_eq
  rw [hr, eq_comm, List.drop_eq_nil_iff] at hd
  exact Nat.le_antisymm h.offset_le hd

def LineEndsLast (s : Scan) : Prop :=
  ∀ token ∈ s.tokens, token.kind = .newline → token.lexeme = [] →
    s.cursor.rest = [] ∧ token.place = s.cursor.place

theorem LineEndsLast.append {new : List Token} (h : s.LineEndsLast) (hr : s.cursor.rest ≠ [])
    (ht : t.tokens = s.tokens ++ new)
    (hnew : ∀ token ∈ new, token.kind = .newline → token.lexeme = [] →
      t.cursor.rest = [] ∧ token.place = t.cursor.place) : t.LineEndsLast := by
  intro token hmem hk hl
  rw [ht] at hmem
  rcases List.mem_append.1 hmem with hold | hadded
  · exact absurd (h token hold hk hl).1 hr
  · exact hnew token hadded hk hl

/-- With text left no such line has ended, and a step ends one only where it reads all the rest. -/
theorem LineEndsLast.step (h : s.LineEndsLast) (ha : s.Advance t) : t.LineEndsLast := by
  have hr := ha.moves.1
  cases ha with
  | lastMargin hb hl hm hr' =>
    refine h.append hr (tokens_emit s.behindMargin .newline) fun token hmem _ _ => ?_
    rw [List.mem_singleton.1 hmem]
    exact ⟨hr', rfl⟩
  | @emptyLine c rest hl hm hr' hc =>
    refine h.append hr (tokens_accept s.behindMargin .newline _ _) fun token hmem _ hempty => ?_
    rw [List.mem_singleton.1 hmem] at hempty
    exact absurd hempty (lineBreakAt_ne_nil c rest)
  | opens =>
    refine h.append hr (tokens_opening s.behindMargin _ _) fun token hmem hk _ => ?_
    rw [List.mem_singleton.1 hmem] at hk
    cases hk
  | closes =>
    refine h.append hr (tokens_closing s.behindMargin _ _) fun token hmem hk _ => ?_
    rw [List.eq_of_mem_replicate hmem] at hk
    cases hk
  | blank => exact h.append hr (List.append_nil _).symm (by simp)
  | @token c rest kind lexeme width hl hr' hp =>
    refine h.append hr (tokens_accept s _ _ _) fun token hmem hk hempty => ?_
    rw [List.mem_singleton.1 hmem] at hk hempty
    obtain ⟨-, hbreak, -⟩ := (tokenAt_of_read hp).lineBreak_of_newline hk
    exact absurd (hbreak.symm.trans hempty) (lineBreakAt_ne_nil c rest)

theorem lineEndsLast_of_reaches (h : (start source).Reaches s) : s.LineEndsLast :=
  h.preserves (P := LineEndsLast) (fun ha hs => hs.step ha) (by simp [LineEndsLast])

theorem LineEndsLast.endsIn_finish (h : s.LineEndsLast) :
    EndsIn s.cursor.place s.finish.tokens := by
  have hfinish := s.tokens_finish
  constructor
  -- The line that the end of the input ends, if the last token has not ended it.
  · cases hout : s.output.head?.any (·.kind == .newline) with
    | false =>
      rw [hout, if_neg (by simp)] at hfinish
      refine ⟨s.tokens, ⟨.newline, [], s.cursor.place⟩, s.levels.length, rfl, ?_⟩
      rw [hfinish, List.append_assoc s.tokens]
      rfl
    | true =>
      rw [hout, if_pos rfl, List.append_nil] at hfinish
      obtain ⟨last, hlast, hk⟩ := (Option.any_eq_true _ _).1 hout
      obtain ⟨output, ho⟩ := List.head?_eq_some_iff.1 hlast
      refine ⟨output.reverse, last, s.levels.length, by simpa using hk, ?_⟩
      rw [hfinish, tokens, ho, List.reverse_cons, List.append_assoc output.reverse]
      rfl
  · intro token hmem hk hl
    rw [hfinish] at hmem
    simp only [List.mem_append, List.mem_singleton] at hmem
    rcases hmem with ((hold | hended) | hclosed) | heof
    · exact (h token hold hk hl).2
    · split at hended
      · cases hended
      · rw [List.mem_singleton.1 hended]
    · rw [List.eq_of_mem_replicate hclosed]
    · rw [heof]

end Scan

open Scan in
/-- In every state of a scan, at its end and where a fault leaves it, line and column are those of
the offset in the source. The tokens that end the stream have the place of the source's end. -/
theorem cursor_place_of_source (source : Text) :
    (∀ s, (start source).Reaches s → s.cursor.In source) ∧
    (∀ stopped, ofSource source = .error stopped → stopped.scan.cursor.In source) ∧
    ∀ s, ofSource source = .ok s → s.cursor.In source ∧ s.cursor.offset = source.length ∧
      EndsIn (.at source source.length) s.tokens := by
  refine ⟨fun s h => cursor_in_of_reaches h, fun stopped h => ?_, fun t h => ?_⟩
  · obtain ⟨s, hs, hstop⟩ := ofSource_eq_error_iff.1 h
    exact hstop.cursor_in (cursor_in_of_reaches hs)
  · obtain ⟨s, hs, hr, rfl⟩ := ofSource_eq_ok_iff.1 h
    have hin := cursor_in_of_reaches hs
    have hoffset := offset_of_rest_eq_nil hin hr
    rw [cursor_finish, ← hoffset, ← hin.place_eq]
    exact ⟨hin, rfl, (lineEndsLast_of_reaches hs).endsIn_finish⟩

open Scan in
/-- A fault between the two halves of a line break, and a literal over two lines in a level that
the end of the input closes. -/
theorem cursor_place_of_broken_and_ended :
    let broken := "a\n\"\\\r\n\"".toList
    let ended := "a\n \"\\\n\"".toList
    (∃ stopped, ofSource broken = .error stopped ∧ stopped.scan.cursor.offset = 5 ∧
      stopped.scan.cursor.place = ⟨2, 4⟩ ∧ stopped.scan.cursor.In broken) ∧
    (∃ s, (start ended).Reaches s ∧ s.cursor.rest = [] ∧ s.cursor.In ended) ∧
    ∃ s, ofSource ended = .ok s ∧ s.cursor.In ended ∧ EndsIn ⟨3, 2⟩ s.tokens := by
  intro broken ended
  obtain ⟨-, hbroken, -⟩ := cursor_place_of_source broken
  obtain ⟨hreaches, -, hended⟩ := cursor_place_of_source ended
  refine ⟨?_, ?_⟩
  · have hs : ((ofSource broken).map fun _ => ()).mapError
        (fun stopped => (stopped.scan.cursor.offset, stopped.scan.cursor.place)) =
          .error (5, ⟨2, 4⟩) := by decide +kernel
    cases h : ofSource broken with
    | ok s =>
      rw [h] at hs
      cases hs
    | error stopped =>
      rw [h] at hs
      obtain ⟨ho, hp⟩ := Prod.mk.inj (Except.error.inj hs)
      exact ⟨stopped, rfl, ho, hp, hbroken stopped h⟩
  · have hok : (ofSource ended).toOption.isSome = true := by decide +kernel
    have hp : Position.at ended ended.length = ⟨3, 2⟩ := by decide +kernel
    cases h : ofSource ended with
    | error stopped =>
      rw [h] at hok
      cases hok
    | ok t =>
      obtain ⟨s, hs, hr, -⟩ := ofSource_eq_ok_iff.1 h
      obtain ⟨hin, -, hend⟩ := hended t h
      rw [hp] at hend
      exact ⟨⟨s, hs, hr, hreaches s hs⟩, t, rfl, hin, hend⟩

end Offside
