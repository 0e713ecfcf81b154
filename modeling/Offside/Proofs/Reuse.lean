import Offside.Proofs.LineBoundary
import Offside.Proofs.LineCount
import Offside.Proofs.Nesting

/-! Sessions that are used again. Of all that was done to a session before a scan, the scan depends
on nothing but the source in force. -/
namespace Offside
namespace Scan

variable {s t : Scan} {source : Text}

theorem lineStart_eq_of_reaches (h : (start source).Reaches s) (hr : s.cursor.rest = []) :
    s.lineStart = s.output.head?.all Token.breaksLine := by
  have hne : source ≠ [] → s.output ≠ [] := h.output_ne_nil hr
  cases h with
  | refl => rfl
  | @tail u _ hs hm =>
    have hsource : source ≠ [] := by
      intro hn
      have he := (cursor_in_of_reaches hs).source_eq
      rw [hn] at he
      exact hm.1 (List.append_eq_nil_iff.1 he.symm).2
    obtain ⟨text, hreads⟩ := (moves_iff_advance.1 hm).reads
    cases hreads with
    | lastMargin => rfl
    | emptyLine _ _ ht =>
      show true = Token.breaksLine ⟨.newline, _, _⟩
      simp [Token.breaksLine, ht.ne_nil]
    | opens => cases hr
    | closes => cases hr
    | @blank c rest hl hcons hc =>
      -- behind the end of a line stands no blank, so the last token has ended none
      obtain ⟨token, hhead⟩ := Option.isSome_iff_exists.1 (List.isSome_head?.2 (hne hsource))
      have hk : token.kind ≠ .newline := by
        intro hk
        have hn := not_isBlank_of_newline hs hl hhead hk c (by rw [hcons]; rfl)
        cases hc.symm.trans hn
      show u.lineStart = u.output.head?.all Token.breaksLine
      rw [hl, show u.output.head? = some token from hhead]
      simp [Token.breaksLine, hk]
    | @token kind lexeme _ _ _ _ ht =>
      show (kind == .newline) = Token.breaksLine ⟨kind, lexeme, _⟩
      by_cases hk : kind = .newline
      · subst hk
        obtain ⟨rfl, hb⟩ := tokenAt_newline_iff.1 ht
        simp [Token.breaksLine, hb.ne_nil]
      · simp [Token.breaksLine, hk]

theorem LastLine.breaksLine_iff (h : s.LastLine source) :
    EndsInBreak source ↔ ∃ token, s.output.head? = some token ∧ token.breaksLine = true := by
  cases h with
  | broken ho hn _ he =>
    apply iff_of_true he
    rw [ho]
    exact ⟨_, rfl, by simp [Token.breaksLine, hn]⟩
  | flushed ho _ he =>
    apply iff_of_false he
    rw [ho]
    rintro ⟨_, ⟨⟩, hb⟩
    cases hb
  | unended ho _ he =>
    apply iff_of_false he
    rintro ⟨token, hhead, hb⟩
    simp [Token.breaksLine, ho token hhead] at hb

/-- Where the input ends, a line begins just if there is no source or the last line is broken. -/
theorem lineStart_iff_of_reaches (h : (start source).Reaches s) (hr : s.cursor.rest = []) :
    s.lineStart = true ↔ source = [] ∨ EndsInBreak source := by
  have hlast := (lastLine_of_reaches h hr).breaksLine_iff
  rw [lineStart_eq_of_reaches h hr]
  by_cases hn : source = []
  · subst hn
    obtain rfl | ⟨_, hm, -⟩ := h.eq_or_moves
    · exact iff_of_true rfl (.inl rfl)
    · exact absurd rfl hm.1
  · obtain ⟨token, hhead⟩ := Option.isSome_iff_exists.1
      (List.isSome_head?.2 (h.output_ne_nil hr hn))
    rw [hhead] at hlast ⊢
    rw [hlast, or_iff_right hn]
    simp

theorem lineStart_finish (s : Scan) : s.finish.lineStart = s.lineStart := by
  unfold finish
  split <;> rfl

end Scan

namespace Session

variable {s : Session} {source : Text} {tokens : List Token}

def Step.source? : Step → Option Text
  | .new source => some source
  | .setSource source => some source
  | .setMark _ => none
  | .scan => none

/-- The source in force behind some steps is the one that was given last. -/
def inForce (source : Text) (steps : List Step) : Text :=
  (steps.filterMap Step.source?).getLast?.getD source

def after (s : Session) : List Step → Session
  | [] => s
  | step :: steps => (s.perform step).2.after steps

theorem inForce_cons (source : Text) (step : Step) (steps : List Step) :
    inForce source (step :: steps) = inForce (step.source?.getD source) steps := by
  unfold inForce
  cases h : step.source? with
  | none => rw [List.filterMap_cons_none h, Option.getD_none]
  | some given =>
    rw [List.filterMap_cons_some h, List.getLast?_cons, Option.getD_some, Option.getD_some]

theorem source_perform (s : Session) (step : Step) :
    (s.perform step).2.source = step.source?.getD s.source := by
  cases step with
  | new source => rfl
  | setSource source => rfl
  | setMark mark => rfl
  | scan =>
    show s.scan.2.source = s.source
    cases h : Scan.ofSource s.source with
    | ok last => rw [scan_of_ok h]; rfl
    | error stopped => rw [scan_of_error h]; rfl

/-- Of all that a session holds, a scan depends on the source alone. -/
theorem perform_scan (s : Session) :
    s.perform .scan = (some (Offside.scan s.source), (ofSource s.source).scan.2) := by
  rw [← fst_scan, scan_eq]
  rfl

theorem source_after (s : Session) (steps : List Step) :
    (s.after steps).source = inForce s.source steps := by
  induction steps generalizing s with
  | nil => rfl
  | cons step steps ih => rw [after, ih, source_perform, inForce_cons]

theorem transcript_append (s : Session) (steps more : List Step) :
    s.transcript (steps ++ more) = s.transcript steps ++ (s.after steps).transcript more := by
  induction steps generalizing s with
  | nil => rfl
  | cons step steps ih =>
    show s.perform step :: (s.perform step).2.transcript (steps ++ more) = _
    rw [ih]
    rfl

theorem length_transcript (s : Session) (steps : List Step) :
    (s.transcript steps).length = steps.length := by
  induction steps generalizing s with
  | nil => rfl
  | cons step steps ih => rw [transcript, List.length_cons, ih, List.length_cons]

theorem getElem?_transcript (s : Session) (before : List Step) (step : Step)
    (behind : List Step) :
    (s.transcript (before ++ step :: behind))[before.length]? =
      some ((s.after before).perform step) := by
  rw [transcript_append, List.getElem?_append_right (length_transcript s before).le,
    length_transcript, Nat.sub_self]
  rfl

theorem view_of_scan (h : Offside.scan s.source = .ok tokens) :
    s.scan.2.view.offset = s.source.length ∧ s.scan.2.view.stack = [0] ∧
      s.scan.2.view.buffer = tokens ∧
      (s.scan.2.view.lineStart = true ↔ s.source = [] ∨ EndsInBreak s.source) := by
  obtain ⟨t, ht, hr, rfl⟩ := scan_eq_ok_iff.1 h
  rw [scan_of_ok (Scan.ofSource_eq_ok_iff.2 ⟨t, ht, hr, rfl⟩)]
  constructor
  · show t.finish.cursor.offset = s.source.length
    rw [Scan.cursor_finish]
    exact Scan.offset_of_rest_eq_nil (Scan.cursor_in_of_reaches ht) hr
  refine ⟨t.stack_finish, rfl, ?_⟩
  show t.finish.lineStart = true ↔ _
  rw [t.lineStart_finish]
  exact Scan.lineStart_iff_of_reaches ht hr

/-- A session scans as a fresh one over the source in force: it gives the same answer and is left
the same, with nothing of what was done to it before, faults and overwritten marks included. Where
the scan succeeds, it has left the end of the source. To give a source or a mark changes nothing
else. -/
theorem transcript_scan (s : Session) (before behind : List Step) :
    let source := inForce s.source before
    ∃ used,
      (s.transcript (before ++ .scan :: behind))[before.length]? =
        some (some (Offside.scan source), used) ∧
      (ofSource source).transcript [.scan] = [(some (Offside.scan source), used)] ∧
      (∀ tokens, Offside.scan source = .ok tokens →
        used.view.offset = source.length ∧ used.view.stack = [0] ∧ used.view.buffer = tokens ∧
          (used.view.lineStart = true ↔ source = [] ∨ EndsInBreak source)) ∧
      (∀ given, (s.perform (.setSource given)).2.source = given ∧
        (s.perform (.setSource given)).2.view = s.view) ∧
      ∀ mark, (s.perform (.setMark mark)).2.source = s.source ∧
        (s.perform (.setMark mark)).2.view = { s.view with mark } := by
  intro source
  refine ⟨(ofSource source).scan.2, ?_, ?_, ?_, ?_, ?_⟩
  · rw [getElem?_transcript, perform_scan, source_after]
  · show [(ofSource source).perform .scan] = _
    rw [perform_scan]
    rfl
  · intro tokens h
    exact view_of_scan (s := ofSource source) h
  · intro given
    exact ⟨rfl, rfl⟩
  · intro mark
    exact ⟨rfl, rfl⟩

/-- Behind a fault that left a level closed, with a mark written over that of its spaces, a source
with tabs is scanned; its last line has blanks only. -/
theorem transcript_scan_of_fault_and_mark :
    let before : List Step := [.new "a\n  b\n    c\n   d".toList, .scan,
      .setMark (some "--".toList), .setSource "\tif\n\t".toList]
    let tokens : List Token := [
      ⟨.indent, [], ⟨1, 1⟩⟩, ⟨.kwIf, "if".toList, ⟨1, 2⟩⟩, ⟨.newline, ['\n'], ⟨1, 4⟩⟩,
      ⟨.newline, [], ⟨2, 2⟩⟩, ⟨.dedent, [], ⟨2, 2⟩⟩, ⟨.eof, [], ⟨2, 2⟩⟩]
    ((ofSource []).after before).view.stack = [0, 2] ∧
      ∃ used, ((ofSource []).transcript (before ++ [.scan, .new []]))[4]? =
          some (some (.ok tokens), used) ∧
        used.view.offset = 5 ∧ used.view.stack = [0] ∧ used.view.buffer = tokens ∧
          used.view.lineStart = false := by
  intro before tokens
  have h : Offside.scan "\tif\n\t".toList = .ok tokens := by decide +kernel
  have hstack : ((ofSource []).after before).view.stack = [0, 2] := by decide +kernel
  obtain ⟨used, hentry, -, hview, -⟩ := transcript_scan (ofSource []) before [.new []]
  obtain ⟨hoffset, hlevels, hbuffer, hline⟩ := hview tokens h
  have hends : ¬ EndsInBreak "\tif\n\t".toList := not_endsInBreak (by simp [isLineBreak])
  refine ⟨hstack, used, ?_, hoffset, hlevels, hbuffer, ?_⟩
  · rw [← h]
    exact hentry
  · rw [← Bool.not_eq_true, hline, not_or]
    exact ⟨List.cons_ne_nil _ _, hends⟩

end Session
end Offside
