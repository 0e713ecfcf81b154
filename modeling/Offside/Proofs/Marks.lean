import Offside.Proofs.CursorPlaces
import Offside.Proofs.LineBoundary

/-! The first blank that any line begins with is the only one that lines may begin with, and no
other blank has a say in it. -/
namespace Offside
namespace Scan

variable {s t : Scan} {source met blanks rest : Text} {stopped : Halt} {c x : Char}

/-- The blanks that the line at the cursor begins with. Within a line there are none: blanks there
lie between tokens or belong to one. -/
def indentation (s : Scan) : Text :=
  if s.lineStart then s.cursor.rest.takeWhile isBlank else []

/-- The states of a scan, each with the blanks that the lines entered so far begin with, blank
lines and a last line of blanks among them, oldest first. -/
inductive Meets (source : Text) : Text → Scan → Prop
  | start : Meets source [] (.start source)
  | step {met : Text} {s t : Scan} (h : Meets source met s) (hm : s.Moves t) :
      Meets source (met ++ s.indentation) t

theorem indentation_of_not_lineStart (hl : s.lineStart = false) : s.indentation = [] := by
  unfold indentation
  rw [if_neg (by simp [hl])]

theorem indentation_of_lineStart (hl : s.lineStart = true) :
    s.indentation = s.cursor.rest.takeWhile isBlank := if_pos hl

theorem lineStart_of_mem_indentation (h : c ∈ s.indentation) : s.lineStart = true := by
  by_contra hl
  rw [indentation_of_not_lineStart (by simpa using hl)] at h
  cases h

theorem HasMargin.indentation_eq (h : s.HasMargin blanks rest) (hl : s.lineStart = true) :
    s.indentation = blanks := by
  rw [indentation_of_lineStart hl, h.rest_eq]
  exact takeWhile_append_eq_iff.2 ⟨h.isBlank, h.ends⟩

theorem HasMargin.mark_of_mem (h : s.HasMargin blanks rest) (hc : c ∈ blanks) :
    s.mark.or blanks.head? = some c := by
  have hagreed := Margin.agreed_of_not_mixed h.agrees
  unfold Margin.agreed at hagreed
  rw [h.takeWhile_blanks, List.takeWhile_eq_self_iff] at hagreed
  have hmark := hagreed c hc
  exact (beq_iff_eq.1 hmark).symm

theorem Advance.mark_eq (h : s.Advance t) :
    t.mark = s.mark.or s.indentation.head? ∧ ∀ c ∈ s.indentation, t.mark = some c := by
  obtain ⟨text, hr⟩ := h.reads
  have hmargin : ∀ {blanks rest}, s.lineStart = true → s.HasMargin blanks rest →
      t.mark = s.mark.or blanks.head? →
      t.mark = s.mark.or s.indentation.head? ∧ ∀ c ∈ s.indentation, t.mark = some c := by
    intro blanks rest hl hm hmark
    rw [hm.indentation_eq hl, hmark]
    exact ⟨rfl, fun c hc => hm.mark_of_mem hc⟩
  cases hr with
  | lastMargin hl hm => exact hmargin hl hm rfl
  | emptyLine hl hm => exact hmargin hl hm rfl
  | opens hl hm => exact hmargin hl hm rfl
  | closes hl hm => exact hmargin hl hm rfl
  | blank hl =>
    rw [indentation_of_not_lineStart hl]
    exact ⟨(Option.or_none).symm, nofun⟩
  | token hl =>
    rw [indentation_of_not_lineStart hl]
    exact ⟨(Option.or_none).symm, nofun⟩

theorem Stop.mark_eq (h : s.Stop stopped) :
    stopped.scan.mark = s.mark.or s.indentation.head? := by
  have hwithin : s.lineStart = false → s.mark = s.mark.or s.indentation.head? := by
    intro hl
    rw [indentation_of_not_lineStart hl]
    exact (Option.or_none).symm
  obtain ⟨text, hr⟩ := h.refuses
  cases hr with
  | @mixed blanks m x rest hl hrest hb hblank hm hx hne =>
    have hind : s.indentation = text ++ x :: rest.takeWhile isBlank := by
      rw [indentation_of_lineStart hl, hrest, List.takeWhile_append_of_pos hblank,
        List.takeWhile_cons, if_pos hx]
    change s.mark.or text.head? = _
    rw [hind]
    -- The first blank of the line can itself be the one that differs, if the mark is older.
    cases text with
    | nil =>
      rw [List.head?_nil, Option.or_none] at hm
      rw [hm]
      rfl
    | cons c text => rfl
  | unmatched hl hm =>
    rw [hm.indentation_eq hl]
    rfl
  | broken hl => exact hwithin hl
  | unterminated hl => exact hwithin hl
  | bareBang hl => exact hwithin hl
  | unexpected hl => exact hwithin hl

/-- The first blank of the line at the cursor that is another one than the first of all, `x`, and
the blanks of the line in front of it. -/
structure Strays (s : Scan) (met before : Text) (x : Char) : Prop where
  lineStart_eq : s.lineStart = true
  mem_indentation : ∃ behind, s.indentation = before ++ x :: behind
  differs : ∃ first, (met ++ before).head? = some first ∧ (∀ c ∈ met ++ before, c = first) ∧
    x ≠ first

namespace Strays

variable {before : Text}

theorem mem (h : s.Strays met before x) : x ∈ s.indentation := by
  obtain ⟨behind, he⟩ := h.mem_indentation
  rw [he]
  exact List.mem_append_right _ List.mem_cons_self

theorem head?_ne (h : s.Strays met before x) : (met ++ s.indentation).head? ≠ some x := by
  obtain ⟨behind, he⟩ := h.mem_indentation
  obtain ⟨first, hfirst, -, hne⟩ := h.differs
  rw [he, ← List.append_assoc, List.head?_append, hfirst]
  intro hx
  exact hne (Option.some.inj hx).symm

theorem getElem?_eq (h : s.Strays met before x) (hin : s.cursor.In source) :
    source[s.cursor.offset + before.length]? = some x := by
  obtain ⟨behind, he⟩ := h.mem_indentation
  obtain ⟨more, hmore⟩ := List.takeWhile_prefix (l := s.cursor.rest) isBlank
  rw [← indentation_of_lineStart h.lineStart_eq, he, hin.rest_eq] at hmore
  rw [← List.getElem?_drop, ← hmore, List.append_assoc, List.getElem?_append_right le_rfl,
    Nat.sub_self]
  rfl

end Strays

/-- What the blanks met so far say about a state of a scan. -/
structure Marked (met : Text) (s : Scan) : Prop where
  mark_eq : s.mark = met.head?
  alike : ∀ c ∈ met, met.head? = some c

namespace Marked

theorem head?_append (h : Marked met s) (more : Text) :
    (met ++ more).head? = s.mark.or more.head? := by
  rw [List.head?_append, h.mark_eq]

theorem step (h : Marked met s) (ha : s.Advance t) : Marked (met ++ s.indentation) t := by
  obtain ⟨hmark, hall⟩ := ha.mark_eq
  have hhead : (met ++ s.indentation).head? = t.mark := by rw [h.head?_append, hmark]
  refine ⟨hhead.symm, fun c hc => ?_⟩
  rw [hhead]
  rcases List.mem_append.1 hc with hc | hc
  · rw [hmark, h.mark_eq, h.alike c hc]
    rfl
  · exact hall c hc

/-- A line that is refused for its blanks is read up to the one that strays. -/
theorem strays (h : Marked met s) (hstop : s.Stop stopped)
    (hc : stopped.fault.cause = .mixedIndentation) :
    ∃ before x, s.Strays met before x ∧
      stopped.scan.cursor.offset = s.cursor.offset + before.length ∧
      stopped.fault.place = stopped.scan.cursor.place ∧
      stopped.scan = { s with
        cursor := stopped.scan.cursor
        mark := stopped.scan.mark } := by
  obtain ⟨text, hr⟩ := hstop.refuses
  cases hr with
  | @mixed blanks m x rest hl hrest hb hblank hm hx hne =>
    have hind : s.indentation = text ++ x :: rest.takeWhile isBlank := by
      rw [indentation_of_lineStart hl, hrest, List.takeWhile_append_of_pos hblank,
        List.takeWhile_cons, if_pos hx]
    have hfirst : (met ++ text).head? = some m := by rw [h.head?_append, hm]
    -- All blanks met before agree with the first, which is the mark, so only `x` differs.
    have hmet : ∀ c ∈ met, c = m := by
      intro c hc
      have hhead := h.alike c hc
      rw [List.head?_append, hhead] at hfirst
      exact Option.some.inj hfirst
    refine ⟨text, x, ⟨hl, ⟨_, hind⟩, m, hfirst, fun c hc => ?_, hne⟩, rfl, rfl, rfl⟩
    rcases List.mem_append.1 hc with hc | hc
    · exact hmet c hc
    · exact hb c hc
  | unmatched => cases hc
  | broken => cases hc
  | unterminated => cases hc
  | bareBang => cases hc
  | unexpected => cases hc

theorem exists_stop (h : Marked met s) (hx : x ∈ s.indentation)
    (hne : (met ++ s.indentation).head? ≠ some x) :
    ∃ stopped, s.Stop stopped ∧ stopped.fault.cause = .mixedIndentation := by
  have hl := lineStart_of_mem_indentation hx
  cases hm : s.margin.mixed with
  | true => exact ⟨_, .mixed hl hm, rfl⟩
  | false =>
    obtain ⟨blanks, hmargin⟩ := exists_hasMargin hm
    rw [h.head?_append] at hne
    rw [hmargin.indentation_eq hl] at hx hne
    exact absurd (hmargin.mark_of_mem hx) hne

end Marked

namespace Meets

theorem marked (h : Meets source met s) : Marked met s := by
  induction h with
  | start => exact ⟨rfl, nofun⟩
  | step _ hm ih => exact ih.step (moves_iff_advance.1 hm)

theorem reaches (h : Meets source met s) : (Scan.start source).Reaches s := by
  induction h with
  | start => exact .refl _
  | step _ hm ih => exact ih.tail hm

theorem exists_of_reaches (h : (Scan.start source).Reaches s) : ∃ met, Meets source met s := by
  apply h.preserves (P := fun s => ∃ met, Meets source met s)
  · rintro s t ha ⟨met, hs⟩
    exact ⟨_, hs.step ha.moves⟩
  · exact ⟨[], .start⟩

theorem exists_append (h : Meets source met s) (ht : s.Reaches t) :
    ∃ more, Meets source (met ++ more) t := by
  induction ht with
  | refl => exact ⟨[], by rwa [List.append_nil]⟩
  | @tail u t _ hm ih =>
    obtain ⟨more, hu⟩ := ih
    refine ⟨more ++ u.indentation, ?_⟩
    rw [← List.append_assoc]
    exact hu.step hm

theorem mark_of_reaches (h : Meets source met s) (ht : s.Reaches t) (hc : s.mark = some c) :
    t.mark = some c := by
  obtain ⟨more, hmore⟩ := h.exists_append ht
  rw [hmore.marked.mark_eq, h.marked.head?_append, hc]
  rfl

end Meets

theorem Advance.lineStart_iff (h : s.Advance t) :
    t.lineStart = true ↔
      ∃ lexeme place, lexeme ≠ [] ∧ t.tokens = s.tokens ++ [⟨.newline, lexeme, place⟩] := by
  have hnew : ∀ {new : List Token}, t.tokens = s.tokens ++ new → (t.lineStart = true ↔
      ∃ lexeme place, lexeme ≠ [] ∧ new = [⟨.newline, lexeme, place⟩]) →
      (t.lineStart = true ↔
        ∃ lexeme place, lexeme ≠ [] ∧ t.tokens = s.tokens ++ [⟨.newline, lexeme, place⟩]) := by
    intro new ht hiff
    rw [ht]
    simpa only [List.append_cancel_left_eq] using hiff
  -- Only the tokens that the step adds matter: those before it are the same on both sides.
  obtain ⟨text, hr⟩ := h.reads
  cases hr with
  | lastMargin =>
    apply hnew (tokens_emit (s.pastMargin text []) .newline)
    constructor
    · exact nofun
    · rintro ⟨lexeme, place, hne, hn⟩
      cases hn
      exact absurd rfl hne
  | @emptyLine blanks text rest hl hm ht =>
    apply hnew (tokens_pastToken (s.pastMargin blanks (text ++ rest)) .newline text text rest)
    exact iff_of_true rfl ⟨text, _, ht.ne_nil, rfl⟩
  | @opens blanks c rest =>
    apply hnew (tokens_opening (s.pastMargin text (c :: rest)) _ _)
    constructor
    · exact nofun
    · rintro ⟨lexeme, place, -, hn⟩
      cases hn
  | @closes blanks c rest =>
    apply hnew (tokens_closing (s.pastMargin text (c :: rest)) _ _)
    constructor
    · exact nofun
    · rintro ⟨lexeme, place, -, hn⟩
      have hmem := List.mem_singleton_self (⟨.newline, lexeme, place⟩ : Token)
      rw [← hn] at hmem
      cases List.eq_of_mem_replicate hmem
  | blank hl =>
    apply hnew (List.append_nil s.tokens).symm
    constructor
    · intro ht
      cases hl.symm.trans ht
    · rintro ⟨lexeme, place, -, hn⟩
      cases hn
  | @token kind lexeme text rest hl hrest ht =>
    apply hnew (tokens_pastToken s kind lexeme text rest)
    constructor
    · intro hk
      have hk : kind = .newline := by simpa [pastToken] using hk
      subst hk
      obtain ⟨rfl, hb⟩ := tokenAt_newline_iff.1 ht
      exact ⟨lexeme, _, hb.ne_nil, rfl⟩
    · rintro ⟨lexeme', place, -, hn⟩
      cases hn
      rfl

theorem Stop.ne_mixed_of_within (h : s.Stop stopped) (hl : s.lineStart = false) :
    stopped.fault.cause ≠ .mixedIndentation := by
  obtain ⟨text, hr⟩ := h.refuses
  cases hr with
  | mixed hs => cases hl.symm.trans hs
  | unmatched => exact nofun
  | broken => exact nofun
  | unterminated => exact nofun
  | bareBang => exact nofun
  | unexpected => exact nofun

/-- The mark in a state of a scan: the first of the blanks that lines began with, if any. -/
structure OneMark (met : Text) (s : Scan) : Prop where
  mark_eq : s.mark = met.head?
  kept : ∀ c t, s.mark = some c → s.Reaches t → t.mark = some c
  stopped : ∀ stopped, s.Stop stopped → stopped.scan.mark = (met ++ s.indentation).head?
  finish : s.finish.mark = met.head?
  /-- Blanks within a line, in comments and in literals, neither set the mark nor are refused. -/
  within : s.lineStart = false → (∀ t, s.Moves t → t.mark = s.mark) ∧
    ∀ stopped, s.Stop stopped →
      stopped.scan.mark = s.mark ∧ stopped.fault.cause ≠ .mixedIndentation

theorem Meets.oneMark (h : Meets source met s) : OneMark met s where
  mark_eq := h.marked.mark_eq
  kept _ _ hc ht := h.mark_of_reaches ht hc
  stopped _ hstop := by
    rw [hstop.mark_eq, h.marked.head?_append]
  finish := by
    rw [mark_finish, h.marked.mark_eq]
  within hl := by
    have hnone : s.mark.or s.indentation.head? = s.mark := by
      rw [indentation_of_not_lineStart hl]
      exact Option.or_none
    constructor
    · intro t hm
      rw [(moves_iff_advance.1 hm).mark_eq.1, hnone]
    · intro stopped hstop
      exact ⟨hstop.mark_eq.trans hnone, hstop.ne_mixed_of_within hl⟩

end Scan

open Scan in
/-- One blank for all lines of a source. The mark is the first blank that any line begins with,
and a scan is refused for a blank just if it comes to a line that begins with another one. It is
left at that blank, still in the margin of the line. -/
theorem one_mark (source : Text) :
    (∀ s, (start source).Reaches s → ∃ met, Meets source met s) ∧
    (∀ met s, Meets source met s → (start source).Reaches s ∧ OneMark met s) ∧
    (∀ s t : Scan, s.Moves t → (t.lineStart = true ↔
      ∃ lexeme place, lexeme ≠ [] ∧ t.tokens = s.tokens ++ [⟨.newline, lexeme, place⟩])) ∧
    ((∃ place, scan source = .error ⟨.mixedIndentation, place⟩) ↔
      ∃ met s x, Meets source met s ∧ x ∈ s.indentation ∧
        (met ++ s.indentation).head? ≠ some x) ∧
    ∀ stopped, ofSource source = .error stopped → stopped.fault.cause = .mixedIndentation →
      ∃ met s before x, Meets source met s ∧ s.Strays met before x ∧
        stopped.scan.cursor.In source ∧
        stopped.scan.cursor.offset = s.cursor.offset + before.length ∧
        source[stopped.scan.cursor.offset]? = some x ∧
        stopped.fault.place = .at source stopped.scan.cursor.offset ∧
        stopped.scan.lineStart = true ∧
        stopped.scan = { s with cursor := stopped.scan.cursor, mark := stopped.scan.mark } := by
  refine ⟨fun s h => Meets.exists_of_reaches h, fun met s h => ⟨h.reaches, h.oneMark⟩,
    fun s t h => (moves_iff_advance.1 h).lineStart_iff, ?_, fun stopped h hc => ?_⟩
  -- A blank that differs stops the scan where it stands, and nothing else does for this cause.
  · constructor
    · rintro ⟨place, h⟩
      obtain ⟨s, stopped, hs, hstop, hf⟩ := scan_eq_error_iff.1 h
      obtain ⟨met, hmet⟩ := Meets.exists_of_reaches hs
      have hc : stopped.fault.cause = .mixedIndentation := by rw [hf]
      obtain ⟨before, x, hx, -⟩ := hmet.marked.strays hstop hc
      exact ⟨met, s, x, hmet, hx.mem, hx.head?_ne⟩
    · rintro ⟨met, s, x, hmet, hx, hne⟩
      obtain ⟨stopped, hstop, hc⟩ := hmet.marked.exists_stop hx hne
      refine ⟨stopped.fault.place, scan_eq_error_iff.2 ⟨s, stopped, hmet.reaches, hstop, ?_⟩⟩
      rw [← hc]
  · obtain ⟨s, hs, hstop⟩ := ofSource_eq_error_iff.1 h
    obtain ⟨met, hmet⟩ := Meets.exists_of_reaches hs
    obtain ⟨before, x, hx, hoffset, hplace, hleft⟩ := hmet.marked.strays hstop hc
    have hin := cursor_in_of_reaches hs
    have hin' := hstop.cursor_in hin
    have hget := hx.getElem?_eq hin
    rw [← hoffset] at hget
    have hl : stopped.scan.lineStart = true := by
      rw [hleft]
      exact hx.lineStart_eq
    exact ⟨met, s, before, x, hmet, hx, hin', hoffset, hget, hplace.trans hin'.place_eq, hl, hleft⟩

open Scan in
/-- A tab behind an escaped line break of a literal and one within a line are no indentation; the
one behind the space of the last line is. -/
theorem one_mark_of_literal_and_margin :
    let source := "a\n \"\\\n\tb\"\tc\n \td".toList
    scan source = .error ⟨.mixedIndentation, ⟨4, 2⟩⟩ ∧
      (∃ met s, Meets source met s ∧ '\t' ∈ s.indentation ∧
        (met ++ s.indentation).head? ≠ some '\t') ∧
      ∃ stopped, ofSource source = .error stopped ∧ stopped.scan.cursor.offset = 13 ∧
        stopped.scan.lineStart = true ∧ stopped.scan.mark = some ' ' := by
  intro source
  have hscan : scan source = .error ⟨.mixedIndentation, ⟨4, 2⟩⟩ := by decide +kernel
  have hleft : ((ofSource source).map fun _ => ()).mapError (fun stopped =>
      (stopped.fault.cause, stopped.scan.cursor.offset, stopped.scan.mark)) =
        .error (.mixedIndentation, 13, some ' ') := by decide +kernel
  obtain ⟨-, -, -, -, hfault⟩ := one_mark source
  cases h : ofSource source with
  | ok s =>
    rw [h] at hleft
    cases hleft
  | error stopped =>
    rw [h] at hleft
    obtain ⟨hc, hleft⟩ := Prod.mk.inj (Except.error.inj hleft)
    obtain ⟨hoffset, hmark⟩ := Prod.mk.inj hleft
    obtain ⟨met, s, before, x, hmet, hx, -, -, hget, -, hl, -⟩ := hfault stopped h hc
    rw [hoffset] at hget
    cases hget
    exact ⟨hscan, ⟨met, s, hmet, hx.mem, hx.head?_ne⟩, stopped, rfl, hoffset, hl, hmark⟩

end Offside
