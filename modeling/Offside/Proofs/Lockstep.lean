import Mathlib.Data.List.Forall2
import Offside.Proofs.Passage

/-! Scans in lockstep: where the cursors of two texts go on alike, so do their scans, step by
step. -/
namespace Offside

namespace Margin

theorem read_map {f : Char → Char} (hf : Function.Injective f)
    (hb : ∀ x, isBlank (f x) = isBlank x) (mark : Option Char) (line : Text) :
    read (mark.map f) (line.map f) =
      { read mark line with mark := (read mark line).mark.map f } := by
  have hblank : isBlank ∘ f = isBlank := funext hb
  have hmark : ∀ m : Option Char,
      (fun x => some x == Option.map f m) ∘ f = fun x => some x == m := by
    intro m
    funext x
    cases m with
    | none => rfl
    | some y =>
      rw [Bool.eq_iff_iff]
      simp [hf.eq_iff]
  unfold read
  dsimp only
  rw [List.takeWhile_map, hblank, List.head?_map, ← Option.map_or, List.takeWhile_map, hmark,
    List.length_map, List.length_map]

end Margin

/-- Cursors of two texts go on alike: past the same blanks, written in another way, and past the
same tokens, up to what counts as the same. -/
structure Lockstep (Along : Cursor → Cursor → Prop) (blank : Char → Char)
    (Same : Token → Token → Prop) : Prop where
  isBlank_blank (x : Char) : isBlank (blank x) = isBlank x
  injective : Function.Injective blank
  kind_eq {t t' : Token} (h : Same t t') : t'.kind = t.kind
  layout {c c' : Cursor} (h : Along c c') {kind : Kind}
    (hk : kind ∈ [.indent, .dedent, .newline, .eof]) : Same ⟨kind, [], c.place⟩ ⟨kind, [], c'.place⟩
  ended {c c' : Cursor} (h : Along c c') (hr : c.rest = []) : c'.rest = []
  goesOn {c c' : Cursor} (h : Along c c') {x : Char} {rest : Text} (hr : c.rest = x :: rest)
    (hx : isBlank x = false) : ∃ x' rest', c'.rest = x' :: rest' ∧ isBlank x' = false ∧
      isLineBreak x' = isLineBreak x
  blanks {c c' : Cursor} (h : Along c c') {blanks rest : Text} (hr : c.rest = blanks ++ rest)
    (hb : ∀ x ∈ blanks, isBlank x = true) : ∃ rest', c'.rest = blanks.map blank ++ rest' ∧
      Along (c.past blanks rest) (c'.past (blanks.map blank) rest')
  token {c c' : Cursor} (h : Along c c') {text rest lexeme : Text} {kind : Kind}
    (hr : c.rest = text ++ rest) (ht : TokenAt (text ++ rest) kind lexeme text.length) :
    ∃ text' rest' lexeme', c'.rest = text' ++ rest' ∧
      TokenAt (text' ++ rest') kind lexeme' text'.length ∧
      Along (c.past text rest) (c'.past text' rest') ∧
      Same ⟨kind, lexeme, c.place⟩ ⟨kind, lexeme', c'.place⟩

theorem forall₂_replicate {α β : Type} {r : α → β → Prop} {a : α} {b : β} (n : Nat) (h : r a b) :
    List.Forall₂ r (List.replicate n a) (List.replicate n b) := by
  induction n with
  | zero => exact .nil
  | succ n ih => exact .cons h ih

namespace Scan

variable {Along : Cursor → Cursor → Prop} {blank : Char → Char} {Same : Token → Token → Prop}
  {s s' t : Scan} {source source' blanks text rest : Text} {kind : Kind}
  {place place' : Position} {depth : Nat}

/-- Two scans that have come equally far. -/
structure InStep (Along : Cursor → Cursor → Prop) (blank : Char → Char)
    (Same : Token → Token → Prop) (s s' : Scan) : Prop where
  along : Along s.cursor s'.cursor
  levels_eq : s'.levels = s.levels
  mark_eq : s'.mark = s.mark.map blank
  lineStart_eq : s'.lineStart = s.lineStart
  output : List.Forall₂ Same s.output s'.output

namespace InStep

variable (h : InStep Along blank Same s s')
include h

theorem stack_eq : s'.stack = s.stack := by
  unfold stack
  rw [h.levels_eq]

theorem tokens : List.Forall₂ Same s.tokens s'.tokens :=
  List.forall₂_reverse_iff.2 h.output

theorem opening (hs : Same ⟨.indent, [], place⟩ ⟨.indent, [], place'⟩) :
    InStep Along blank Same (s.opening depth place) (s'.opening depth place') where
  along := h.along
  levels_eq := congrArg (depth :: ·) h.levels_eq
  mark_eq := h.mark_eq
  lineStart_eq := rfl
  output := .cons hs h.output

theorem closing (hs : Same ⟨.dedent, [], place⟩ ⟨.dedent, [], place'⟩) :
    InStep Along blank Same (s.closing depth place) (s'.closing depth place') where
  along := h.along
  levels_eq := congrArg (List.dropWhile (depth < ·)) h.levels_eq
  mark_eq := h.mark_eq
  lineStart_eq := rfl
  output := by
    unfold Scan.closing
    rw [h.levels_eq]
    exact List.rel_append (forall₂_replicate _ hs) h.output

end InStep

/-- The states that the scans of two sources are in after equally many steps. -/
inductive Abreast (source source' : Text) : Scan → Scan → Prop
  | start : Abreast source source' (.start source) (.start source')
  | step {s s' t t' : Scan} (h : Abreast source source' s s') (hm : s.Moves t)
      (hm' : s'.Moves t') : Abreast source source' t t'

theorem Abreast.symm (h : Abreast source source' s s') : Abreast source' source s' s := by
  induction h with
  | start => exact .start
  | step _ hm hm' ih => exact .step ih hm' hm

variable (H : Lockstep Along blank Same)
include H

theorem InStep.emit (h : InStep Along blank Same s s')
    (hk : kind ∈ [.indent, .dedent, .newline, .eof]) :
    InStep Along blank Same (s.emit kind) (s'.emit kind) where
  along := h.along
  levels_eq := h.levels_eq
  mark_eq := h.mark_eq
  lineStart_eq := h.lineStart_eq
  output := .cons (H.layout h.along hk) h.output

theorem HasMargin.inStep (hm : s.HasMargin blanks rest) (h : InStep Along blank Same s s') :
    ∃ rest', s'.HasMargin (blanks.map blank) rest' ∧
      InStep Along blank Same (s.pastMargin blanks rest)
        (s'.pastMargin (blanks.map blank) rest') := by
  obtain ⟨rest', hr, hpast⟩ := H.blanks h.along hm.rest_eq hm.isBlank
  refine ⟨rest', ⟨hr, ?_, ?_, ?_⟩, ⟨hpast, h.levels_eq, ?_, h.lineStart_eq, h.output⟩⟩
  · intro x hx
    obtain ⟨y, hy, rfl⟩ := List.mem_map.1 hx
    rw [H.isBlank_blank]
    exact hm.isBlank y hy
  · intro x hx
    cases hrest : rest with
    | nil =>
      obtain rfl : rest' = [] := H.ended hpast hrest
      cases hx
    | cons y tail =>
      obtain ⟨x', tail', he, hx', -⟩ := H.goesOn hpast hrest (hm.ends y (by rw [hrest]; rfl))
      obtain rfl : rest' = x' :: tail' := he
      cases hx
      exact hx'
  · rw [h.mark_eq, Margin.read_map H.injective H.isBlank_blank]
    exact hm.agrees
  · change s'.mark.or (blanks.map blank).head? = (s.mark.or blanks.head?).map blank
    rw [h.mark_eq, List.head?_map, Option.map_or]

theorem HasMargin.inStep_of_content {c : Char} (hm : s.HasMargin blanks (c :: rest))
    (hc : isLineBreak c = false) (h : InStep Along blank Same s s') :
    ∃ c' rest', s'.HasMargin (blanks.map blank) (c' :: rest') ∧ isLineBreak c' = false ∧
      InStep Along blank Same (s.pastMargin blanks (c :: rest))
        (s'.pastMargin (blanks.map blank) (c' :: rest')) := by
  obtain ⟨behind, hm', hpast⟩ := hm.inStep H h
  obtain ⟨c', rest', he, -, hb⟩ := H.goesOn hpast.along rfl (hm.ends c rfl)
  obtain rfl : behind = c' :: rest' := he
  exact ⟨c', rest', hm', hb.trans hc, hpast⟩

theorem InStep.token (h : InStep Along blank Same s s') {lexeme : Text}
    (hr : s.cursor.rest = text ++ rest)
    (ht : TokenAt (text ++ rest) kind lexeme text.length) :
    ∃ text' rest' lexeme', s'.cursor.rest = text' ++ rest' ∧
      TokenAt (text' ++ rest') kind lexeme' text'.length ∧
      InStep Along blank Same (s.pastToken kind lexeme text rest)
        (s'.pastToken kind lexeme' text' rest') := by
  obtain ⟨text', rest', lexeme', hr', ht', hpast, hs⟩ := H.token h.along hr ht
  exact ⟨text', rest', lexeme', hr', ht', hpast, h.levels_eq, h.mark_eq, rfl, .cons hs h.output⟩

/-- Each step of the one scan is one of the other. -/
theorem Reads.inStep (hreads : s.Reads text t) (h : InStep Along blank Same s s') :
    ∃ text' t', s'.Reads text' t' ∧ InStep Along blank Same t t' := by
  cases hreads with
  | lastMargin hl hm hb =>
    obtain ⟨rest', hm', hpast⟩ := hm.inStep H h
    obtain rfl : rest' = [] := H.ended hpast.along rfl
    have hk : Kind.newline ∈ [.indent, .dedent, .newline, .eof] := by decide
    have hend := hpast.emit H hk
    refine ⟨_, _, .lastMargin (h.lineStart_eq.trans hl) hm' (by simpa using hb), ?_⟩
    exact ⟨hend.along, hend.levels_eq, hend.mark_eq, rfl, hend.output⟩
  | @emptyLine blanks text rest hl hm ht =>
    -- A line break of the one text is one of the other, though perhaps in another form.
    obtain ⟨rest', hm', hpast⟩ := hm.inStep H h
    obtain ⟨text', tail', lexeme', hr', ht', hline⟩ :=
      hpast.token H rfl (tokenAt_newline_iff.2 ⟨rfl, ht⟩)
    obtain ⟨rfl, hbreak⟩ := tokenAt_newline_iff.1 ht'
    obtain rfl : rest' = lexeme' ++ tail' := hr'
    exact ⟨_, _, .emptyLine (h.lineStart_eq.trans hl) hm' hbreak, hline⟩
  | opens hl hm hc hd =>
    obtain ⟨c', rest', hm', hc', hpast⟩ := hm.inStep_of_content H hc h
    refine ⟨_, _, .opens (h.lineStart_eq.trans hl) hm' hc' ?_, ?_⟩
    · rw [h.levels_eq, List.length_map]
      exact hd
    · rw [List.length_map]
      exact hpast.opening (H.layout h.along (by decide))
  | closes hl hm hc hd hk =>
    obtain ⟨c', rest', hm', hc', hpast⟩ := hm.inStep_of_content H hc h
    refine ⟨_, _, .closes (h.lineStart_eq.trans hl) hm' hc' ?_ ?_, ?_⟩
    · rw [h.levels_eq, List.length_map]
      exact hd
    · rw [h.levels_eq, List.length_map]
      exact hk
    · rw [List.length_map]
      exact hpast.closing (H.layout h.along (by decide))
  | @blank c rest hl hr hc =>
    have hcons : s.cursor.rest = [c] ++ rest := hr
    obtain ⟨rest', hr', hpast⟩ := H.blanks h.along hcons (by simpa using hc)
    refine ⟨_, _, .blank (h.lineStart_eq.trans hl) hr' ?_, ?_⟩
    · rw [H.isBlank_blank]
      exact hc
    · exact ⟨hpast, h.levels_eq, h.mark_eq, h.lineStart_eq, h.output⟩
  | token hl hr ht =>
    obtain ⟨text', rest', lexeme', hr', ht', hnext⟩ := h.token H hr ht
    exact ⟨_, _, .token (h.lineStart_eq.trans hl) hr' ht', hnext⟩

theorem Moves.inStep (hm : s.Moves t) (h : InStep Along blank Same s s') :
    ∃ t', s'.Moves t' ∧ InStep Along blank Same t t' := by
  obtain ⟨text, hr⟩ := (moves_iff_advance.1 hm).reads
  obtain ⟨text', t', hr', ht⟩ := hr.inStep H h
  exact ⟨t', hr'.advance.moves, ht⟩

theorem Reaches.inStep (hs : s.Reaches t) (h : InStep Along blank Same s s') :
    ∃ t', s'.Reaches t' ∧ InStep Along blank Same t t' := by
  induction hs with
  | refl => exact ⟨s', .refl _, h⟩
  | tail _ hm ih =>
    obtain ⟨t', ht', hstep⟩ := ih
    obtain ⟨u', hu', hstep'⟩ := hm.inStep H hstep
    exact ⟨u', ht'.tail hu', hstep'⟩

theorem InStep.finish (h : InStep Along blank Same s s') :
    InStep Along blank Same s.finish s'.finish := by
  have hhead : s'.output.head?.any (·.kind == .newline) =
      s.output.head?.any (·.kind == .newline) := by
    have ho := h.output
    generalize s.output = output, s'.output = output' at ho ⊢
    cases ho with
    | nil => rfl
    | cons ht _ => exact congrArg (· == Kind.newline) (H.kind_eq ht)
  have hended : ∀ {s s'}, InStep Along blank Same s s' → InStep Along blank Same
      { s with
        levels := []
        output := ⟨.eof, [], s.cursor.place⟩ ::
          List.replicate s.levels.length ⟨.dedent, [], s.cursor.place⟩ ++ s.output }
      { s' with
        levels := []
        output := ⟨.eof, [], s'.cursor.place⟩ ::
          List.replicate s'.levels.length ⟨.dedent, [], s'.cursor.place⟩ ++ s'.output } := by
    intro s s' h
    refine ⟨h.along, rfl, h.mark_eq, h.lineStart_eq, ?_⟩
    have hk : Kind.dedent ∈ [.indent, .dedent, .newline, .eof] := by decide
    have hclosing := forall₂_replicate s.levels.length (H.layout h.along hk)
    rw [h.levels_eq]
    exact .cons (H.layout h.along (by decide)) (List.rel_append hclosing h.output)
  unfold Scan.finish
  rw [hhead]
  split
  · exact hended h
  · exact hended (h.emit H (by decide))

/-- Where the margin of a line stops a scan, it stops both, for the same cause. -/
theorem Refuses.inStep_of_lineStart {stopped : Halt} (hs : s.Refuses text stopped)
    (hl : s.lineStart = true) (h : InStep Along blank Same s s') :
    ∃ text' stopped', s'.Refuses text' stopped' ∧
      stopped'.fault.cause = stopped.fault.cause ∧
      InStep Along blank Same stopped.scan stopped'.scan ∧
      ∃ c c', Along c c' ∧ stopped.fault.place = c.place ∧ stopped'.fault.place = c'.place := by
  have hl' := h.lineStart_eq.trans hl
  cases hs with
  | @mixed _ m x rest _ hr hb hblank hm hx hne =>
    obtain ⟨rest', hr', hpast⟩ := H.blanks h.along hr hblank
    have hcons : (s.cursor.past text (x :: rest)).rest = [x] ++ rest := rfl
    obtain ⟨tail', he, -⟩ := H.blanks hpast hcons (by simpa using hx)
    obtain rfl : rest' = blank x :: tail' := he
    -- The mark of the other text is the image of this one, be it an earlier one or the first blank.
    have hmark : s'.mark.or (text.map blank).head? = some (blank m) := by
      rw [h.mark_eq, List.head?_map, ← Option.map_or, hm]
      rfl
    refine ⟨_, _, .mixed hl' hr' (m := blank m) ?_ ?_ hmark ?_ ?_, rfl, ?_, ?_⟩
    · intro y hy
      obtain ⟨z, hz, rfl⟩ := List.mem_map.1 hy
      rw [hb z hz]
    · intro y hy
      obtain ⟨z, hz, rfl⟩ := List.mem_map.1 hy
      rw [H.isBlank_blank]
      exact hblank z hz
    · rw [H.isBlank_blank]
      exact hx
    · exact fun he => hne (H.injective he)
    · refine ⟨hpast, h.levels_eq, ?_, h.lineStart_eq, h.output⟩
      change s'.mark.or (text.map blank).head? = (s.mark.or text.head?).map blank
      rw [h.mark_eq, List.head?_map, Option.map_or]
    · exact ⟨_, _, hpast, rfl, rfl⟩
  | @unmatched _ c rest _ hm hc hd hk =>
    obtain ⟨c', rest', hm', hc', hpast⟩ := hm.inStep_of_content H hc h
    refine ⟨_, _, .unmatched hl' hm' hc' ?_ ?_, rfl, ?_, _, _, h.along, rfl, rfl⟩
    · rw [h.levels_eq, List.length_map]
      exact hd
    · rw [h.levels_eq, List.length_map]
      exact hk
    · rw [List.length_map]
      exact hpast.closing (H.layout h.along (by decide))
  | broken hn => cases hn.symm.trans hl
  | unterminated hn => cases hn.symm.trans hl
  | bareBang hn => cases hn.symm.trans hl
  | unexpected hn => cases hn.symm.trans hl

theorem Abreast.inStep (hstart : InStep Along blank Same (.start source) (.start source'))
    (h : Abreast source source' s s') : InStep Along blank Same s s' := by
  induction h with
  | start => exact hstart
  | step _ hm hm' ih =>
    obtain ⟨u', hu', hstep⟩ := hm.inStep H ih
    rw [hm'.unique hu']
    exact hstep

theorem Reaches.exists_abreast (hstart : InStep Along blank Same (.start source) (.start source'))
    (hs : (start source).Reaches s) : ∃ s', Abreast source source' s s' := by
  induction hs with
  | refl => exact ⟨_, .start⟩
  | tail _ hm ih =>
    obtain ⟨s', hs'⟩ := ih
    obtain ⟨t', hm', -⟩ := hm.inStep H (hs'.inStep H hstart)
    exact ⟨t', hs'.step hm hm'⟩

end Scan
end Offside
