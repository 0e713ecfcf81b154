import Offside.Proofs.LineBoundary
import Offside.Proofs.Lockstep

/-! Spaces and tabs are interchangeable: a source and the source in which each stands for the
other have the same tokens at the same places, or the same fault. -/
namespace Offside

variable {c x : Char} {text rest body value lexeme source before : Text} {kind : Kind}

section Swap

def swapBlank (c : Char) : Char := if c = ' ' then '\t' else if c = '\t' then ' ' else c

def swapBlanks (t : Text) : Text := t.map swapBlank

theorem swapBlank_of_not_isBlank (h : isBlank c = false) : swapBlank c = c := by
  simp only [isBlank, Bool.or_eq_false_iff, beq_eq_false_iff_ne] at h
  rw [swapBlank, if_neg h.1, if_neg h.2]

@[simp] theorem swapBlank_swapBlank (c : Char) : swapBlank (swapBlank c) = c := by
  cases hc : isBlank c with
  | false => rw [swapBlank_of_not_isBlank hc, swapBlank_of_not_isBlank hc]
  | true =>
    rcases isBlank_iff.1 hc with rfl | rfl
    · rfl
    · rfl

theorem swapBlank_injective : Function.Injective swapBlank :=
  Function.Involutive.injective swapBlank_swapBlank

@[simp] theorem isBlank_swapBlank (c : Char) : isBlank (swapBlank c) = isBlank c := by
  cases hc : isBlank c with
  | false => rw [swapBlank_of_not_isBlank hc, hc]
  | true =>
    rcases isBlank_iff.1 hc with rfl | rfl
    · rfl
    · rfl

theorem swapBlank_eq_iff (hx : isBlank x = false) : swapBlank c = x ↔ c = x := by
  rw [← swapBlank_injective.eq_iff, swapBlank_swapBlank, swapBlank_of_not_isBlank hx]

@[simp] theorem isLineBreak_swapBlank (c : Char) : isLineBreak (swapBlank c) = isLineBreak c := by
  rw [Bool.eq_iff_iff, isLineBreak_iff, isLineBreak_iff, swapBlank_eq_iff rfl, swapBlank_eq_iff rfl]

@[simp] theorem swapBlanks_swapBlanks (t : Text) : swapBlanks (swapBlanks t) = t := by
  unfold swapBlanks
  rw [List.map_map, Function.Involutive.comp_self swapBlank_swapBlank, List.map_id]

theorem swapBlanks_append (text rest : Text) :
    swapBlanks (text ++ rest) = swapBlanks text ++ swapBlanks rest := List.map_append

theorem swapBlanks_of_not_isBlank (h : ∀ x ∈ text, isBlank x = false) : swapBlanks text = text :=
  List.map_congr_left (fun x hx => swapBlank_of_not_isBlank (h x hx)) |>.trans (List.map_id text)

theorem head?_swapBlanks (hx : isBlank x = false) (rest : Text) :
    (swapBlanks rest).head? = some x ↔ rest.head? = some x := by
  cases rest with
  | nil => rfl
  | cons c rest => simp [swapBlanks, swapBlank_eq_iff hx]

theorem endsLine_swapBlanks (c : Char) (rest : Text) :
    endsLine (swapBlank c) (swapBlanks rest) = endsLine c rest := by
  have hfeed : isBlank '\n' = false := rfl
  have hreturn : isBlank '\r' = false := rfl
  rw [Bool.eq_iff_iff]
  simp only [endsLine, Bool.or_eq_true, Bool.and_eq_true, beq_iff_eq, bne_iff_ne, ne_eq,
    swapBlank_eq_iff hfeed, swapBlank_eq_iff hreturn, head?_swapBlanks hfeed]

theorem Position.behind_swapBlanks (p : Position) (text rest : Text) :
    p.behind (swapBlanks text) (swapBlanks rest) = p.behind text rest := by
  induction text generalizing p with
  | nil => rfl
  | cons c text ih =>
    have hc : p.after (swapBlank c) (swapBlanks text ++ swapBlanks rest) =
        p.after c (text ++ rest) := by
      rw [← swapBlanks_append]
      unfold after
      rw [endsLine_swapBlanks]
    rw [behind, ← hc, ← ih]
    rfl

theorem Kind.endsAs_swapBlanks (hk : kind ≠ .comment) (rest : Text) :
    kind.EndsAs rest (swapBlanks rest) := by
  intro x hx
  cases hb : isBlank x with
  | false => exact .inl ((head?_swapBlanks hb rest).1 hx)
  | true => exact .inr (by simp [Kind.endedBy, hb, hk])

end Swap

theorem Decodes.swapBlanks (h : Decodes body value) :
    ∃ value', Decodes (Offside.swapBlanks body) value' := by
  induction h with
  | nil => exact ⟨[], .nil⟩
  | plain hc _ ih =>
    obtain ⟨value', hd⟩ := ih
    refine ⟨_, .plain ?_ hd⟩
    simp only [List.mem_cons, List.not_mem_nil, or_false] at hc ⊢
    rwa [swapBlank_eq_iff rfl, swapBlank_eq_iff rfl, swapBlank_eq_iff rfl, swapBlank_eq_iff rfl]
  | lineFeed _ ih =>
    obtain ⟨value', hd⟩ := ih
    exact ⟨_, .lineFeed hd⟩
  | carriageReturn _ ih =>
    obtain ⟨value', hd⟩ := ih
    exact ⟨_, .carriageReturn hd⟩
  | tab _ ih =>
    obtain ⟨value', hd⟩ := ih
    exact ⟨_, .tab hd⟩
  | itself hc _ ih =>
    obtain ⟨value', hd⟩ := ih
    refine ⟨_, .itself ?_ hd⟩
    simp only [List.mem_cons, List.not_mem_nil, or_false] at hc ⊢
    rwa [swapBlank_eq_iff rfl, swapBlank_eq_iff rfl, swapBlank_eq_iff rfl]

/-- A token of a source, and the same token where the blanks of the source are swapped. -/
inductive SwappedToken (source : Text) : Token → Token → Prop
  | comment {body place} :
      SwappedToken source ⟨.comment, body, place⟩ ⟨.comment, swapBlanks body, place⟩
  | string {before body behind value value'} (hs : source = before ++ '"' :: body ++ '"' :: behind)
      (h : Decodes body value) (h' : Decodes (swapBlanks body) value') :
      SwappedToken source ⟨.string, value, .at source before.length⟩
        ⟨.string, value', .at source before.length⟩
  | same {token} (hk : token.kind ∉ [.comment, .string]) : SwappedToken source token token

theorem BreakBefore.swapBlanks (h : BreakBefore rest text) :
    Offside.swapBlanks text = text ∧ BreakBefore (Offside.swapBlanks rest) text := by
  constructor
  · cases h with
    | lineFeed => rfl
    | pair => rfl
    | carriageReturn => rfl
  · apply h.resume
    intro ht
    rw [Ne, head?_swapBlanks rfl]
    exact h.head?_ne ht

theorem takeWhile_swapBlanks (text : Text) :
    (swapBlanks text).takeWhile (!isLineBreak ·) =
      swapBlanks (text.takeWhile (!isLineBreak ·)) := by
  have hend : (!isLineBreak ·) ∘ swapBlank = (!isLineBreak ·) :=
    funext fun x => congrArg not (isLineBreak_swapBlank x)
  unfold swapBlanks
  rw [List.takeWhile_map, hend]

theorem swapBlanks_quoted (body : Text) :
    swapBlanks ('"' :: body ++ ['"']) = '"' :: swapBlanks body ++ ['"'] :=
  swapBlanks_append ('"' :: body) ['"']

/-- A token ends where it did when the blanks are swapped. -/
theorem TokenAt.swapBlanks (h : TokenAt (text ++ rest) kind lexeme text.length)
    (hs : source = before ++ (text ++ rest)) :
    ∃ lexeme', TokenAt (Offside.swapBlanks text ++ Offside.swapBlanks rest) kind lexeme'
        (Offside.swapBlanks text).length ∧
      SwappedToken source ⟨kind, lexeme, .at source before.length⟩
        ⟨kind, lexeme', .at source before.length⟩ := by
  obtain ⟨-, hspells⟩ := h.spells_text
  by_cases hnewline : kind = .newline
  · subst hnewline
    obtain ⟨rfl, hb⟩ := tokenAt_newline_iff.1 h
    obtain ⟨htext, hb'⟩ := hb.swapBlanks
    rw [htext]
    exact ⟨lexeme, tokenAt_newline_iff.2 ⟨rfl, hb'⟩, .same (by simp)⟩
  by_cases hcomment : kind = .comment
  · subst hcomment
    cases hspells with
    | verbatim hn => simp at hn
    | comment =>
      have hbody : (Offside.swapBlanks lexeme ++ Offside.swapBlanks rest).takeWhile
          (!isLineBreak ·) = Offside.swapBlanks lexeme := by
        rw [← swapBlanks_append, takeWhile_swapBlanks, tokenAt_comment_iff.1 h]
      exact ⟨Offside.swapBlanks lexeme, tokenAt_comment_iff.2 hbody, .comment⟩
  by_cases hstring : kind = .string
  · subst hstring
    cases hspells with
    | verbatim hn => simp at hn
    | @string body _ hd =>
      obtain ⟨value', hd'⟩ := hd.swapBlanks
      refine ⟨value', ?_, .string (by simpa using hs) hd hd'⟩
      rw [swapBlanks_quoted, List.append_assoc, List.length_append, List.length_cons]
      exact .string (Literal.read_closed hd' _)
  -- All other tokens hold no blanks, and none of them goes on with one.
  · have hplain := swapBlanks_of_not_isBlank fun x hx => isBlank_of_not_mem_marks
      (hspells.not_mem_marks (h.content hnewline) (by simp [hstring, hcomment]) x hx)
    refine ⟨lexeme, ?_, .same (by simp [hcomment, hstring])⟩
    rw [hplain]
    exact h.resume_of_ends hnewline (Kind.endsAs_swapBlanks hcomment rest)

structure Cursor.Swapped (source : Text) (c c' : Cursor) : Prop where
  inSource : c.In source
  rest_eq : c'.rest = swapBlanks c.rest
  offset_eq : c'.offset = c.offset
  place_eq : c'.place = c.place

theorem Cursor.Swapped.past {c c' : Cursor} (h : c.Swapped source c')
    (hr : c.rest = text ++ rest) :
    c'.rest = swapBlanks text ++ swapBlanks rest ∧
      (c.past text rest).Swapped source (c'.past (swapBlanks text) (swapBlanks rest)) := by
  constructor
  · rw [h.rest_eq, hr, swapBlanks_append]
  · constructor
    · exact h.inSource.past hr
    · rfl
    · simp [Cursor.past, swapBlanks, h.offset_eq]
    · dsimp only [Cursor.past]
      rw [h.place_eq, Position.behind_swapBlanks]

theorem lockstep_swapped (source : Text) :
    Lockstep (Cursor.Swapped source) swapBlank (SwappedToken source) where
  isBlank_blank := isBlank_swapBlank
  injective := swapBlank_injective
  kind_eq := by
    rintro _ _ (_ | _ | _)
    all_goals rfl
  layout h kind hk := by
    rw [h.place_eq]
    refine .same ?_
    simp only [List.mem_cons, List.not_mem_nil, or_false] at hk
    rcases hk with rfl | rfl | rfl | rfl <;> simp
  ended h hr := by
    rw [h.rest_eq, hr]
    rfl
  goesOn h x rest hr hx := by
    refine ⟨x, swapBlanks rest, ?_, hx, rfl⟩
    rw [h.rest_eq, hr, swapBlanks, List.map_cons, swapBlank_of_not_isBlank hx]
    rfl
  blanks h blanks rest hr hb := ⟨swapBlanks rest, h.past hr⟩
  token h text rest lexeme kind hr ht := by
    have hsource := h.inSource.source_eq
    rw [hr] at hsource
    obtain ⟨lexeme', ht', hsame⟩ := ht.swapBlanks hsource
    rw [List.length_take_of_le h.inSource.offset_le, ← h.inSource.place_eq] at hsame
    obtain ⟨hrest, hpast⟩ := h.past hr
    refine ⟨_, _, lexeme', hrest, ht', hpast, ?_⟩
    rw [h.place_eq]
    exact hsame

namespace Scan

variable {s s' t t' : Scan} {stopped : Halt}

/-- Two scans that have come equally far, in a source and where its blanks are swapped. -/
abbrev Swapped (source : Text) : Scan → Scan → Prop :=
  InStep (Cursor.Swapped source) swapBlank (SwappedToken source)

theorem swapped_start (source : Text) :
    Swapped source (start source) (start (swapBlanks source)) where
  along := ⟨Cursor.in_start source, rfl, rfl, rfl⟩
  levels_eq := rfl
  mark_eq := rfl
  lineStart_eq := rfl
  output := .nil

theorem Swapped.refusal (h : Swapped source s s') (hr : s.cursor.rest = text ++ rest)
    (cause : Cause) :
    (s'.refusal cause (swapBlanks text) (swapBlanks rest)).fault =
        (s.refusal cause text rest).fault ∧
      Swapped source (s.refusal cause text rest).scan
        (s'.refusal cause (swapBlanks text) (swapBlanks rest)).scan := by
  obtain ⟨-, hcursor⟩ := h.along.past hr
  constructor
  · exact congrArg (Fault.mk cause) hcursor.place_eq
  · exact ⟨hcursor, h.levels_eq, h.mark_eq, h.lineStart_eq, h.output⟩

theorem Refuses.swapBlanks_of_lineStart (h : s.Refuses text stopped) (hl : s.lineStart = true)
    (hs : Swapped source s s') :
    ∃ text' stopped', s'.Refuses text' stopped' ∧ stopped'.fault = stopped.fault ∧
      Swapped source stopped.scan stopped'.scan := by
  obtain ⟨text', stopped', hr, hcause, hscan, c, c', hc, hplace, hplace'⟩ :=
    h.inStep_of_lineStart (lockstep_swapped source) hl hs
  refine ⟨text', stopped', hr, ?_, hscan⟩
  generalize stopped.fault = f, stopped'.fault = f' at hcause hplace hplace'
  cases f
  cases f'
  rw [hc.place_eq, ← hplace] at hplace'
  exact congrArg₂ Fault.mk hcause hplace'

theorem isBlank_of_unexpected {c : Char}
    (h : ∀ more, Piece.read c more = .fault (.unexpected c) 0) : isBlank c = false := by
  cases hc : isBlank c with
  | false => rfl
  | true => cases (h []).symm.trans (if_pos hc)

theorem Refuses.swapBlanks (h : s.Refuses text stopped) (hs : Swapped source s s') :
    ∃ text' stopped', s'.Refuses text' stopped' ∧ stopped'.fault = stopped.fault ∧
      Swapped source stopped.scan stopped'.scan := by
  by_cases hl : s.lineStart = true
  · exact h.swapBlanks_of_lineStart hl hs
  have hl' : s'.lineStart = false := hs.lineStart_eq.trans (by simpa using hl)
  cases h with
  | mixed hstart => exact absurd hstart hl
  | unmatched hstart => exact absurd hstart hl
  | broken _ hr hd hc =>
    obtain ⟨value', hd'⟩ := hd.swapBlanks
    obtain ⟨hrest, -⟩ := hs.along.past hr
    have hc' := (isLineBreak_swapBlank _).trans hc
    exact ⟨_, _, .broken hl' hrest hd' hc', hs.refusal hr .brokenString⟩
  | @unterminated t body value _ hr hd ht =>
    obtain ⟨value', hd'⟩ := hd.swapBlanks
    have hr := hr.trans (List.append_nil _).symm
    obtain ⟨hrest, -⟩ := hs.along.past hr
    have ht' : Offside.swapBlanks t = Offside.swapBlanks body ∨
        Offside.swapBlanks t = Offside.swapBlanks body ++ ['\\'] := by
      rcases ht with rfl | rfl
      · exact .inl rfl
      · exact .inr (swapBlanks_append _ _)
    exact ⟨_, _, .unterminated hl' (hrest.trans (List.append_nil _)) hd' ht',
      hs.refusal hr .unterminatedString⟩
  | @bareBang rest _ hr hn =>
    have hr : s.cursor.rest = [] ++ '!' :: rest := hr
    obtain ⟨hrest, -⟩ := hs.along.past hr
    have hn' : (Offside.swapBlanks rest).head? ≠ some '=' := by
      rw [Ne, head?_swapBlanks rfl]
      exact hn
    exact ⟨_, _, .bareBang hl' hrest hn', hs.refusal hr .bareBang⟩
  | @unexpected c rest _ hr hp =>
    have hr : s.cursor.rest = [] ++ c :: rest := hr
    obtain ⟨hrest, -⟩ := hs.along.past hr
    have hfault := hs.refusal hr (.unexpected c)
    have hcons : Offside.swapBlanks (c :: rest) = c :: Offside.swapBlanks rest :=
      congrArg (· :: Offside.swapBlanks rest) (swapBlank_of_not_isBlank (isBlank_of_unexpected hp))
    rw [hcons] at hrest hfault
    exact ⟨_, _, .unexpected hl' hrest hp, hfault⟩

structure SwappedMargins (s s' : Scan) : Prop where
  stack_eq : s'.stack = s.stack
  mark_eq : s'.mark = s.mark.map swapBlank

theorem InStep.swappedMargins (h : Swapped source s s') : SwappedMargins s s' :=
  ⟨h.stack_eq, h.mark_eq⟩

end Scan

/-- The tokens of a source and those where its blanks are swapped, or the fault of both. -/
inductive SwappedOutcome (source : Text) :
    Except Fault (List Token) → Except Fault (List Token) → Prop
  | tokens {tokens tokens'} (h : List.Forall₂ (SwappedToken source) tokens tokens') :
      SwappedOutcome source (.ok tokens) (.ok tokens')
  | fault (f : Fault) : SwappedOutcome source (.error f) (.error f)

theorem swapped_outcome (source : Text) :
    SwappedOutcome source (scan source) (scan (swapBlanks source)) ∧
      Scan.SwappedMargins (Scan.leave source) (Scan.leave (swapBlanks source)) := by
  have H := lockstep_swapped source
  obtain ⟨s, hs, hr | ⟨stopped, hstop⟩⟩ := Scan.exists_reaches (Scan.start source)
  · obtain ⟨s', hs', hstep⟩ := hs.inStep H (Scan.swapped_start source)
    have hr' : s'.cursor.rest = [] := H.ended hstep.along hr
    have hfinish := hstep.finish H
    rw [scan_eq_ok_iff.2 ⟨s, hs, hr, rfl⟩, scan_eq_ok_iff.2 ⟨s', hs', hr', rfl⟩,
      Scan.leave_of_ok (Scan.ofSource_eq_ok_iff.2 ⟨s, hs, hr, rfl⟩),
      Scan.leave_of_ok (Scan.ofSource_eq_ok_iff.2 ⟨s', hs', hr', rfl⟩)]
    exact ⟨.tokens hfinish.tokens, hfinish.swappedMargins⟩
  · obtain ⟨s', hs', hstep⟩ := hs.inStep H (Scan.swapped_start source)
    obtain ⟨text, hrefuses⟩ := hstop.refuses
    obtain ⟨text', stopped', hrefuses', hfault, hscan⟩ := hrefuses.swapBlanks hstep
    have hstop' := hrefuses'.stop
    rw [scan_eq_error_iff.2 ⟨s, stopped, hs, hstop, rfl⟩,
      scan_eq_error_iff.2 ⟨s', stopped', hs', hstop', hfault⟩,
      Scan.leave_of_error (Scan.ofSource_eq_error_iff.2 ⟨s, hs, hstop⟩),
      Scan.leave_of_error (Scan.ofSource_eq_error_iff.2 ⟨s', hs', hstop'⟩)]
    exact ⟨.fault _, hscan.swappedMargins⟩

/-- Spaces and tabs are interchangeable: with each in place of the other a source has the same
tokens, but for the blanks in comments and strings, or the same fault; and the scans are abreast
all the way, with equal levels open and the marks swapped, and are left so. -/
theorem scan_swapBlanks (source : Text) :
    SwappedOutcome source (scan source) (scan (swapBlanks source)) ∧
    (∀ s, (Scan.start source).Reaches s →
      ∃ s', Scan.Abreast source (swapBlanks source) s s') ∧
    (∀ s', (Scan.start (swapBlanks source)).Reaches s' →
      ∃ s, Scan.Abreast source (swapBlanks source) s s') ∧
    (∀ s s', Scan.Abreast source (swapBlanks source) s s' → Scan.SwappedMargins s s') ∧
    Scan.SwappedMargins (Scan.leave source) (Scan.leave (swapBlanks source)) := by
  have hstart := Scan.swapped_start
  obtain ⟨houtcome, hleave⟩ := swapped_outcome source
  refine ⟨houtcome, ?_, ?_, ?_, hleave⟩
  · exact fun s hs => hs.exists_abreast (lockstep_swapped source) (hstart source)
  · intro s' hs'
    obtain ⟨s, hs⟩ := hs'.exists_abreast (lockstep_swapped _) (hstart _)
    rw [swapBlanks_swapBlanks] at hs
    exact ⟨s, hs.symm⟩
  · exact fun s s' h => (h.inStep (lockstep_swapped source) (hstart source)).swappedMargins

/-- A literal that holds a blank, and a margin that mixes them. -/
theorem scan_swapBlanks_of_literal_and_mixed_margin :
    let literal := " \"\t\"".toList
    let mixed := " a\n\tb".toList
    (∃ tokens tokens', scan literal = .ok tokens ∧ scan (swapBlanks literal) = .ok tokens' ∧
      tokens ≠ tokens' ∧ List.Forall₂ (SwappedToken literal) tokens tokens') ∧
    (∃ fault, scan mixed = .error fault ∧ scan (swapBlanks mixed) = .error fault) ∧
    (Scan.leave (swapBlanks mixed)).mark = some '\t' := by
  intro literal mixed
  obtain ⟨hliteral, -⟩ := scan_swapBlanks literal
  obtain ⟨hmixed, -, -, -, hleave⟩ := scan_swapBlanks mixed
  have htokens : (scan literal).isOk = true := by decide +kernel
  have hne : scan literal ≠ scan (swapBlanks literal) := by decide +kernel
  have hfault : (scan mixed).isOk = false := by decide +kernel
  have hmark : (Scan.leave mixed).mark = some ' ' := by decide +kernel
  refine ⟨?_, ?_, ?_⟩
  · generalize scan literal = result, scan (swapBlanks literal) = result' at hliteral htokens hne
    cases hliteral with
    | tokens h => exact ⟨_, _, rfl, rfl, fun he => hne (congrArg Except.ok he), h⟩
    | fault f => cases htokens
  · generalize scan mixed = result, scan (swapBlanks mixed) = result' at hmixed hfault
    cases hmixed with
    | tokens h => cases hfault
    | fault f => exact ⟨f, rfl, rfl⟩
  · rw [hleave.mark_eq, hmark]
    rfl

end Offside
