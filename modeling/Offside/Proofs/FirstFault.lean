import Offside.Proofs.Continuation

/-! A fault is found at the first code point that no scan could get past: what stands before it
can be completed, and what follows it cannot mend it. -/
namespace Offside

/-- What completes the text in front of a fault: nothing, or what closes the literal it is in. -/
def Halt.completion (source : Text) (stopped : Halt) : Text :=
  match stopped.fault.cause with
  | .brokenString => ['"']
  | .unterminatedString => closingQuotes (source.take stopped.scan.cursor.offset)
  | _ => []

/-- How many code points of a source settle its fault: those before it and the one it is found
at, and for a symbol that lacks its second half the one that stands there instead. -/
def Halt.decisive (stopped : Halt) : Nat :=
  stopped.scan.cursor.offset + if stopped.fault.cause = .bareBang then 2 else 1

namespace Scan

variable {s t : Scan} {stopped : Halt} {blanks x z text tail tail' source : Text} {c : Char}

theorem Reaches.ended_of_margin (h : (start (x ++ (blanks ++ z))).Reaches s)
    (hr : s.cursor.rest = blanks ++ z) (hl : s.lineStart = true)
    (hb : ∀ c ∈ blanks, isBlank c = true) (hm : (Margin.read s.mark blanks).mixed = false) :
    ∃ u, (start (x ++ blanks)).Reaches u ∧ u.cursor.rest = [] := by
  by_cases hne : blanks = []
  · subst hne
    rw [List.append_nil]
    exact h.ended hr
  · rw [← List.append_assoc] at h
    have hgo := h.withRest hne hr []
    rw [List.append_nil, List.append_nil] at hgo
    have hmargin : (s.withRest blanks).HasMargin blanks [] :=
      ⟨(List.append_nil blanks).symm, hb, nofun, hm⟩
    have hstep := Reads.lastMargin (s := s.withRest blanks) hl hmargin hne
    exact ⟨_, hgo.tail hstep.advance.moves, rfl⟩

theorem Reaches.ended_of_literal {value : Text} (h : (start (x ++ '"' :: z)).Reaches s)
    (hr : s.cursor.rest = '"' :: z) (hl : s.lineStart = false)
    (hv : Literal.read text = .closed value text.length) :
    ∃ u, (start (x ++ '"' :: text)).Reaches u ∧ u.cursor.rest = [] := by
  rw [← List.singleton_append, ← List.append_assoc] at h
  have hgo := h.withRest (List.cons_ne_nil '"' []) hr text
  rw [List.append_assoc, List.singleton_append] at hgo
  have htoken : TokenAt ('"' :: text ++ []) .string value ('"' :: text).length := by
    rw [List.append_nil]
    exact .string hv
  have hs : (s.withRest ('"' :: text)).cursor.rest = '"' :: text ++ [] :=
    (List.append_nil _).symm
  have hstep := Reads.token (s := s.withRest ('"' :: text)) hl hs htoken
  exact ⟨_, hgo.tail hstep.advance.moves, rfl⟩

theorem Refuses.completes (hr : s.Refuses text stopped) (h : (start source).Reaches s) :
    ∃ u, (start (source.take stopped.scan.cursor.offset ++ stopped.completion source)).Reaches u ∧
      u.cursor.rest = [] := by
  obtain ⟨htake, -⟩ := hr.take_and_drop h
  unfold Halt.completion
  rw [htake]
  rw [(cursor_in_of_reaches h).source_eq] at h
  generalize source.take s.cursor.offset = x at h
  -- Margins end with the input, literals with the quotes that close them, and behind a symbol
  -- nothing is missing.
  cases hr with
  | @mixed blanks m c rest hl hr hb hblank hm hx hne =>
    rw [hr] at h
    rw [List.append_nil]
    exact h.ended_of_margin hr hl hblank (Margin.not_mixed_of_forall_eq hb hblank hm)
  | unmatched hl hm hc hd hk =>
    rw [hm.rest_eq] at h
    rw [List.append_nil]
    exact h.ended_of_margin hm.rest_eq hl hm.isBlank hm.agrees
  | @broken body value c rest hl hr hd hc =>
    rw [hr] at h
    rw [List.append_assoc]
    have hclosed : Literal.read (body ++ ['"']) = .closed value (body ++ ['"']).length := by
      rw [Literal.read_closed hd, List.length_append, List.length_singleton]
    exact h.ended_of_literal hr hl hclosed
  | @unterminated t body value hl hr hd ht =>
    obtain ⟨v, hv⟩ := Literal.exists_read_closingQuotes hd ht
    rw [hr] at h
    dsimp only [refusal]
    rw [closingQuotes_append_cons (by decide), List.append_assoc]
    exact h.ended_of_literal hr hl hv
  | bareBang hl hr hn =>
    dsimp only [refusal]
    rw [List.append_nil, List.append_nil]
    exact h.ended rfl
  | unexpected hl hr hp =>
    dsimp only [refusal]
    rw [List.append_nil, List.append_nil]
    exact h.ended rfl

theorem Refuses.again (h : s.Refuses text stopped)
    (hc : stopped.fault.cause ≠ .unterminatedString) (hr : stopped.scan.cursor.rest = c :: tail)
    (hb : stopped.fault.cause = .bareBang → tail'.head? = tail.head?) :
    ∃ other, (s.withRest (text ++ c :: tail')).Refuses text other ∧
      other.fault = stopped.fault := by
  have hplace : s.cursor.place.behind text (c :: tail) =
      s.cursor.place.behind text (c :: tail') := Position.behind_congr fun _ => .rfl
  cases h with
  | mixed hl hrest hblanks hblank hm hx hne =>
    cases hr
    refine ⟨_, .mixed hl rfl hblanks hblank hm hx hne, ?_⟩
    rw [hplace]
    rfl
  | unmatched hl hm hbreak hd hk =>
    cases hr
    have hends : ∀ x, (c :: tail').head? = some x → isBlank x = false := hm.ends
    exact ⟨_, .unmatched hl (hm.withRest hends) hbreak hd hk, rfl⟩
  | broken hl hrest hd hbreak =>
    cases hr
    refine ⟨_, .broken hl rfl hd hbreak, ?_⟩
    unfold refusal
    rw [hplace]
    rfl
  | unterminated => exact absurd rfl hc
  | bareBang hl hrest hn =>
    cases hr
    refine ⟨_, .bareBang hl rfl ?_, rfl⟩
    rw [hb rfl]
    exact hn
  | unexpected hl hrest hp =>
    cases hr
    exact ⟨_, .unexpected hl rfl hp, rfl⟩

theorem Refuses.exists_rest (h : s.Refuses text stopped)
    (hc : stopped.fault.cause ≠ .unterminatedString) :
    ∃ c tail, stopped.scan.cursor.rest = c :: tail := by
  cases h with
  | mixed => exact ⟨_, _, rfl⟩
  | unmatched => exact ⟨_, _, rfl⟩
  | broken => exact ⟨_, _, rfl⟩
  | unterminated => exact absurd rfl hc
  | bareBang => exact ⟨_, _, rfl⟩
  | unexpected => exact ⟨_, _, rfl⟩

/-- Every text that goes on with what is seen of a source has the fault of the source. -/
theorem Refuses.scan_eq {seen : Text} (h : s.Refuses text stopped)
    (hs : (start source).Reaches s) (hc : stopped.fault.cause ≠ .unterminatedString)
    (hr : stopped.scan.cursor.rest = seen ++ z)
    (hk : seen.length = if stopped.fault.cause = .bareBang then 2 else 1) (more : Text) :
    scan (source.take stopped.scan.cursor.offset ++ seen ++ more) = .error stopped.fault := by
  obtain ⟨c, tail, rfl⟩ : ∃ c tail, seen = c :: tail := by
    apply List.exists_cons_of_length_pos
    split at hk <;> omega
  have hrest : s.cursor.rest = (text ++ c :: tail) ++ z := by
    rw [h.rest_eq, hr, List.append_assoc]
  obtain ⟨htake, -⟩ := h.take_and_drop hs
  have hsource := (cursor_in_of_reaches hs).source_eq
  rw [hrest, ← List.append_assoc] at hsource
  rw [hsource] at hs
  have hne : text ++ c :: tail ≠ [] := by simp
  -- The run up to the fault is the same in front of any text, and then stops alike.
  have hgo := hs.withRest hne hrest more
  have hhead : stopped.fault.cause = .bareBang → (tail ++ more).head? = (tail ++ z).head? := by
    intro hbang
    have htail : tail ≠ [] := by
      intro hn
      rw [if_pos hbang, hn, List.length_singleton] at hk
      omega
    rw [List.head?_append_of_ne_nil _ htail, List.head?_append_of_ne_nil _ htail]
  obtain ⟨other, hother, hfault⟩ := h.again hc hr hhead
  rw [htake, scan_eq_error_iff, List.append_assoc (source.take _)]
  refine ⟨_, other, hgo, ?_, hfault⟩
  rw [List.append_assoc]
  exact hother.stop

end Scan

/-- The first fault of a source: what stands before it can be completed to a text that is scanned,
and unless the input ended too early, no text that agrees up to there with the source is. -/
theorem scan_first_fault {source : Text} {stopped : Halt}
    (h : Scan.ofSource source = .error stopped) :
    (∃ tokens, scan (source.take stopped.scan.cursor.offset ++ stopped.completion source) =
      .ok tokens) ∧
    (stopped.fault.cause ≠ .unterminatedString →
      (stopped.fault.cause = .bareBang → stopped.decisive ≤ source.length) →
      ∀ text : Text, text.take stopped.decisive = source.take stopped.decisive →
        scan text = .error stopped.fault) := by
  obtain ⟨s, hs, hstop⟩ := Scan.ofSource_eq_error_iff.1 h
  obtain ⟨text, hr⟩ := hstop.refuses
  constructor
  · obtain ⟨u, hu, hend⟩ := hr.completes hs
    exact ⟨_, scan_eq_ok_iff.2 ⟨u, hu, hend, rfl⟩⟩
  · intro hc hb other ho
    obtain ⟨-, hdrop⟩ := hr.take_and_drop hs
    obtain ⟨c, tail, hrest⟩ := hr.exists_rest hc
    -- For a lone `!` the next character is decisive as well, which the hypothesis says is there.
    have hle : (if stopped.fault.cause = .bareBang then 2 else 1) ≤
        stopped.scan.cursor.rest.length := by
      split
      · rename_i hbang
        have hlen := hb hbang
        rw [Halt.decisive, if_pos hbang] at hlen
        rw [← hdrop, List.length_drop]
        omega
      · rw [hrest, List.length_cons]
        omega
    have hp := List.take_prefix stopped.decisive other
    rw [ho, Halt.decisive, List.take_add, hdrop] at hp
    obtain ⟨more, rfl⟩ := hp
    exact hr.scan_eq hs hc (List.take_append_drop _ _).symm (List.length_take_of_le hle) more

/-- A literal that is cut off between the two characters of a line break. -/
theorem scan_first_fault_of_escaped_crlf :
    let source := "x=\"\\\r\n".toList
    let fault : Fault := ⟨.brokenString, ⟨1, 6⟩⟩
    scan source = .error fault ∧
      (∃ tokens, scan "x=\"\\\r\"".toList = .ok tokens) ∧
      scan "x=\"\\\r\n\"".toList = .error fault := by
  intro source fault
  let output : List Token := [⟨.assign, ['='], ⟨1, 2⟩⟩, ⟨.identifier, ['x'], ⟨1, 1⟩⟩]
  have h : Scan.ofSource source =
      .error ⟨fault, ⟨⟨['\n'], 5, ⟨1, 6⟩⟩, [], none, false, output⟩⟩ := by decide +kernel
  obtain ⟨hcompleted, hsettled⟩ := scan_first_fault h
  have hc : fault.cause ≠ .unterminatedString := by decide
  have hb : fault.cause = .bareBang → 6 ≤ source.length := by decide
  exact ⟨hsettled hc hb source rfl, hcompleted, hsettled hc hb _ (by decide)⟩

end Offside
