import Offside.Proofs.Display
import Offside.Proofs.ExitStatus
import Offside.Proofs.Spans
import Offside.Proofs.Streams

/-! Sources without content. White space alone is what gives no content, though the scan skips only
some of it: the rest of it begins no token. -/
namespace Offside

variable {source text lexeme : Text} {kind : Kind} {tiles : List Tile} {token : Token}
  {tokens : List Token} {c : Char}

/-- All tokens are content but layout, the ends of lines and the end of the input. -/
def Token.isContent (t : Token) : Bool := t.kind.family? != some .structural

theorem Token.isContent_iff :
    token.isContent = true ↔ token.kind ∉ [.indent, .dedent, .newline, .eof] := by
  unfold isContent
  cases token.kind <;> decide

theorem Token.isContent_iff_hasSpan :
    token.isContent = true ↔ token.hasSpan = true ∧ token.kind ≠ .newline := by
  obtain ⟨kind, lexeme, place⟩ := token
  cases kind <;> simp [isContent, hasSpan, Kind.family?]

section WhiteSpace

theorem Unicode.not_isWhiteSpace_of_isLetter (h : isLetter c = true) :
    isWhiteSpace c = false := by
  have hbasic : lettersBasic.apart whiteSpace = true := by decide +kernel
  have hbeyond : lettersBeyond.apart whiteSpace = true := by decide +kernel
  unfold isLetter at h
  split at h
  · exact RangeTable.not_contains_of_apart lettersBasic_ascending whiteSpace_ascending hbasic h
  · exact RangeTable.not_contains_of_apart lettersBeyond_ascending whiteSpace_ascending hbeyond h

theorem Unicode.not_isWhiteSpace_of_isDecimalDigit (h : isDecimalDigit c = true) :
    isWhiteSpace c = false := by
  have hapart : decimalDigits.apart whiteSpace = true := by decide +kernel
  exact RangeTable.not_contains_of_apart decimalDigits_ascending whiteSpace_ascending hapart h

theorem not_isWhiteSpace_of_continuesWord (h : continuesWord c = true) :
    Unicode.isWhiteSpace c = false := by
  simp only [continuesWord, startsWord, Bool.or_eq_true, beq_iff_eq] at h
  rcases h with (hletter | rfl) | hdigit
  · exact Unicode.not_isWhiteSpace_of_isLetter hletter
  · decide +kernel
  · exact Unicode.not_isWhiteSpace_of_isDecimalDigit hdigit

theorem isWhiteSpace_of_isBlank (h : isBlank c = true) : Unicode.isWhiteSpace c = true := by
  rcases isBlank_iff.1 h with rfl | rfl
  · decide +kernel
  · decide +kernel

theorem isWhiteSpace_of_isLineBreak (h : isLineBreak c = true) :
    Unicode.isWhiteSpace c = true := by
  rcases isLineBreak_iff.1 h with rfl | rfl
  · decide +kernel
  · decide +kernel

theorem Content.not_isWhiteSpace (h : Content kind lexeme) (hk : kind ∉ [.string, .comment]) :
    ∀ x ∈ lexeme, Unicode.isWhiteSpace x = false := by
  have hsymbols : ∀ entry ∈ Kind.symbols,
      entry.1.all (fun x => !Unicode.isWhiteSpace x) = true := by decide +kernel
  apply h.forall_mem (P := fun x => Unicode.isWhiteSpace x = false) hk
  · intro x hx
    exact not_isWhiteSpace_of_continuesWord hx
  · decide +kernel
  · intro entry hs x hx
    have hall := List.all_eq_true.1 (hsymbols entry hs) x hx
    rwa [Bool.not_eq_true'] at hall

theorem Spells.exists_not_isWhiteSpace (h : Spells kind lexeme text) (hc : Content kind lexeme)
    (hne : text ≠ []) : ∃ x ∈ text, Unicode.isWhiteSpace x = false := by
  cases h with
  | verbatim hk =>
    simp only [List.mem_cons, List.not_mem_nil, or_false, not_or] at hk
    obtain ⟨x, hx⟩ := List.exists_mem_of_ne_nil _ hne
    exact ⟨x, hx, hc.not_isWhiteSpace (by simp [hk]) x hx⟩
  | comment => exact ⟨'#', List.mem_cons_self, by decide +kernel⟩
  | string => exact ⟨'"', List.mem_cons_self, by decide +kernel⟩

theorem BreakBefore.isWhiteSpace {rest : Text} (h : BreakBefore rest text) :
    ∀ x ∈ text, Unicode.isWhiteSpace x = true := by
  have hall : text.all isLineBreak = true := by
    cases h with
    | lineFeed => rfl
    | pair => rfl
    | carriageReturn => rfl
  exact fun x hx => isWhiteSpace_of_isLineBreak (List.all_eq_true.1 hall x hx)

end WhiteSpace

/-- Of all texts of tokens, only the ends of lines are white space alone. -/
theorem TokenAt.exists_not_isWhiteSpace_iff {rest : Text}
    (h : TokenAt (text ++ rest) kind lexeme text.length) :
    (∃ x ∈ text, Unicode.isWhiteSpace x = false) ↔ kind ≠ .newline := by
  by_cases hk : kind = .newline
  · subst hk
    obtain ⟨-, hb⟩ := tokenAt_newline_iff.1 h
    apply iff_of_false
    · rintro ⟨x, hx, hw⟩
      cases hw.symm.trans (hb.isWhiteSpace x hx)
    · exact not_not_intro rfl
  · obtain ⟨hne, hspells⟩ := h.spells_text
    exact iff_of_true (hspells.exists_not_isWhiteSpace (h.content hk) hne) hk

/-- A source is more than white space just if one of its tokens is content. -/
theorem ReadTiling.exists_not_isWhiteSpace_iff (h : ReadTiling source tiles tokens []) :
    (∃ x ∈ source, Unicode.isWhiteSpace x = false) ↔ ∃ t ∈ tokens, t.isContent = true := by
  have hjoin := h.join_eq
  rw [List.append_nil] at hjoin
  rw [← hjoin]
  constructor
  · rintro ⟨x, hx, hw⟩
    obtain ⟨tile, htile, hx⟩ := List.mem_flatMap.1 hx
    cases tile with
    | blank c =>
      obtain rfl : x = c := List.mem_singleton.1 hx
      cases hw.symm.trans (isWhiteSpace_of_isBlank (isBlank_iff.2 (h.blanks x htile)))
    | span token text =>
      obtain ⟨hmem, hspan⟩ := h.exists_span_iff.1 ⟨text, htile⟩
      obtain ⟨behind, hat⟩ := h.exists_tokenAt htile
      exact ⟨token, hmem, Token.isContent_iff_hasSpan.2
        ⟨hspan, hat.exists_not_isWhiteSpace_iff.1 ⟨x, hx, hw⟩⟩⟩
  · rintro ⟨token, hmem, hcontent⟩
    obtain ⟨hspan, hk⟩ := Token.isContent_iff_hasSpan.1 hcontent
    obtain ⟨text, htile⟩ := h.exists_span_iff.2 ⟨hmem, hspan⟩
    obtain ⟨behind, hat⟩ := h.exists_tokenAt htile
    obtain ⟨x, hx, hw⟩ := hat.exists_not_isWhiteSpace_iff.2 hk
    exact ⟨x, List.mem_flatMap.2 ⟨_, htile, hx⟩, hw⟩

namespace Grammar

variable {ends last : Text → Prop} {level level' : Nat} {forms : List Form}

theorem Line.of_structural (h : Line ends level forms level')
    (hs : ∀ f ∈ forms, f.1.family? = some .structural) :
    level' = level ∧ ∀ f ∈ forms, f.1 = .newline := by
  cases h with
  | blank => simp
  | content _ hc =>
    obtain ⟨f, hf⟩ := List.exists_mem_of_ne_nil _ hc.ne_nil
    exact absurd (hs f (by simp [hf])) (hc.content f hf).not_structural

/-- Lines without content end and do nothing else: no level is opened but for content. -/
theorem Lines.of_structural (h : Lines ends level forms level')
    (hs : ∀ f ∈ forms, f.1.family? = some .structural) :
    level' = level ∧ ∀ f ∈ forms, f.1 = .newline := by
  induction h with
  | nil => simp
  | snoc _ hline ih =>
    simp only [List.mem_append, or_imp, forall_and] at hs
    obtain ⟨hlevel, hlines⟩ := ih hs.1
    obtain ⟨hlevel', hend⟩ := hline.of_structural hs.2
    refine ⟨hlevel'.trans hlevel, fun f hf => ?_⟩
    rcases List.mem_append.1 hf with hf | hf
    · exact hlines f hf
    · exact hend f hf

theorem Stream.of_structural (h : Stream ends last forms)
    (hs : ∀ f ∈ forms, f.1.family? = some .structural) :
    ∃ n, forms.map Prod.fst = List.replicate n .newline ++ [.eof] := by
  cases h with
  | @intro lines line _ _ hlines hline =>
    simp only [List.mem_append, or_imp, forall_and] at hs
    obtain ⟨⟨⟨hs, hs'⟩, -⟩, -⟩ := hs
    obtain ⟨rfl, hl⟩ := hlines.of_structural hs
    obtain ⟨rfl, hl'⟩ := hline.of_structural hs'
    refine ⟨(lines ++ line).length, ?_⟩
    have hnewlines : (lines ++ line).map Prod.fst =
        List.replicate (lines ++ line).length Kind.newline := by
      apply List.eq_replicate_iff.2
      constructor
      · rw [List.length_map]
      · intro kind hk
        obtain ⟨f, hf, rfl⟩ := List.mem_map.1 hk
        rcases List.mem_append.1 hf with hf | hf
        · exact hl f hf
        · exact hl' f hf
    rw [List.replicate_zero, List.append_nil, List.map_append, hnewlines]
    rfl

end Grammar

theorem kind_of_ends {n : Nat}
    (h : tokens.map (·.kind) = List.replicate n .newline ++ [.eof]) (ht : token ∈ tokens) :
    token.kind = .newline ∨ token.kind = .eof := by
  have hmem : token.kind ∈ tokens.map (·.kind) := List.mem_map_of_mem ht
  rw [h] at hmem
  rcases List.mem_append.1 hmem with hmem | hmem
  · exact .inl (List.eq_of_mem_replicate hmem)
  · exact .inr (List.mem_singleton.1 hmem)

theorem forall_not_isContent_iff (h : scan source = .ok tokens) :
    (∀ t ∈ tokens, t.isContent = false) ↔
      ∃ n, tokens.map (·.kind) = List.replicate n .newline ++ [.eof] := by
  obtain ⟨s, hs, hr, rfl⟩ := scan_eq_ok_iff.1 h
  have hstream := (Scan.progress_of_reaches hs).stream_finish hr
  have hkinds : s.finish.tokens.map (·.kind) = s.finish.forms.map Prod.fst := by
    unfold Scan.forms
    rw [List.map_map]
    rfl
  constructor
  · intro hn
    rw [hkinds]
    apply hstream.of_structural
    intro f hf
    obtain ⟨t, ht, rfl⟩ := List.mem_map.1 hf
    exact bne_eq_false_iff_eq.1 (hn t ht)
  · intro ⟨n, hn⟩ t ht
    rw [← Bool.not_eq_true, Token.isContent_iff, not_not]
    rcases kind_of_ends hn ht with hk | hk
    · simp [hk]
    · simp [hk]

namespace Command

variable {env : Environment} {args more : List Text} {arg : Text}

/-- The check for white space agrees with the scan. Of the sources that can be scanned, those of
white space alone are those that have nothing but ends of lines in front of the end of the input,
and no layout or comments then; and what is shown with status 0 is a scanned source that has
content. All else ends with status 1, white space with a warning and what stops the scan with an
error. On a console of 0 columns listings, warnings and errors are the empty text. -/
theorem blank_check (source : Text) :
    (∀ tokens, scan source = .ok tokens →
      (source.all Unicode.isWhiteSpace = true ↔
        ∃ n, tokens.map (·.kind) = List.replicate n .newline ++ [.eof]) ∧
      (source.all Unicode.isWhiteSpace = true ↔ ∀ t ∈ tokens, t.isContent = false) ∧
      (source.all Unicode.isWhiteSpace = true →
        ∀ t ∈ tokens, t.kind ∉ [.indent, .dedent, .comment])) ∧
    ∀ {env args arg more}, Request.Known (Request.positional args) →
      Request.positional args = "tokenize".toList :: arg :: more → Supplies env arg source →
      ∃ report, run env args = .ok report ∧
        (source.all Unicode.isWhiteSpace = true →
          report.status = 1 ∧ report.output =
            (console env args).write ((console env args).warning blankMessage)) ∧
        (∀ tokens, scan source = .ok tokens → (∃ t ∈ tokens, t.isContent = true) →
          report.status = 0 ∧ report.output =
            if "--json".toList ∈ args then lines [Token.document (shown args tokens)]
            else (console env args).write
              (Listing.lines ⟨shown args tokens, tokens.length⟩ (console env args))) ∧
        (∀ fault, scan source = .error fault → source.all Unicode.isWhiteSpace = false →
          report.status = 1 ∧ report.output =
            (console env args).write
              ((console env args).errorBlock "LEXICAL ERROR".toList fault.message)) := by
  -- White space is told from content tile by tile, whatever tokens the tiles stand for.
  have hwhite : ∀ {tokens}, scan source = .ok tokens →
      (source.all Unicode.isWhiteSpace = true ↔ ∀ t ∈ tokens, t.isContent = false) := by
    intro tokens h
    obtain ⟨tiles, htiles⟩ := exists_readTiling h
    have hcontent := not_congr htiles.exists_not_isWhiteSpace_iff
    simpa using hcontent
  constructor
  · intro tokens h
    refine ⟨(hwhite h).trans (forall_not_isContent_iff h), hwhite h, ?_⟩
    intro hb t ht
    obtain ⟨n, hn⟩ := (forall_not_isContent_iff h).1 ((hwhite h).1 hb)
    rcases kind_of_ends hn ht with hk | hk
    · simp [hk]
    · simp [hk]
  · intro env args arg more hk hw hs
    obtain ⟨report, hrun, hstatus, houtput⟩ :=
      run_of_supplies (Request.ofArgs_eq_tokenize hk hw) hs
    refine ⟨report, hrun, ?_, ?_, ?_⟩
    · intro hb
      rw [hstatus, houtput, tokenize_of_blank _ _ hb]
      exact ⟨rfl, rfl⟩
    · rintro tokens h ⟨t, ht, hcontent⟩
      have hb : source.all Unicode.isWhiteSpace = false := by
        rw [← Bool.not_eq_true, hwhite h]
        intro hn
        cases hcontent.symm.trans (hn t ht)
      rw [hstatus, houtput]
      have hshown := tokenize_of_scan (.ofArgs args) (console env args) hb h
      simpa only [selected_eq_shown, ofTokens_eq, json_ofArgs_iff] using hshown
    · intro fault h hb
      rw [hstatus, houtput]
      exact tokenize_of_fault _ _ hb h

/-- Blank lines with a margin, of which only the last lacks a line break, and a line with a margin
in front of a comment. -/
theorem blank_check_of_margins :
    let blank := "\r \n  ".toList
    let comment := " #\n".toList
    let env : Environment := ⟨FileTree.empty.entry, Utf8.encode blank, 80, false⟩
    let env' : Environment := { env with standardInput := Utf8.encode comment }
    let args := ["tokenize".toList, ['-'], "--hide-comments".toList]
    blank.all Unicode.isWhiteSpace = true ∧
      (∃ tokens, scan blank = .ok tokens ∧
        tokens.map (·.kind) = List.replicate 3 .newline ++ [.eof]) ∧
      (∃ report, run env args = .ok report ∧ report.status = 1 ∧
        report.output = (console env args).write ((console env args).warning blankMessage)) ∧
      ∃ report, run env' args = .ok report ∧ report.status = 0 ∧
        report.output = (console env' args).write (Listing.lines
          ⟨[⟨.indent, [], ⟨1, 1⟩⟩, ⟨.newline, ['\n'], ⟨1, 3⟩⟩, ⟨.dedent, [], ⟨2, 1⟩⟩,
            ⟨.eof, [], ⟨2, 1⟩⟩], 5⟩ (console env' args)) := by
  intro blank comment env env' args
  have hblank : scan blank = .ok [⟨.newline, ['\r'], ⟨1, 1⟩⟩, ⟨.newline, ['\n'], ⟨2, 2⟩⟩,
      ⟨.newline, [], ⟨3, 3⟩⟩, ⟨.eof, [], ⟨3, 3⟩⟩] := by decide +kernel
  have hcomment : scan comment = .ok [⟨.indent, [], ⟨1, 1⟩⟩, ⟨.comment, [], ⟨1, 2⟩⟩,
      ⟨.newline, ['\n'], ⟨1, 3⟩⟩, ⟨.dedent, [], ⟨2, 1⟩⟩, ⟨.eof, [], ⟨2, 1⟩⟩] := by decide +kernel
  have hwords : Request.positional args = ["tokenize".toList, ['-']] := by decide
  have hs : Supplies env ['-'] blank := .standard rfl
  have hs' : Supplies env' ['-'] comment := .standard rfl
  obtain ⟨hscan, hrun⟩ := blank_check blank
  have hwhite : blank.all Unicode.isWhiteSpace = true := (hscan _ hblank).1.2 ⟨3, rfl⟩
  obtain ⟨report, hr, hwarned, -, -⟩ := hrun (by decide) hwords hs
  obtain ⟨-, hrun'⟩ := blank_check comment
  obtain ⟨report', hr', -, hlisted, -⟩ := hrun' (by decide) hwords hs'
  obtain ⟨hstatus', houtput'⟩ := hlisted _ hcomment
    ⟨⟨.comment, [], ⟨1, 2⟩⟩, by simp, rfl⟩
  refine ⟨hwhite, ⟨_, hblank, rfl⟩, ⟨report, hr, hwarned hwhite⟩, report', hr', hstatus', ?_⟩
  rw [houtput', if_neg (by decide)]
  rfl

end Command
end Offside
