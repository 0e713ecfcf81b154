import Offside.Proofs.Continuation
import Offside.Proofs.Grammar
import Offside.Proofs.Indentation
import Offside.Proofs.Tiling

/-! The tokens that a scan has read, told by the source up to where it stands and by the depths of
the lines before. -/
namespace Offside
namespace Scan

variable {s t : Scan} {source text : Text} {c : Char}

theorem HasMargin.lineDepth?_eq {blanks rest : Text} (h : s.HasMargin blanks (c :: rest))
    (hl : s.lineStart = true) (hc : isLineBreak c = false) :
    s.lineDepth? = some blanks.length := by
  have hr : s.behindMargin.cursor.rest = c :: rest := by
    rw [h.behindMargin_eq]
    rfl
  rw [← h.depth_eq]
  exact lineDepth?_eq_some hl h.not_mixed hr hc

/-- A state within a line: its margin was accepted with the layout that its depth calls for, and
of the line the `new` tokens have been read since. -/
structure OnLine (source : Text) (depths : List Nat) (line : Scan) (depth : Nat)
    (new : List Token) (s : Scan) : Prop where
  visits : Visits source depths line
  lineDepth?_eq : line.lineDepth? = some depth
  reaches : line.Reaches s
  lineStart_eq : s.lineStart = false
  offset_le : line.cursor.offset + depth ≤ s.cursor.offset
  tokens_eq : s.tokens = line.tokens ++ layout depths depth (linePlace source line) ++ new
  plain : ∀ token ∈ new, token.kind ≠ .newline ∧ token.kind ≠ .indent ∧ token.kind ≠ .dedent

/-- The state right behind the margin of a line, where its first token begins. -/
structure EntersLine (source : Text) (depths : List Nat) (line : Scan) (depth : Nat)
    (s : Scan) : Prop extends OnLine source depths line depth [] s where
  offset_eq : s.cursor.offset = line.cursor.offset + depth
  not_isBlank : ∀ c, s.cursor.rest.head? = some c → isBlank c = false

namespace OnLine

variable {depths : List Nat} {depth : Nat} {line : Scan} {new : List Token}

theorem enter (h : Visits source depths s) (hm : s.Moves t) (hd : s.lineDepth? = some depth)
    (ho : t.cursor.offset = s.cursor.offset + depth) (hl : t.lineStart = false) :
    OnLine source depths s depth [] t where
  visits := h
  lineDepth?_eq := hd
  reaches := (Reaches.refl s).tail hm
  lineStart_eq := hl
  offset_le := ho.ge
  tokens_eq := by
    obtain ⟨u, hu, hstep⟩ := h.indented.line depth hd
    have hok := hm.2.symm.trans hstep
    split at hok
    · cases hok
    · cases hok
      rw [hu, List.append_nil]
  plain := nofun

theorem step (h : OnLine source depths line depth new s) (hm : s.Moves t)
    (hl : s.lineStart = false) (ht : t.lineStart = false) :
    ∃ more, OnLine source depths line depth more t := by
  have hoffset := Nat.le_trans h.offset_le (Nat.le_of_lt (hm.offset_lt hl))
  have hreaches := h.reaches.tail hm
  obtain ⟨text, hr⟩ := (moves_iff_advance.1 hm).reads
  cases hr with
  | lastMargin hs => cases hl.symm.trans hs
  | emptyLine hs => cases hl.symm.trans hs
  | opens hs => cases hl.symm.trans hs
  | closes hs => cases hl.symm.trans hs
  | blank =>
    exact ⟨new, h.visits, h.lineDepth?_eq, hreaches, ht, hoffset, h.tokens_eq, h.plain⟩
  | @token kind lexeme _ rest _ _ htoken =>
    have hk : kind ≠ .newline := by simpa [pastToken] using ht
    have hs := (htoken.content hk).not_structural
    refine ⟨new ++ [⟨kind, lexeme, s.cursor.place⟩], h.visits, h.lineDepth?_eq, hreaches, ht,
      hoffset, ?_, ?_⟩
    · rw [tokens_pastToken, h.tokens_eq, List.append_assoc]
    · intro token hmem
      rcases List.mem_append.1 hmem with hold | hnew
      · exact h.plain token hold
      · rw [List.mem_singleton.1 hnew]
        exact ⟨hk, fun he => hs (congrArg Kind.family? he), fun he => hs (congrArg Kind.family? he)⟩

end OnLine

theorem Reads.entersLine {depths : List Nat} (h : s.Reads text t) (hv : Visits source depths s)
    (hs : s.lineStart = true) (ht : t.lineStart = false) (hr : t.cursor.rest ≠ []) :
    EntersLine source depths s text.length t := by
  have henter := fun hd => OnLine.enter hv h.advance.moves hd h.offset_eq ht
  have hoffset := h.offset_eq
  cases h with
  | lastMargin => exact absurd rfl hr
  | emptyLine => cases ht
  | opens _ hm hc => exact ⟨henter (hm.lineDepth?_eq hs hc), hoffset, hm.ends⟩
  | closes _ hm hc => exact ⟨henter (hm.lineDepth?_eq hs hc), hoffset, hm.ends⟩
  | blank hl => cases hl.symm.trans hs
  | token hl => cases hl.symm.trans hs

theorem exists_onLine (h : (start source).Reaches s) (hl : s.lineStart = false)
    (hr : s.cursor.rest ≠ []) :
    ∃ depths line depth new, OnLine source depths line depth new s := by
  induction h with
  | refl => cases hl
  | @tail s t hs hm ih =>
    cases hstart : s.lineStart with
    | false =>
      obtain ⟨depths, line, depth, new, h⟩ := ih hstart hm.1
      obtain ⟨more, hmore⟩ := h.step hm hstart hl
      exact ⟨depths, line, depth, more, hmore⟩
    | true =>
      obtain ⟨depths, hv⟩ := Visits.exists_of_reaches hs
      obtain ⟨text, hreads⟩ := (moves_iff_advance.1 hm).reads
      have henters := hreads.entersLine hv hstart hl hr
      exact ⟨depths, s, text.length, [], henters.toOnLine⟩

/-- The tokens of a source up to an offset: all that the source is scanned to if it is cut off
there, up to the last one that has a text. -/
structure TokensTo (source : Text) (offset : Nat) (tokens : List Token) : Prop where
  scan_eq : ∃ ending, scan (source.take offset) = .ok (tokens ++ ending) ∧
    ∀ token ∈ ending, token.hasSpan = false
  last_hasSpan : ∀ token, tokens.getLast? = some token → token.hasSpan = true

section Prefix

variable {x z : Text} {tokens tokens' layout ending : List Token} {offset : Nat}

theorem eq_nil_of_last_hasSpan (hl : ∀ token, (tokens ++ layout).getLast? = some token →
    token.hasSpan = true) (hn : ∀ token ∈ layout, token.hasSpan = false) : layout = [] := by
  by_contra hne
  have hlast := List.getLast?_eq_some_getLast hne
  have hspan := hl _ (by rw [List.getLast?_append_of_ne_nil _ hne, hlast])
  rw [hn _ (List.getLast_mem hne)] at hspan
  cases hspan

theorem TokensTo.unique (h : TokensTo source offset tokens) (h' : TokensTo source offset tokens') :
    tokens = tokens' := by
  obtain ⟨ending, hs, hn⟩ := h.scan_eq
  obtain ⟨ending', hs', hn'⟩ := h'.scan_eq
  have he := Except.ok.inj (hs.symm.trans hs')
  rcases List.append_eq_append_iff.1 he with ⟨more, rfl, rfl⟩ | ⟨more, rfl, rfl⟩
  · have hmore := eq_nil_of_last_hasSpan h'.last_hasSpan fun token ht =>
      hn token (List.mem_append_left _ ht)
    rw [hmore, List.append_nil]
  · have hmore := eq_nil_of_last_hasSpan h.last_hasSpan fun token ht =>
      hn' token (List.mem_append_left _ ht)
    rw [hmore, List.append_nil]

theorem Reaches.exists_ending (h : (start x).Reaches t) (hr : t.cursor.rest = [])
    (ht : t.tokens = tokens ++ layout) (hl : ∀ token ∈ layout, token.hasSpan = false) :
    ∃ ending, scan x = .ok (tokens ++ ending) ∧ ∀ token ∈ ending, token.hasSpan = false := by
  obtain ⟨ending, htokens, hending⟩ := t.exists_ending
  rw [ht, List.append_assoc] at htokens
  refine ⟨layout ++ ending, scan_eq_ok_iff.2 ⟨t, h, hr, htokens.symm⟩, fun token hmem => ?_⟩
  rcases List.mem_append.1 hmem with hmem | hmem
  · exact hl token hmem
  · exact hending token hmem

/-- A step that enters no line can be the last one. -/
theorem Reads.reaches_alone (h : s.Reads text t) (hs : (start (x ++ z)).Reaches s)
    (ht : t.cursor.rest = z) (hne : text ≠ []) (hl : s.lineStart = true → t.lineStart = true) :
    (start x).Reaches (t.withRest []) := by
  have hrest : s.cursor.rest = text ++ z := by rw [h.rest_eq, ht]
  have hreach := hs.withRest hne hrest []
  rw [List.append_nil] at hreach
  exact hreach.tail (h.withRest (.ended rfl) fun hs => .inl (hl hs)).advance.moves

theorem HasMargin.exists_ending {blanks rest : Text} (h : s.HasMargin blanks rest)
    (hs : (start (x ++ rest)).Reaches s) (hl : s.lineStart = true) (hne : blanks ≠ []) :
    ∃ ending, scan x = .ok (s.tokens ++ ending) ∧ ∀ token ∈ ending, token.hasSpan = false := by
  have hreach := hs.withRest hne h.rest_eq []
  have hmargin : (s.withRest (blanks ++ [])).HasMargin blanks [] := h.withRest nofun
  have hlast := Reads.lastMargin (s := s.withRest (blanks ++ [])) hl hmargin hne
  rw [List.append_nil] at hreach
  apply (hreach.tail hlast.advance.moves).exists_ending rfl
  · exact tokens_emit ((s.withRest (blanks ++ [])).pastMargin blanks []) .newline
  · intro token ht
    rw [List.mem_singleton.1 ht]
    rfl

end Prefix

theorem last_hasSpan_pastToken {rest lexeme : Text} {kind : Kind}
    (h : TokenAt (text ++ rest) kind lexeme text.length) (s : Scan) :
    ∀ token, (s.pastToken kind lexeme text rest).tokens.getLast? = some token →
      token.hasSpan = true := by
  obtain ⟨hne, hspells⟩ := h.spells_text
  intro token hlast
  rw [tokens_pastToken, List.getLast?_concat] at hlast
  cases hlast
  exact hspells.hasSpan hne

/-- The tokens of a state are those of the source up to there. Right behind the margin of a line,
which is blank if the source is cut off, they are those in front of the line and its layout. -/
theorem tokensTo_of_reaches (h : (start source).Reaches s) (hr : s.cursor.rest ≠ []) :
    TokensTo source s.cursor.offset s.tokens ∨
      ∃ depths line depth, EntersLine source depths line depth s ∧
        TokensTo source s.cursor.offset line.tokens := by
  induction h with
  | refl =>
    have hcut := (Reaches.refl (start [])).exists_ending rfl (List.append_nil _).symm nofun
    exact .inl ⟨hcut, nofun⟩
  | @tail s t hs hstep ih =>
    obtain ⟨text, hreads⟩ := (moves_iff_advance.1 hstep).reads
    have hoffset := hreads.offset_eq
    have hsource := (cursor_in_of_reaches (hs.tail hstep)).source_eq
    have hreach : (start (source.take t.cursor.offset ++ t.cursor.rest)).Reaches s := by
      rwa [← hsource]
    -- A step that enters no line can be cut off behind its text, and then is the last one.
    have halone : text ≠ [] → (s.lineStart = true → t.lineStart = true) →
        (∀ token, t.tokens.getLast? = some token → token.hasSpan = true) →
        TokensTo source t.cursor.offset t.tokens := by
      intro hne hl hlast
      have hcut := hreads.reaches_alone hreach rfl hne hl
      exact ⟨hcut.exists_ending rfl (List.append_nil _).symm nofun, hlast⟩
    -- A step that enters a line adds layout that a cut source has not: there the line is blank.
    have henter : s.lineStart = true → t.lineStart = false → s.HasMargin text t.cursor.rest →
        ∃ depths line depth, EntersLine source depths line depth t ∧
          TokensTo source t.cursor.offset line.tokens := by
      intro hl ht hm
      obtain ⟨depths, hv⟩ := Visits.exists_of_reaches hs
      refine ⟨depths, s, text.length, hreads.entersLine hv hl ht hr, ?_⟩
      rcases ih hstep.1 with h | ⟨_, _, _, henters, -⟩
      · by_cases hne : text = []
        · rw [hoffset, hne, List.length_nil, Nat.add_zero]
          exact h
        · exact ⟨hm.exists_ending hreach hl hne, h.last_hasSpan⟩
      · cases hl.symm.trans henters.lineStart_eq
    cases hreads with
    | lastMargin => exact absurd rfl hr
    | @emptyLine blanks text rest _ _ ht =>
      have htoken := tokenAt_newline_iff.2 ⟨rfl, ht⟩
      left
      apply halone (List.append_ne_nil_of_right_ne_nil blanks ht.ne_nil) fun _ => rfl
      exact last_hasSpan_pastToken htoken (s.pastMargin blanks (text ++ rest))
    | opens hl hm => exact .inr (henter hl rfl hm)
    | closes hl hm => exact .inr (henter hl rfl hm)
    | blank hl hrest hc =>
      rcases ih hstep.1 with h | ⟨_, _, _, henters, -⟩
      · exact .inl (halone (List.cons_ne_nil _ _) (fun hs => hs) h.last_hasSpan)
      · have hn := henters.not_isBlank _ (by rw [hrest]; rfl)
        cases hc.symm.trans hn
    | token hl _ ht =>
      left
      apply halone ht.spells_text.1
      · intro hs
        cases hl.symm.trans hs
      · exact last_hasSpan_pastToken ht s

end Scan
end Offside
