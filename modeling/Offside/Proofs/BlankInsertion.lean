import Offside.Proofs.CursorPlaces
import Offside.Proofs.Indentation
import Offside.Proofs.LineBoundary
import Offside.Proofs.Lockstep
import Offside.Proofs.Spans

/-! Blanks between the tokens of a line: more of them move the rest of the line to the right, and
change nothing else. -/
namespace Offside

variable {source text rest blanks lexeme : Text} {kind : Kind} {origin p : Position} {width : Nat}

/-- What stands on the line of the origin, from there on, moves to the right. -/
def Position.shift (p origin : Position) (width : Nat) : Position :=
  if p.line = origin.line ∧ origin.column ≤ p.column then ⟨p.line, p.column + width⟩ else p

def Token.shift (t : Token) (origin : Position) (width : Nat) : Token :=
  { t with place := t.place.shift origin width }

namespace Position

theorem shift_of_precedes (h : p.Precedes origin) (width : Nat) : p.shift origin width = p := by
  unfold Precedes at h
  exact if_neg (by omega)

theorem shift_origin (origin : Position) (width : Nat) :
    origin.shift origin width = ⟨origin.line, origin.column + width⟩ :=
  if_pos ⟨rfl, Int.le_refl _⟩

theorem not_precedes_after (h : ¬ p.Precedes origin) (c : Char) (rest : Text) :
    ¬ (p.after c rest).Precedes origin := by
  unfold Precedes at h ⊢
  unfold after
  split
  · dsimp only
    omega
  · dsimp only
    omega

theorem after_shift (h : ¬ p.Precedes origin) (width : Nat) (c : Char) (rest : Text) :
    (p.shift origin width).after c rest = (p.after c rest).shift origin width := by
  unfold Precedes at h
  have hline : (p.shift origin width).line = p.line := by
    unfold shift
    split
    · rfl
    · rfl
  unfold after
  rw [hline]
  split
  · exact (if_neg (by dsimp only; omega)).symm
  · unfold shift
    dsimp only
    by_cases hp : p.line = origin.line
    · rw [if_pos (by omega), if_pos (by omega)]
      simp only [Position.mk.injEq, true_and]
      omega
    · rw [if_neg (by omega), if_neg (by omega)]

theorem not_precedes_behind (h : ¬ p.Precedes origin) (text rest : Text) :
    ¬ (p.behind text rest).Precedes origin := by
  induction text generalizing p with
  | nil => exact h
  | cons c text ih => exact ih (not_precedes_after h c _)

/-- From the origin on, reading leads to the same place on the line, further to the right. -/
theorem behind_shift (h : ¬ p.Precedes origin) (width : Nat) (text rest : Text) :
    (p.shift origin width).behind text rest = (p.behind text rest).shift origin width := by
  induction text generalizing p with
  | nil => rfl
  | cons c text ih =>
    rw [behind, after_shift h, ih (not_precedes_after h c _), behind]

end Position

/-- Cursors that read the same, from the origin on, the one further to the right on the line of
the origin. -/
structure Cursor.Shifted (origin : Position) (width : Nat) (c c' : Cursor) : Prop where
  not_precedes : ¬ c.place.Precedes origin
  rest_eq : c'.rest = c.rest
  place_eq : c'.place = c.place.shift origin width

theorem Cursor.Shifted.past {c c' : Cursor} (h : c.Shifted origin width c') (text rest : Text) :
    (c.past text rest).Shifted origin width (c'.past text rest) where
  not_precedes := Position.not_precedes_behind h.not_precedes text rest
  rest_eq := rfl
  place_eq := by
    dsimp only [Cursor.past]
    rw [h.place_eq, Position.behind_shift h.not_precedes]

theorem lockstep_shifted (origin : Position) (width : Nat) :
    Lockstep (Cursor.Shifted origin width) id fun t t' => t.shift origin width = t' where
  isBlank_blank _ := rfl
  injective := Function.injective_id
  kind_eq h := by
    rw [← h]
    rfl
  layout h kind _ := by
    rw [h.place_eq]
    rfl
  ended h hr := h.rest_eq.trans hr
  goesOn h x rest hr hx := ⟨x, rest, h.rest_eq.trans hr, hx, rfl⟩
  blanks h blanks rest hr _ := by
    refine ⟨rest, ?_, ?_⟩
    · rw [h.rest_eq, hr, List.map_id]
    · rw [List.map_id]
      exact h.past blanks rest
  token h text rest lexeme kind hr ht := by
    refine ⟨text, rest, lexeme, h.rest_eq.trans hr, ht, h.past text rest, ?_⟩
    rw [h.place_eq]
    rfl

namespace Scan

variable {s t : Scan}

def pastBlanks (s : Scan) (blanks rest : Text) : Scan :=
  { s with cursor := s.cursor.past blanks rest }

theorem reaches_pastBlanks (hl : s.lineStart = false) (hr : s.cursor.rest = blanks ++ rest)
    (hb : ∀ c ∈ blanks, isBlank c = true) : s.Reaches (s.pastBlanks blanks rest) := by
  induction blanks generalizing s with
  | nil =>
    rw [List.nil_append] at hr
    have hs : s.pastBlanks [] rest = s := by
      rw [← hr]
      rfl
    rw [hs]
    exact .refl s
  | cons c blanks ih =>
    have hc := Reads.blank hl hr (hb c List.mem_cons_self)
    have hmore := ih (s := s.pastBlanks [c] (blanks ++ rest)) hl rfl fun x hx =>
      hb x (List.mem_cons_of_mem c hx)
    have hpast : (s.pastBlanks [c] (blanks ++ rest)).pastBlanks blanks rest =
        s.pastBlanks (c :: blanks) rest := by
      unfold pastBlanks
      dsimp only
      rw [Cursor.past_append, List.singleton_append]
    rw [hpast] at hmore
    exact hc.advance.reaches.trans hmore

/-- Where blanks lead to does not depend on what stands behind them. -/
theorem pastBlanks_withRest (hb : ∀ c ∈ blanks, isBlank c = true) (s : Scan) (rest rest' : Text) :
    (s.withRest (blanks ++ rest')).pastBlanks blanks rest' =
      (s.pastBlanks blanks rest).withRest rest' := by
  unfold pastBlanks Cursor.past withRest
  dsimp only
  rw [Position.behind_of_blanks hb, Position.behind_of_blanks hb]

/-- The tokens behind a step: those before it, and the end of a line, a level that is opened or
closed where a line starts, or content where the scan stands. -/
inductive Adds (source : Text) (s t : Scan) (token : Token) : Prop
  | old (h : token ∈ s.output)
  | lineEnd (hk : token.kind = .newline) {offset : Nat} (ho : offset ≤ t.cursor.offset)
      (hp : token.place = .at source offset)
  | level (hk : token.kind = .indent ∨ token.kind = .dedent) (hl : s.lineStart = true)
      (hp : token.place = s.cursor.place)
  | content (hc : Content token.kind token.lexeme) (hl : s.lineStart = false)
      (hp : token.place = s.cursor.place)

theorem Reads.adds (h : s.Reads text t) (hin : s.cursor.In source) {token : Token}
    (ht : token ∈ t.output) : Adds source s t token := by
  cases h with
  | lastMargin _ hm =>
    rcases List.mem_cons.1 ht with rfl | ht
    · exact .lineEnd rfl (Nat.le_refl _) (hin.past hm.rest_eq).place_eq
    · exact .old ht
  | emptyLine _ hm =>
    rcases List.mem_cons.1 ht with rfl | ht
    · exact .lineEnd rfl (Nat.le_add_right _ _) (hin.past hm.rest_eq).place_eq
    · exact .old ht
  | opens hl =>
    rcases List.mem_cons.1 ht with rfl | ht
    · exact .level (.inl rfl) hl rfl
    · exact .old ht
  | closes hl =>
    rcases List.mem_append.1 ht with ht | ht
    · rw [List.eq_of_mem_replicate ht]
      exact .level (.inr rfl) hl rfl
    · exact .old ht
  | blank => exact .old ht
  | @token kind _ _ _ hl _ htoken =>
    rcases List.mem_cons.1 ht with rfl | ht
    · by_cases hk : kind = .newline
      · exact .lineEnd hk (Nat.le_add_right _ _) hin.place_eq
      · exact .content (htoken.content hk) hl rfl
    · exact .old ht

section Output

variable {token : Token} (h : (start source).Reaches s) (ht : token ∈ s.output)
include h ht

theorem exists_reads_of_mem (hk : token.kind.family? ≠ some .structural) :
    ∃ u, (start source).Reaches u ∧ u.lineStart = false ∧ u.cursor.place = token.place := by
  induction h with
  | refl => cases ht
  | @tail s t hs hm ih =>
    obtain ⟨text, hr⟩ := (moves_iff_advance.1 hm).reads
    cases hr.adds (cursor_in_of_reaches hs) ht with
    | old hold => exact ih hold
    | lineEnd hkind =>
      rw [hkind] at hk
      exact absurd rfl hk
    | level hkind =>
      rcases hkind with hkind | hkind
      · rw [hkind] at hk
        exact absurd rfl hk
      · rw [hkind] at hk
        exact absurd rfl hk
    | content _ hl hp => exact ⟨s, hs, hl, hp.symm⟩

theorem exists_offset_of_mem : ∃ offset ≤ s.cursor.offset, token.place = .at source offset := by
  induction h with
  | refl => cases ht
  | @tail s t hs hm ih =>
    obtain ⟨text, hr⟩ := (moves_iff_advance.1 hm).reads
    have hin := cursor_in_of_reaches hs
    have hle : s.cursor.offset ≤ t.cursor.offset := by
      rw [hr.offset_eq]
      exact Nat.le_add_right _ _
    cases hr.adds hin ht with
    | old hold =>
      obtain ⟨offset, ho, hp⟩ := ih hold
      exact ⟨offset, Nat.le_trans ho hle, hp⟩
    | lineEnd _ ho hp => exact ⟨_, ho, hp⟩
    | level _ _ hp => exact ⟨_, hle, hp.trans hin.place_eq⟩
    | content _ _ hp => exact ⟨_, hle, hp.trans hin.place_eq⟩

theorem column_of_level (hk : token.kind = .indent ∨ token.kind = .dedent) :
    token.place.column = 1 := by
  have hstructural : token.kind.family? = some .structural := by
    rcases hk with hk | hk
    · rw [hk]
      rfl
    · rw [hk]
      rfl
  induction h with
  | refl => cases ht
  | @tail s t hs hm ih =>
    obtain ⟨text, hr⟩ := (moves_iff_advance.1 hm).reads
    cases hr.adds (cursor_in_of_reaches hs) ht with
    | old hold => exact ih hold
    | lineEnd hkind =>
      rw [hkind] at hk
      simp at hk
    | level _ hl hp =>
      rw [hp, place_eq_linePlace hs hl]
      rfl
    | content hc => exact absurd hstructural hc.not_structural

end Output

theorem mem_finish {token : Token} (ht : token ∈ s.finish.tokens) :
    token ∈ s.output ∨ token.kind ≠ .indent ∧ token.place = s.cursor.place := by
  rw [tokens_finish] at ht
  simp only [List.mem_append, List.mem_singleton] at ht
  rcases ht with ((hold | hended) | hclosed) | heof
  · exact .inl (List.mem_reverse.1 hold)
  · split at hended
    · cases hended
    · rw [List.mem_singleton.1 hended]
      exact .inr ⟨by simp, rfl⟩
  · rw [List.eq_of_mem_replicate hclosed]
    exact .inr ⟨by simp, rfl⟩
  · rw [heof]
    exact .inr ⟨by simp, rfl⟩

theorem one_lt_column_past {c : Cursor} (hin : c.In source) (hr : c.rest = text ++ rest)
    (hne : text ≠ []) (hn : ∀ x, text.getLast? = some x → isLineBreak x = false) :
    1 < (c.past text rest).place.column := by
  rcases List.eq_nil_or_concat text with rfl | ⟨front, x, rfl⟩
  · exact absurd rfl hne
  rw [List.concat_eq_append] at hr hn ⊢
  rw [List.append_assoc] at hr
  have hx := hn x List.getLast?_concat
  have hplace := (hin.past hr).place_eq
  have hcolumn : 1 ≤ (c.past front ([x] ++ rest)).place.column := by
    rw [hplace]
    unfold Position.at
    dsimp only
    omega
  rw [← Cursor.past_append]
  change 1 < ((c.past front ([x] ++ rest)).place.after x rest).column
  rw [Position.after_of_not_isLineBreak hx]
  dsimp only
  omega

theorem Reaches.of_ended {u : Scan} (h : s.Reaches t) (h' : s.Reaches u)
    (hr : u.cursor.rest = []) : t.Reaches u := by
  rcases h.total h' with hu | ht
  · exact hu
  · rcases ht.eq_or_moves with rfl | ⟨v, hm, -⟩
    · exact .refl _
    · exact absurd hr hm.1

section Insertion

variable {u : Scan} {front mid z z' : Text}

/-- The state behind a token and blanks that follow it is reached wherever what stands there ends
the token as well. -/
theorem Reaches.withRest_behind_token (hu : (start (front ++ z)).Reaches u)
    (hl : u.lineStart = false) (hr : u.cursor.rest = text ++ (mid ++ z))
    (ht : TokenAt (text ++ (mid ++ z)) kind lexeme text.length) (hk : kind ≠ .newline)
    (hmid : ∀ c ∈ mid, isBlank c = true) (he : kind.EndsAs (mid ++ z) (mid ++ z')) :
    (start (front ++ z')).Reaches
      (((u.pastToken kind lexeme text (mid ++ z)).pastBlanks mid z).withRest z') := by
  obtain ⟨hne, hspells⟩ := ht.spells_text
  have hp : ∀ p : Position, p.behind text (mid ++ z') = p.behind text (mid ++ z) := by
    refine fun p => Position.behind_congr fun hreturn => ?_
    cases hspells.not_isLineBreak_of_getLast? (ht.content hk) hreturn
  have hreach := hu.withRest (List.append_ne_nil_of_left_ne_nil hne mid)
    (hr.trans (List.append_assoc _ _ _).symm) z'
  rw [List.append_assoc] at hreach
  have hread := Reads.token (s := u.withRest (text ++ (mid ++ z'))) hl rfl
    (ht.resume_of_ends hk he)
  rw [pastToken_withRest hp] at hread
  have hblanks := reaches_pastBlanks (s := (u.pastToken kind lexeme text (mid ++ z)).withRest
    (mid ++ z')) (beq_eq_false_iff_ne.2 hk) rfl hmid
  rw [pastBlanks_withRest hmid _ z] at hblanks
  exact (hreach.tail hread.advance.moves).trans hblanks

theorem inStep_pastBlanks (hr : s.cursor.rest = z) (hb : ∀ c ∈ blanks, isBlank c = true)
    (ho : ∀ token ∈ s.output, token.place.Precedes s.cursor.place) :
    InStep (Cursor.Shifted s.cursor.place blanks.length) id
      (fun t t' => t.shift s.cursor.place blanks.length = t')
      s ((s.withRest (blanks ++ z)).pastBlanks blanks z) where
  along := by
    constructor
    · unfold Position.Precedes
      omega
    · exact hr.symm
    · rw [Position.shift_origin]
      exact Position.behind_of_blanks hb _ _
  levels_eq := rfl
  mark_eq := (congrFun Option.map_id s.mark).symm
  lineStart_eq := rfl
  output := by
    refine List.forall₂_same.2 fun token ht => ?_
    unfold Token.shift
    rw [Position.shift_of_precedes (ho token ht)]

/-- Behind a token of a line, what stands behind blanks is reached with more of them as well, and
the scans are in step from there on. -/
theorem exists_inStep_behind_token (hu : (start (front ++ z)).Reaches u)
    (hl : u.lineStart = false) (hr : u.cursor.rest = text ++ (mid ++ z))
    (ht : TokenAt (text ++ (mid ++ z)) kind lexeme text.length) (hk : kind ≠ .newline)
    (hmid : ∀ c ∈ mid, isBlank c = true) (hb : ∀ c ∈ blanks, isBlank c = true)
    (he : kind.EndsAs (mid ++ z) (mid ++ (blanks ++ z))) :
    ∃ v v', (start (front ++ z)).Reaches v ∧ (start (front ++ (blanks ++ z))).Reaches v' ∧
      v.cursor.rest = z ∧ v.cursor.offset = u.cursor.offset + text.length + mid.length ∧
      1 < v.cursor.place.column ∧
      InStep (Cursor.Shifted v.cursor.place blanks.length) id
        (fun t t' => t.shift v.cursor.place blanks.length = t') v v' := by
  obtain ⟨hne, hspells⟩ := ht.spells_text
  have hin := cursor_in_of_reaches hu
  have hv := (hu.tail (Reads.token hl hr ht).advance.moves).trans
    (reaches_pastBlanks (s := u.pastToken kind lexeme text (mid ++ z))
      (beq_eq_false_iff_ne.2 hk) rfl hmid)
  have hv' := (hu.withRest_behind_token hl hr ht hk hmid he).trans
    (reaches_pastBlanks (beq_eq_false_iff_ne.2 hk) rfl hb)
  have hplace := (cursor_in_of_reaches hv).place_eq
  refine ⟨_, _, hv, hv', rfl, rfl, ?_, inStep_pastBlanks rfl hb fun token hmem => ?_⟩
  · have hcolumn := one_lt_column_past hin hr hne fun x =>
      hspells.not_isLineBreak_of_getLast? (ht.content hk)
    change 1 < ((u.cursor.past text (mid ++ z)).place.behind mid z).column
    rw [Position.behind_of_blanks hmid]
    dsimp only
    omega
  -- Tokens before the inserted blanks stand before them in the source, so none is moved.
  · have hfound : ∃ offset ≤ u.cursor.offset, token.place = .at (front ++ z) offset := by
      rcases List.mem_cons.1 hmem with rfl | hmem
      · exact ⟨_, Nat.le_refl _, hin.place_eq⟩
      · exact exists_offset_of_mem hu hmem
    obtain ⟨offset, hle, hat⟩ := hfound
    have hpos := List.length_pos_iff.2 hne
    rw [hat, hplace]
    apply Position.at_precedes
    change offset < u.cursor.offset + text.length + mid.length
    omega

end Insertion
end Scan

/-- A token that is neither the first of its line that has a text, nor the end of a line that a
comment stands before: the one before it that has a text ends no line, and is no comment where the
token ends the line. -/
def Inner (before : List Tile) (token : Token) : Prop :=
  ∃ previous, (before.filterMap Tile.token?).getLast? = some previous ∧
    previous.kind ≠ .newline ∧ (previous.kind = .comment → token.kind ≠ .newline)

theorem Tile.exists_span_of_getLast? {tiles : List Tile} {token : Token}
    (h : (tiles.filterMap Tile.token?).getLast? = some token) :
    ∃ front text mid,
      tiles = front ++ .span token text :: mid ∧ mid.filterMap Tile.token? = [] := by
  obtain ⟨tokens, htokens⟩ := List.getLast?_eq_some_iff.1 h
  obtain ⟨front, tail, rfl, -, htail⟩ := List.filterMap_eq_append_iff.1 htokens
  obtain ⟨mid, tile, behind, rfl, -, htile, hbehind⟩ := List.filterMap_eq_cons_iff.1 htail
  cases tile with
  | blank => cases htile
  | span other text =>
    obtain rfl : other = token := Option.some.inj htile
    exact ⟨front ++ mid, text, behind, (List.append_assoc _ _ _).symm, hbehind⟩

theorem Tiling.isBlank_of_mem_join {tiles mid : List Tile} {tokens : List Token}
    (h : Tiling source tiles tokens rest) (hsub : ∀ tile ∈ mid, tile ∈ tiles)
    (hm : mid.filterMap Tile.token? = []) : ∀ c ∈ Tile.join mid, isBlank c = true := by
  intro c hc
  obtain ⟨tile, htile, hc⟩ := List.mem_flatMap.1 hc
  cases tile with
  | blank x =>
    obtain rfl : c = x := List.mem_singleton.1 hc
    exact isBlank_iff.2 (h.blanks c (hsub _ htile))
  | span token text => cases List.filterMap_eq_nil_iff.1 hm _ htile

section Tiles

variable {before mid behind : List Tile} {tokens : List Token} {token previous : Token}

theorem mem_output_of_span {s : Scan}
    (h : Tiling source (before ++ .span token text :: behind) s.finish.tokens rest) :
    token ∈ s.output := by
  obtain ⟨ending, htokens, hending⟩ := s.exists_ending
  obtain ⟨hmem, hspan⟩ := h.exists_span_iff.1 ⟨text, List.mem_append_right _ List.mem_cons_self⟩
  rw [htokens] at hmem
  rcases List.mem_append.1 hmem with hmem | hmem
  · exact List.mem_reverse.1 hmem
  · cases hspan.symm.trans (hending token hmem)

theorem ReadTiling.exists_reads (h : scan source = .ok tokens)
    (ht : ReadTiling source (before ++ .span token text :: behind) tokens [])
    (hk : token.kind ≠ .newline) :
    ∃ u, (Scan.start source).Reaches u ∧ u.lineStart = false ∧
      u.cursor.offset = (Tile.join before).length ∧ u.cursor.rest = text ++ Tile.join behind := by
  obtain ⟨s, hs, hr, rfl⟩ := scan_eq_ok_iff.1 h
  have hat := ht.tokenAt before token text behind rfl
  obtain ⟨u, hu, hl, hplace⟩ := Scan.exists_reads_of_mem hs (mem_output_of_span ht.toTiling)
    (hat.content hk).not_structural
  have hin := Scan.cursor_in_of_reaches hu
  have hspan := (ht.spans before token text behind rfl).2.2
  have hoffset := Position.at_injective source (hin.place_eq.symm.trans (hplace.trans hspan))
  refine ⟨u, hu, hl, hoffset, ?_⟩
  have hjoin := ht.join_eq
  rw [List.append_nil, Tile.join, List.flatMap_append] at hjoin
  rw [hin.rest_eq, hoffset, ← hjoin]
  exact List.drop_left

/-- Blanks end the token before them, unless it is a comment that the end of the line follows. -/
theorem ReadTiling.endsAs
    (ht : ReadTiling source (before ++ .span previous text :: (mid ++ .span token lexeme :: behind))
      tokens [])
    (hcomment : previous.kind = .comment → token.kind ≠ .newline)
    (hb : ∀ c ∈ blanks, isBlank c = true) :
    previous.kind.EndsAs (Tile.join mid ++ (lexeme ++ Tile.join behind))
      (Tile.join mid ++ (blanks ++ (lexeme ++ Tile.join behind))) := by
  intro x hx
  cases hmid : Tile.join mid with
  | cons c more =>
    rw [hmid] at hx
    exact .inl hx
  | nil =>
    rw [hmid, List.nil_append] at hx
    cases blanks with
    | nil => exact .inl hx
    | cons c blanks =>
      cases hx
      by_cases hk : previous.kind = .comment
      · have hat := ht.tokenAt before previous text _ rfl
        have hnext := ht.tokenAt (before ++ .span previous text :: mid) token lexeme behind
          (by simp)
        obtain ⟨y, tail, rfl⟩ := List.exists_cons_of_ne_nil hnext.spells_text.1
        have hjoin : text ++ (Tile.join (mid ++ .span token (y :: tail) :: behind) ++ []) =
            text ++ y :: (tail ++ Tile.join behind) := by
          rw [List.append_nil, Tile.join, List.flatMap_append, ← Tile.join, hmid]
          rfl
        rw [hjoin] at hat
        have hy := hat.isLineBreak_of_comment hk List.drop_left
        exact absurd (Piece.kind_of_read hnext.read_eq hy) (hcomment hk)
      · have hblank := hb _ List.mem_cons_self
        right
        simp [Kind.endedBy, hblank, hk]

theorem exists_inStep_shifted (h : scan source = .ok tokens)
    (ht : Tiling source (before ++ .span token text :: behind) tokens []) (hi : Inner before token)
    (hb : ∀ c ∈ blanks, isBlank c = true) :
    1 < token.place.column ∧ ∃ v v', (Scan.start source).Reaches v ∧
      (Scan.start (Tile.join before ++ (blanks ++ (text ++ Tile.join behind)))).Reaches v' ∧
      v.cursor.rest = text ++ Tile.join behind ∧
      Scan.InStep (Cursor.Shifted token.place blanks.length) id
        (fun t t' => t.shift token.place blanks.length = t') v v' := by
  obtain ⟨previous, hprevious, hnewline, hcomment⟩ := hi
  obtain ⟨front, text', mid, rfl, hmid⟩ := Tile.exists_span_of_getLast? hprevious
  have hblanks : ∀ c ∈ Tile.join mid, isBlank c = true := 
    ht.isBlank_of_mem_join (fun tile htile => by simp [htile]) hmid
  have hplace := (ht.spans _ token text behind rfl).2.2
  have hsource : Tile.join (front ++ .span previous text' :: mid) ++ (text ++ Tile.join behind) =
      source := by
    rw [← ht.join_eq]
    simp [Tile.join, Tile.text]
  have hlength : (Tile.join (front ++ .span previous text' :: mid)).length =
      (Tile.join front).length + text'.length + (Tile.join mid).length := by
    simp [Tile.join, Tile.text, Nat.add_assoc]
  have hbehind : Tile.join (mid ++ .span token text :: behind) =
      Tile.join mid ++ (text ++ Tile.join behind) := by simp [Tile.join, Tile.text]
  have hread := ht.readTiling h
  rw [List.append_assoc, List.cons_append] at hread
  obtain ⟨u, hu, hl, hoffset, hrest⟩ := hread.exists_reads h hnewline
  have hat := hread.tokenAt front previous text' _ rfl
  rw [List.append_nil, hbehind] at hat
  rw [hbehind] at hrest
  have hends := hread.endsAs hcomment hb
  rw [← hsource] at hu
  obtain ⟨v, v', hv, hv', hz, hvoffset, hcolumn, hstep⟩ :=
    Scan.exists_inStep_behind_token hu hl hrest hat hnewline hblanks hb hends
  rw [hsource] at hv
  have hvplace := (Scan.cursor_in_of_reaches hv).place_eq
  rw [hvoffset, hoffset, ← hlength, ← hplace] at hvplace
  rw [hvplace] at hcolumn hstep
  exact ⟨hcolumn, v, v', hv, hv', hz, hstep⟩

end Tiles

/-- More blanks in front of a token of a line, that is not its first, move the rest of the line to
the right and change nothing else: neither the mark, nor the levels that are opened and closed, but
for the places of those that the end of the input closes. -/
theorem scan_insertBlanks {before behind : List Tile} {token : Token} {tokens : List Token}
    (h : scan source = .ok tokens)
    (ht : Tiling source (before ++ .span token text :: behind) tokens []) (hi : Inner before token)
    (hb : ∀ c ∈ blanks, isBlank c = true) :
    scan (Tile.join before ++ blanks ++ text ++ Tile.join behind) =
        .ok (tokens.map (·.shift token.place blanks.length)) ∧
      (Scan.leave (Tile.join before ++ blanks ++ text ++ Tile.join behind)).mark =
        (Scan.leave source).mark ∧
      ∀ t ∈ tokens, t.kind = .indent ∨ t.kind = .dedent →
        t.shift token.place blanks.length = t ∨
          t.kind = .dedent ∧ t.place = .at source source.length := by
  obtain ⟨hcolumn, v, v', hv, hv', hz, hstep⟩ := exists_inStep_shifted h ht hi hb
  obtain ⟨s, hs, hr, rfl⟩ := scan_eq_ok_iff.1 h
  have H := lockstep_shifted token.place blanks.length
  obtain ⟨s', hs', hend⟩ := (hv.of_ended hs hr).inStep H hstep
  have hwider := hv'.trans hs'
  rw [← List.append_assoc, ← List.append_assoc] at hwider
  have hr' : s'.cursor.rest = [] := H.ended hend.along hr
  have hfinish := hend.finish H
  have htokens : s.finish.tokens.map (·.shift token.place blanks.length) = s'.finish.tokens :=
    List.forall₂_eq_eq_eq ▸ List.forall₂_map_left_iff.2 hfinish.tokens
  -- Levels opened or closed by a line stand in column 1, which no inserted blank reaches.
  refine ⟨?_, ?_, fun t hmem hk => ?_⟩
  · rw [htokens]
    exact scan_eq_ok_iff.2 ⟨s', hwider, hr', rfl⟩
  · rw [Scan.leave_of_ok (Scan.ofSource_eq_ok_iff.2 ⟨s, hs, hr, rfl⟩),
      Scan.leave_of_ok (Scan.ofSource_eq_ok_iff.2 ⟨s', hwider, hr', rfl⟩), hfinish.mark_eq]
    exact congrFun Option.map_id _
  · rcases Scan.mem_finish hmem with hlevel | ⟨hindent, hclosed⟩
    · have hone := Scan.column_of_level hs hlevel hk
      left
      unfold Token.shift Position.shift
      rw [if_neg (by omega)]
    · have hin := Scan.cursor_in_of_reaches hs
      refine .inr ⟨hk.resolve_left hindent, ?_⟩
      rw [hclosed, hin.place_eq, Scan.offset_of_rest_eq_nil hin hr]

/-- Blanks behind a literal over two lines, in a level that the end of the input closes. -/
theorem scan_insertBlanks_of_second_line :
    let source : Text := ['a', '\n', ' ', 'b', '"', '\\', '\n', '"', 'c']
    let tokens : List Token := [
      ⟨.identifier, ['a'], ⟨1, 1⟩⟩, ⟨.newline, ['\n'], ⟨1, 2⟩⟩, ⟨.indent, [], ⟨2, 1⟩⟩,
      ⟨.identifier, ['b'], ⟨2, 2⟩⟩, ⟨.string, ['\n'], ⟨2, 3⟩⟩, ⟨.identifier, ['c'], ⟨3, 2⟩⟩,
      ⟨.newline, [], ⟨3, 3⟩⟩, ⟨.dedent, [], ⟨3, 3⟩⟩, ⟨.eof, [], ⟨3, 3⟩⟩]
    let before : List Tile := [
      .span ⟨.identifier, ['a'], ⟨1, 1⟩⟩ ['a'], .span ⟨.newline, ['\n'], ⟨1, 2⟩⟩ ['\n'], .blank ' ',
      .span ⟨.identifier, ['b'], ⟨2, 2⟩⟩ ['b'],
      .span ⟨.string, ['\n'], ⟨2, 3⟩⟩ ['"', '\\', '\n', '"']]
    scan source = .ok tokens ∧
      Tiling source (before ++ [.span ⟨.identifier, ['c'], ⟨3, 2⟩⟩ ['c']]) tokens [] ∧
      Inner before ⟨.identifier, ['c'], ⟨3, 2⟩⟩ ∧
      scan ['a', '\n', ' ', 'b', '"', '\\', '\n', '"', '\t', ' ', 'c'] = .ok [
        ⟨.identifier, ['a'], ⟨1, 1⟩⟩, ⟨.newline, ['\n'], ⟨1, 2⟩⟩, ⟨.indent, [], ⟨2, 1⟩⟩,
        ⟨.identifier, ['b'], ⟨2, 2⟩⟩, ⟨.string, ['\n'], ⟨2, 3⟩⟩, ⟨.identifier, ['c'], ⟨3, 4⟩⟩,
        ⟨.newline, [], ⟨3, 5⟩⟩, ⟨.dedent, [], ⟨3, 5⟩⟩, ⟨.eof, [], ⟨3, 5⟩⟩] := by
  intro source tokens before
  have h : scan source = .ok tokens := by decide +kernel
  have ht : Tiling source (before ++ [.span ⟨.identifier, ['c'], ⟨3, 2⟩⟩ ['c']]) tokens [] := by
    have hname : ∀ lexeme, Spells .identifier lexeme lexeme := fun _ => .verbatim (by decide)
    have hbreak : Spells .newline ['\n'] ['\n'] := .verbatim (by decide)
    have hliteral : Spells .string ['\n'] ['"', '\\', '\n', '"'] :=
      .string (.itself (by decide) .nil)
    have hindent : ∀ token ∈ (tokens.drop 2).take 1, token.hasSpan = false := by decide +kernel
    have hending : ∀ token ∈ tokens.drop 6, token.hasSpan = false := by decide +kernel
    have hstart : Tiling source [] [] (['a'] ++ source.drop 1) := .nil source
    have hfirst : Tiling source (before.take 1) (tokens.take 1) (['\n'] ++ source.drop 2) :=
      hstart.addToken (by simp) (hname _) (by decide +kernel)
    have hended : Tiling source (before.take 2) (tokens.take 2) (' ' :: source.drop 3) :=
      hfirst.addToken (by simp) hbreak (by decide +kernel)
    have hlevel : Tiling source (before.take 3) (tokens.take 3) (['b'] ++ source.drop 4) :=
      (hended.addBlank rfl).addLayout hindent
    have hsecond : Tiling source (before.take 4) (tokens.take 4)
        (['"', '\\', '\n', '"'] ++ source.drop 8) :=
      hlevel.addToken (by simp) (hname _) (by decide +kernel)
    have hthird : Tiling source before (tokens.take 5) (['c'] ++ []) :=
      hsecond.addToken (by simp) hliteral (by decide +kernel)
    exact (hthird.addToken (by simp) (hname ['c']) (by decide +kernel)).addLayout hending
  have hi : Inner before ⟨.identifier, ['c'], ⟨3, 2⟩⟩ :=
    ⟨⟨.string, ['\n'], ⟨2, 3⟩⟩, rfl, by simp, by simp⟩
  have hb : ∀ c ∈ ['\t', ' '], isBlank c = true := by simp [isBlank]
  exact ⟨h, ht, hi, (scan_insertBlanks h ht hi hb).1⟩

/-- The end of the input closes a level where the line ends, which a blank moves. -/
theorem dedent_moved_by_inserted_blank :
    let before : List Tile := [.blank ' ', .span ⟨.identifier, ['a'], ⟨1, 2⟩⟩ ['a'], .blank ' ']
    let tokens : List Token := [
      ⟨.indent, [], ⟨1, 1⟩⟩, ⟨.identifier, ['a'], ⟨1, 2⟩⟩, ⟨.identifier, ['b'], ⟨1, 4⟩⟩,
      ⟨.newline, [], ⟨1, 5⟩⟩, ⟨.dedent, [], ⟨1, 5⟩⟩, ⟨.eof, [], ⟨1, 5⟩⟩]
    let tokens' : List Token := [
      ⟨.indent, [], ⟨1, 1⟩⟩, ⟨.identifier, ['a'], ⟨1, 2⟩⟩, ⟨.identifier, ['b'], ⟨1, 5⟩⟩,
      ⟨.newline, [], ⟨1, 6⟩⟩, ⟨.dedent, [], ⟨1, 6⟩⟩, ⟨.eof, [], ⟨1, 6⟩⟩]
    let isLevel (t : Token) : Bool := t.kind == .indent || t.kind == .dedent
    scan " a b".toList = .ok tokens ∧
      Tiling " a b".toList (before ++ [.span ⟨.identifier, ['b'], ⟨1, 4⟩⟩ ['b']]) tokens [] ∧
      Inner before ⟨.identifier, ['b'], ⟨1, 4⟩⟩ ∧
      scan " a  b".toList = .ok tokens' ∧ tokens.filter isLevel ≠ tokens'.filter isLevel := by
  intro before tokens tokens' isLevel
  have hname : ∀ lexeme, Spells .identifier lexeme lexeme := fun _ => .verbatim (by decide)
  have hindent : ∀ token ∈ tokens.take 1, token.hasSpan = false := by decide +kernel
  have hending : ∀ token ∈ tokens.drop 3, token.hasSpan = false := by decide +kernel
  have hstart : Tiling " a b".toList [] [] " a b".toList := .nil _
  have hlevel : Tiling " a b".toList (before.take 1) (tokens.take 1) (['a'] ++ " b".toList) :=
    (hstart.addBlank rfl).addLayout hindent
  have hfirst : Tiling " a b".toList (before.take 2) (tokens.take 2) (' ' :: ['b']) :=
    hlevel.addToken (by simp) (hname _) (by decide +kernel)
  have hsecond : Tiling " a b".toList before (tokens.take 2) (['b'] ++ []) := hfirst.addBlank rfl
  have ht : Tiling " a b".toList (before ++ [.span ⟨.identifier, ['b'], ⟨1, 4⟩⟩ ['b']]) tokens [] :=
    (hsecond.addToken (by simp) (hname ['b']) (by decide +kernel)).addLayout hending
  have hi : Inner before ⟨.identifier, ['b'], ⟨1, 4⟩⟩ :=
    ⟨⟨.identifier, ['a'], ⟨1, 2⟩⟩, rfl, by simp, by simp⟩
  exact ⟨by decide +kernel, ht, hi, by decide +kernel, by decide +kernel⟩

end Offside
