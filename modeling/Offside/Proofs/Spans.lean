import Offside.Proofs.MaximalMunch

/-! Where the tokens of a source stand: the source and the tokens alone tell the text of each. -/
namespace Offside

variable {source text text' rest rest' : Text} {kind : Kind} {lexeme body body' value : Text}

theorem lineEnds_mono (source : Text) {offset offset' : Nat} (h : offset ≤ offset') :
    lineEnds source offset <+: lineEnds source offset' := by
  induction h with
  | refl => exact List.prefix_rfl
  | step _ ih =>
    rw [lineEnds_succ]
    exact ih.trans (List.prefix_append _ _)

def Position.Precedes (p q : Position) : Prop :=
  p.line < q.line ∨ p.line = q.line ∧ p.column < q.column

namespace Position

theorem at_precedes (source : Text) {m n : Nat} (h : m < n) :
    (Position.at source m).Precedes (.at source n) := by
  have hends := lineEnds_mono source (Nat.le_of_lt h)
  have hm := getLastD_lineEnds_le source m
  unfold Precedes Position.at
  dsimp only
  rcases Nat.lt_or_ge (lineEnds source m).length (lineEnds source n).length with hlt | hge
  · left
    omega
  · right
    rw [hends.eq_of_length_le hge] at hm ⊢
    omega

theorem at_injective (source : Text) : Function.Injective (Position.at source) := by
  have hne : ∀ {m n}, m < n → Position.at source m ≠ .at source n := by
    intro m n hmn he
    have hp := at_precedes source hmn
    unfold Precedes at hp
    rw [he] at hp
    omega
  intro m n h
  rcases Nat.lt_trichotomy m n with hmn | rfl | hnm
  · exact absurd h (hne hmn)
  · rfl
  · exact absurd h.symm (hne hnm)

end Position

/-- A literal is as long as its value and what it is closed by tell. -/
theorem Decodes.body_unique {value' : Text} (h : Decodes body value) (h' : Decodes body' value')
    (he : body ++ '"' :: rest = body' ++ '"' :: rest') : body = body' := by
  have hread := Literal.read_closed h rest
  rw [he, Literal.read_closed h' rest'] at hread
  obtain ⟨-, hlength⟩ := Literal.closed.inj hread
  exact (List.append_inj he (by omega)).1

/-- Of all texts that a token is written as, a source goes on with one at most. -/
theorem Spells.unique (h : Spells kind lexeme text) (h' : Spells kind lexeme text')
    (he : text ++ rest = text' ++ rest') : text = text' := by
  cases h with
  | verbatim hk =>
    cases h' with
    | verbatim => rfl
    | comment => exact absurd (by decide) hk
    | string => exact absurd (by decide) hk
  | comment =>
    cases h' with
    | verbatim hk => exact absurd (by decide) hk
    | comment => rfl
  | @string body value hd =>
    cases h' with
    | verbatim hk => exact absurd (by decide) hk
    | @string body' _ hd' =>
      have hquote : body ++ '"' :: rest = body' ++ '"' :: rest' := by simpa using he
      rw [hd.body_unique hd' hquote]

namespace Tiling

variable {front tiles tiles' : List Tile} {tokens : List Token} {token : Token} {c : Char}

theorem text_ne_nil (h : Tiling source tiles tokens rest) : ∀ tile ∈ tiles, tile.text ≠ [] := by
  rintro (c | ⟨token, text⟩) hmem
  · exact List.cons_ne_nil c []
  · obtain ⟨before, behind, he⟩ := List.append_of_mem hmem
    exact (h.spans before token text behind he).1

theorem not_blank_of_span (h : Tiling source (front ++ .span token text :: tiles) tokens rest)
    (h' : Tiling source (front ++ .blank c :: tiles') tokens rest) : False := by
  have htokens := h'.tokens_eq.trans h.tokens_eq.symm
  rw [List.filterMap_append, List.filterMap_append, List.append_cancel_left_eq] at htokens
  have hlater : tiles'.filterMap Tile.token? = token :: tiles.filterMap Tile.token? := htokens
  obtain ⟨before, tile, behind, rfl, -, htile, -⟩ := List.filterMap_eq_cons_iff.1 hlater
  cases tile with
  | blank => cases htile
  | span other text' =>
    obtain rfl : other = token := Option.some.inj htile
    have hplace := (h.spans front other text tiles rfl).2.2
    have hplace' := (h'.spans (front ++ .blank c :: before) other text' behind (by simp)).2.2
    have hlength := Position.at_injective source (hplace.symm.trans hplace')
    simp [Tile.join, Tile.text] at hlength

theorem tile_unique {tile tile' : Tile} (h : Tiling source (front ++ tile :: tiles) tokens rest)
    (h' : Tiling source (front ++ tile' :: tiles') tokens rest) : tile = tile' := by
  have hjoin :
      tile.text ++ (Tile.join tiles ++ rest) = tile'.text ++ (Tile.join tiles' ++ rest) := by
    have he := h.join_eq.trans h'.join_eq.symm
    simpa [Tile.join] using he
  cases tile with
  | blank c =>
    cases tile' with
    | blank c' => rw [(List.cons.inj hjoin).1]
    | span token' text' => exact (h'.not_blank_of_span h).elim
  | span token text =>
    cases tile' with
    | blank c' => exact (h.not_blank_of_span h').elim
    | span token' text' =>
      have htokens := h.tokens_eq.trans h'.tokens_eq.symm
      rw [List.filterMap_append, List.filterMap_append, List.append_cancel_left_eq] at htokens
      obtain ⟨rfl, -⟩ := List.cons.inj htokens
      have hs := (h.spans front token text tiles rfl).2.1
      have hs' := (h'.spans front token text' tiles' rfl).2.1
      rw [hs.unique hs' hjoin]

theorem eq_nil_of_append (h : Tiling source front tokens rest)
    (h' : Tiling source (front ++ tiles) tokens rest) : tiles = [] := by
  cases tiles with
  | nil => rfl
  | cons tile tiles =>
    have hlength := congrArg List.length (h.join_eq.trans h'.join_eq.symm)
    have hpos := List.length_pos_iff.2 (h'.text_ne_nil tile (by simp))
    simp only [Tile.join, List.flatMap_append, List.flatMap_cons, List.length_append] at hlength
    omega

theorem eq_of_append (h : Tiling source (front ++ tiles) tokens rest)
    (h' : Tiling source (front ++ tiles') tokens rest) : tiles = tiles' := by
  induction tiles generalizing front tiles' with
  | nil =>
    rw [List.append_nil] at h
    exact (h.eq_nil_of_append h').symm
  | cons tile tiles ih =>
    cases tiles' with
    | nil =>
      rw [List.append_nil] at h'
      exact h'.eq_nil_of_append h
    | cons tile' tiles' =>
      obtain rfl := h.tile_unique h'
      rw [List.append_cons] at h h'
      rw [ih h h']

/-- A source can be cut in one way only into the texts of its tokens and blanks. -/
theorem unique (h : Tiling source tiles tokens rest) (h' : Tiling source tiles' tokens rest) :
    tiles = tiles' := eq_of_append (List.nil_append tiles ▸ h) (List.nil_append tiles' ▸ h')

end Tiling

variable {tiles : List Tile} {tokens : List Token}

theorem exists_readTiling (h : scan source = .ok tokens) :
    ∃ tiles, ReadTiling source tiles tokens [] := by
  obtain ⟨s, hs, hr, rfl⟩ := scan_eq_ok_iff.1 h
  obtain ⟨-, tiles, htiles⟩ := Scan.exists_readTiling_of_reaches hs
  obtain ⟨ending, htokens, hending⟩ := s.exists_ending
  have hfinish := htiles.addLayout hending
  rw [← htokens, hr] at hfinish
  exact ⟨tiles, hfinish⟩

theorem Tiling.readTiling (h : Tiling source tiles tokens []) (hs : scan source = .ok tokens) :
    ReadTiling source tiles tokens [] := by
  obtain ⟨other, hother⟩ := exists_readTiling hs
  rw [h.unique hother.toTiling]
  exact hother

end Offside
