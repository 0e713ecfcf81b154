import Offside.Proofs.FirstFault
import Offside.Proofs.LineTokens
import Offside.Proofs.LiteralEnds
import Offside.Proofs.Marks
import Offside.Proofs.Nesting

/-! What a fault says of its source, and what it leaves of the scan: the work done in front of the
construct that it lies in, and of that construct only the levels that were closed. -/
namespace Offside

theorem Cause.length_message (cause : Cause) :
    cause.message.length =
      match cause with
      | .unexpected _ => 24
      | .bareBang => 44
      | .mixedIndentation => 38
      | .unmatchedDedent => 50
      | .brokenString => 64
      | .unterminatedString => 42 := by
  cases cause <;> rfl

theorem Cause.message_injective : Function.Injective Cause.message := by
  intro a b h
  have hl := congrArg List.length h
  rw [length_message, length_message] at hl
  cases a with
  | unexpected c =>
    cases b with
    | unexpected x =>
      have hc := List.append_cancel_left h
      cases hc
      rfl
    | _ => cases hl
  | _ =>
    cases b with
    | _ => first | rfl | cases hl

/-- A scan comes to the offset to read on there, within a line whose margin it has accepted. -/
def AtToken (source : Text) (offset : Nat) : Prop :=
  ∃ s, (Scan.start source).Reaches s ∧ s.lineStart = false ∧ s.cursor.offset = offset

/-- The offset lies behind the opening quote of a literal, and behind nothing that ends it. -/
def InLiteral (source : Text) (offset : Nat) : Prop :=
  ∃ quote, AtToken source quote ∧ source[quote]? = some '"' ∧ quote < offset ∧
    ∀ k ∈ literalEnds source quote, offset ≤ k

/-- A token is expected at the offset, and none begins there. -/
structure Tokenless (source : Text) (offset : Nat) : Prop where
  atToken : AtToken source offset
  outside : ¬ InLiteral source offset
  not_tokenAt : ∀ kind lexeme width, ¬ TokenAt (source.drop offset) kind lexeme width

namespace Scan

variable {s t : Scan} {source : Text} {stopped : Halt}

section Literals

variable (hin : s.cursor.In source) (hl : s.lineStart = false)
  (hq : source[s.cursor.offset]? = some '"')
include hin hl hq

theorem Moves.exists_literalEnd (h : s.Moves t) :
    ∃ k ∈ literalEnds source s.cursor.offset, t.cursor.offset = k + 1 := by
  have hrest := rest_of_quote hin hq
  generalize hu : source.drop (s.cursor.offset + 1) = tail at hrest
  cases hread : Literal.read tail with
  | closed value width =>
    obtain ⟨body, rest, rfl, -, hd⟩ := Literal.decodes_of_read hread
    obtain ⟨u, hm, -, hoffset, -⟩ := exists_moves_of_literal hin hl hrest hd
    rw [h.unique hm, hoffset]
    exact ⟨_, (isLeast_literalEnds hu hd (.inl rfl)).1, rfl⟩
  | broken width =>
    obtain ⟨body, value, c, rest, rfl, -, hc, hd⟩ := Literal.decodes_of_read_broken hread
    exact absurd h (Refuses.broken hl hrest hd hc).stop.not_moves
  | unterminated width =>
    obtain ⟨-, body, value, hd, ht⟩ := Literal.decodes_of_read_unterminated hread
    exact absurd h (Refuses.unterminated hl hrest hd ht).stop.not_moves

/-- The states behind a literal are behind its end. -/
theorem Reaches.exists_literalEnd (h : s.Reaches t) :
    t = s ∨ ∃ k ∈ literalEnds source s.cursor.offset, k < t.cursor.offset := by
  rcases h.eq_or_moves with rfl | ⟨u, hm, hu⟩
  · exact .inl rfl
  · obtain ⟨k, hk, hoffset⟩ := hm.exists_literalEnd hin hl hq
    have hle := Reaches.offset_le hu
    exact .inr ⟨k, hk, by omega⟩

theorem Stop.cause_of_quote (h : s.Stop stopped) :
    stopped.fault.cause = .brokenString ∨ stopped.fault.cause = .unterminatedString := by
  have hrest := rest_of_quote hin hq
  obtain ⟨text, hr⟩ := h.refuses
  cases hr with
  | mixed hs => cases hl.symm.trans hs
  | unmatched hs => cases hl.symm.trans hs
  | broken => exact .inl rfl
  | unterminated => exact .inr rfl
  | bareBang _ hr => cases hrest.symm.trans hr
  | unexpected _ hr hp =>
    cases hrest.symm.trans hr
    cases (Piece.read_quote []).symm.trans (hp [])

end Literals

/-- A token is expected only outside literals. -/
theorem not_inLiteral_of_atToken {offset : Nat} (h : AtToken source offset) :
    ¬ InLiteral source offset := by
  obtain ⟨t, ht, -, rfl⟩ := h
  rintro ⟨_, ⟨s, hs, hl, rfl⟩, hq, hlt, hends⟩
  rcases hs.total ht with h | h
  · rcases Reaches.exists_literalEnd (cursor_in_of_reaches hs) hl hq h with rfl | ⟨k, hk, hkt⟩
    · exact absurd hlt (Nat.lt_irrefl _)
    · exact absurd (hends k hk) (Nat.not_le.2 hkt)
  · exact absurd hlt (Nat.not_lt.2 (Reaches.offset_le h))

/-- The construct that begins where `s` stands and that a fault lies in: the margin of a line, a
literal, or a symbol. -/
inductive Construct (source : Text) (s : Scan) (offset : Nat) : Cause → Prop
  | mixed {blanks : Text} {x : Char} (hl : s.lineStart = true)
      (ht : source.take offset = source.take s.cursor.offset ++ blanks)
      (hb : ∀ c ∈ blanks, isBlank c = true) (hc : source[offset]? = some x)
      (hx : isBlank x = true) : Construct source s offset .mixedIndentation
  | unmatched {blanks : Text} {c : Char} (hl : s.lineStart = true)
      (ht : source.take offset = source.take s.cursor.offset ++ blanks)
      (hb : ∀ c ∈ blanks, isBlank c = true) (hc : source[offset]? = some c)
      (hn : isBlank c = false) (hbreak : isLineBreak c = false) :
      Construct source s offset .unmatchedDedent
  | literal {cause : Cause} (hl : s.lineStart = false) (hq : source[s.cursor.offset]? = some '"')
      (hlt : s.cursor.offset < offset)
      (hc : cause = .brokenString ∨ cause = .unterminatedString) : Construct source s offset cause
  | symbol {cause : Cause} {c : Char} (hl : s.lineStart = false) (ho : s.cursor.offset = offset)
      (hs : source[offset]? = some c) (hc : cause = .bareBang ∨ cause = .unexpected c) :
      Construct source s offset cause

theorem Stop.construct (h : s.Stop stopped) (hs : (start source).Reaches s) :
    Construct source s stopped.scan.cursor.offset stopped.fault.cause := by
  obtain ⟨text, hr⟩ := h.refuses
  obtain ⟨htake, hdrop⟩ := hr.take_and_drop hs
  have hoffset := hr.offset_eq
  have hin := cursor_in_of_reaches hs
  have hliteral : ∀ {tail body : Text}, s.lineStart = false → s.cursor.rest = '"' :: tail →
      text = '"' :: body →
      (stopped.fault.cause = .brokenString ∨ stopped.fault.cause = .unterminatedString) →
      Construct source s stopped.scan.cursor.offset stopped.fault.cause := by
    intro tail body hl hrest htext hc
    have hq := getElem?_of_drop (hin.rest_eq.symm.trans hrest)
    apply Construct.literal hl hq _ hc
    rw [hoffset, htext]
    exact Nat.lt_add_of_pos_right (Nat.succ_pos _)
  cases hr with
  | mixed hl _ _ hblank _ hx => exact .mixed hl htake hblank (getElem?_of_drop hdrop) hx
  | unmatched hl hm hc =>
    exact .unmatched hl htake hm.isBlank (getElem?_of_drop hdrop) (hm.ends _ rfl) hc
  | broken hl hrest => exact hliteral hl hrest rfl (.inl rfl)
  | unterminated hl hrest => exact hliteral hl hrest rfl (.inr rfl)
  | bareBang hl => exact .symbol hl hoffset.symm (getElem?_of_drop hdrop) (.inl rfl)
  | unexpected hl => exact .symbol hl hoffset.symm (getElem?_of_drop hdrop) (.inr rfl)

/-- What a fault leaves of a scan, of which `s` is the state in front of the construct that the
fault lies in: the tokens and levels of that state, but for the levels that the line closed. -/
structure Leaves (s : Scan) (stopped : Halt) (closed : List Nat) : Prop where
  tokens_eq : stopped.scan.tokens =
    s.tokens ++ List.replicate closed.length ⟨.dedent, [], stopped.fault.place⟩
  stack_eq : s.stack = stopped.scan.stack ++ closed
  mark_eq : stopped.scan.mark = s.mark.or s.indentation.head?
  lineStart_iff : stopped.scan.lineStart = true ↔ stopped.fault.cause = .mixedIndentation
  closed_eq_nil : stopped.fault.cause ≠ .unmatchedDedent → closed = []
  /-- The levels deeper than the line are closed, and all others are less deep. -/
  unmatched : stopped.fault.cause = .unmatchedDedent → closed ≠ [] ∧
    (∀ level ∈ closed, stopped.scan.cursor.offset - s.cursor.offset < level) ∧
    ∀ level ∈ stopped.scan.stack, level < stopped.scan.cursor.offset - s.cursor.offset

section Closed

variable {depth : Nat}

theorem lt_of_unmatched (h : s.openLevels.Pairwise (· > ·))
    (hk : (s.levels.dropWhile (depth < ·)).headD 0 ≠ depth) :
    ∀ level ∈ s.levels.dropWhile (depth < ·) ++ [0], level < depth := by
  have hmem : depth ∉ s.openLevels := by
    rw [← headD_dropWhile_openLevels] at hk
    exact fun hd => hk ((headD_dropWhile_lt_eq_iff h (by simp [openLevels])).2 hd)
  intro level hlevel
  rw [← dropWhile_openLevels, mem_dropWhile_lt_iff h] at hlevel
  obtain ⟨hopen, hle⟩ := hlevel
  apply Nat.lt_of_le_of_ne hle
  rintro rfl
  exact hmem hopen

theorem closes_of_unmatched (hd : depth ≤ s.levels.headD 0)
    (hk : (s.levels.dropWhile (depth < ·)).headD 0 ≠ depth) :
    s.levels.takeWhile (depth < ·) ≠ [] := by
  cases hlevels : s.levels with
  | nil =>
    rw [hlevels] at hd hk
    exact absurd (Nat.le_zero.1 hd).symm hk
  | cons level levels =>
    rw [hlevels] at hd hk
    by_cases hlt : depth < level
    · rw [List.takeWhile_cons_of_pos (by simpa using hlt)]
      exact List.cons_ne_nil _ _
    · rw [List.dropWhile_cons_of_neg (by simpa using hlt)] at hk
      exact absurd (Nat.le_antisymm (Nat.not_lt.1 hlt) hd) hk

end Closed

theorem Stop.leaves_of_unmatched {blanks rest : Text} {c : Char}
    (h : s.Stop ⟨⟨.unmatchedDedent, s.cursor.place⟩,
      (s.pastMargin blanks (c :: rest)).closing blanks.length s.cursor.place⟩)
    (hs : s.Consistent) (hd : blanks.length ≤ s.levels.headD 0)
    (hk : (s.levels.dropWhile (blanks.length < ·)).headD 0 ≠ blanks.length) :
    Leaves s ⟨⟨.unmatchedDedent, s.cursor.place⟩,
      (s.pastMargin blanks (c :: rest)).closing blanks.length s.cursor.place⟩
      (s.levels.takeWhile (blanks.length < ·)).reverse := by
  have hdepth : s.cursor.offset + blanks.length - s.cursor.offset = blanks.length :=
    Nat.add_sub_cancel_left _ _
  have hlt := lt_of_unmatched (consistent_iff.1 hs).1 hk
  refine ⟨?_, ?_, h.mark_eq, iff_of_false Bool.false_ne_true nofun, fun hu => absurd rfl hu,
    fun _ => ⟨?_, ?_, ?_⟩⟩
  · rw [List.length_reverse]
    exact tokens_closing (s.pastMargin blanks (c :: rest)) _ _
  · change 0 :: s.levels.reverse = 0 :: (s.levels.dropWhile _).reverse ++ _
    rw [List.cons_append, ← List.reverse_append, List.takeWhile_append_dropWhile]
  · rw [ne_eq, List.reverse_eq_nil_iff]
    exact closes_of_unmatched hd hk
  · intro level hlevel
    have hpos := List.mem_takeWhile_imp (List.mem_reverse.1 hlevel)
    change s.cursor.offset + blanks.length - s.cursor.offset < level
    rw [hdepth]
    exact of_decide_eq_true hpos
  · intro level hlevel
    change level < s.cursor.offset + blanks.length - s.cursor.offset
    rw [hdepth]
    apply hlt
    rw [stack_eq, List.mem_reverse] at hlevel
    exact hlevel

theorem Stop.leaves (h : s.Stop stopped) (hs : s.Consistent) :
    ∃ closed, Leaves s stopped closed := by
  have hmark := h.mark_eq
  -- But for a line that matches no level, a stop adds no token and closes nothing.
  have hkeeps : stopped.scan.tokens = s.tokens → stopped.scan.stack = s.stack →
      stopped.fault.cause ≠ .unmatchedDedent →
      (stopped.scan.lineStart = true ↔ stopped.fault.cause = .mixedIndentation) →
      ∃ closed, Leaves s stopped closed := by
    intro htokens hstack hc hl
    refine ⟨[], ?_, ?_, hmark, hl, fun _ => rfl, fun hu => absurd hu hc⟩
    · rw [htokens]
      exact (List.append_nil _).symm
    · rw [hstack, List.append_nil]
  obtain ⟨blanks, hr⟩ := h.refuses
  cases hr with
  | mixed hl => exact hkeeps rfl rfl nofun (iff_of_true hl rfl)
  | unmatched _ _ _ hd hk => exact ⟨_, h.leaves_of_unmatched hs hd hk⟩
  | broken hl => exact hkeeps rfl rfl nofun (iff_of_false (by simp [refusal, hl]) nofun)
  | unterminated hl => exact hkeeps rfl rfl nofun (iff_of_false (by simp [refusal, hl]) nofun)
  | bareBang hl => exact hkeeps rfl rfl nofun (iff_of_false (by simp [refusal, hl]) nofun)
  | unexpected hl => exact hkeeps rfl rfl nofun (iff_of_false (by simp [refusal, hl]) nofun)

/-- What place and message of a fault say of the source, if the scan was left at `offset`. -/
structure Explains (source : Text) (fault : Fault) (offset : Nat) : Prop where
  place_eq : fault.cause ≠ .unmatchedDedent → fault.place = .at source offset
  place_eq_of_unmatched : fault.cause = .unmatchedDedent →
    fault.place = ⟨(Position.at source offset).line, 1⟩
  unterminated_iff : fault.cause.message = Cause.unterminatedString.message ↔
    offset = source.length
  broken_iff : fault.cause.message = Cause.brokenString.message ↔
    offset ≠ source.length ∧ InLiteral source offset
  unexpected_iff : ∀ c, fault.cause.message = (Cause.unexpected c).message ↔
    c ≠ '!' ∧ source[offset]? = some c ∧ Tokenless source offset
  bareBang_iff : fault.cause.message = Cause.bareBang.message ↔
    source[offset]? = some '!' ∧ source[offset + 1]? ≠ some '=' ∧ Tokenless source offset

theorem Stop.place_eq (h : s.Stop stopped) (hc : stopped.fault.cause ≠ .unmatchedDedent) :
    stopped.fault.place = stopped.scan.cursor.place := by
  cases h with
  | mixed => rfl
  | unmatched => exact absurd rfl hc
  | piece => rfl

section Explains

variable (h : s.Stop stopped) (hs : (start source).Reaches s)
include h hs

theorem Stop.place_eq_of_unmatched (hc : stopped.fault.cause = .unmatchedDedent) :
    stopped.fault.place = ⟨(Position.at source stopped.scan.cursor.offset).line, 1⟩ := by
  have hin := h.cursor_in (cursor_in_of_reaches hs)
  rw [← hin.place_eq]
  obtain ⟨blanks, hr⟩ := h.refuses
  cases hr with
  | @unmatched _ c rest hl hm =>
    have hplace := place_eq_linePlace hs hl
    change s.cursor.place = ⟨(s.cursor.place.behind blanks (c :: rest)).line, 1⟩
    rw [Position.behind_of_blanks hm.isBlank, hplace]
    rfl
  | mixed => cases hc
  | broken => cases hc
  | unterminated => cases hc
  | bareBang => cases hc
  | unexpected => cases hc

theorem Stop.unterminated_iff :
    stopped.fault.cause = .unterminatedString ↔
      stopped.scan.cursor.offset = source.length := by
  have hin := h.cursor_in (cursor_in_of_reaches hs)
  obtain ⟨text, hr⟩ := h.refuses
  constructor
  · intro hc
    apply offset_of_rest_eq_nil hin
    cases hr with
    | unterminated => rfl
    | mixed => cases hc
    | unmatched => cases hc
    | broken => cases hc
    | bareBang => cases hc
    | unexpected => cases hc
  · intro hend
    by_contra hc
    obtain ⟨c, rest, hrest⟩ := hr.exists_rest hc
    rw [hin.rest_eq, hend, List.drop_length] at hrest
    cases hrest

theorem Stop.inLiteral (hc : stopped.fault.cause = .brokenString) :
    InLiteral source stopped.scan.cursor.offset := by
  have hin := cursor_in_of_reaches hs
  obtain ⟨text, hr⟩ := h.refuses
  have hoffset := hr.offset_eq
  cases hr with
  | @broken body value c rest hl hrest hd hbreak =>
    have hq := getElem?_of_drop (hin.rest_eq.symm.trans hrest)
    have hbody : source.drop (s.cursor.offset + 1) = body ++ c :: rest :=
      (List.cons.inj ((rest_of_quote hin hq).symm.trans hrest)).2
    have hleast := isLeast_literalEnds hbody hd (.inr hbreak)
    rw [List.length_cons, ← Nat.add_assoc, Nat.add_right_comm] at hoffset
    rw [hoffset]
    refine ⟨s.cursor.offset, ⟨s, hs, hl, rfl⟩, hq, ?_, fun k hk => hleast.2 hk⟩
    omega
  | mixed => cases hc
  | unmatched => cases hc
  | unterminated => cases hc
  | bareBang => cases hc
  | unexpected => cases hc

/-- Within a literal only the literal can fail. -/
theorem Stop.cause_of_inLiteral (hi : InLiteral source stopped.scan.cursor.offset) :
    stopped.fault.cause = .brokenString ∨ stopped.fault.cause = .unterminatedString := by
  obtain ⟨_, ⟨t, ht, hl, rfl⟩, hq, hlt, hends⟩ := hi
  have hin := cursor_in_of_reaches ht
  obtain ⟨text, hr⟩ := h.refuses
  have hoffset := hr.offset_eq
  rcases Reaches.exists_literalEnd hin hl hq (ht.of_stop hs h) with rfl | ⟨k, hk, hks⟩
  · exact h.cause_of_quote hin hl hq
  · have hle := hends k hk
    omega

theorem Stop.broken_iff :
    stopped.fault.cause = .brokenString ↔
      stopped.scan.cursor.offset ≠ source.length ∧
        InLiteral source stopped.scan.cursor.offset := by
  rw [ne_eq, ← h.unterminated_iff hs]
  constructor
  · intro hc
    refine ⟨?_, h.inLiteral hs hc⟩
    rw [hc]
    exact nofun
  · rintro ⟨hn, hi⟩
    exact (h.cause_of_inLiteral hs hi).resolve_right hn

theorem Stop.offset_eq_of_atToken (ha : AtToken source stopped.scan.cursor.offset) :
    s.lineStart = false ∧ s.cursor.offset = stopped.scan.cursor.offset := by
  obtain ⟨t, ht, hl, ho⟩ := ha
  obtain ⟨text, hr⟩ := h.refuses
  have hoffset := hr.offset_eq
  rcases (ht.of_stop hs h).eq_or_moves with rfl | ⟨u, hm, hu⟩
  · exact ⟨hl, ho⟩
  · have hlt := hm.offset_lt hl
    have hle := Reaches.offset_le hu
    omega

theorem Stop.offset_eq_of_symbol {c : Char}
    (hc : stopped.fault.cause = .bareBang ∨ stopped.fault.cause = .unexpected c) :
    s.lineStart = false ∧ s.cursor.offset = stopped.scan.cursor.offset := by
  have hconstruct := h.construct hs
  generalize stopped.fault.cause = cause at hc hconstruct
  cases hconstruct with
  | mixed => simp at hc
  | unmatched => simp at hc
  | literal _ _ _ hliteral =>
    rcases hliteral with rfl | rfl
    · simp at hc
    · simp at hc
  | symbol hl ho => exact ⟨hl, ho⟩

theorem Stop.symbol (hl : s.lineStart = false)
    (ho : s.cursor.offset = stopped.scan.cursor.offset) :
    Tokenless source stopped.scan.cursor.offset ∧
      ∃ c, source[stopped.scan.cursor.offset]? = some c ∧
        (c = '!' ∧ source[stopped.scan.cursor.offset + 1]? ≠ some '=' ∧
            stopped.fault.cause = .bareBang ∨
          c ≠ '!' ∧ stopped.fault.cause = .unexpected c) := by
  have hat : AtToken source stopped.scan.cursor.offset := ⟨s, hs, hl, ho⟩
  have houtside := not_inLiteral_of_atToken hat
  obtain ⟨text, hr⟩ := h.refuses
  obtain ⟨-, hdrop⟩ := hr.take_and_drop hs
  have hoffset := hr.offset_eq
  cases hr with
  | mixed hs => cases hl.symm.trans hs
  | unmatched hs => cases hl.symm.trans hs
  | broken =>
    rw [List.length_cons] at hoffset
    omega
  | unterminated =>
    rw [List.length_cons] at hoffset
    omega
  | @bareBang rest _ _ hn =>
    refine ⟨⟨hat, houtside, fun kind lexeme width ht => ?_⟩, '!', getElem?_of_drop hdrop,
      .inl ⟨rfl, ?_, rfl⟩⟩
    · rw [hdrop] at ht
      cases ht.read_eq.symm.trans (Piece.read_bang hn)
    · rw [← List.head?_drop, ← List.tail_drop, hdrop]
      exact hn
  | @unexpected c rest _ _ hp =>
    refine ⟨⟨hat, houtside, fun kind lexeme width ht => ?_⟩, c, getElem?_of_drop hdrop,
      .inr ⟨?_, rfl⟩⟩
    · rw [hdrop] at ht
      cases ht.read_eq.symm.trans (hp rest)
    · rintro rfl
      have hbang : Piece.read '!' [] = .fault .bareBang 0 := Piece.read_bang nofun
      cases hbang.symm.trans (hp [])

theorem Stop.explains : Explains source stopped.fault stopped.scan.cursor.offset where
  place_eq hc := (h.place_eq hc).trans (h.cursor_in (cursor_in_of_reaches hs)).place_eq
  place_eq_of_unmatched hc := h.place_eq_of_unmatched hs hc
  unterminated_iff := by
    rw [Cause.message_injective.eq_iff]
    exact h.unterminated_iff hs
  broken_iff := by
    rw [Cause.message_injective.eq_iff]
    exact h.broken_iff hs
  unexpected_iff c := by
    rw [Cause.message_injective.eq_iff]
    constructor
    -- From the cause to the character by what the stop read, and back by what it must read there.
    · intro hc
      obtain ⟨hl, ho⟩ := h.offset_eq_of_symbol hs (.inr hc)
      obtain ⟨ht, x, hx, ⟨-, -, hb⟩ | ⟨hne, hu⟩⟩ := h.symbol hs hl ho
      · cases hc.symm.trans hb
      · cases hc.symm.trans hu
        exact ⟨hne, hx, ht⟩
    · rintro ⟨hne, hc, ht⟩
      obtain ⟨hl, ho⟩ := h.offset_eq_of_atToken hs ht.atToken
      obtain ⟨-, x, hx, ⟨rfl, -, -⟩ | ⟨-, hu⟩⟩ := h.symbol hs hl ho
      · exact absurd (Option.some.inj (hc.symm.trans hx)) hne
      · cases hc.symm.trans hx
        exact hu
  bareBang_iff := by
    rw [Cause.message_injective.eq_iff]
    constructor
    · intro hc
      obtain ⟨hl, ho⟩ := h.offset_eq_of_symbol (c := '!') hs (.inl hc)
      obtain ⟨ht, x, hx, ⟨rfl, hn, -⟩ | ⟨-, hu⟩⟩ := h.symbol hs hl ho
      · exact ⟨hx, hn, ht⟩
      · cases hc.symm.trans hu
    · rintro ⟨hc, -, ht⟩
      obtain ⟨hl, ho⟩ := h.offset_eq_of_atToken hs ht.atToken
      obtain ⟨-, x, hx, ⟨-, -, hb⟩ | ⟨hne, -⟩⟩ := h.symbol hs hl ho
      · exact hb
      · exact absurd (Option.some.inj (hx.symm.trans hc)) hne

end Explains

end Scan

open Scan in
/-- The state that a failed scan leaves. Place and message tell where it stands and what is wrong
there. Its tokens are those of the source up to where the construct begins that the fault lies in,
with the layout of the line if its margin was accepted, and behind them one more for each level
that a line closed before it was refused. -/
theorem fault_state {source : Text} {stopped : Halt} (h : ofSource source = .error stopped) :
    stopped.scan.cursor.In source ∧
    Explains source stopped.fault stopped.scan.cursor.offset ∧
    ∃ s closed, (start source).Reaches s ∧
      Construct source s stopped.scan.cursor.offset stopped.fault.cause ∧
      Leaves s stopped closed ∧
      (TokensTo source s.cursor.offset s.tokens ∨
        ∃ depths line depth, EntersLine source depths line depth s ∧
          TokensTo source s.cursor.offset line.tokens) ∧
      (s.lineStart = false →
        ∃ depths line depth new, OnLine source depths line depth new s) := by
  obtain ⟨s, hs, hstop⟩ := ofSource_eq_error_iff.1 h
  obtain ⟨closed, hleaves⟩ := hstop.leaves (consistent_of_reaches hs)
  have hin := hstop.cursor_in (cursor_in_of_reaches hs)
  have hleft := hstop.rest_ne_nil
  exact ⟨hin, hstop.explains hs, s, closed, hs, hstop.construct hs, hleaves,
    tokensTo_of_reaches hs hleft, fun hl => exists_onLine hs hl hleft⟩

open Scan in
/-- A line that closes two levels before it is refused, a literal that is cut off between the two
halves of a line break, and a symbol at the start of a deeper line. -/
theorem fault_state_of_dedent_and_literal_and_symbol :
    let dedent := "a\n  b\n   c\n d".toList
    let literal := "x=\"\\\r\n\"".toList
    let symbol := "a\n  $".toList
    (∃ stopped s closed, ofSource dedent = .error stopped ∧
      stopped.fault = ⟨.unmatchedDedent, ⟨4, 1⟩⟩ ∧ stopped.scan.stack = [0] ∧
      Leaves s stopped closed ∧ closed ≠ []) ∧
    InLiteral literal 5 ∧ Tokenless symbol 4 := by
  intro dedent literal symbol
  have hdedent : ((ofSource dedent).map fun _ => ()).mapError
      (fun stopped => (stopped.fault, stopped.scan.stack)) =
        .error (⟨.unmatchedDedent, ⟨4, 1⟩⟩, [0]) := by decide +kernel
  have hliteral : ofSource literal = .error ⟨⟨.brokenString, ⟨1, 6⟩⟩,
      ⟨⟨['\n', '"'], 5, ⟨1, 6⟩⟩, [], none, false,
        [⟨.assign, ['='], ⟨1, 2⟩⟩, ⟨.identifier, ['x'], ⟨1, 1⟩⟩]⟩⟩ := by decide +kernel
  have hsymbol : ofSource symbol = .error ⟨⟨.unexpected '$', ⟨2, 3⟩⟩,
      ⟨⟨['$'], 4, ⟨2, 3⟩⟩, [2], some ' ', false,
        [⟨.indent, [], ⟨2, 1⟩⟩, ⟨.newline, ['\n'], ⟨1, 2⟩⟩, ⟨.identifier, ['a'], ⟨1, 1⟩⟩]⟩⟩ := by
    decide +kernel
  refine ⟨?_, ?_, ?_⟩
  · cases h : ofSource dedent with
    | ok s =>
      rw [h] at hdedent
      cases hdedent
    | error stopped =>
      rw [h] at hdedent
      obtain ⟨hfault, hstack⟩ := Prod.mk.inj (Except.error.inj hdedent)
      have hc : stopped.fault.cause = .unmatchedDedent := by rw [hfault]
      obtain ⟨-, -, s, closed, -, -, hleaves, -⟩ := fault_state h
      exact ⟨stopped, s, closed, rfl, hfault, hstack, hleaves, (hleaves.unmatched hc).1⟩
  · obtain ⟨-, hexplains, -⟩ := fault_state hliteral
    exact (hexplains.broken_iff.1 rfl).2
  · obtain ⟨-, hexplains, -⟩ := fault_state hsymbol
    exact ((hexplains.unexpected_iff '$').1 rfl).2.2

end Offside
