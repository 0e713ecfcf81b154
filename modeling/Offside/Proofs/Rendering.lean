import Offside.Proofs.Quotation
import Offside.Scan.Piece
import Offside.Token.Basic

/-! A token's line tells all about it, and all of the line can be seen. -/
namespace Offside

def Position.ofText? (t : Text) : Option Position :=
  match Json.readInt t with
  | some (line, ':' :: rest) =>
    match Json.readInt rest with
    | some (column, []) => some ⟨line, column⟩
    | _ => none
  | _ => none

theorem Position.ofText?_ofInt (p : Position) :
    ofText? (Text.ofInt p.line ++ ':' :: Text.ofInt p.column) = some p := by
  have hcolon : Json.EndsNumber (':' :: Text.ofInt p.column) :=
    Json.endsNumber_cons (by decide) _
  have hcolumn : Json.readInt (Text.ofInt p.column ++ []) = some (p.column, []) :=
    Json.readInt_ofInt p.column (by simp [Json.EndsNumber])
  rw [List.append_nil] at hcolumn
  unfold ofText?
  simp only [Json.readInt_ofInt p.line hcolon, hcolumn]

theorem Kind.name_apart (k : Kind) {c : Char} (h : c ∈ k.name.toList) :
    c ≠ '(' ∧ Unicode.isPrintable c = true := by
  have hall : Kind.all.all (fun k =>
      k.name.toList.all fun c => c != '(' && Unicode.isPrintable c) = true := by decide +kernel
  have hc := List.all_eq_true.1 (List.all_eq_true.1 hall k k.mem_all) c h
  rwa [Bool.and_eq_true, bne_iff_ne] at hc

theorem Text.eq_dash_or_isDigit_of_mem_ofInt {n : Int} {c : Char} (h : c ∈ ofInt n) :
    c = '-' ∨ c.isDigit = true := by
  cases n with
  | ofNat n => exact .inr (isDigit_of_mem_ofNat h)
  | negSucc n =>
    rcases List.mem_cons.1 h with rfl | h
    · exact .inl rfl
    · exact .inr (isDigit_of_mem_ofNat h)

theorem Text.isPrintable_of_mem_ofInt {n : Int} {c : Char} (h : c ∈ ofInt n) :
    Unicode.isPrintable c = true := by
  rcases eq_dash_or_isDigit_of_mem_ofInt h with rfl | hc
  · decide +kernel
  · rw [Char.isDigit_iff_toNat] at hc
    change 0x30 ≤ c.toNat ∧ c.toNat ≤ 0x39 at hc
    exact Unicode.isPrintable_of_ascii (by omega) (by omega)

namespace Token

def ofRender? (line : Text) : Option Token :=
  match Kind.ofName? (String.ofList (line.takeWhile (· != '('))),
      Quoted.read? (line.dropWhile (· != '(')).tail with
  | some kind, some (lexeme, ')' :: ' ' :: '@' :: ' ' :: place) =>
    (Position.ofText? place).map (⟨kind, lexeme, ·⟩)
  | _, _ => none

/-- A token is read back from its line, whatever its lexeme holds. -/
theorem ofRender?_render (t : Token) : ofRender? t.render = some t := by
  obtain ⟨kind, lexeme, place⟩ := t
  have hname : ∀ c ∈ kind.name.toList, (c != '(') = true :=
    fun c hc => bne_iff_ne.2 (kind.name_apart hc).1
  have hrender : render ⟨kind, lexeme, place⟩ = kind.name.toList ++ '(' ::
      (Quoted.quote lexeme ++ ')' :: ' ' :: '@' :: ' ' ::
        (Text.ofInt place.line ++ ':' :: Text.ofInt place.column)) := by
    simp [render]
  unfold ofRender?
  rw [hrender, takeWhile_append_cons hname rfl, dropWhile_append_cons hname rfl, List.tail_cons,
    Quoted.read?_quote, String.ofList_toList, Kind.ofName?_name]
  show (Position.ofText? _).map _ = _
  rw [Position.ofText?_ofInt]
  rfl

theorem render_injective {t u : Token} (h : t.render = u.render) : t = u := by
  have hread := ofRender?_render t
  rw [h, ofRender?_render] at hread
  exact (Option.some.inj hread).symm

theorem isPrintable_of_mem_render {t : Token} {c : Char} (h : c ∈ t.render) :
    Unicode.isPrintable c = true := by
  have hbetween : ") @ ".toList.all Unicode.isPrintable = true := by decide +kernel
  simp only [render, List.mem_append, List.mem_cons] at h
  rcases h with (((hc | rfl | hc) | hc) | hc) | rfl | hc
  · exact (t.kind.name_apart hc).2
  · decide +kernel
  · exact Quoted.isPrintable_of_mem_quote hc
  · exact List.all_eq_true.1 hbetween c hc
  · exact Text.isPrintable_of_mem_ofInt hc
  · decide +kernel
  · exact Text.isPrintable_of_mem_ofInt hc

/-- Lines of tokens are unambiguous and printable. No two tokens have the same line, and all that
a line holds can be seen, as ASCII can from the space to the tilde: neither a line break nor any
other control is there, and of all white space only the space. -/
theorem render_unambiguous :
    (∀ t u : Token, t.render = u.render → t = u) ∧
      (∀ c : Char, 0x20 ≤ c.toNat → c.toNat ≤ 0x7E → Unicode.isPrintable c = true) ∧
      ∀ t : Token, ∀ c ∈ t.render,
        Unicode.isPrintable c = true ∧ isLineBreak c = false ∧ Unicode.isControl c = false ∧
          (Unicode.isWhiteSpace c = true → c = ' ') := by
  refine ⟨fun t u h => render_injective h, fun c h h' => Unicode.isPrintable_of_ascii h h', ?_⟩
  intro t c hc
  have hp := isPrintable_of_mem_render hc
  refine ⟨hp, ?_, Unicode.not_isControl_of_isPrintable hp, ?_⟩
  · rw [not_isLineBreak_iff]
    constructor
    · rintro rfl
      exact absurd hp (by decide +kernel)
    · rintro rfl
      exact absurd hp (by decide +kernel)
  · exact Unicode.eq_space_of_isWhiteSpace hp

/-- A lexeme that looks like the end of a line, with a quote of each kind, an escape and two
characters that cannot be seen, above the first line. -/
theorem render_unambiguous_of_quotes_and_escapes :
    let t : Token := ⟨.string, "') @ 1:2\n".toList ++ ['\u2028', '"', '\\', 'n'], ⟨-1, 12⟩⟩
    let u : Token := ⟨.string, "') @ 1:2\n\u2028\"\\n".toList, ⟨-1, 10 + 2⟩⟩
    let line := "STRING('\\') @ 1:2\\n\\u2028\"\\\\n') @ -1:12".toList
    t.render = line ∧ u.render = line ∧ t = u ∧ 0x20 ≤ '\\'.toNat ∧
      Unicode.isPrintable '\\' = true ∧ '\\' ∈ t.render ∧ Unicode.isControl '\\' = false := by
  intro t u line
  have ht : t.render = line := by decide +kernel
  have hu : u.render = line := by decide +kernel
  have hmem : '\\' ∈ t.render := by
    rw [ht]
    decide +kernel
  obtain ⟨hinjective, hascii, hvisible⟩ := render_unambiguous
  refine ⟨ht, hu, hinjective t u (ht.trans hu.symm), by decide, ?_, hmem, ?_⟩
  · exact hascii '\\' (by decide) (by decide)
  · exact (hvisible t '\\' hmem).2.2.1

end Token
end Offside
