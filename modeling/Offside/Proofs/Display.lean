import Offside.Proofs.CommandLine
import Offside.Proofs.JsonRoundTrip
import Offside.Proofs.Listings

/-! A JSON document and a listing show the same tokens, and the document tells all about them. -/
namespace Offside

namespace Token

def ofJson? : Json → Option Token
  | .object [(a, .text kind), (b, .text lexeme), (c, .int line), (d, .int column)] =>
    if [a, b, c, d] = ["kind", "lexeme", "line", "column"].map String.toList then
      (Kind.ofName? (String.ofList kind)).map (⟨·, lexeme, ⟨line, column⟩⟩)
    else none
  | _ => none

theorem ofJson?_toJson (t : Token) : ofJson? t.toJson = some t := by
  change (Kind.ofName? (String.ofList t.kind.name.toList)).map _ = _
  rw [String.ofList_toList, Kind.ofName?_name]
  rfl

def ofDocument? (t : Text) : Option (List Token) :=
  match Json.read t with
  | some (.array items) => items.mapM ofJson?
  | _ => none

theorem mapM_ofJson? (ts : List Token) : (ts.map toJson).mapM ofJson? = some ts := by
  induction ts with
  | nil => rfl
  | cons t ts ih => rw [List.map_cons, List.mapM_cons, ofJson?_toJson, ih]; rfl

end Token

namespace Command

variable {env : Environment} {args more : List Text} {arg source : Text} {tokens : List Token}

theorem lines_singleton (t : Text) : lines [t] = t ++ ['\n'] := List.flatMap_singleton ..

/-- A document on a line of its own is ASCII, and the array of its tokens. -/
theorem read_lines_document (ts : List Token) :
    Json.Ascii (lines [Token.document ts]) ∧
      Json.read (lines [Token.document ts]) = some (.array (ts.map Token.toJson)) := by
  rw [lines_singleton]
  refine ⟨Json.ascii_append.2 ⟨Json.ascii_write _, by simp⟩, ?_⟩
  exact Json.read_write_append _ ['\n'] fun c hc => by rw [List.mem_singleton.1 hc]; rfl

def shown (args : List Text) (tokens : List Token) : List Token :=
  if "--hide-comments".toList ∈ args then tokens.filter (·.kind ≠ .comment) else tokens

theorem json_ofArgs_iff : (Options.ofArgs args).json = true ↔ "--json".toList ∈ args :=
  decide_eq_true_iff

theorem hideComments_ofArgs_iff :
    (Options.ofArgs args).hideComments = true ↔ "--hide-comments".toList ∈ args :=
  decide_eq_true_iff

theorem selected_eq_shown (args : List Text) (tokens : List Token) :
    selected (Options.ofArgs args).hideComments tokens = shown args tokens := by
  unfold shown
  cases hh : (Options.ofArgs args).hideComments with
  | false =>
    rw [if_neg fun hm => Bool.false_ne_true (hh.symm.trans (hideComments_ofArgs_iff.2 hm)),
      selected_false]
  | true =>
    rw [if_pos (hideComments_ofArgs_iff.1 hh)]
    refine List.filter_congr fun t _ => ?_
    rw [Bool.true_and, decide_not, beq_eq_decide]

theorem ofTokens_eq (args : List Text) (tokens : List Token) :
    Listing.ofTokens (Options.ofArgs args).hideComments tokens =
      ⟨shown args tokens, tokens.length⟩ := by
  unfold Listing.ofTokens shown
  simp only [hideComments_ofArgs_iff]

theorem footer_eq (tokens : List Token) (args : List Text) :
    Listing.footer ⟨shown args tokens, tokens.length⟩ =
      "Total Tokens: ".toList ++ Text.ofNat tokens.length ++
        if (shown args tokens).length < tokens.length then
          " (".toList ++ Text.ofNat (tokens.length - (shown args tokens).length) ++
            " comment(s) hidden)".toList
        else [] := by
  unfold Listing.footer Listing.hidden
  dsimp only
  congr 1
  split <;> split <;> first | rfl | omega

/-- A source that has tokens is shown with status 0: as an array of its tokens in ASCII, from
which these are read back, or as a listing: a title, a table with a row for each of the same tokens,
and the number of all with that of the comments left out. Where the table and the footer fit the
console and no codes are sent, the lines are given one by one. -/
theorem run_shows_tokens (hk : Request.Known (Request.positional args))
    (hw : Request.positional args = "tokenize".toList :: arg :: more)
    (hs : Supplies env arg source) (hc : ∃ c ∈ source, Unicode.isWhiteSpace c = false)
    (ht : scan source = .ok tokens) :
    ∃ report, run env args = .ok report ∧ report.status = 0 ∧
      ("--json".toList ∈ args →
        Json.Ascii report.output ∧
          Json.read report.output = some (.array ((shown args tokens).map fun t => .object [
            ("kind".toList, .text t.kind.name.toList), ("lexeme".toList, .text t.lexeme),
            ("line".toList, .int t.place.line), ("column".toList, .int t.place.column)])) ∧
          Token.ofDocument? report.output = some (shown args tokens)) ∧
      ("--json".toList ∉ args →
        let c := console env args
        let footer := "Total Tokens: ".toList ++ Text.ofNat tokens.length ++
          if (shown args tokens).length < tokens.length then
            " (".toList ++ Text.ofNat (tokens.length - (shown args tokens).length) ++
              " comment(s) hidden)".toList
          else []
        let rows := (shown args tokens).map fun t => (⟨t.kind.name.toList, Quoted.quote t.lexeme,
          Text.ofInt t.place.line, Text.ofInt t.place.column⟩ : Row)
        report.output = c.write (
          c.paragraph .title "LEXICAL ANALYSIS RESULT".toList ++ c.rule ::
            Table.lines ⟨Listing.columns, (shown args tokens).map fun t => [
              ⟨t.kind.name.toList, t.kind.role.style⟩, ⟨Quoted.quote t.lexeme, .plain⟩,
              ⟨Text.ofInt t.place.line, Role.position.style⟩,
              ⟨Text.ofInt t.place.column, Role.position.style⟩]⟩ c.width ++
            c.rule :: c.paragraph .success footer) ∧
          (c.terminal = false → (Listing.Widths.ofRows rows).total ≤ c.width →
            footer.length ≤ c.width →
              report.output = lines (Listing.texts rows footer c.width))) := by
  obtain ⟨report, hrun, hstatus, houtput⟩ :=
    run_of_supplies (Request.ofArgs_eq_tokenize hk hw) hs
  have hb : source.all Unicode.isWhiteSpace = false := by
    obtain ⟨c, hmem, hc⟩ := hc
    exact List.all_eq_false.2 ⟨c, hmem, by simp [hc]⟩
  obtain ⟨hzero, hshown⟩ := tokenize_of_scan (.ofArgs args) (console env args) hb ht
  rw [selected_eq_shown, ofTokens_eq] at hshown
  -- As JSON the tokens are read back; as a listing the lines are computed.
  refine ⟨report, hrun, hstatus.trans hzero, fun hj => ?_, fun hj => ?_⟩
  · rw [houtput, hshown, if_pos (json_ofArgs_iff.2 hj)]
    obtain ⟨hascii, hread⟩ := read_lines_document (shown args tokens)
    refine ⟨hascii, hread, ?_⟩
    unfold Token.ofDocument?
    rw [hread]
    exact Token.mapM_ofJson? _
  · rw [houtput, hshown, if_neg fun h => hj (json_ofArgs_iff.1 h)]
    intro c footer rows
    have hfooter : Listing.footer ⟨shown args tokens, tokens.length⟩ = footer :=
      footer_eq tokens args
    constructor
    · rw [← hfooter]
      rfl
    · intro hterminal htotal hlength
      rw [← hfooter] at hlength ⊢
      exact Listing.write_lines_of_fits hterminal htotal hlength

/-- A comment is left out behind a literal with a quote and a character of two cells. -/
theorem run_shows_tokens_of_quote_and_comment :
    let source := "s = \"\\\"😀\" # c\n".toList
    let env : Environment := ⟨fun _ => .missing, Utf8.encode source, 80, false⟩
    let words := ["tokenize".toList, ['-'], "--hide-comments".toList]
    (∃ report, run env ("--json".toList :: words) = .ok report ∧ report.status = 0 ∧
      Token.ofDocument? report.output = some [⟨.identifier, ['s'], ⟨1, 1⟩⟩,
        ⟨.assign, ['='], ⟨1, 3⟩⟩, ⟨.string, ['"', '😀'], ⟨1, 5⟩⟩, ⟨.newline, ['\n'], ⟨1, 14⟩⟩,
        ⟨.eof, [], ⟨2, 1⟩⟩]) ∧
    ∃ report, run env words = .ok report ∧ report.status = 0 ∧
      report.output = lines [
        "LEXICAL ANALYSIS RESULT".toList,
        List.replicate 80 '─',
        "Kind         Lexeme   Line   Col".toList,
        List.replicate 32 '─',
        "IDENTIFIER   's'         1     1".toList,
        "ASSIGN       '='         1     3".toList,
        "STRING       '\"😀'       1     5".toList,
        "NEWLINE      '\\n'        1    14".toList,
        "EOF          ''          2     1".toList,
        List.replicate 80 '─',
        "Total Tokens: 6 (1 comment(s) hidden)".toList] := by
  intro source env words
  have hs : Supplies env ['-'] source := .standard rfl
  have hc : ∃ c ∈ source, Unicode.isWhiteSpace c = false := ⟨'s', by decide, by decide +kernel⟩
  have ht : scan source = .ok [⟨.identifier, ['s'], ⟨1, 1⟩⟩, ⟨.assign, ['='], ⟨1, 3⟩⟩,
      ⟨.string, ['"', '😀'], ⟨1, 5⟩⟩, ⟨.comment, " c".toList, ⟨1, 11⟩⟩,
      ⟨.newline, ['\n'], ⟨1, 14⟩⟩, ⟨.eof, [], ⟨2, 1⟩⟩] := by decide +kernel
  have hw : Request.positional ("--json".toList :: words) = ["tokenize".toList, ['-']] := by decide
  have hw' : Request.positional words = ["tokenize".toList, ['-']] := by decide
  obtain ⟨report, hrun, hstatus, hjson, -⟩ := run_shows_tokens (by decide) hw hs hc ht
  obtain ⟨report', hrun', hstatus', -, hlisting⟩ := run_shows_tokens (by decide) hw' hs hc ht
  refine ⟨⟨report, hrun, hstatus, ?_⟩, report', hrun', hstatus', ?_⟩
  · rw [(hjson (by decide)).2.2]
    decide
  · rw [(hlisting (by decide)).2 rfl (by decide +kernel) (by decide +kernel)]
    decide +kernel

end Command
end Offside
