import Offside.Command.Run
import Offside.Proofs.LineBreaks
import Offside.Proofs.Utf8

/-! A program is tokenized alike from a file and from standard input, though only the line breaks
of files are unified. -/
namespace Offside

theorem all_isWhiteSpace_unifyBreaks (t : Text) :
    (unifyBreaks t).all Unicode.isWhiteSpace = t.all Unicode.isWhiteSpace := by
  have hfeed : Unicode.isWhiteSpace '\n' = true := by decide +kernel
  have hreturn : Unicode.isWhiteSpace '\r' = true := by decide +kernel
  fun_induction unifyBreaks t with
  | case1 => rfl
  | case2 rest ih => rw [List.all_cons, List.all_cons, List.all_cons, ih, hfeed, hreturn]; rfl
  | case3 c rest _ ih =>
    rw [List.all_cons, List.all_cons, ih]
    by_cases hc : c = '\r'
    · rw [if_pos hc, hc, hfeed, hreturn]
    · rw [if_neg hc]

namespace Command

variable {options : Options} {source path t : Text} {tokens : List Token}
  {fault : Fault} {env : Environment}

/-- Two reports of the same status, which if it is 0 print tokens of the same kinds and places. -/
def SameReport (r r' : Report) : Prop :=
  r.status = r'.status ∧
    (r.status = 0 → ∃ tokens tokens',
      r.output = lines [Token.document tokens] ∧ r'.output = lines [Token.document tokens'] ∧
        List.Forall₂ (fun a b => a.kind = b.kind ∧ a.place = b.place) tokens tokens')

theorem selected_false (tokens : List Token) : selected false tokens = tokens := by
  simp [selected]

theorem tokenize_of_blank (options : Options) (console : Console)
    (h : source.all Unicode.isWhiteSpace = true) :
    tokenize options console source = ⟨1, console.write (console.warning blankMessage), []⟩ := by
  unfold tokenize
  exact if_pos h

theorem tokenize_of_fault (options : Options) (console : Console)
    (hb : source.all Unicode.isWhiteSpace = false) (h : scan source = .error fault) :
    (tokenize options console source).status = 1 ∧
      (tokenize options console source).output =
        console.write (console.errorBlock "LEXICAL ERROR".toList fault.message) := by
  unfold tokenize
  unfold scan at h
  rw [if_neg (by simp [hb])]
  cases hs : Scan.ofSource source with
  | error stopped =>
    rw [hs] at h
    cases h
    exact ⟨rfl, rfl⟩
  | ok s =>
    rw [hs] at h
    cases h

theorem tokenize_of_scan (options : Options) (console : Console)
    (hb : source.all Unicode.isWhiteSpace = false) (h : scan source = .ok tokens) :
    (tokenize options console source).status = 0 ∧
      (tokenize options console source).output =
        if options.json then lines [Token.document (selected options.hideComments tokens)]
        else console.write ((Listing.ofTokens options.hideComments tokens).lines console) := by
  unfold tokenize
  unfold scan at h
  rw [if_neg (by simp [hb])]
  cases hs : Scan.ofSource source with
  | error stopped =>
    rw [hs] at h
    cases h
  | ok s =>
    rw [hs] at h
    cases h
    exact ⟨rfl, rfl⟩

theorem tokenize_of_tokens (console : Console)
    (hb : source.all Unicode.isWhiteSpace = false)
    (h : scan source = .ok tokens) (hj : options.json = true)
    (hc : options.hideComments = false) :
    (tokenize options console source).status = 0 ∧
      (tokenize options console source).output = lines [Token.document tokens] := by
  obtain ⟨hstatus, houtput⟩ := tokenize_of_scan options console hb h
  rw [if_pos hj, hc, selected_false] at houtput
  exact ⟨hstatus, houtput⟩

theorem tokenize_unifyBreaks (options : Options) (console : Console)
    (h : SameOutcome t (scan t) (scan (unifyBreaks t)))
    (hj : options.json = true) (hc : options.hideComments = false) :
    SameReport (tokenize options console t) (tokenize options console (unifyBreaks t)) := by
  have hall := all_isWhiteSpace_unifyBreaks t
  cases hb : t.all Unicode.isWhiteSpace with
  | true =>
    rw [hb] at hall
    rw [tokenize_of_blank options console hb, tokenize_of_blank options console hall]
    exact ⟨rfl, fun hs => by cases hs⟩
  | false =>
    rw [hb] at hall
    generalize hscan : scan t = outcome at h
    generalize hscan' : scan (unifyBreaks t) = outcome' at h
    cases h with
    | @tokens tokens tokens' htokens =>
      obtain ⟨hstatus, houtput⟩ := tokenize_of_tokens console hb hscan hj hc
      obtain ⟨hstatus', houtput'⟩ := tokenize_of_tokens console hall hscan' hj hc
      refine ⟨hstatus.trans hstatus'.symm, fun _ => ⟨tokens, tokens', houtput, houtput', ?_⟩⟩
      exact htokens.imp fun _ _ hu => ⟨hu.kind_eq.symm, hu.place_eq.symm⟩
    | fault f =>
      have hstatus := (tokenize_of_fault options console hb hscan).1
      have hstatus' := (tokenize_of_fault options console hall hscan').1
      refine ⟨hstatus.trans hstatus'.symm, fun hs => ?_⟩
      cases hstatus.symm.trans hs

theorem readFile_of_file (hn : '\x00' ∉ path) (he : env.entry path = .file (Utf8.encode t)) :
    readFile env path = .ok (.ok (unifyBreaks t)) := by
  unfold readFile
  rw [if_neg hn, he]
  dsimp only
  rw [Utf8.decode_encode]
  rfl

theorem run_of_file {args : List Text} (hr : Request.ofArgs args = .tokenize (.file path))
    (hn : '\x00' ∉ path) (he : env.entry path = .file (Utf8.encode t)) :
    ∃ report, run env args = .ok report ∧
      report.status = (tokenize (.ofArgs args)
        ⟨env.width, env.terminal, !(Options.ofArgs args).noColor⟩ (unifyBreaks t)).status ∧
      report.output = (tokenize (.ofArgs args)
        ⟨env.width, env.terminal, !(Options.ofArgs args).noColor⟩ (unifyBreaks t)).output := by
  unfold run
  rw [hr]
  dsimp only
  rw [readFile_of_file hn he]
  exact ⟨_, rfl, rfl, rfl⟩

theorem run_of_standard {args : List Text} (hr : Request.ofArgs args = .tokenize .standard)
    (hi : env.standardInput = Utf8.encode t) :
    run env args = .ok (tokenize (.ofArgs args)
      ⟨env.width, env.terminal, !(Options.ofArgs args).noColor⟩ t) := by
  unfold run
  rw [hr]
  dsimp only
  rw [hi, Utf8.decode_encode]
  rfl

def jsonArgs (input : Text) : List Text := ["tokenize".toList, input, "--json".toList]

theorem not_mem_flags {f : Text} (h : Request.ofArgs (jsonArgs f) = .tokenize (.file path)) :
    f ∉ Options.flags := by
  intro hf
  have hwords : Request.positional (jsonArgs f) = ["tokenize".toList] := by
    unfold Request.positional jsonArgs
    rw [List.filter_cons_of_pos (by decide), List.filter_cons_of_neg (by simpa using hf),
      List.filter_cons_of_neg (by decide), List.filter_nil]
  unfold Request.ofArgs at h
  rw [hwords] at h
  cases h

theorem options_jsonArgs {f : Text} (h : f ∉ Options.flags) :
    Options.ofArgs (jsonArgs f) = ⟨true, false, false, false⟩ := by
  simp only [Options.flags, List.mem_cons, List.not_mem_nil, or_false, not_or] at h
  obtain ⟨-, hcolor, hcomments, hv, hverbose⟩ := h
  have hnot : ∀ flag : Text, flag ≠ "tokenize".toList → f ≠ flag → flag ≠ "--json".toList →
      flag ∉ jsonArgs f := by
    intro flag ht hf hj
    simp only [jsonArgs, List.mem_cons, List.not_mem_nil, or_false, not_or]
    exact ⟨ht, hf.symm, hj⟩
  have hjson : "--json".toList ∈ jsonArgs f := by simp [jsonArgs]
  unfold Options.ofArgs
  simp only [Options.mk.injEq, decide_eq_true_eq, decide_eq_false_iff_not, not_or]
  exact ⟨hjson, hnot _ (by decide) hcolor (by decide), hnot _ (by decide) hcomments (by decide),
    hnot _ (by decide) hv (by decide), hnot _ (by decide) hverbose (by decide)⟩

theorem scan_of_ofSource {stopped : Halt} (h : Scan.ofSource source = .error stopped) :
    scan source = .error stopped.fault := by
  rw [scan, h]

theorem status_eq_one_of_fault (options : Options) (console : Console)
    (h : scan source = .error fault) : (tokenize options console source).status = 1 := by
  cases hb : source.all Unicode.isWhiteSpace with
  | true => rw [tokenize_of_blank options console hb]
  | false => exact (tokenize_of_fault options console hb h).1

/-- The reports differ where only line breaks that are unified let the scan go on to the end. -/
theorem sameReport_tokenize_iff {options : Options} (console : Console)
    (hj : options.json = true) (hc : options.hideComments = false) :
    SameReport (tokenize options console t) (tokenize options console (unifyBreaks t)) ↔
      ¬ ∃ stopped tokens, Scan.ofSource t = .error stopped ∧ stopped.SplitsBreak t ∧
        scan (unifyBreaks t) = .ok tokens := by
  constructor
  · rintro ⟨hsame, -⟩ ⟨stopped, tokens, hstop, hsplit, hscan⟩
    have hb : (unifyBreaks t).all Unicode.isWhiteSpace = false := by
      rw [all_isWhiteSpace_unifyBreaks, List.all_eq_false]
      have hbackslash : Unicode.isWhiteSpace '\\' = false := by decide +kernel
      exact ⟨'\\', (hsplit.infix_source hstop).subset (by simp), by simp [hbackslash]⟩
    have hone := status_eq_one_of_fault options console (scan_of_ofSource hstop)
    have hzero := (tokenize_of_tokens console hb hscan hj hc).1
    cases hone.symm.trans (hsame.trans hzero)
  · intro hno
    by_cases hs : ∀ stopped, Scan.ofSource t = .error stopped → ¬ stopped.SplitsBreak t
    · exact tokenize_unifyBreaks options console (sameOutcome_of_not_split hs) hj hc
    · simp only [not_forall, not_not] at hs
      obtain ⟨stopped, hstop, hsplit⟩ := hs
      have hone := status_eq_one_of_fault options console (scan_of_ofSource hstop)
      cases hscan : scan (unifyBreaks t) with
      | ok tokens => exact absurd ⟨stopped, tokens, hstop, hsplit, hscan⟩ hno
      | error fault =>
        have hone' := status_eq_one_of_fault options console hscan
        refine ⟨hone.trans hone'.symm, fun hzero => ?_⟩
        cases hone.symm.trans hzero

/-- A text in a file and on standard input gives the same status, and tokens of the same kinds at
the same places, unless it stops the scan of standard input in the middle of a line break and is
scanned to its end from the file. -/
theorem run_file_and_standard {f : Text} (hf : Request.ofArgs (jsonArgs f) = .tokenize (.file path))
    (hn : '\x00' ∉ path) (he : env.entry path = .file (Utf8.encode t))
    (hi : env.standardInput = Utf8.encode t) :
    ∃ standard file, run env (jsonArgs ['-']) = .ok standard ∧ run env (jsonArgs f) = .ok file ∧
      (SameReport standard file ↔
        ¬ ∃ stopped tokens, Scan.ofSource t = .error stopped ∧ stopped.SplitsBreak t ∧
          scan (unifyBreaks t) = .ok tokens) := by
  have hdash : Request.ofArgs (jsonArgs ['-']) = .tokenize .standard := by decide
  obtain ⟨file, hrun, hstatus, houtput⟩ := run_of_file hf hn he
  have hstandard := run_of_standard hdash hi
  rw [options_jsonArgs (not_mem_flags hf)] at hstatus houtput
  rw [options_jsonArgs (by decide)] at hstandard
  have hiff := @sameReport_tokenize_iff t ⟨true, false, false, false⟩
    ⟨env.width, env.terminal, true⟩ rfl rfl
  refine ⟨_, file, hstandard, hrun, ?_⟩
  rw [← hiff]
  unfold SameReport
  rw [hstatus, houtput]
  exact Iff.rfl

/-- Line breaks of all three forms, and one that is escaped. -/
theorem run_file_and_standard_of_mixed_forms :
    let t := "a\r\n\"\\\r\"\n".toList
    let env : Environment := ⟨fun _ => .file (Utf8.encode t), Utf8.encode t, 80, false⟩
    ∃ standard file, run env (jsonArgs ['-']) = .ok standard ∧
      run env (jsonArgs "a.ts".toList) = .ok file ∧ standard.status = 0 ∧
      SameReport standard file := by
  intro t env
  have hno : ¬ ['\\', '\r', '\n'] <:+: t := by decide +kernel
  have hf : Request.ofArgs (jsonArgs "a.ts".toList) = .tokenize (.file "a.ts".toList) := by
    decide +kernel
  have hok : (run env (jsonArgs ['-'])).map (·.status) = .ok 0 := by decide +kernel
  have he : env.entry "a.ts".toList = .file (Utf8.encode t) := rfl
  have hi : env.standardInput = Utf8.encode t := rfl
  obtain ⟨standard, file, hstandard, hfile, hsame⟩ := run_file_and_standard hf (by decide) he hi
  rw [hstandard] at hok
  refine ⟨standard, file, hstandard, hfile, Except.ok.inj hok, hsame.2 ?_⟩
  rintro ⟨stopped, tokens, hstop, hsplit, -⟩
  exact hno (hsplit.infix_source hstop)

/-- A literal with an escaped line break of two characters is tokenized from a file but refused
on standard input, where only the first of the two is taken as escaped. -/
theorem run_of_escaped_crlf :
    let t := "\"\\\r\n\"".toList
    let env : Environment := ⟨fun _ => .file (Utf8.encode t), Utf8.encode t, 80, false⟩
    (run env (jsonArgs "a.ts".toList)).map (·.status) = .ok 0 ∧
      (run env (jsonArgs ['-'])).map (·.status) = .ok 1 := by
  decide +kernel

end Command
end Offside
