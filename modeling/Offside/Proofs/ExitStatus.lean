import Offside.Proofs.CommandLine
import Offside.Proofs.Refusals

/-! Which command lines are answered with status 0, and how all others end. -/
namespace Offside.Command

variable {env : Environment} {args args' : List Text} {input : Text}

/-- Words that ask for help or the version, or for the tokens of a source that has some and is not
white space alone. -/
inductive Answered (env : Environment) : List Text → Prop
  | told {word : Text} {more : List Text}
      (hw : word ∈ ["-h".toList, "--help".toList, "--version".toList]) :
      Answered env (word :: more)
  | tokens {arg source : Text} {tokens : List Token} {more : List Text}
      (hs : Supplies env arg source) (hc : ∃ c ∈ source, Unicode.isWhiteSpace c = false)
      (ht : scan source = .ok tokens) : Answered env ("tokenize".toList :: arg :: more)

/-- Words that ask for the tokens of a file of which the system does not tell whether it is there,
as by a path that is too long or leads through a locked directory. -/
inductive Unreachable (env : Environment) : List Text → Text → SystemError → Prop
  | file {arg : Text} {more : List Text} {why : SystemError}
      (hk : Request.Known ("tokenize".toList :: arg :: more)) (hd : arg ≠ ['-'])
      (hn : '\x00' ∉ Path.normalize arg) (he : env.entry (Path.normalize arg) = .unreachable why) :
      Unreachable env ("tokenize".toList :: arg :: more) (Path.normalize arg) why

theorem Unreachable.not_answered {words : List Text} {path : Text} {why : SystemError}
    (h : Unreachable env words path why) : ¬ Answered env words := by
  intro ha
  cases h with
  | file hk hd hn he =>
    cases ha with
    | told hw => exact absurd hw (by decide)
    | tokens hs =>
      cases hs with
      | standard => exact hd rfl
      | file _ _ hfile => cases he.symm.trans hfile

/-- Words that are refused, and what is printed then. -/
inductive Refused (env : Environment) (c : Console) : List Text → Text → Prop
  | unknownOption {before more : List Text} {option : Text} (hb : Request.Known before)
      (ho : ¬ Request.Known [option]) :
      Refused env c (before ++ option :: more)
        (lines ["Error: unknown option '".toList ++ option ++ ['\x27'], usage])
  | nothing : Refused env c [] (lines [usage])
  | unknownCommand {word : Text} {more : List Text} (hk : Request.Known (word :: more))
      (hw : word ∉ ["-h".toList, "--help".toList, "--version".toList])
      (ht : word ≠ "tokenize".toList) :
      Refused env c (word :: more)
        (lines ["Error: unknown command '".toList ++ word ++ ['\x27'], usage])
  | missingFile :
      Refused env c ["tokenize".toList]
        (lines ["Error: command 'tokenize' requires a file argument".toList])
  | notFound {arg : Text} {more : List Text}
      (hk : Request.Known ("tokenize".toList :: arg :: more)) (hd : arg ≠ ['-'])
      (hm : '\x00' ∈ Path.normalize arg ∨ env.entry (Path.normalize arg) = .missing) :
      Refused env c ("tokenize".toList :: arg :: more)
        (lines ["Error: file not found: ".toList ++ Path.normalize arg])
  | unread {arg why : Text} {more : List Text}
      (hk : Request.Known ("tokenize".toList :: arg :: more)) (hd : arg ≠ ['-'])
      (hn : '\x00' ∉ Path.normalize arg)
      (hu : Unread (Path.normalize arg) (env.entry (Path.normalize arg)) why) :
      Refused env c ("tokenize".toList :: arg :: more)
        (lines ["Error: cannot read ".toList ++ Path.normalize arg ++ ": ".toList ++ why])
  | blank {arg source : Text} {more : List Text}
      (hk : Request.Known ("tokenize".toList :: arg :: more)) (hs : Supplies env arg source)
      (hb : ∀ x ∈ source, Unicode.isWhiteSpace x = true) :
      Refused env c ("tokenize".toList :: arg :: more)
        (c.write (c.paragraph .warning ("⚠ ".toList ++ blankMessage)))
  | fault {arg source : Text} {more : List Text} {fault : Fault}
      (hk : Request.Known ("tokenize".toList :: arg :: more)) (hs : Supplies env arg source)
      (hc : ∃ x ∈ source, Unicode.isWhiteSpace x = false) (hf : scan source = .error fault) :
      Refused env c ("tokenize".toList :: arg :: more)
        (c.write (c.paragraph .error "LEXICAL ERROR:".toList ++
          c.paragraph .errorDetail fault.message))

theorem all_isWhiteSpace_eq_false_iff {source : Text} :
    source.all Unicode.isWhiteSpace = false ↔ ∃ x ∈ source, Unicode.isWhiteSpace x = false := by
  rw [List.all_eq_false]
  simp only [Bool.not_eq_true]

/-- All known words are answered, refused, or lead to where the system does not tell. -/
theorem outcome_cases (hi : env.standardInput = Utf8.encode input) (c : Console)
    (args : List Text) :
    (Request.Known (Request.positional args) ∧ Answered env (Request.positional args)) ∨
      (∃ output, Refused env c (Request.positional args) output) ∨
      ∃ path why, Unreachable env (Request.positional args) path why := by
  have hasks := Request.asks_ofArgs args
  generalize Request.ofArgs args = request at hasks
  generalize Request.positional args = words at hasks ⊢
  cases hasks with
  | unknownOption hb ho => exact .inr (.inl ⟨_, .unknownOption hb ho⟩)
  | nothing => exact .inr (.inl ⟨_, .nothing⟩)
  | help hk hw => exact .inl ⟨hk, .told (List.mem_append_left ["--version".toList] hw)⟩
  | version hk => exact .inl ⟨hk, .told (by decide)⟩
  | unknownCommand hk hw ht => exact .inr (.inl ⟨_, .unknownCommand hk hw ht⟩)
  | missingFile => exact .inr (.inl ⟨_, .missingFile⟩)
  | @tokenize arg more hk =>
    -- What the argument supplies, if anything, settles how the request for tokens ends.
    obtain ⟨source, hs⟩ | ⟨hd, hm⟩ | ⟨hd, hn, ⟨why, hu⟩ | ⟨why, he⟩⟩ := supplies_cases hi arg
    · cases hb : source.all Unicode.isWhiteSpace with
      | true => exact .inr (.inl ⟨_, .blank hk hs (List.all_eq_true.1 hb)⟩)
      | false =>
        have hc := all_isWhiteSpace_eq_false_iff.1 hb
        cases hscan : scan source with
        | ok tokens => exact .inl ⟨hk, .tokens hs hc hscan⟩
        | error fault => exact .inr (.inl ⟨_, .fault hk hs hc hscan⟩)
    · exact .inr (.inl ⟨_, .notFound hk hd hm⟩)
    · exact .inr (.inl ⟨_, .unread hk hd hn hu⟩)
    · exact .inr (.inr ⟨_, why, .file hk hd hn he⟩)

theorem run_of_answered (hk : Request.Known (Request.positional args))
    (h : Answered env (Request.positional args)) :
    ∃ report, run env args = .ok report ∧ report.status = 0 := by
  generalize hw : Request.positional args = words at h hk
  cases h with
  | told hword =>
    simp only [List.mem_cons, List.not_mem_nil, or_false] at hword
    rcases hword with rfl | rfl | rfl
    · unfold run
      rw [Request.ofArgs_of_asks hw (.help hk (by decide))]
      exact ⟨_, rfl, rfl⟩
    · unfold run
      rw [Request.ofArgs_of_asks hw (.help hk (by decide))]
      exact ⟨_, rfl, rfl⟩
    · unfold run
      rw [Request.ofArgs_of_asks hw (.version hk)]
      exact ⟨_, rfl, rfl⟩
  | tokens hs hc ht =>
    obtain ⟨report, hrun, hstatus, -⟩ :=
      run_of_supplies (Request.ofArgs_of_asks hw (.tokenize hk)) hs
    have hb := all_isWhiteSpace_eq_false_iff.2 hc
    exact ⟨report, hrun, hstatus.trans (tokenize_of_scan _ _ hb ht).1⟩

theorem run_of_unreachable {path : Text} {why : SystemError}
    (h : Unreachable env (Request.positional args) path why) :
    run env args = .error (.unreachable path why) := by
  generalize hw : Request.positional args = words at h
  cases h with
  | file hk hd hn he =>
    have hr := Request.ofArgs_of_asks hw (.tokenize hk)
    rw [ofArg_of_ne hd] at hr
    unfold run
    rw [hr]
    dsimp only
    rw [readFile_of_unreachable hn he]
    rfl

theorem run_of_refused {output : Text}
    (h : Refused env (console env args) (Request.positional args) output) :
    ∃ report, run env args = .ok report ∧ report.status = 1 ∧ report.output = output := by
  generalize hw : Request.positional args = words at h
  cases h with
  | unknownOption hb ho =>
    unfold run
    rw [Request.ofArgs_of_asks hw (.unknownOption hb ho)]
    exact ⟨_, rfl, rfl, rfl⟩
  | nothing =>
    unfold run
    rw [Request.ofArgs_of_asks hw .nothing]
    exact ⟨_, rfl, rfl, rfl⟩
  | unknownCommand hk hword ht =>
    unfold run
    rw [Request.ofArgs_of_asks hw (.unknownCommand hk hword ht)]
    exact ⟨_, rfl, rfl, rfl⟩
  | missingFile =>
    unfold run
    rw [Request.ofArgs_of_asks hw .missingFile]
    exact ⟨_, rfl, rfl, rfl⟩
  | notFound hk hd hm =>
    have hr := Request.ofArgs_of_asks hw (.tokenize hk)
    rw [ofArg_of_ne hd] at hr
    exact ⟨_, run_of_readFile hr (readFile_of_missing hm), rfl, rfl⟩
  | unread hk hd hn hu =>
    have hr := Request.ofArgs_of_asks hw (.tokenize hk)
    rw [ofArg_of_ne hd] at hr
    exact ⟨_, run_of_readFile hr (readFile_of_unread hn hu), rfl, by simp [unreadable, failure]⟩
  | blank hk hs hb =>
    obtain ⟨report, hrun, hstatus, houtput⟩ :=
      run_of_supplies (Request.ofArgs_of_asks hw (.tokenize hk)) hs
    rw [tokenize_of_blank _ _ (List.all_eq_true.2 hb)] at hstatus houtput
    exact ⟨report, hrun, hstatus, houtput⟩
  | fault hk hs hc hf =>
    obtain ⟨report, hrun, hstatus, houtput⟩ :=
      run_of_supplies (Request.ofArgs_of_asks hw (.tokenize hk)) hs
    obtain ⟨hone, hblock⟩ :=
      tokenize_of_fault (.ofArgs args) (console env args) (all_isWhiteSpace_eq_false_iff.2 hc) hf
    exact ⟨report, hrun, hstatus.trans hone, houtput.trans hblock⟩

theorem Refused.refusal {c : Console} {words : List Text} {output : Text}
    (h : Refused env c words output) : Refusal c output := by
  cases h with
  | nothing => exact refusal_of_message (.inr (by decide)) _
  | blank => exact refusal_warning c
  | fault => exact refusal_errorBlock c _
  | unknownOption | unknownCommand | missingFile | notFound | unread =>
    exact refusal_of_message (.inl rfl) _

/-- Nothing is printed only where there is a source, and a console without columns. -/
theorem Refused.eq_nil {c : Console} {words : List Text} (h : Refused env c words []) :
    c.width = 0 ∧ ∃ arg source more, words = "tokenize".toList :: arg :: more ∧
      Supplies env arg source := by
  have hwidth : c.width = 0 := by
    by_contra hne
    exact h.refusal.ne_nil hne rfl
  have hlines : ∀ t ts, lines (t :: ts) ≠ [] := by
    intro t ts
    simp [lines]
  generalize houtput : ([] : Text) = output at h
  cases h with
  | blank _ hs => exact ⟨hwidth, _, _, _, rfl, hs⟩
  | fault _ hs => exact ⟨hwidth, _, _, _, rfl, hs⟩
  | unknownOption | nothing | unknownCommand | missingFile | notFound | unread =>
    exact absurd houtput.symm (hlines _ _)

/-- Flags count only by whether they are there; those for the log do not change what is printed. -/
theorem run_congr (hp : Request.positional args' = Request.positional args)
    (hf : ∀ flag ∈ ["--json".toList, "--no-color".toList, "--hide-comments".toList],
      (flag ∈ args' ↔ flag ∈ args)) :
    run env args' = run env args := by
  have hrequest : Request.ofArgs args' = Request.ofArgs args := by
    unfold Request.ofArgs
    rw [hp]
  have hjson : (Options.ofArgs args').json = (Options.ofArgs args).json :=
    decide_eq_decide.2 (hf _ (by decide))
  have hcolor : (Options.ofArgs args').noColor = (Options.ofArgs args).noColor :=
    decide_eq_decide.2 (hf _ (by decide))
  have hcomments : (Options.ofArgs args').hideComments = (Options.ofArgs args).hideComments :=
    decide_eq_decide.2 (hf _ (by decide))
  have htokenize : tokenize (.ofArgs args') = tokenize (.ofArgs args) := by
    funext console source
    unfold tokenize
    rw [hjson, hcomments]
  unfold run
  dsimp only
  rw [hrequest, hcolor, htokenize]

def seen (env : Environment) (args : List Text) : Except Obstacle (Nat × Text × Text) :=
  (run env args).map fun report =>
    (report.status, report.output, report.log (Options.ofArgs args).verbose)

theorem seen_congr (hp : Request.positional args' = Request.positional args)
    (hf : ∀ flag ∈ Options.flags, (flag ∈ args' ↔ flag ∈ args)) :
    seen env args' = seen env args := by
  have hrun : run env args' = run env args :=
    run_congr hp fun flag hflag =>
      hf flag (List.mem_append_left ["-v".toList, "--verbose".toList] hflag)
  have hverbose : (Options.ofArgs args').verbose = (Options.ofArgs args).verbose :=
    decide_eq_decide.2 (or_congr (hf _ (by decide)) (hf _ (by decide)))
  unfold seen
  rw [hrun, hverbose]

/-- Status 0 is for words that are known and can be answered. All others end with status 1 and print
a refusal, which is neither a listing nor an array; only where the system does not tell whether
there is a file the run ends without a report. Neither the order of flags nor their number matters,
and those for the log do not change anything else. -/
theorem exit_status (args : List Text) (hi : env.standardInput = Utf8.encode input) :
    ((∃ report, run env args = .ok report ∧ report.status = 0) ↔
      Request.Known (Request.positional args) ∧ Answered env (Request.positional args)) ∧
    (¬ (Request.Known (Request.positional args) ∧ Answered env (Request.positional args)) →
      (∃ report, run env args = .ok report ∧ report.status = 1 ∧
        Refused env (console env args) (Request.positional args) report.output) ∨
      ∃ path why, Unreachable env (Request.positional args) path why ∧
        run env args = .error (.unreachable path why)) ∧
    (∀ output, Refused env (console env args) (Request.positional args) output →
      (∃ report, run env args = .ok report ∧ report.status = 1 ∧ report.output = output) ∧
        Refusal (console env args) output ∧
        (output = [] → (console env args).width = 0 ∧ ∃ arg source more,
          Request.positional args = "tokenize".toList :: arg :: more ∧ Supplies env arg source)) ∧
    ∀ args', Request.positional args' = Request.positional args →
      ((∀ flag ∈ ["--json".toList, "--no-color".toList, "--hide-comments".toList],
        (flag ∈ args' ↔ flag ∈ args)) → run env args' = run env args) ∧
      ((∀ flag ∈ Options.flags, (flag ∈ args' ↔ flag ∈ args)) →
        seen env args' = seen env args) := by
  -- Every run is in one of the three cases, and each case determines the run.
  have hcases := outcome_cases hi (console env args) args
  refine ⟨?_, ?_, ?_, fun args' hp => ⟨run_congr hp, seen_congr hp⟩⟩
  · constructor
    · rintro ⟨report, hrun, hstatus⟩
      obtain hanswered | ⟨output, hrefused⟩ | ⟨path, why, hunreachable⟩ := hcases
      · exact hanswered
      · obtain ⟨report', hrun', hstatus', -⟩ := run_of_refused hrefused
        rw [hrun] at hrun'
        cases hrun'
        cases hstatus.symm.trans hstatus'
      · cases hrun.symm.trans (run_of_unreachable hunreachable)
    · rintro ⟨hk, hanswered⟩
      exact run_of_answered hk hanswered
  · intro hno
    obtain hanswered | ⟨output, hrefused⟩ | ⟨path, why, hunreachable⟩ := hcases
    · exact absurd hanswered hno
    · obtain ⟨report, hrun, hstatus, rfl⟩ := run_of_refused hrefused
      exact .inl ⟨report, hrun, hstatus, hrefused⟩
    · exact .inr ⟨path, why, hunreachable, run_of_unreachable hunreachable⟩
  · intro output hrefused
    refine ⟨run_of_refused hrefused, hrefused.refusal, ?_⟩
    rintro rfl
    exact hrefused.eq_nil

/-- A file in a directory, flags in another order and once more, a file that is missing and one
that is locked. -/
theorem exit_status_of_file :
    let tree := FileTree.empty.addFile ["d".toList, "a.ts".toList] (Utf8.encode "x\r\n".toList)
    let env : Environment := ⟨((tree.addFile ["c.ts".toList] []).lock ["c.ts".toList]).entry,
      Utf8.encode "y".toList, 80, false⟩
    let args := ["tokenize".toList, "d//a.ts".toList, "--json".toList]
    (∃ report, run env args = .ok report ∧ report.status = 0) ∧
      run env ["--json".toList, "-v".toList, "tokenize".toList, "--json".toList,
        "d//a.ts".toList] = run env args ∧
      (∃ report, run env ["tokenize".toList, "b.ts".toList] = .ok report ∧ report.status = 1 ∧
        report.output = "Error: file not found: b.ts\n".toList) ∧
      ∃ report, run env ["tokenize".toList, "c.ts".toList] = .ok report ∧ report.status = 1 ∧
        report.output =
          "Error: cannot read c.ts: [Errno 13] Permission denied: 'c.ts'\n".toList := by
  intro tree env args
  have hi : env.standardInput = Utf8.encode "y".toList := rfl
  obtain ⟨hanswer, -, -, hflags⟩ := exit_status args hi
  obtain ⟨-, -, hmissing, -⟩ := exit_status ["tokenize".toList, "b.ts".toList] hi
  obtain ⟨-, -, hlocked, -⟩ := exit_status ["tokenize".toList, "c.ts".toList] hi
  have hwords : Request.positional args = ["tokenize".toList, "d//a.ts".toList] := by decide
  have he : env.entry (Path.normalize "d//a.ts".toList) = .file (Utf8.encode "x\r\n".toList) := by
    decide +kernel
  have hscan : scan "x\n".toList = .ok [⟨.identifier, ['x'], ⟨1, 1⟩⟩, ⟨.newline, ['\n'], ⟨1, 2⟩⟩,
      ⟨.eof, [], ⟨2, 1⟩⟩] := by decide +kernel
  refine ⟨hanswer.2 ⟨by decide, ?_⟩, (hflags _ (by decide)).1 (by decide), ?_, ?_⟩
  · rw [hwords]
    exact .tokens (.file (by decide) (by decide) he) ⟨'x', by decide, by decide +kernel⟩ hscan
  · have he' : env.entry (Path.normalize "b.ts".toList) = .missing := by decide +kernel
    exact (hmissing _ (.notFound (by decide) (by decide) (.inr he'))).1
  · have he' : env.entry (Path.normalize "c.ts".toList) = .unopenable .permissionDenied := by
      decide +kernel
    have hunread : Unread (Path.normalize "c.ts".toList)
        (env.entry (Path.normalize "c.ts".toList))
        (SystemError.permissionDenied.messageOn "c.ts".toList) := by
      rw [he']
      exact .unopenable
    exact (hlocked _ (.unread (by decide) (by decide) (by decide) hunread)).1

/-- A name of 256 octets, one more than the system allows, is neither read nor refused. -/
theorem run_of_long_name :
    let env : Environment := ⟨FileTree.empty.entry, [], 80, false⟩
    let args := ["tokenize".toList, List.replicate 256 'n']
    ¬ Answered env (Request.positional args) ∧
      run env args = .error (.unreachable (List.replicate 256 'n') .nameTooLong) := by
  intro env args
  have hwords : Request.positional args = args := by decide +kernel
  have he : env.entry (Path.normalize (List.replicate 256 'n')) = .unreachable .nameTooLong := by
    decide +kernel
  refine ⟨?_, by decide +kernel⟩
  rw [hwords]
  exact (Unreachable.file (by decide +kernel) (by decide) (by decide +kernel) he).not_answered

/-- A file in a locked directory. -/
example :
    ((FileTree.empty.addFile ["d".toList, "a.ts".toList] []).lock ["d".toList]).entry
      "d/a.ts".toList = .unreachable .permissionDenied := by
  decide +kernel

end Offside.Command
