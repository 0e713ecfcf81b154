import Offside.Proofs.Inputs

/-! What the words of a command line ask for, and what comes of reading the input they name. -/
namespace Offside

namespace Request

variable {args words more : List Text} {word : Text}

def Known (words : List Text) : Prop :=
  ∀ word ∈ words, word.head? = some '-' →
    word ∈ [['-'], "--version".toList, "-h".toList, "--help".toList]

instance (words : List Text) : Decidable (Known words) :=
  inferInstanceAs (Decidable (∀ word ∈ words, word.head? = some '-' →
    word ∈ [['-'], "--version".toList, "-h".toList, "--help".toList]))

/-- What words without flags ask for. What stands behind the words that decide it is not read. -/
inductive Asks : List Text → Request → Prop
  | unknownOption {before more : List Text} {option : Text} (hb : Known before)
      (ho : ¬ Known [option]) : Asks (before ++ option :: more) (.unknownOption option)
  | nothing : Asks [] .nothing
  | help {word : Text} {more : List Text} (hk : Known (word :: more))
      (hw : word ∈ ["-h".toList, "--help".toList]) : Asks (word :: more) .help
  | version {more : List Text} (hk : Known ("--version".toList :: more)) :
      Asks ("--version".toList :: more) .version
  | unknownCommand {word : Text} {more : List Text} (hk : Known (word :: more))
      (hw : word ∉ ["-h".toList, "--help".toList, "--version".toList])
      (ht : word ≠ "tokenize".toList) : Asks (word :: more) (.unknownCommand word)
  | missingFile : Asks ["tokenize".toList] .missingFile
  | tokenize {arg : Text} {more : List Text} (hk : Known ("tokenize".toList :: arg :: more)) :
      Asks ("tokenize".toList :: arg :: more) (.tokenize (.ofArg arg))

theorem isUnknownOption_iff :
    isUnknownOption word = true ↔ word.head? = some '-' ∧
      word ∉ [['-'], "--version".toList, "-h".toList, "--help".toList] := by
  unfold isUnknownOption
  rw [Bool.and_eq_true, beq_iff_eq, decide_eq_true_eq]
  rfl

theorem find?_isUnknownOption_eq_none_iff :
    words.find? isUnknownOption = none ↔ Known words := by
  rw [List.find?_eq_none]
  unfold Known
  simp only [isUnknownOption_iff, not_and, not_not]

theorem isUnknownOption_iff_not_known : isUnknownOption word = true ↔ ¬ Known [word] := by
  rw [isUnknownOption_iff]
  unfold Known
  simp only [List.forall_mem_singleton, Classical.not_imp]

theorem asks_ofArgs (args : List Text) : Asks (positional args) (ofArgs args) := by
  unfold ofArgs
  dsimp only
  generalize positional args = words
  -- An unknown option is looked for first, wherever it stands; only then do the words count.
  cases hfind : words.find? isUnknownOption with
  | some option =>
    obtain ⟨hoption, before, more, rfl, hbefore⟩ := List.find?_eq_some_iff_append.1 hfind
    refine .unknownOption ?_ (isUnknownOption_iff_not_known.1 hoption)
    apply find?_isUnknownOption_eq_none_iff.1
    apply List.find?_eq_none.2
    intro word hword
    simpa using hbefore word hword
  | none =>
    have hk := find?_isUnknownOption_eq_none_iff.1 hfind
    dsimp only
    split
    · exact .nothing
    · split
      · exact .help hk ‹_›
      · split
        · rename_i heq
          subst heq
          exact .version hk
        · split
          · rename_i heq
            subst heq
            split
            · exact .missingFile
            · exact .tokenize hk
          · rename_i hhelp hversion htokenize
            refine .unknownCommand hk ?_ htokenize
            intro hw
            simp only [List.mem_cons, List.not_mem_nil, or_false] at hw
            rcases hw with rfl | rfl | rfl
            · exact hhelp (by decide)
            · exact hhelp (by decide)
            · exact hversion rfl

theorem ofArgs_of_asks {request : Request} (hp : positional args = words)
    (h : Asks words request) : ofArgs args = request := by
  unfold ofArgs
  rw [hp]
  dsimp only
  cases h with
  | unknownOption hb ho =>
    have hfind := find?_isUnknownOption_eq_none_iff.2 hb
    rw [List.find?_append, hfind, List.find?_cons_of_pos (isUnknownOption_iff_not_known.2 ho)]
    rfl
  | nothing => rfl
  | help hk hw =>
    rw [find?_isUnknownOption_eq_none_iff.2 hk]
    exact if_pos hw
  | version hk =>
    rw [find?_isUnknownOption_eq_none_iff.2 hk]
    rfl
  | @unknownCommand word _ hk hw ht =>
    have hhelp : word ∉ helpWords := fun h => hw (List.mem_append_left [versionWord] h)
    have hversion : word ≠ versionWord := fun h => hw (h ▸ by decide)
    rw [find?_isUnknownOption_eq_none_iff.2 hk]
    dsimp only
    rw [if_neg hhelp, if_neg hversion, if_neg ht]
  | missingFile => rfl
  | tokenize hk =>
    rw [find?_isUnknownOption_eq_none_iff.2 hk]
    rfl

theorem ofArgs_eq_tokenize {arg : Text} (hk : Known (positional args))
    (hw : positional args = "tokenize".toList :: arg :: more) :
    ofArgs args = .tokenize (.ofArg arg) := by
  rw [hw] at hk
  exact ofArgs_of_asks hw (.tokenize hk)

end Request

namespace Command

variable {env : Environment} {args : List Text} {arg source source' path why : Text}

/-- The source that an argument stands for: standard input as it is, or a file with its line breaks
unified. No file has a path with a NUL. -/
inductive Supplies (env : Environment) : Text → Text → Prop
  | standard {text : Text} (hi : env.standardInput = Utf8.encode text) : Supplies env ['-'] text
  | file {arg text : Text} (hd : arg ≠ ['-']) (hn : '\x00' ∉ Path.normalize arg)
      (he : env.entry (Path.normalize arg) = .file (Utf8.encode text)) :
      Supplies env arg (unifyBreaks text)

def console (env : Environment) (args : List Text) : Console :=
  ⟨env.width, env.terminal, !(Options.ofArgs args).noColor⟩

theorem run_of_supplies (hr : Request.ofArgs args = .tokenize (.ofArg arg))
    (hs : Supplies env arg source) :
    ∃ report, run env args = .ok report ∧
      report.status = (tokenize (.ofArgs args) (console env args) source).status ∧
      report.output = (tokenize (.ofArgs args) (console env args) source).output := by
  cases hs with
  | standard hi => exact ⟨_, run_of_standard hr hi, rfl, rfl⟩
  | file hd hn he =>
    rw [Input.ofArg, if_neg hd] at hr
    exact run_of_file hr hn he

/-- What is said of a file that is there and has no text. -/
inductive Unread (path : Text) : Entry → Text → Prop
  | unopenable {why : SystemError} : Unread path (.unopenable why) (why.messageOn path)
  | unreadable {why : SystemError} : Unread path (.unreadable why) why.message
  | notText {octets : List UInt8} {fault : Utf8.Fault} (hd : Utf8.decode octets = .error fault) :
      Unread path (.file octets) fault.message

/-- An argument that supplies nothing is the path of a file that is not there, of one without a
text, or of one of which the system does not tell whether it is there. -/
theorem supplies_cases {input : Text} (hi : env.standardInput = Utf8.encode input) (arg : Text) :
    (∃ source, Supplies env arg source) ∨
      (arg ≠ ['-'] ∧ ('\x00' ∈ Path.normalize arg ∨ env.entry (Path.normalize arg) = .missing)) ∨
      (arg ≠ ['-'] ∧ '\x00' ∉ Path.normalize arg ∧
        ((∃ why, Unread (Path.normalize arg) (env.entry (Path.normalize arg)) why) ∨
          ∃ why, env.entry (Path.normalize arg) = .unreachable why)) := by
  by_cases hd : arg = ['-']
  · subst hd
    exact .inl ⟨input, .standard hi⟩
  by_cases hn : '\x00' ∈ Path.normalize arg
  · exact .inr (.inl ⟨hd, .inl hn⟩)
  cases he : env.entry (Path.normalize arg) with
  | missing => exact .inr (.inl ⟨hd, .inr rfl⟩)
  | unopenable => exact .inr (.inr ⟨hd, hn, .inl ⟨_, .unopenable⟩⟩)
  | unreadable => exact .inr (.inr ⟨hd, hn, .inl ⟨_, .unreadable⟩⟩)
  | unreachable why => exact .inr (.inr ⟨hd, hn, .inr ⟨why, rfl⟩⟩)
  | file octets =>
    cases hdecode : Utf8.decode octets with
    | ok text =>
      rw [Utf8.decode_eq_ok_iff.1 hdecode] at he
      exact .inl ⟨unifyBreaks text, .file hd hn he⟩
    | error fault => exact .inr (.inr ⟨hd, hn, .inl ⟨_, .notText hdecode⟩⟩)

theorem readFile_of_missing (h : '\x00' ∈ path ∨ env.entry path = .missing) :
    readFile env path =
      .ok (.error (failure ["Error: file not found: ".toList ++ path] [])) := by
  have he : (if '\x00' ∈ path then Entry.missing else env.entry path) = .missing := by
    split
    · rfl
    · exact h.resolve_left ‹_›
  unfold readFile
  rw [he]
  rfl

theorem readFile_of_unread (hn : '\x00' ∉ path) (h : Unread path (env.entry path) why) :
    readFile env path = .ok (.error (unreadable path why)) := by
  unfold readFile
  rw [if_neg hn]
  generalize env.entry path = entry at h
  cases h with
  | unopenable => rfl
  | unreadable => rfl
  | notText hdecode =>
    dsimp only
    rw [hdecode]
    rfl

theorem readFile_of_unreachable {why : SystemError} (hn : '\x00' ∉ path)
    (h : env.entry path = .unreachable why) :
    readFile env path = .error (.unreachable path why) := by
  unfold readFile
  rw [if_neg hn, h]

theorem ofArg_of_ne (h : arg ≠ ['-']) : Input.ofArg arg = .file (Path.normalize arg) := if_neg h

theorem run_of_readFile {report : Report} (hr : Request.ofArgs args = .tokenize (.file path))
    (h : readFile env path = .ok (.error report)) : run env args = .ok report := by
  unfold run
  rw [hr]
  dsimp only
  rw [h]
  rfl

end Command
end Offside
