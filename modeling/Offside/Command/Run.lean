import Offside.Command.Report
import Offside.Command.Request
import Offside.Console.Listing
import Offside.FileTree
import Offside.Scan.Basic
import Offside.Token.Json

/-! The commands. -/
namespace Offside

structure Environment where
  entry : Text → Entry
  standardInput : List UInt8
  width : Nat
  terminal : Bool

namespace Command

inductive Obstacle where
  | notText (fault : Utf8.Fault)
  /-- The system does not tell whether there is a file. -/
  | unreachable (path : Text) (why : SystemError)
deriving DecidableEq

def Obstacle.message : Obstacle → Text
  | notText fault => fault.message
  | unreachable path why => why.messageOn path

def usage : Text := ['\n'].intercalate (List.map String.toList [
  "TimeScript command-line entry point.",
  "",
  "Usage:",
  "    timescript tokenize <file.ts | ->   Display the token stream",
  "",
  "Options:",
  "    --json            Print tokens as a JSON array",
  "    --no-color        Disable coloured output",
  "    --hide-comments   Leave COMMENT tokens out of the listing",
  "    -v, --verbose     Enable debug logging on stderr",
  "    -h, --help        Show this message",
  "    --version         Show the version"])

def version : Text := "timescript 0.1.0".toList

def blankMessage : Text := "Please enter some TimeScript code before running.".toList

def lines (ts : List Text) : Text := ts.flatMap (· ++ ['\n'])

def failure (ts : List Text) (events : List Event) : Report := ⟨1, lines ts, events⟩

def unreadable (path why : Text) : Report :=
  failure ["Error: cannot read ".toList ++ path ++ ':' :: ' ' :: why]
    [.reading path, .unreadable path]

/-- The text of a file, with its line breaks unified, or the report of why there is none. There is
no report where the system does not tell whether there is a file. -/
def readFile (env : Environment) (path : Text) : Except Obstacle (Except Report Text) :=
  match if '\x00' ∈ path then .missing else env.entry path with
  | .unreachable why => .error (.unreachable path why)
  | .missing => return .error (failure ["Error: file not found: ".toList ++ path] [])
  | .unopenable why => return .error (unreadable path (why.messageOn path))
  | .unreadable why => return .error (unreadable path why.message)
  | .file octets =>
    match Utf8.decode octets with
    | .ok text => return .ok (unifyBreaks text)
    | .error fault => return .error (unreadable path fault.message)

/-- The tokens of a JSON document, which leaves comments out on demand. -/
def selected (hideComments : Bool) (ts : List Token) : List Token :=
  ts.filter fun t => !(hideComments && t.kind == .comment)

/-- A source of white space alone is not scanned. -/
def tokenize (options : Options) (console : Console) (source : Text) : Report :=
  if source.all Unicode.isWhiteSpace then ⟨1, console.write (console.warning blankMessage), []⟩
  else match Scan.ofSource source with
    | .error stopped =>
      ⟨1, console.write (console.errorBlock "LEXICAL ERROR".toList stopped.fault.message),
        [.scanning source.length, .refused stopped.fault]⟩
    | .ok s =>
      let output :=
        if options.json then lines [Token.document (selected options.hideComments s.tokens)]
        else console.write ((Listing.ofTokens options.hideComments s.tokens).lines console)
      ⟨0, output, [.scanning source.length, .scanned s.tokens.length s.cursor.place.line]⟩

def run (env : Environment) (args : List Text) : Except Obstacle Report :=
  let options := Options.ofArgs args
  let console : Console := ⟨env.width, env.terminal, !options.noColor⟩
  match Request.ofArgs args with
  | .unknownOption option =>
    .ok (failure ["Error: unknown option '".toList ++ option ++ ['\x27'], usage] [])
  | .nothing => .ok (failure [usage] [])
  | .help => .ok ⟨0, lines [usage], []⟩
  | .version => .ok ⟨0, lines [version], []⟩
  | .unknownCommand command =>
    .ok (failure ["Error: unknown command '".toList ++ command ++ ['\x27'], usage] [])
  | .missingFile =>
    .ok (failure ["Error: command 'tokenize' requires a file argument".toList] [])
  | .tokenize .standard => do
    let source ← (Utf8.decode env.standardInput).mapError .notText
    return tokenize options console source
  | .tokenize (.file path) => do
    match ← readFile env path with
    | .error report => return report
    | .ok source =>
      let report := tokenize options console source
      return { report with events := .reading path :: report.events }

end Command
end Offside
