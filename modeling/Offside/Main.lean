import Offside.Command.Run

/-! The program: it finds what the request needs, runs the command and passes on its report. -/
namespace Offside.Program

def systemError : IO.Error → SystemError
  | .alreadyExists _ number text | .otherError number text | .resourceBusy number text
  | .resourceVanished number text | .unsupportedOperation number text | .hardwareFault number text
  | .unsatisfiedConstraints number text | .illegalOperation number text
  | .protocolError number text | .timeExpired number text | .interrupted _ number text
  | .noFileOrDirectory _ number text | .invalidArgument _ number text
  | .permissionDenied _ number text | .resourceExhausted _ number text
  | .inappropriateType _ number text | .noSuchThing _ number text =>
    ⟨number.toNat, text.toList⟩
  | .unexpectedEof => ⟨0, "Unexpected end".toList⟩
  | .userError text => ⟨0, text.toList⟩

/-- The errors that mean that nothing is there: no such name, a file on the way, a bad descriptor
and links that lead back to themselves. -/
def absent : List Nat := [2, 20, 9, 40]

def readEntry (handle : IO.FS.Handle) : IO Entry := do
  try
    return .file (← handle.readBinToEnd).toList
  catch e => return .unreadable (systemError e)

def findClosed (path : String) (why : SystemError) : IO Entry := do
  if why.number ∈ absent then return .missing
  try
    discard (IO.FS.realPath path)
    return .unopenable why
  catch _ => return .unreachable why

def findEntry (path : String) : IO Entry := do
  try
    let handle ← IO.FS.Handle.mk path .read
    -- A directory is opened like a file, but cannot be read.
    if ← (← IO.FS.realPath path).isDir then return .unopenable .isDirectory
    readEntry handle
  catch e => findClosed path (systemError e)

def findRequested (request : Request) : IO Entry := do
  match request with
  | .tokenize (.file path) => findEntry (String.ofList path)
  | _ => return .missing

def readStandardInput (request : Request) : IO (List UInt8) := do
  match request with
  | .tokenize .standard => return (← (← IO.getStdin).readBinToEnd).toList
  | _ => return []

/-- The width is taken from the variable `COLUMNS`, or else is 80: a terminal is not asked for its
own. -/
def consoleWidth : IO Nat := do
  return ((← IO.getEnv "COLUMNS").bind String.toNat?).getD 80

def start (args : List Text) : IO UInt32 := do
  let request := Request.ofArgs args
  let entry ← findRequested request
  let standardInput ← readStandardInput request
  let width ← consoleWidth
  let stdout ← IO.getStdout
  let stderr ← IO.getStderr
  let terminal ← stdout.isTty
  match Command.run ⟨fun _ => entry, standardInput, width, terminal⟩ args with
  | .ok report =>
    stdout.putStr (String.ofList report.output)
    stderr.putStr (String.ofList (report.log (Options.ofArgs args).verbose))
    return report.status.toUInt32
  | .error obstacle =>
    stderr.putStrLn (String.ofList obstacle.message)
    return 1

end Offside.Program

def main (args : List String) : IO UInt32 := Offside.Program.start (args.map String.toList)
