import Offside.Path

/-! What the arguments of a command line ask for. -/
namespace Offside

/-- Flags may stand anywhere and any number of times. -/
structure Options where
  json : Bool
  noColor : Bool
  hideComments : Bool
  verbose : Bool
deriving DecidableEq

inductive Input where
  | standard
  | file (path : Text)
deriving DecidableEq

inductive Request where
  | unknownOption (option : Text)
  | nothing
  | help
  | version
  | unknownCommand (command : Text)
  | missingFile
  | tokenize (input : Input)
deriving DecidableEq

namespace Options

def flags : List Text := ["--json".toList, "--no-color".toList, "--hide-comments".toList,
  "-v".toList, "--verbose".toList]

def ofArgs (args : List Text) : Options where
  json := "--json".toList ∈ args
  noColor := "--no-color".toList ∈ args
  hideComments := "--hide-comments".toList ∈ args
  verbose := "-v".toList ∈ args ∨ "--verbose".toList ∈ args

end Options

namespace Input

/-- A dash is standard input; paths are normalized. -/
def ofArg (arg : Text) : Input :=
  if arg = ['-'] then standard else file (Path.normalize arg)

end Input

namespace Request

def helpWords : List Text := ["-h".toList, "--help".toList]

def versionWord : Text := "--version".toList

/-- Words with a dash that are not taken for options. -/
def standalone : List Text := ['-'] :: versionWord :: helpWords

def positional (args : List Text) : List Text := args.filter (· ∉ Options.flags)

def isUnknownOption (arg : Text) : Bool := arg.head? == some '-' && arg ∉ standalone

/-- An unknown option anywhere comes before all else; arguments behind the file are ignored. -/
def ofArgs (args : List Text) : Request :=
  let words := positional args
  match words.find? isUnknownOption with
  | some option => unknownOption option
  | none =>
    match words with
    | [] => nothing
    | command :: rest =>
      if command ∈ helpWords then help
      else if command = versionWord then version
      else if command = "tokenize".toList then
        match rest with
        | [] => missingFile
        | arg :: _ => tokenize (.ofArg arg)
      else unknownCommand command

end Request
end Offside
