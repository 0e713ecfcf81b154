import Offside.Path
import Offside.Text.Quoted
import Offside.Text.Utf8

/-! Trees of files and directories, and where paths lead in them. -/
namespace Offside

structure SystemError where
  number : Nat
  text : Text
deriving DecidableEq

namespace SystemError

def permissionDenied : SystemError := ⟨13, "Permission denied".toList⟩

def isDirectory : SystemError := ⟨21, "Is a directory".toList⟩

def nameTooLong : SystemError := ⟨36, "File name too long".toList⟩

def message (e : SystemError) : Text :=
  "[Errno ".toList ++ Text.ofNat e.number ++ ']' :: ' ' :: e.text

def messageOn (e : SystemError) (path : Text) : Text :=
  e.message ++ ':' :: ' ' :: Quoted.quote path

end SystemError

/-- What a path leads to. Something may be there that cannot be opened, as a directory, or that is
opened and then not read; and the system may not even tell whether anything is there. -/
inductive Entry where
  | missing
  | file (octets : List UInt8)
  | unopenable (why : SystemError)
  | unreadable (why : SystemError)
  | unreachable (why : SystemError)
deriving DecidableEq

/-- Directories and files by the names that lead to them from the top. Of two files in one place
the first counts. What is locked may be neither read nor searched. -/
structure FileTree where
  directories : List (List Text)
  files : List (List Text × List UInt8)
  locked : List (List Text)
deriving DecidableEq

namespace FileTree

def empty : FileTree := ⟨[], [], []⟩

def place (names : List Text) : List Text :=
  names.foldl (fun here name => if name = ['.', '.'] then here.dropLast else here ++ [name]) []

/-- A directory comes with those on the way to it. -/
def addDirectory (t : FileTree) (names : List Text) : FileTree :=
  { t with
    directories :=
      (List.range (names.length + 1)).map (fun n => place (names.take n)) ++ t.directories }

def addFile (t : FileTree) (names : List Text) (octets : List UInt8) : FileTree :=
  let t := t.addDirectory names.dropLast
  { t with files := (place names, octets) :: t.files }

def lock (t : FileTree) (names : List Text) : FileTree :=
  { t with locked := place names :: t.locked }

/-- The octets of the longest name and of the longest path. -/
def maxName : Nat := 255

def maxPath : Nat := 4095

/-- Follow names from a directory. Above the top are directories alone, with nothing else in them
that has a name. -/
def find (t : FileTree) (here : List Text) : List Text → Entry
  | [] => .unopenable (if here ∈ t.locked then .permissionDenied else .isDirectory)
  | name :: names =>
    let there := here ++ [name]
    if here ∈ t.locked then .unreachable .permissionDenied
    else if name = ['.', '.'] then
      if here = [] then find empty [] names else find t here.dropLast names
    else if maxName < (Utf8.encode name).length then .unreachable .nameTooLong
    else if there ∈ t.directories then find t there names
    else match names, t.files.lookup there with
      | [], some octets =>
        if there ∈ t.locked then .unopenable .permissionDenied else .file octets
      | _, _ => .missing

def entry (t : FileTree) (path : Text) : Entry :=
  if maxPath < (Utf8.encode path).length then .unreachable .nameTooLong
  else if (Path.root path).isEmpty then t.find [] (Path.names path)
  else empty.find [] (Path.names path)

end FileTree
end Offside
