import Offside.Console.Role
import Offside.Console.Wrap

/-! Styled lines on a console, as `rich` prints them in release 13.7.1. -/
namespace Offside

structure Segment where
  text : Text
  style : Style
deriving DecidableEq

abbrev Line := List Segment

namespace Line

def text (l : Line) : Text := l.flatMap (·.text)

def cut : Nat → Line → Line
  | _, [] => []
  | width, s :: l =>
    if Cells.count s.text < width then s :: cut (width - Cells.count s.text) l
    else [{ s with text := Cells.fit width s.text }]

def clip (width : Nat) (l : Line) : Line := if Cells.count l.text ≤ width then l else cut width l

end Line

/-- Only a terminal is sent codes, and only one with colours is sent those of colours. -/
structure Console where
  width : Nat
  terminal : Bool
  color : Bool
deriving DecidableEq

namespace Console

def codes (c : Console) (s : Style) : List Nat :=
  if c.terminal then (if c.color then s else s.withoutColor).codes else []

/-- The codes before a text set them all, the one behind it takes them all back. -/
def writeSegment (c : Console) (s : Segment) : Text :=
  match c.codes s.style with
  | [] => s.text
  | codes =>
    if s.text.isEmpty then []
    else "\x1b[".toList ++ [';'].intercalate (codes.map Text.ofNat) ++ 'm' :: s.text ++
      "\x1b[0m".toList

def writeLine (c : Console) (l : Line) : Text :=
  (l.clip c.width).flatMap c.writeSegment ++ ['\n']

/-- Nothing is printed where there is no room. -/
def write (c : Console) (ls : List Line) : Text :=
  if c.width = 0 then [] else ls.flatMap c.writeLine

/-- Bell, backspace, vertical tab, form feed and carriage return are not shown. -/
def isShown (c : Char) : Bool :=
  !(c.toNat == 0x07 || c.toNat == 0x08 || c.toNat == 0x0B || c.toNat == 0x0C || c.toNat == 0x0D)

/-- A line that is still too wide, as trailing wide space may leave it, is cut off. -/
def clip (width : Nat) (t : Text) : Text :=
  if Cells.count t ≤ width then t else Cells.fit width t

def paragraphLines (c : Console) (style : Style) (ends : List Nat) (position : Nat) :
    List Text → List Line
  | [] => []
  | line :: more =>
    let ends := ends.dropWhile (· ≤ position)
    let shown := clip c.width (Wrap.dropExcess c.width line)
    (Wrap.partAt ends position shown).map (⟨·, style⟩) ::
      paragraphLines c style ends (position + line.length) more

def paragraph (c : Console) (role : Role) (t : Text) : List Line :=
  (Text.fields '\n' (t.filter isShown)).flatMap fun line =>
    let (line, ends) := Cells.expandTabs 0 0 line
    c.paragraphLines role.style ends 0 (Wrap.lines .fold c.width line)

def horizontal (width : Nat) : Text := List.replicate width '─'

def rule (c : Console) : Line := [⟨horizontal c.width, Role.rule.style⟩]

def errorBlock (c : Console) (title message : Text) : List Line :=
  c.paragraph .error (title ++ [':']) ++ c.paragraph .errorDetail message

def warning (c : Console) (message : Text) : List Line :=
  c.paragraph .warning ('⚠' :: ' ' :: message)

end Console
end Offside
