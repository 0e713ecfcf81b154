import Offside.Text.Basic

/-! How text is shown: attributes and a colour. -/
namespace Offside

inductive Color where
  | red | green | yellow | magenta | cyan | white
  | brightBlack | brightRed | brightGreen | brightMagenta | brightCyan
deriving DecidableEq

namespace Color

def name : Color → String
  | red => "red" | green => "green" | yellow => "yellow" | magenta => "magenta"
  | cyan => "cyan" | white => "white" | brightBlack => "bright_black"
  | brightRed => "bright_red" | brightGreen => "bright_green"
  | brightMagenta => "bright_magenta" | brightCyan => "bright_cyan"

def code : Color → Nat
  | red => 31 | green => 32 | yellow => 33 | magenta => 35 | cyan => 36 | white => 37
  | brightBlack => 90 | brightRed => 91 | brightGreen => 92 | brightMagenta => 95
  | brightCyan => 96

end Color

structure Style where
  bold : Bool
  dim : Bool
  italic : Bool
  color : Option Color
deriving DecidableEq

namespace Style

def plain : Style := ⟨false, false, false, none⟩

def colored (c : Color) : Style := { plain with color := some c }

def emphasis : Style := { plain with bold := true }

def withoutColor (s : Style) : Style := { s with color := none }

def words (s : Style) : List Text :=
  (if s.bold then ["bold".toList] else []) ++ (if s.dim then ["dim".toList] else []) ++
    (if s.italic then ["italic".toList] else []) ++ s.color.toList.map (·.name.toList)

def describe (s : Style) : Text := [' '].intercalate s.words

def codes (s : Style) : List Nat :=
  (if s.bold then [1] else []) ++ (if s.dim then [2] else []) ++
    (if s.italic then [3] else []) ++ s.color.toList.map (·.code)

end Style
end Offside
