import Offside.Proofs.Grammar

/-! Writing a stream of tokens down. Every open level indents a line by one space, and between
the tokens of a line stands one space. -/
namespace Offside

def escape : Char → Text
  | '\n' => ['\\', 'n']
  | '\r' => ['\\', 'r']
  | '\t' => ['\\', 't']
  | '"' => ['\\', '"']
  | '\\' => ['\\', '\\']
  | c => [c]

def Kind.write : Kind → Text → Text
  | string, value => '"' :: value.flatMap escape ++ ['"']
  | comment, body => '#' :: body
  | _, lexeme => lexeme

namespace Grammar

/-- The text of the rest of a stream, given the open levels and whether a line begins. -/
def printFrom : Nat → Bool → List Form → Text
  | _, _, [] => []
  | level, lineStart, (kind, lexeme) :: forms => match kind with
    | .indent => printFrom (level + 1) lineStart forms
    | .dedent => printFrom (level - 1) lineStart forms
    | .newline => '\n' :: printFrom level true forms
    | .eof => printFrom level lineStart forms
    | kind => (if lineStart then List.replicate level ' ' else [' ']) ++
        (kind.write lexeme ++ printFrom level false forms)

def print (stream : List Form) : Text := printFrom 0 true stream

variable {level level' : Nat} {lineStart : Bool} {layout forms : List Form} {kind : Kind}
  {lexeme : Text}

theorem printFrom_content (h : Content kind lexeme) :
    printFrom level lineStart ((kind, lexeme) :: forms) =
      (if lineStart then List.replicate level ' ' else [' ']) ++
        (kind.write lexeme ++ printFrom level false forms) := by
  have hk : ∀ k : Kind, k.family? = some .structural → kind ≠ k := by
    intro k hs he
    exact h.not_structural (he ▸ hs)
  rw [printFrom]
  · exact hk .indent rfl
  · exact hk .dedent rfl
  · exact hk .newline rfl
  · exact hk .eof rfl

theorem printFrom_dedents (level k : Nat) (lineStart : Bool) (forms : List Form) :
    printFrom level lineStart (List.replicate k (.dedent, []) ++ forms) =
      printFrom (level - k) lineStart forms := by
  induction k generalizing level with
  | zero => rfl
  | succ k ih =>
    rw [List.replicate_succ, List.cons_append]
    show printFrom (level - 1) lineStart _ = _
    rw [ih, Nat.sub_sub, Nat.add_comm 1 k]

theorem printFrom_layout (h : Layout level layout level') (lineStart : Bool)
    (forms : List Form) :
    printFrom level lineStart (layout ++ forms) = printFrom level' lineStart forms := by
  cases h with
  | same => rfl
  | deeper => rfl
  | shallower => exact printFrom_dedents ..

theorem printFrom_end (level k : Nat) (lineStart : Bool) :
    printFrom level lineStart (List.replicate k (.dedent, []) ++ [(.eof, [])]) = [] := by
  rw [printFrom_dedents]
  rfl

theorem printFrom_line (hy : Layout level layout level') (hc : Content kind lexeme)
    (forms : List Form) :
    printFrom level true (layout ++ (kind, lexeme) :: forms) =
      List.replicate level' ' ' ++ (kind.write lexeme ++ printFrom level' false forms) := by
  rw [printFrom_layout hy, printFrom_content hc, if_pos rfl]

end Grammar
end Offside
