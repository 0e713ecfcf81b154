import Offside.Token.Kind

/-! Reserved words and symbols. -/
namespace Offside.Kind

/-- Reserved words in any other case are identifiers. -/
def words : List (Text × Kind) := [
  ("start".toList, kwStart), ("set".toList, kwSet), ("show".toList, kwShow),
  ("listen".toList, kwListen), ("if".toList, kwIf), ("else".toList, kwElse),
  ("loop".toList, kwLoop), ("tick".toList, kwTick), ("end".toList, kwEnd),
  ("hour".toList, tyHour), ("minute".toList, tyMinute), ("text".toList, tyText),
  ("flag".toList, tyFlag), ("True".toList, boolean), ("False".toList, boolean)]

/-- A symbol stands before those that it extends. -/
def symbols : List (Text × Kind) := [
  (['=', '='], eq), (['!', '='], neq), (['<', '='], le), (['>', '='], ge),
  (['+'], plus), (['-'], minus), (['*'], star), (['/'], slash),
  (['('], lparen), ([')'], rparen), ([','], comma), ([':'], colon),
  (['='], assign), (['<'], lt), (['>'], gt)]

def reserved? (word : Text) : Option Kind := words.lookup word

def ofWord (word : Text) : Kind := (reserved? word).getD identifier

def wordsOf (k : Kind) : List Text := (words.filter (·.2 = k)).map (·.1)

def symbolAt? (t : Text) : Option (Text × Kind) := symbols.find? (·.1.isPrefixOf t)

theorem symbols_ne_nil : ∀ s ∈ symbols, s.1 ≠ [] := by decide

theorem exists_of_symbolAt? {t lexeme : Text} {k : Kind} (h : symbolAt? t = some (lexeme, k)) :
    lexeme ≠ [] ∧ ∃ rest, t = lexeme ++ rest := by
  have hp := List.find?_some h
  obtain ⟨rest, hr⟩ := List.isPrefixOf_iff_prefix.1 hp
  exact ⟨symbols_ne_nil _ (List.mem_of_find?_eq_some h), rest, hr.symm⟩

end Offside.Kind
