import Offside.Text.Basic

/-! Paths with slashes. -/
namespace Offside.Path

/-- Two leading slashes, but not more, are told apart from one. -/
def root (path : Text) : Text :=
  match path.takeWhile (· == '/') with
  | [] => []
  | ['/', '/'] => ['/', '/']
  | _ => ['/']

/-- The names along the path; empty ones and single dots lead nowhere. -/
def names (path : Text) : List Text := (Text.fields '/' path).filter (· ∉ [[], ['.']])

/-- Repeated and trailing slashes and single dots are left out; the empty path is a dot. -/
def normalize (path : Text) : Text :=
  match root path ++ ['/'].intercalate (names path) with
  | [] => ['.']
  | shown => shown

end Offside.Path
