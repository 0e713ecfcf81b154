import Offside.Position

/-! Reading a source from front to back. -/
namespace Offside

structure Cursor where
  rest : Text
  offset : Nat
  place : Position
deriving DecidableEq

namespace Cursor

def start (source : Text) : Cursor := ⟨source, 0, .start⟩

def next (c : Cursor) : Cursor :=
  match c.rest with
  | [] => c
  | x :: rest => ⟨rest, c.offset + 1, c.place.after x rest⟩

def skip (c : Cursor) : Nat → Cursor
  | 0 => c
  | n + 1 => c.next.skip n

theorem skip_add (c : Cursor) (m n : Nat) : c.skip (m + n) = (c.skip m).skip n := by
  induction m generalizing c with
  | zero => rw [Nat.zero_add]; rfl
  | succ m ih => rw [Nat.add_right_comm]; exact ih c.next

@[simp] theorem rest_next (c : Cursor) : c.next.rest = c.rest.tail := by
  unfold next; split <;> simp_all

@[simp] theorem rest_skip (c : Cursor) (n : Nat) : (c.skip n).rest = c.rest.drop n := by
  induction n generalizing c with
  | zero => rfl
  | succ n ih => simp [skip, ih]

end Cursor
end Offside
