/-!
# Values: what a leaf carries

A value is a text, or another value one level deeper. Only the innermost text matters to a regex; the levels are kept so that
a value is written as it was read.
-/

namespace RegexTree

/-- The value of a leaf. -/
inductive Value where
  | literal (text : String)
  | nested (inner : Value)
  deriving DecidableEq

namespace Value

/-- The empty text. -/
instance : Inhabited Value := ⟨literal ""⟩

/-- The innermost text. -/
def resolve : Value → String
  | literal text => text
  | nested inner => inner.resolve

/-- The innermost text is empty. -/
def isEmpty (v : Value) : Bool := v.resolve.isEmpty

/-- The levels around the innermost text. -/
def nesting : Value → Nat
  | literal _ => 0
  | nested inner => inner.nesting + 1

/-- The value inside `n` more levels. -/
def wrap : Nat → Value → Value
  | 0, v => v
  | n + 1, v => nested (wrap n v)

/-- Levels leave the innermost text as it is. -/
@[simp] theorem resolve_wrap (n : Nat) (v : Value) : (wrap n v).resolve = v.resolve := by
  induction n with
  | zero => rfl
  | succ n ih => exact ih

/-- Levels around a value add up. -/
@[simp] theorem nesting_wrap (n : Nat) (v : Value) : (wrap n v).nesting = v.nesting + n := by
  induction n with
  | zero => rfl
  | succ n ih => rw [wrap, nesting, ih, Nat.add_assoc]

end Value

end RegexTree
