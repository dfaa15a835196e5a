/-
Module: CLike.Scope
Layer: Lexemes
Purpose: Finding the end of the first scope in a list of items, whatever the items are.
Main exports: ScopeError, ScopeError.message, scopeEnd, scopeEndFrom
-/

namespace CLike

/-- Why a list of items holds no complete first scope. -/
inductive ScopeError where
  | unclosed
  | unopened
deriving Repr, DecidableEq

namespace ScopeError

/-- The wording of an error. -/
def message : ScopeError → String
  | unclosed => "Expected scope close suffix"
  | unopened => "unexpected scope close suffix without a matching prefix"

end ScopeError

/-- The place of the item that closes the outermost of `depth` scopes that are already open.  An
item that is both delimiters at once opens. -/
def scopeEndFrom {α : Type u} [BEq α] (opening closing : α) :
    (depth : Nat) → List α → Except ScopeError Nat
  | _, [] => .error .unclosed
  | depth, item :: rest =>
    if item == opening then (scopeEndFrom opening closing (depth + 1) rest).map (· + 1)
    else if item == closing then
      match depth with
      | 0 => .error .unopened
      | 1 => .ok 0
      | outer + 2 => (scopeEndFrom opening closing (outer + 1) rest).map (· + 1)
    else (scopeEndFrom opening closing depth rest).map (· + 1)

/-- The place of the item that closes the first scope to be opened.  Scopes inside it are passed
over.  A closing item before any opening one is an error, whatever follows. -/
def scopeEnd {α : Type u} [BEq α] (opening closing : α) (items : List α) : Except ScopeError Nat :=
  scopeEndFrom opening closing 0 items

end CLike
