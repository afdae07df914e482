import ComplexReckoner.Expression
import ComplexReckoner.Resolution

/-! # Evaluation

A scope is reduced to one value in three steps: its groups, each on its own; then every product,
from left to right; then every sum, from left to right. Nothing is assumed of the two operations, so
the order in which they are applied is part of the meaning.

* `contract` carries out one operation, which has to stand between two values,
* `Expression.evaluate` reduces an expression,
* `evaluate` evaluates a text in an environment. -/

namespace ComplexReckoner

variable {α : Type}

/-! ## One operation -/

/-- Carries out the operation `target` along terms. The terms that have been passed are `passed`,
last first: an operation takes the value on top and the value that comes next, and `remaining` is
told when one of them is missing. -/
def contractFrom (target : Operator) (combine : α → α → α) (remaining : Nat) :
    List (Term α) → List (Term α) → Except Fault (List (Term α))
  | passed, [] => .ok passed.reverse
  | passed, .value value :: rest =>
      contractFrom target combine remaining (.value value :: passed) rest
  | passed, .operator operator :: rest =>
      if operator = target then
        match passed, rest with
        | .value left :: passed, .value right :: rest =>
            contractFrom target combine remaining (.value (combine left right) :: passed) rest
        | _, _ => .error (.irreducible remaining)
      else contractFrom target combine remaining (.operator operator :: passed) rest

/-- Carries out the operation `target` from left to right. -/
def contract (target : Operator) (combine : α → α → α) (terms : List (Term α)) :
    Except Fault (List (Term α)) :=
  contractFrom target combine terms.length [] terms

/-! ## Expressions -/

namespace Expression

variable [Add α] [Mul α]

/-- Reduces the terms of a scope without groups: products first, then sums. -/
def settle (terms : List (Term α)) : Except Fault α := do
  let sums ← contract .star (· * ·) terms
  match ← contract .plus (· + ·) sums with
  | [.value value] => .ok value
  | remaining => .error (.irreducible remaining.length)

/-- The terms of a scope with every group replaced by its value. -/
def settleGroups : Expression α → Except Fault (List (Term α))
  | .nil => .ok []
  | .leaf term rest => do
      return term :: (← settleGroups rest)
  | .group _ inner rest => do
      let value ← settle (← settleGroups inner)
      return .value value :: (← settleGroups rest)

/-- The value of an expression. -/
def evaluate (expression : Expression α) : Except Fault α := do
  settle (← settleGroups expression)

end Expression

/-! ## Texts -/

/-- The meaning of tokens in an environment. -/
def Environment.interpretation (environment : Environment ComplexFloat) :
    Interpretation ComplexFloat where
  minusOne := .minusOne
  term := environment.resolve

/-- Writes an expression of complex numbers. -/
def Expression.render (expression : Expression ComplexFloat) : Text :=
  expression.renderWith ComplexFloat.render

/-- The value of a text in an environment. Blanks do not count. -/
def evaluate (environment : Environment ComplexFloat) (limits : Limits) (text : Text) :
    Except Fault ComplexFloat := do
  (← Expression.parse environment.interpretation limits text.compact).evaluate

end ComplexReckoner
