import ComplexReckoner.Token

/-! # Expressions

An expression is the tree of a text whose terms have been resolved: in each scope, values and groups
alternate with operators.

The tokens of a text are assembled from the inside out. The groups of a scope are assembled first,
in reading order; then the shape of the scope is checked; then its terms are resolved, again in
reading order. So among several faults the one of the scope that closes first is reported.

The values are of any type: an `Interpretation` supplies the constant `-1` and the value of each
term.

* `shapeFault?` finds what is wrong with the shape of a scope,
* `Expression.parse` assembles the expression of a text,
* `Expression.renderWith` writes an expression with single spaces between its items. -/

namespace ComplexReckoner

/-- The operators. -/
inductive Operator where
  /-- The sum. -/
  | plus
  /-- The product. -/
  | star
  deriving DecidableEq, Repr

/-- A leaf of an expression. -/
inductive Term (α : Type) where
  /-- An operator. -/
  | operator (operator : Operator)
  /-- A value. -/
  | value (value : α)
  deriving DecidableEq, Repr

/-- The operators, values and groups of a scope. -/
abbrev Expression (α : Type) := Nested Unit (Term α)

/-- How far parentheses may nest. -/
structure Limits where
  /-- The largest number of groups around a term. -/
  maxDepth : Nat := 256
  deriving DecidableEq, Repr

/-- The meaning of tokens as values. -/
structure Interpretation (α : Type) where
  /-- The factor that a subtraction stands for. -/
  minusOne : α
  /-- The value of a term that stands at an offset. -/
  term : Text → Nat → Except Fault α

variable {α : Type}

/-- The leaf that a token stands for. -/
def Interpretation.token (interpretation : Interpretation α) (token : Token) :
    Except Fault (Term α) :=
  match token.kind with
  | .plus => .ok (.operator .plus)
  | .star => .ok (.operator .star)
  | .negativeOne => .ok (.value interpretation.minusOne)
  | .term => (interpretation.term token.literal token.offset).map .value

/-! ## The shape of a scope -/

/-- An item of a scope whose groups have been assembled. -/
inductive Slot (α : Type) where
  /-- A token. -/
  | token (token : Token)
  /-- A group. -/
  | group (expression : Expression α)

namespace Slot

/-- Whether an item is an operator. -/
def isOperator : Slot α → Bool
  | .token piece => piece.isOperator
  | .group _ => false

/-- Whether an item is an empty term. -/
def isVacant : Slot α → Bool
  | .token piece => piece.kind == .term && piece.literal.isEmpty
  | .group _ => false

/-- The stretch of text of a token. -/
def span? : Slot α → Option Span
  | .token piece => some piece.span
  | .group _ => none

end Slot

/-- What is wrong with two neighbours: they are both operators, which is blamed on the second, or
both are not, which is blamed on a token among them, the first if possible. Without a token the
whole scope is blamed. -/
def neighbourFault? (scope : Span) (before after : Slot α) : Option Fault :=
  match before.isOperator, after.isOperator with
  | true, true => some (.malformedExpression .consecutiveOperators (after.span?.getD scope))
  | false, false =>
      some (.malformedExpression .missingOperator ((before.span?.or after.span?).getD scope))
  | _, _ => none

/-- What is wrong with the leftmost neighbours that do not alternate. -/
def firstNeighbourFault? (scope : Span) : List (Slot α) → Option Fault
  | before :: after :: rest =>
      (neighbourFault? scope before after).or (firstNeighbourFault? scope (after :: rest))
  | _ => none

/-- What is wrong with an item at the edge of a scope: it is an operator. -/
def edgeFault? (shape : Shape) : Option (Slot α) → Option Fault
  | some (.token token) =>
      if token.isOperator then some (.malformedExpression shape token.span) else none
  | _ => none

/-- What is wrong with a scope that has no item, or an empty term. The term is blamed, but the whole
scope when nothing else is in it. -/
def vacancyFault? (scope : Span) : List (Slot α) → Option Fault
  | [] => some (.malformedExpression .emptyScope scope)
  | [slot] => if slot.isVacant then some (.malformedExpression .emptyScope scope) else none
  | slots =>
      (slots.find? Slot.isVacant).map fun slot =>
        .malformedExpression .emptyScope (slot.span?.getD scope)

/-- What is wrong with the shape of a scope. The scope is not empty, neither begins nor ends with an
operator, and alternates, and this is checked in that order. -/
def shapeFault? (scope : Span) (slots : List (Slot α)) : Option Fault :=
  (vacancyFault? scope slots).or
    ((edgeFault? .leadingOperator slots.head?).or
      ((edgeFault? .trailingOperator slots.getLast?).or (firstNeighbourFault? scope slots)))

/-! ## Assembly -/

namespace Interpretation

/-- Resolves the terms of a scope in reading order. -/
def resolveSlots (interpretation : Interpretation α) : List (Slot α) → Except Fault (Expression α)
  | [] => .ok .nil
  | .token token :: rest => do
      let term ← interpretation.token token
      return .leaf term (← interpretation.resolveSlots rest)
  | .group expression :: rest => do
      return .group () expression (← interpretation.resolveSlots rest)

/-- The expression of a scope whose groups have been assembled. -/
def closeScope (interpretation : Interpretation α) (scope : Span) (slots : List (Slot α)) :
    Except Fault (Expression α) :=
  match shapeFault? scope slots with
  | some fault => .error fault
  | none => interpretation.resolveSlots slots

/-- The items of a scope, with every group in it assembled. -/
def assembleGroups (interpretation : Interpretation α) :
    Nested Span Token → Except Fault (List (Slot α))
  | .nil => .ok []
  | .leaf token rest => do
      return .token token :: (← interpretation.assembleGroups rest)
  | .group span inner rest => do
      let slots ← interpretation.assembleGroups inner
      let expression ← interpretation.closeScope span slots
      return .group expression :: (← interpretation.assembleGroups rest)

/-- The expression of a scope. -/
def assemble (interpretation : Interpretation α) (scope : Span) (tokens : Nested Span Token) :
    Except Fault (Expression α) := do
  interpretation.closeScope scope (← interpretation.assembleGroups tokens)

end Interpretation

namespace Expression

/-- The expression of a text without blanks. -/
def parse (interpretation : Interpretation α) (limits : Limits) (text : Text) :
    Except Fault (Expression α) := do
  let segments ← decomposeWithin limits.maxDepth text
  interpretation.assemble (.ofText 0 text) segments.tokens

/-! ## Writing -/

/-- Writes a leaf: operators as their characters, values in brackets. -/
def renderTerm (write : α → Text) : Term α → Text
  | .operator .plus => ['+']
  | .operator .star => ['*']
  | .value value => '[' :: (write value ++ [']'])

/-- Writes the items of a scope, groups in parentheses. -/
def renderItems (write : α → Text) : Expression α → List Text
  | .nil => []
  | .leaf term rest => renderTerm write term :: renderItems write rest
  | .group _ inner rest =>
      ('(' :: (List.intercalate [' '] (renderItems write inner) ++ [')'])) :: renderItems write rest

/-- Writes an expression, given how to write its values. -/
def renderWith (write : α → Text) (expression : Expression α) : Text :=
  List.intercalate [' '] (renderItems write expression)

end Expression

end ComplexReckoner
