import ComplexReckoner.Span

/-! # Faults

Everything that can be wrong with an expression, as a cause with the data that explains it. The
wording lives here too: every fault has a message and a code, most have a label for the stretch of
text they point at, and some have a hint.

* `Shape` lists the ways a scope can be misshapen,
* `LiteralFlaw` lists the ways a number can be miswritten,
* `Fault` is any failure of evaluation. -/

namespace ComplexReckoner

/-- The ways in which the terms and operators of a scope can fail to alternate. -/
inductive Shape where
  /-- There is nothing between the parentheses, or nothing at all. -/
  | emptyScope
  /-- The first item is an operator. -/
  | leadingOperator
  /-- The last item is an operator. -/
  | trailingOperator
  /-- Two operators stand side by side. -/
  | consecutiveOperators
  /-- Two terms stand side by side. -/
  | missingOperator
  deriving DecidableEq, Repr

/-- The wording of a shape. -/
def Shape.message : Shape → Text
  | emptyScope => "empty expression".toList
  | leadingOperator => "expression starts with an operator".toList
  | trailingOperator => "expression ends with an operator".toList
  | consecutiveOperators => "two operators in a row".toList
  | missingOperator => "missing operator between two terms".toList

/-- The ways in which digits, points and imaginary units can fail to be a number. -/
inductive LiteralFlaw where
  /-- Something follows the first imaginary unit. -/
  | misplacedUnit
  /-- There are several decimal points. -/
  | repeatedPoint
  /-- There is no digit. -/
  | notANumber
  deriving DecidableEq, Repr

/-- The wording of a flaw. -/
def LiteralFlaw.message : LiteralFlaw → Text
  | misplacedUnit => "an imaginary literal takes one trailing `i`".toList
  | repeatedPoint => "more than one decimal point".toList
  | notANumber => "not a number".toList

/-- The failures of evaluation. Spans index into the compacted expression. -/
inductive Fault where
  /-- The parentheses of `fragment` do not match. -/
  | malformedParentheses (fragment : Text) (span : Span)
  /-- A term holds a character that no term may hold there. -/
  | invalidSymbol (symbol : Char) (term : Text) (span : Span)
  /-- A term made of the characters of numbers is none. -/
  | invalidLiteral (literal : Text) (flaw : LiteralFlaw) (span : Span)
  /-- A scope is misshapen. -/
  | malformedExpression (shape : Shape) (span : Span)
  /-- A name is not bound. -/
  | undefinedVariable (name : Text) (span : Span)
  /-- A group lies deeper than the limit. -/
  | nestingTooDeep (limit : Nat) (span : Span)
  /-- Several terms were left where one value should be. -/
  | irreducible (remaining : Nat)
  deriving DecidableEq, Repr

namespace Fault

/-- The stretch of text a fault points at. -/
def span? : Fault → Option Span
  | malformedParentheses _ span => some span
  | invalidSymbol _ _ span => some span
  | invalidLiteral _ _ span => some span
  | malformedExpression _ span => some span
  | undefinedVariable _ span => some span
  | nestingTooDeep _ span => some span
  | irreducible _ => none

/-- The sentence that tells a fault. -/
def message : Fault → Text
  | malformedParentheses fragment _ => "unbalanced parentheses in `".toList ++ fragment ++ ['`']
  | invalidSymbol symbol term _ =>
      "symbol '".toList ++ symbol :: "' is not accepted in `".toList ++ term ++ ['`']
  | invalidLiteral literal flaw _ =>
      "invalid literal `".toList ++ literal ++ "`: ".toList ++ flaw.message
  | malformedExpression shape _ => "malformed expression: ".toList ++ shape.message
  | undefinedVariable name _ => "undefined variable `".toList ++ name ++ ['`']
  | nestingTooDeep limit _ =>
      "parentheses nested deeper than ".toList ++ Nat.toDigits 10 limit ++ " levels".toList
  | irreducible remaining =>
      "could not reduce every term, ".toList ++ Nat.toDigits 10 remaining ++ " left".toList

/-- The stable code of a fault. -/
def code : Fault → String
  | malformedParentheses .. => "complex_calc::malformed_parentheses"
  | invalidSymbol .. => "complex_calc::invalid_symbol"
  | invalidLiteral .. => "complex_calc::invalid_literal"
  | malformedExpression .. => "complex_calc::malformed_expression"
  | undefinedVariable .. => "complex_calc::undefined_variable"
  | nestingTooDeep .. => "complex_calc::nesting_too_deep"
  | irreducible .. => "complex_calc::reduction"

/-- A hint on how to mend the input. -/
def help? : Fault → Option String
  | malformedParentheses .. => some "every `(` needs a matching `)` after it"
  | invalidSymbol .. =>
      some "terms are numbers like `2.5`, imaginaries like `3i`, or names made of letters"
  | undefinedVariable .. => some "assign it first with `name = expression`"
  | irreducible .. => some "this is a bug in the evaluator, not in the input"
  | invalidLiteral .. | malformedExpression .. | nestingTooDeep .. => none

/-- The words that stand beside the marked stretch of text. -/
def label? : Fault → Option String
  | malformedParentheses .. => some "unmatched parenthesis here"
  | invalidSymbol .. => some "this symbol"
  | invalidLiteral .. => some "this literal"
  | malformedExpression .. => some "here"
  | undefinedVariable .. => some "not defined"
  | nestingTooDeep .. => some "too deep"
  | irreducible .. => none

/-- The labelled stretches of text of a fault. -/
def labels (fault : Fault) : List (String × Span) :=
  match fault.label?, fault.span? with
  | some label, some span => [(label, span)]
  | _, _ => []

end Fault

end ComplexReckoner
