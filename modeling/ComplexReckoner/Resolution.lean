import ComplexReckoner.ComplexFloat
import ComplexReckoner.Decimal.Numeral
import ComplexReckoner.Environment
import ComplexReckoner.Text.Alphabetic

/-! # Resolution of terms

A term is a number or a name. Numbers are written with digits, points and the imaginary unit `i`,
and names with alphabetic characters. Numbers come first: a term that could be either is a number,
so `i` is always the imaginary unit, whatever is bound to that name.

* `readNumber` reads `2`, `2.5`, `i` or `2.5i`,
* `Environment.resolve` finds the value of a term or blames the right part of it. -/

namespace ComplexReckoner

/-! ## Numbers -/

/-- Whether a character can stand in a number. -/
def isNumeric (c : Char) : Bool := c.isDigit || c == '.' || c == 'i'

/-- Reads a real number, or an imaginary one, which has one `i` at its end. -/
def readNumber (literal : Text) : Except LiteralFlaw ComplexFloat :=
  match Text.cut? 'i' literal with
  | none => (Numeral.read literal).map .ofReal
  | some ([], []) => .ok (.ofImaginary 1.0)
  | some (magnitude, []) => (Numeral.read magnitude).map .ofImaginary
  | some (_, _ :: _) => .error .misplacedUnit

/-! ## Terms -/

/-- The first character with a property in a text at an offset, and its own offset. -/
def Text.first? (property : Char → Bool) (offset : Nat) : Text → Option (Char × Nat)
  | [] => none
  | c :: rest =>
      if property c then some (c, offset) else first? property (offset + c.utf8Size) rest

/-- The fault of a character, at its own offset, that its term may not hold. -/
def symbolFault (term : Text) (symbol : Char) (offset : Nat) : Fault :=
  .invalidSymbol symbol term (.ofText offset [symbol])

namespace Environment

/-- The value of a name that stands at an offset. -/
def lookUp {α : Type} (environment : Environment α) (name : Text) (offset : Nat) : Except Fault α :=
  match environment.get? name with
  | some value => .ok value
  | none => .error (.undefinedVariable name (.ofText offset name))

/-- The value of a term that stands at an offset.

A term that is neither a number nor a name is blamed on its first character that no term can hold,
or, if there is none, on the first character that breaks the number. -/
def resolve (environment : Environment ComplexFloat) (term : Text) (offset : Nat) :
    Except Fault ComplexFloat :=
  match Text.first? (fun c => !isNumeric c) offset term with
  | none => (readNumber term).mapError fun flaw => .invalidLiteral term flaw (.ofText offset term)
  | some (breaking, breakingOffset) =>
      match Text.first? (fun c => !isNumeric c && !isAlphabetic c) offset term with
      | some (foreign, foreignOffset) => .error (symbolFault term foreign foreignOffset)
      | none =>
          if term.all isAlphabetic then environment.lookUp term offset
          else .error (symbolFault term breaking breakingOffset)

end Environment

end ComplexReckoner
