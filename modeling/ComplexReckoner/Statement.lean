import ComplexReckoner.Fault
import ComplexReckoner.Text.Alphabetic

/-! # Statements

A line of a session asks for one of four things: to leave, for nothing, to bind a name to the value
of an expression, or for the value of an expression. `Statement.read` tells which. -/

namespace ComplexReckoner

/-- The ways in which a line can fail. -/
inductive SessionFault where
  /-- There are several `=` in the line, which is kept without the blanks at its ends. -/
  | chainedAssignment (line : Text)
  /-- What stands before the `=` is not a name. -/
  | invalidName (name : Text)
  /-- The compacted expression `whole` has no value. -/
  | evaluation (whole : Text) (fault : Fault)
  deriving DecidableEq, Repr

namespace SessionFault

/-- The sentence that tells a fault. -/
def message : SessionFault → Text
  | chainedAssignment line =>
      "an assignment takes exactly one `=`, got `".toList ++ line ++ ['`']
  | invalidName name => '`' :: (name ++ "` is not a valid name".toList)
  | evaluation _ fault => fault.message

/-- The stable code of a fault. -/
def code : SessionFault → String
  | chainedAssignment _ => "complex_calc::chained_assignment"
  | invalidName _ => "complex_calc::invalid_name"
  | evaluation _ fault => fault.code

/-- A hint on how to mend the line. -/
def help? : SessionFault → Option String
  | chainedAssignment _ => some "bind one name per line, e.g. `x = 1 + 2i`"
  | invalidName _ => some "names may only contain letters"
  | evaluation _ fault => fault.help?

end SessionFault

/-- What a line asks for. Expressions are compacted. -/
inductive Statement where
  /-- To leave the session. -/
  | quit
  /-- Nothing. -/
  | blank
  /-- To bind a name to the value of an expression. -/
  | assignment (name expression : Text)
  /-- For the value of an expression. -/
  | expression (expression : Text)
  deriving DecidableEq, Repr

/-- Whether a text can be bound to a value: it is not empty and has alphabetic characters only. -/
def isName (text : Text) : Bool := !text.isEmpty && text.all isAlphabetic

/-- Reads a line. Blanks count nowhere, not even within a name. -/
def Statement.read (line : Text) : Except SessionFault Statement :=
  let trimmed := line.trim
  if trimmed = ['q'] then .ok .quit
  else if trimmed.isEmpty then .ok .blank
  else
    match Text.cut? '=' trimmed with
    | none => .ok (.expression trimmed.compact)
    | some (before, after) =>
        if '=' ∈ after then .error (.chainedAssignment trimmed)
        else
          let name := Text.compact before
          if isName name then .ok (.assignment name (Text.compact after))
          else .error (.invalidName name)

end ComplexReckoner
