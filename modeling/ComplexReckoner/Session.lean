import ComplexReckoner.Evaluation
import ComplexReckoner.Statement

/-! # Sessions

A session takes one line after another. Assignments change its environment, and nothing else does: a
line that fails leaves the session as it was. -/

namespace ComplexReckoner

/-- What a line did. -/
inductive Outcome where
  /-- It asked to leave. -/
  | quit
  /-- There was nothing to do. -/
  | empty
  /-- It bound a name to a value. -/
  | assigned (name : Text) (value : ComplexFloat)
  /-- It had a value. -/
  | value (value : ComplexFloat)

/-- Writes an outcome. -/
def Outcome.render : Outcome → Text
  | .quit => "exit".toList
  | .empty => []
  | .assigned name z => name ++ " = ".toList ++ z.render
  | .value z => z.render

/-- The bindings made so far, and the limits that every evaluation keeps. -/
structure Session where
  /-- The bindings. -/
  environment : Environment ComplexFloat := ∅
  /-- The limits. -/
  limits : Limits := {}

/-- The result of a line and the session after it. -/
structure Step where
  /-- What the line did, or why it failed. -/
  result : Except SessionFault Outcome
  /-- The session after the line. -/
  after : Session

namespace Session

/-- The value of a compacted expression. -/
def calculate (session : Session) (whole : Text) : Except SessionFault ComplexFloat :=
  (evaluate session.environment session.limits whole).mapError (.evaluation whole)

/-- Binds a name. -/
def bind (session : Session) (name : Text) (value : ComplexFloat) : Session :=
  { session with environment := session.environment.bind name value }

/-- Carries out a statement. -/
def perform (session : Session) : Statement → Step
  | .quit => ⟨.ok .quit, session⟩
  | .blank => ⟨.ok .empty, session⟩
  | .expression whole => ⟨(session.calculate whole).map .value, session⟩
  | .assignment name whole =>
      match session.calculate whole with
      | .ok value => ⟨.ok (.assigned name value), session.bind name value⟩
      | .error fault => ⟨.error fault, session⟩

/-- Takes one line. -/
def execute (session : Session) (line : Text) : Step :=
  match Statement.read line with
  | .ok statement => session.perform statement
  | .error fault => ⟨.error fault, session⟩

/-- Takes lines one after another, whatever each of them does. -/
def trace (session : Session) : List Text → List Step
  | [] => []
  | line :: rest =>
      let step := session.execute line
      step :: trace step.after rest

/-- The limits never change. -/
@[simp] theorem limits_execute (session : Session) (line : Text) :
    (session.execute line).after.limits = session.limits := by
  unfold execute
  split
  · next statement _ =>
    cases statement <;> simp only [perform]
    split <;> rfl
  · rfl

end Session

end ComplexReckoner
