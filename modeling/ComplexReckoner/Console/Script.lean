import ComplexReckoner.Console.Report
import ComplexReckoner.Text.Lines

/-! # Scripts

A script is a text whose lines go through one session. Only values are written. The script ends with
its last line, with a line that asks to leave, or with the first line that fails. -/

namespace ComplexReckoner.Console.Script

/-- Whether a script goes no further than a step. -/
def isLast (step : Step) : Bool :=
  match step.result with
  | .ok .quit | .error _ => true
  | .ok _ => false

/-- The steps of a script, the last one included. -/
def steps (session : Session) : List Text → List Step
  | [] => []
  | line :: rest =>
      let step := session.execute line
      step :: if isLast step then [] else steps step.after rest

/-- What the steps of a script leave behind, when the first one is that of the line `number`. -/
def report (number : Nat) : List Step → Report
  | [] => .written []
  | step :: rest =>
      match step.result with
      | .error fault => .failed (.line number fault)
      | .ok (.value value) => (report (number + 1) rest).after (asLine value.render)
      | .ok _ => report (number + 1) rest

/-- Runs the lines of a text. -/
def run (limits : Limits) (text : Text) : Report :=
  report 1 (steps { limits } text.lines)

end ComplexReckoner.Console.Script
