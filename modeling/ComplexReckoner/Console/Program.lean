import ComplexReckoner.Console.Dialogue
import ComplexReckoner.Console.Help
import ComplexReckoner.Console.Script
import ComplexReckoner.Listing

/-! # The program

The program as a function: from its arguments, the files it may read and its input to its report. -/

namespace ComplexReckoner.Console

/-- The name and the version of the program. -/
def versionText : Text := asLine "complex_calc 0.1.0".toList

/-- Makes definitions one after another. Each of them has to be an assignment. -/
def define (session : Session) : List Text → Except Failure Session
  | [] => .ok session
  | definition :: rest =>
      let step := session.execute definition
      match step.result with
      | .ok (.assigned ..) => define step.after rest
      | .ok _ => .error (.notABinding definition)
      | .error fault => .error (.rejected fault)

/-- The value of an expression after definitions, as a line. -/
def reportValue (limits : Limits) (expression : Text) (definitions : List Text) : Report :=
  match define { limits } definitions with
  | .error failure => .failed failure
  | .ok session =>
      match session.calculate expression.compact with
      | .ok value => .written (asLine value.render)
      | .error fault => .failed (.rejected fault)

/-- The tree of an expression after definitions, as a line. -/
def reportTree (limits : Limits) (expression : Text) (definitions : List Text) : Report :=
  match define { limits } definitions with
  | .error failure => .failed failure
  | .ok session =>
      let whole := expression.compact
      match Expression.parse session.environment.interpretation limits whole with
      | .ok tree => .written (asLine tree.render)
      | .error fault => .failed (.rejected (.evaluation whole fault))

/-- The tokens of an expression, one per line. -/
def reportTokens (limits : Limits) (expression : Text) : Report :=
  let whole := expression.compact
  match Listing.ofText limits whole with
  | .ok lines => .written (lines.flatMap asLine)
  | .error fault => .failed (.rejected (.evaluation whole fault))

/-- Runs a file of bytes that has been read from a path, if there is one. -/
def reportScript (limits : Limits) (path : Text) (file? : Option (List UInt8)) : Report :=
  match file?.bind Text.ofUtf8? with
  | some text => Script.run limits text
  | none => .failed (.unreadableFile path)

/-- What an invocation leaves behind, given the files by their paths and the input. -/
def Invocation.report (invocation : Invocation) (files : Text → Option (List UInt8))
    (input : List UInt8) : Report :=
  let limits := invocation.limits
  match invocation.command with
  | .version => .written versionText
  | .help topic => .written (Help.text topic)
  | .dialogue => Dialogue.run limits input
  | .script path => reportScript limits path (files path)
  | .value expression definitions => reportValue limits expression definitions
  | .tree expression definitions => reportTree limits expression definitions
  | .tokens expression => reportTokens limits expression

/-- What the program leaves behind. -/
def respond (arguments : List Text) (files : Text → Option (List UInt8)) (input : List UInt8) :
    Report :=
  match Invocation.read? arguments with
  | some invocation => invocation.report files input
  | none => .failed .usage

end ComplexReckoner.Console
