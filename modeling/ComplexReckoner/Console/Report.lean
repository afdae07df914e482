import ComplexReckoner.Session

/-! # Reports

What a command leaves behind: the text it wrote, and the failure that ended it, if any. The failure
decides the exit code. -/

namespace ComplexReckoner.Console

/-- The ways in which a command can fail. -/
inductive Failure where
  /-- The arguments make no sense. -/
  | usage
  /-- A file does not exist or is not UTF-8. -/
  | unreadableFile (path : Text)
  /-- A line of the input is not UTF-8. -/
  | unreadableInput
  /-- A definition is not an assignment. -/
  | notABinding (definition : Text)
  /-- A definition or an expression has no value. -/
  | rejected (fault : SessionFault)
  /-- A line of a script, counted from 1, has failed. -/
  | line (number : Nat) (fault : SessionFault)
  deriving DecidableEq, Repr

namespace Failure

/-- The exit code of a failure. -/
def exitCode : Failure → Nat
  | usage => 2
  | line .. => 65
  | unreadableFile _ | unreadableInput | notABinding _ | rejected _ => 1

/-- The sentence that tells a failure. -/
def message : Failure → Text
  | usage => "the arguments are not understood; try `--help`".toList
  | unreadableFile path => "reading `".toList ++ path ++ "` failed".toList
  | unreadableInput => "reading from stdin failed".toList
  | notABinding definition => '`' :: (definition ++ "` does not bind a name".toList)
  | rejected fault => fault.message
  | line number fault =>
      "[line ".toList ++ Nat.toDigits 10 number ++ "] Error: ".toList ++ fault.message

end Failure

/-- What a command leaves behind. -/
structure Report where
  /-- The text it wrote. -/
  output : Text
  /-- The failure that ended it. -/
  failure? : Option Failure

namespace Report

/-- The exit code of a command. -/
def exitCode (report : Report) : Nat :=
  match report.failure? with
  | some failure => failure.exitCode
  | none => 0

/-- A command that writes a text and ends well. -/
def written (output : Text) : Report := ⟨output, none⟩

/-- A command that fails before it writes anything. -/
def failed (failure : Failure) : Report := ⟨[], some failure⟩

/-- Puts text before the text of a report. -/
def after (report : Report) (output : Text) : Report := ⟨output ++ report.output, report.failure?⟩

end Report

/-- A text as a line of output. -/
def asLine (text : Text) : Text := text ++ ['\n']

end ComplexReckoner.Console
