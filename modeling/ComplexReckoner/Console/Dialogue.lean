import ComplexReckoner.Console.Report
import ComplexReckoner.Text.Lines

/-! # Dialogues

A dialogue prompts for lines and answers each of them. A line that fails is no reason to stop. The
dialogue ends with a line that asks to leave, at the end of the input, or at a line that is not
valid UTF-8.

`turn` is all that a dialogue does with one reading. Whoever holds a dialogue, with a whole input at
once or with a line at a time, takes these turns and ends with the report of `closing`. -/

namespace ComplexReckoner.Console.Dialogue

/-- The first line of a dialogue. -/
def greeting : Text := asLine "Starting interface. Enter q to leave".toList

/-- What asks for a line. -/
def prompt : Text := ">> ".toList

/-- The answer to a line: its outcome on a line of its own, and nothing for a blank or a failure. -/
def answer (step : Step) : Text :=
  match step.result with
  | .ok .empty | .error _ => []
  | .ok outcome => asLine outcome.render

/-- Whether a line asked to leave. -/
def asksToLeave (step : Step) : Bool :=
  match step.result with
  | .ok .quit => true
  | _ => false

/-- What a dialogue makes of one reading. -/
inductive Turn where
  /-- A line was taken, and the next one is asked for. -/
  | stays (step : Step)
  /-- A line asked to leave. -/
  | leaves (step : Step)
  /-- A line could not be read. -/
  | unreadable

namespace Turn

/-- The turn of a line that was read. -/
def ofStep (step : Step) : Turn := if asksToLeave step then leaves step else stays step

/-- The step of the line, when there is one. -/
def step? : Turn → Option Step
  | stays step | leaves step => some step
  | unreadable => none

/-- What a turn writes: the answer to the line, and the prompt for the next one. -/
def output : Turn → Text
  | stays step => answer step ++ prompt
  | leaves step => answer step
  | unreadable => []

/-- What a turn tells beside its output: why the line failed. -/
def complaint (turn : Turn) : Text :=
  match turn.step?.map Step.result with
  | some (.error fault) => asLine fault.message
  | _ => []

end Turn

/-- Takes the turn of one reading. A line that is not valid UTF-8 is `none`. -/
def turn (session : Session) : Option Text → Turn
  | none => .unreadable
  | some line => .ofStep (session.execute line)

/-- The turns of a dialogue, from a prompt on. -/
def turns (session : Session) : List (Option Text) → List Turn
  | [] => []
  | reading :: rest =>
      match turn session reading with
      | .stays step => .stays step :: turns step.after rest
      | last => [last]

/-- What is left to report after the last turn. Where the input ends at a prompt, the line of that
prompt is ended. -/
def closing : Option Turn → Report
  | some (.leaves _) => .written []
  | some .unreadable => .failed .unreadableInput
  | some (.stays _) | none => .written (asLine [])

/-- Holds a dialogue with an input of bytes. -/
def run (limits : Limits) (input : List UInt8) : Report :=
  let taken := turns { limits } (Text.readingsOfBytes input)
  (closing taken.getLast?).after (greeting ++ prompt ++ taken.flatMap Turn.output)

end ComplexReckoner.Console.Dialogue
