import ComplexReckoner.Console.Program

/-! # The command line

Connects the program to its arguments, its files and its streams. A dialogue is held line by line,
so that each answer appears before the next prompt; every other command is carried out at once. -/

namespace ComplexReckoner.Console

/-- Writes a text at once. -/
def emit (stream : IO.FS.Stream) (text : Text) : IO Unit := do
  stream.putStr (String.ofList text)
  stream.flush

/-- Reads the bytes of one line, with its line feed. At the end of the input there are none. -/
partial def readLine (input : IO.FS.Stream) (taken : Array UInt8) : IO (List UInt8) := do
  match (← input.read 1).toList with
  | [] => return taken.toList
  | byte :: _ =>
      let taken := taken.push byte
      if byte == 0x0A then return taken.toList else readLine input taken

/-- Holds a dialogue from a prompt on, and tells what is left to report after it. -/
partial def converse (input output errors : IO.FS.Stream) (session : Session) : IO Report := do
  let bytes ← readLine input #[]
  if bytes.isEmpty then return Dialogue.closing none
  let taken := Dialogue.turn session (Text.ofUtf8? bytes)
  emit errors taken.complaint
  emit output taken.output
  match taken with
  | .stays step => converse input output errors step.after
  | last => return Dialogue.closing (some last)

/-- Reads a file, if it exists. -/
def readFile? (path : Text) : IO (Option (List UInt8)) := do
  try
    return some (← IO.FS.readBinFile (String.ofList path)).toList
  catch _ =>
    return none

/-- Carries out an invocation. -/
def Invocation.carryOut (invocation : Invocation) (input output errors : IO.FS.Stream) :
    IO Report := do
  match invocation.command with
  | .dialogue =>
      emit output (Dialogue.greeting ++ Dialogue.prompt)
      converse input output errors { limits := invocation.limits }
  | .script path =>
      let file? ← readFile? path
      return invocation.report (fun _ => file?) []
  | _ => return invocation.report (fun _ => none) []

end ComplexReckoner.Console

open ComplexReckoner.Console in
/-- Runs the program. -/
def main (arguments : List String) : IO UInt32 := do
  let output ← IO.getStdout
  let errors ← IO.getStderr
  let report ←
    match Invocation.read? (arguments.map String.toList) with
    | some invocation => invocation.carryOut (← IO.getStdin) output errors
    | none => pure (.failed .usage)
  emit output report.output
  if let some failure := report.failure? then
    emit errors (asLine failure.message)
  return report.exitCode.toUInt32
