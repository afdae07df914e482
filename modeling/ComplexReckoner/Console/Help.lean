import ComplexReckoner.Console.Invocation
import ComplexReckoner.Console.Report

/-! # Help

How the program and each of its commands are used: what they do, what stands on the command line,
and the commands, operands and options in columns. -/

namespace ComplexReckoner.Console.Help

/-- What a command does. -/
def summary : CommandName → String
  | .dialogue => "Interactive session; `name = expr` binds, `q` quits"
  | .script => "Runs every line of a file through one session"
  | .value => "Evaluates one expression"
  | .tree => "Prints the resolved expression tree"
  | .tokens => "Prints the tokens of every scope"

/-- A table of terms and their explanations, under a heading. The explanations begin two places
after the longest term. -/
def table (heading : String) (rows : List (String × String)) : List String :=
  let width := (rows.map fun row => row.1.length).foldl max 0
  "" :: (heading ++ ":") :: rows.map fun (term, explanation) =>
    "  " ++ term ++ String.ofList (List.replicate (width + 2 - term.length) ' ') ++ explanation

/-- The nesting limit. -/
def depthRow : String × String :=
  ("    --max-depth <MAX_DEPTH>", "Deepest parenthesis nesting accepted [default: 256]")

/-- The question for help. -/
def helpRow : String × String := ("-h, --help", "Print help")

/-- How the program is used. -/
def programLines : List String :=
  ["Evaluates arithmetic over complex numbers, e.g. `2*(3+i) - a`", "",
    "Usage: complex-calc [OPTIONS] <COMMAND>"] ++
  table "Commands" (CommandName.all.map (fun name => (name.spelling, summary name)) ++
    [("help", "Print this message or the help of the given subcommand(s)")]) ++
  table "Options" [depthRow, helpRow, ("-V, --version", "Print version")]

/-- The option for definitions. -/
def definitionRows : CommandName → List (String × String)
  | .value =>
      [("-D, --define <NAME=EXPR>", "Binding made before evaluating, e.g. `-D a=1+i`")]
  | .tree => [("-D, --define <NAME=EXPR>", "")]
  | .dialogue | .script | .tokens => []

/-- How a command is used. -/
def commandLines (name : CommandName) : List String :=
  let operands := name.operand?.toList.map fun operand => "<" ++ operand ++ ">"
  [summary name, "",
    " ".intercalate (["Usage: complex-calc", name.spelling, "[OPTIONS]"] ++ operands)] ++
  (if operands.isEmpty then [] else table "Arguments" (operands.map (·, ""))) ++
  table "Options" (definitionRows name ++ [depthRow, helpRow])

/-- How the program is used, or how one of its commands is. -/
def text (topic : Option CommandName) : Text :=
  let lines :=
    match topic with
    | none => programLines
    | some name => commandLines name
  lines.flatMap fun line => asLine line.toList

end ComplexReckoner.Console.Help
