import ComplexReckoner.Decimal.Numeral
import ComplexReckoner.Expression

/-! # Invocations

The arguments of the program name a command and its options. Options of the program may stand before
the command or among its arguments; a nesting limit given in both places is taken from the latter.
An argument that begins with `-` is an option, unless it is `-` itself or comes after `--`. -/

namespace ComplexReckoner.Console

/-! ## Commands -/

/-- The commands that have a name. -/
inductive CommandName where
  /-- `repl`, which holds a dialogue. -/
  | dialogue
  /-- `run`, which runs a file. -/
  | script
  /-- `eval`, which writes the value of an expression. -/
  | value
  /-- `parse`, which writes the tree of an expression. -/
  | tree
  /-- `tokenize`, which lists the tokens of an expression. -/
  | tokens
  deriving DecidableEq, Repr

namespace CommandName

/-- The commands in the order in which they are explained. -/
def all : List CommandName := [.dialogue, .script, .value, .tree, .tokens]

/-- The name of a command. -/
def spelling : CommandName → String
  | dialogue => "repl"
  | script => "run"
  | value => "eval"
  | tree => "parse"
  | tokens => "tokenize"

/-- The command of a name. -/
def ofText? (text : Text) : Option CommandName := all.find? fun name => name.spelling.toList = text

/-- Whether a command takes definitions. -/
def takesDefinitions : CommandName → Bool
  | value | tree => true
  | dialogue | script | tokens => false

/-- What a command is applied to: nothing, a file or an expression. -/
def operand? : CommandName → Option String
  | dialogue => none
  | script => some "FILENAME"
  | value | tree | tokens => some "EXPRESSION"

/-- Whether a command can be applied to a text. The name of a file is not empty. -/
def accepts (name : CommandName) (text : Text) : Bool := name != script || !text.isEmpty

end CommandName

/-- What the program is asked to do. -/
inductive Command where
  /-- To tell its version. -/
  | version
  /-- To tell how it is used, or how one of its commands is. -/
  | help (topic : Option CommandName)
  /-- To hold a dialogue. -/
  | dialogue
  /-- To run a file line by line. -/
  | script (path : Text)
  /-- To write the value of an expression, after some definitions. -/
  | value (expression : Text) (definitions : List Text)
  /-- To write the tree of an expression, after some definitions. -/
  | tree (expression : Text) (definitions : List Text)
  /-- To list the tokens of an expression. -/
  | tokens (expression : Text)
  deriving DecidableEq, Repr

/-- A command and the limits it keeps. -/
structure Invocation where
  /-- The command. -/
  command : Command
  /-- The limits. -/
  limits : Limits := {}
  deriving DecidableEq, Repr

/-! ## Single arguments -/

/-- The options. -/
inductive Flag where
  /-- `--max-depth`, which takes a number. -/
  | maxDepth
  /-- `-D` and `--define`, which take a definition. -/
  | define
  /-- `-V` and `--version`. -/
  | version
  /-- `-h` and `--help`. -/
  | help
  deriving DecidableEq, Repr

/-- An argument by its form. -/
inductive Argument where
  /-- An option, with the value that is attached to it. -/
  | flag (flag : Flag) (attached : Option Text)
  /-- The end of the options. -/
  | endOfFlags
  /-- Anything that is not an option. -/
  | word (text : Text)
  /-- An option that does not exist. -/
  | unknown
  deriving DecidableEq, Repr

namespace Argument

/-- The options by their long names. -/
def flagOfName? (name : Text) : Option Flag :=
  if name = "max-depth".toList then some .maxDepth
  else if name = "define".toList then some .define
  else if name = "version".toList then some .version
  else if name = "help".toList then some .help
  else none

/-- An option with a long name, which may have a value after `=`. -/
def ofLong (text : Text) : Argument :=
  let (name, attached) :=
    match Text.cut? '=' text with
    | some (name, value) => (name, some value)
    | none => (text, none)
  match flagOfName? name with
  | some known => .flag known attached
  | none => .unknown

/-- The form of an argument. The value of a short option is attached with or without `=`; what
follows a short option that takes no value does not matter, because the program ends there. -/
def ofText : Text → Argument
  | ['-', '-'] => .endOfFlags
  | '-' :: '-' :: long => ofLong long
  | ['-', 'D'] => .flag .define none
  | '-' :: 'D' :: '=' :: value => .flag .define (some value)
  | '-' :: 'D' :: value => .flag .define (some value)
  | '-' :: 'V' :: _ => .flag .version none
  | '-' :: 'h' :: _ => .flag .help none
  | '-' :: _ :: _ => .unknown
  | text => .word text

end Argument

/-- A nesting limit: decimal digits after at most one `+`, with a value below `2 ^ 64`. -/
def readDepth? (text : Text) : Option Nat :=
  let digits :=
    match text with
    | '+' :: rest => rest
    | _ => text
  let depth := Numeral.digitsValue digits
  if !digits.isEmpty && digits.all Char.isDigit && depth < Nat.pow 2 64 then some depth else none

/-! ## The arguments of a command -/

/-- The arguments of a command, sorted. -/
structure CommandArguments where
  /-- The arguments that are not options. -/
  words : List Text := []
  /-- The definitions. -/
  definitions : List Text := []
  /-- The nesting limit. -/
  maxDepth? : Option Nat := none
  /-- Whether the arguments end in a question for help. -/
  asksForHelp : Bool := false
  deriving DecidableEq, Repr

namespace CommandArguments

/-- Adds a word before the others. -/
def withWord (arguments : CommandArguments) (word : Text) : CommandArguments :=
  { arguments with words := word :: arguments.words }

/-- Adds a definition before the others. -/
def withDefinition (arguments : CommandArguments) (definition : Text) : CommandArguments :=
  { arguments with definitions := definition :: arguments.definitions }

/-- Adds a nesting limit, which is given at most once. -/
def withDepth? (arguments : CommandArguments) (text : Text) : Option CommandArguments :=
  match arguments.maxDepth?, readDepth? text with
  | none, some depth => some { arguments with maxDepth? := some depth }
  | _, _ => none

/-- Sorts the arguments of a command. The value of an option may be the next argument, unless that
is an option itself. What follows a question for help does not matter. -/
def sort? : List Text → Option CommandArguments
  | [] => some {}
  | argument :: rest =>
      match Argument.ofText argument, rest with
      | .endOfFlags, words => some { words }
      | .flag .help none, _ => some { asksForHelp := true }
      | .word word, rest => (sort? rest).map (·.withWord word)
      | .flag .maxDepth (some value), rest => (sort? rest).bind (·.withDepth? value)
      | .flag .maxDepth none, value :: rest => (sort? rest).bind (·.withDepth? value)
      | .flag .define (some value), rest => (sort? rest).map (·.withDefinition value)
      | .flag .define none, value :: rest =>
          match Argument.ofText value with
          | .word definition => (sort? rest).map (·.withDefinition definition)
          | _ => none
      | _, _ => none

/-- Whether a command can have these arguments, or these and more. -/
def fit (arguments : CommandArguments) (name : CommandName) : Bool :=
  decide (arguments.words.length ≤ name.operand?.toList.length) &&
    arguments.words.all name.accepts &&
    (name.takesDefinitions || arguments.definitions.isEmpty)

/-- A command with its arguments. -/
def command? (arguments : CommandArguments) (name : CommandName) : Option Command :=
  if !arguments.fit name then none
  else if arguments.asksForHelp then some (.help (some name))
  else
    match name, arguments.words with
    | .dialogue, [] => some .dialogue
    | .script, [path] => some (.script path)
    | .value, [expression] => some (.value expression arguments.definitions)
    | .tree, [expression] => some (.tree expression arguments.definitions)
    | .tokens, [expression] => some (.tokens expression)
    | _, _ => none

end CommandArguments

/-! ## The arguments of the program -/

namespace Invocation

/-- A command with the nesting limit among its arguments, or else the one before it. -/
def ofCommand? (outer? : Option Nat) (name : CommandName) (rest : List Text) :
    Option Invocation := do
  let arguments ← CommandArguments.sort? rest
  let command ← arguments.command? name
  match arguments.maxDepth?.or outer? with
  | some maxDepth => return { command, limits := { maxDepth } }
  | none => return { command }

/-- The word that asks for help on a command. -/
def helpWord : Text := "help".toList

/-- What is explained, when `topics` follow the word `help`. The word itself has no explanation of
its own, and commands have nothing further to explain. -/
def ofTopics? : List Text → Option Invocation
  | [] => some { command := .help none }
  | [topic] =>
      if topic = helpWord then some { command := .help none }
      else (CommandName.ofText? topic).map fun name => { command := .help (some name) }
  | _ => none

/-- Reads the arguments of the program, when the nesting limit before the command is `outer?`. -/
def readFrom? (outer? : Option Nat) : List Text → Option Invocation
  | [] => none
  | argument :: rest =>
      match Argument.ofText argument, rest with
      | .flag .version none, _ => some { command := .version }
      | .flag .help none, _ => some { command := .help none }
      | .flag .maxDepth (some value), rest =>
          match outer?, readDepth? value with
          | none, some depth => readFrom? (some depth) rest
          | _, _ => none
      | .flag .maxDepth none, value :: rest =>
          match outer?, readDepth? value with
          | none, some depth => readFrom? (some depth) rest
          | _, _ => none
      | .word name, rest =>
          if name = helpWord then ofTopics? rest
          else (CommandName.ofText? name).bind fun name => ofCommand? outer? name rest
      | _, _ => none

/-- Reads the arguments of the program. -/
def read? (arguments : List Text) : Option Invocation := readFrom? none arguments

end Invocation

end ComplexReckoner.Console
