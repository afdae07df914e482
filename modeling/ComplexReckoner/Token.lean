import ComplexReckoner.Segments

/-! # Tokens

A run of text without parentheses is a sequence of operators and terms. Subtraction has no operator
of its own: every `-` stands for `+ (-1) *`, so the later stages know only sums and products.

Tokens are cut out in two passes. `expandSubtraction` replaces every `-` and keeps the text between
as raw terms; `splitOperators` then isolates the operators `+` and `*` within each raw term. Both
are one scan, `scanMarks`, that stops at different characters. -/

namespace ComplexReckoner

/-- The kinds of tokens. -/
inductive TokenKind where
  /-- The operator of sums. -/
  | plus
  /-- The operator of products. -/
  | star
  /-- The factor `-1` that a `-` stands for. -/
  | negativeOne
  /-- A number or a name, not yet resolved. -/
  | term
  deriving DecidableEq, Repr

/-- A piece of a run of text. -/
structure Token where
  /-- What the piece is. -/
  kind : TokenKind
  /-- The characters it was read from. -/
  literal : Text
  /-- The number of bytes before it. -/
  offset : Nat
  deriving DecidableEq, Repr

namespace Token

/-- Whether a token is an operator. -/
def isOperator (token : Token) : Bool :=
  match token.kind with
  | .plus | .star => true
  | .negativeOne | .term => false

/-- The stretch of text a token was read from. -/
def span (token : Token) : Span := .ofText token.offset token.literal

/-- The line that describes a token: its kind, its characters and its value, if that is known. -/
def render (token : Token) : Text :=
  match token.kind with
  | .plus => "PLUS ".toList ++ token.literal ++ " null".toList
  | .star => "STAR ".toList ++ token.literal ++ " null".toList
  | .negativeOne => "NEGATIVE_ONE ".toList ++ token.literal ++ " -1".toList
  | .term => "TERM ".toList ++ token.literal ++ " null".toList

end Token

/-! ## One scan -/

/-- Puts one character in front of tokens: it joins the term that begins there, or begins one. -/
def consTermChar (c : Char) (offset : Nat) : List Token → List Token
  | ⟨.term, literal, _⟩ :: tokens => ⟨.term, c :: literal, offset⟩ :: tokens
  | tokens => ⟨.term, [c], offset⟩ :: tokens

/-- Cuts a text at marked characters. A character `c` with `marks c` not empty gives a token of each
of these kinds, all with that character as their literal; the text between such characters gives
terms. -/
def scanMarks (marks : Char → List TokenKind) (offset : Nat) : Text → List Token
  | [] => []
  | c :: rest =>
      let later := scanMarks marks (offset + c.utf8Size) rest
      match marks c with
      | [] => consTermChar c offset later
      | kinds => kinds.map (⟨·, [c], offset⟩) ++ later

/-- A text without any character is one empty term. -/
def orEmptyTerm (offset : Nat) : List Token → List Token
  | [] => [⟨.term, [], offset⟩]
  | tokens => tokens

/-! ## The two passes -/

/-- A `-` stands for three tokens. -/
def subtractionMarks (c : Char) : List TokenKind :=
  if c = '-' then [.plus, .negativeOne, .star] else []

/-- The characters of the two operators. -/
def operatorMarks (c : Char) : List TokenKind :=
  if c = '+' then [.plus] else if c = '*' then [.star] else []

/-- Replaces every `-` by the tokens `+`, `-1` and `*`, and leaves the text between as raw terms. -/
def expandSubtraction (text : Text) (offset : Nat) : List Token :=
  orEmptyTerm offset (scanMarks subtractionMarks offset text)

/-- Isolates the operators `+` and `*`, and leaves the text between as terms. -/
def splitOperators (text : Text) (offset : Nat) : List Token :=
  orEmptyTerm offset (scanMarks operatorMarks offset text)

/-- The tokens of a text that stands at an offset. -/
def tokenize (text : Text) (offset : Nat) : List Token :=
  (expandSubtraction text offset).flatMap fun token =>
    match token.kind with
    | .term => splitOperators token.literal token.offset
    | _ => [token]

/-- The tokens of every run, within the groups of a text. -/
def Segments.tokens (segments : Segments) : Nested Span Token :=
  segments.expand fun run => tokenize run.text run.offset

end ComplexReckoner
