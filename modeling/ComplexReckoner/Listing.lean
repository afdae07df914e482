import ComplexReckoner.Expression

/-! # Token listings

A listing shows the tokens of a text one per line, with a line for every parenthesis and a last line
for the end of the text. -/

namespace ComplexReckoner

namespace Listing

/-- The lines of the tokens of a scope. -/
def scopeLines : Nested Span Token → List Text
  | .nil => []
  | .leaf token rest => token.render :: scopeLines rest
  | .group _ inner rest =>
      "LEFT_PAREN ( null".toList ::
        (scopeLines inner ++ "RIGHT_PAREN ) null".toList :: scopeLines rest)

/-- The line for the end of the text. -/
def endLine : Text := "EOF  null".toList

/-- The listing of a text without blanks. -/
def ofText (limits : Limits) (text : Text) : Except Fault (List Text) := do
  let segments ← decomposeWithin limits.maxDepth text
  return scopeLines segments.tokens ++ [endLine]

end Listing

end ComplexReckoner
