import ComplexReckoner.Fault
import ComplexReckoner.Nested

/-! # Segments

The parentheses of a text split it into runs of plain text and groups. `Segments` is the resulting
tree, `flatten` writes it back, and `decompose` finds it.

Decomposition first looks for a reason to refuse the text: unequal numbers of opening and closing
parentheses, and then the first parenthesis, from the left, that closes nothing or that opens a
group beyond the limit. A text without such a reason is gathered from its right end, where the
parenthesis that closes a group is met before the one that opens it. A recursion on groups comes to
the same (`decomposeWithin_eq_descend`). -/

namespace ComplexReckoner

/-- A run of text without parentheses, and the offset at which it stands. -/
structure Run where
  /-- The characters of the run. -/
  text : Text
  /-- The number of bytes before the run. -/
  offset : Nat
  deriving DecidableEq, Repr

/-- The runs and groups of a scope. The mark of a group is its span, both parentheses included. -/
abbrev Segments := Nested Span Run

namespace Segments

/-- The text that segments come from. -/
def flatten : Segments → Text
  | .nil => []
  | .leaf run rest => run.text ++ flatten rest
  | .group _ inner rest => '(' :: (flatten inner ++ ')' :: flatten rest)

@[simp] theorem flatten_nil : flatten .nil = [] := rfl

@[simp] theorem flatten_leaf (run : Run) (rest : Segments) :
    flatten (.leaf run rest) = run.text ++ flatten rest := rfl

@[simp] theorem flatten_group (span : Span) (inner rest : Segments) :
    flatten (.group span inner rest) = '(' :: (flatten inner ++ ')' :: flatten rest) := rfl

/-- Puts one character in front: it joins the run that begins there, or begins one. -/
def consChar (c : Char) (offset : Nat) : Segments → Segments
  | .leaf run rest => .leaf ⟨c :: run.text, offset⟩ rest
  | segments => .leaf ⟨[c], offset⟩ segments

@[simp] theorem flatten_consChar (c : Char) (offset : Nat) (segments : Segments) :
    flatten (consChar c offset segments) = c :: flatten segments := by
  cases segments <;> rfl

/-- A scope with nothing in it has one empty run. -/
def orEmptyRun (offset : Nat) : Segments → Segments
  | .nil => .leaf ⟨[], offset⟩ .nil
  | segments => segments

@[simp] theorem flatten_orEmptyRun (offset : Nat) (segments : Segments) :
    flatten (orEmptyRun offset segments) = flatten segments := by
  cases segments <;> rfl

/-! ## Gathering a balanced text -/

/-- The segments from a position to the end of its scope, and for each scope around it, innermost
first, the offset of the parenthesis that ends the scope within and the segments after it. -/
structure Gathered where
  /-- The segments up to the end of the scope. -/
  here : Segments
  /-- The ends of the scopes around it. -/
  around : List (Nat × Segments)

/-- Gathers the segments of a text that stands at an offset. A parenthesis that opens takes up the
group that was left behind by the one that closes it. -/
def gather (offset : Nat) : Text → Gathered
  | [] => ⟨.nil, []⟩
  | c :: rest =>
      let later := gather (offset + c.utf8Size) rest
      if c = '(' then
        match later.around with
        | [] => later -- no parenthesis closes this one: `decompose` has refused such a text
        | (close, after) :: around =>
            ⟨.group ⟨offset, close + 1 - offset⟩ (later.here.orEmptyRun (offset + 1)) after, around⟩
      else if c = ')' then ⟨.nil, (offset, later.here) :: later.around⟩
      else ⟨consChar c offset later.here, later.around⟩

/-- The segments of a text with balanced parentheses. -/
def ofBalanced (text : Text) : Segments := (gather 0 text).here.orEmptyRun 0

end Segments

/-! ## Reasons to refuse a text -/

/-- The text up to the parenthesis that closes the current group, while `opened` further groups are
open within it. -/
def enclosed (opened : Nat) : Text → Text
  | [] => []
  | c :: rest =>
      if c = '(' then c :: enclosed (opened + 1) rest
      else if c = ')' then
        match opened with
        | 0 => []
        | opened + 1 => c :: enclosed opened rest
      else c :: enclosed opened rest

/-- The first parenthesis of the text at `offset` that closes nothing or that opens a group deeper
than `limit`. There are `depth` groups open, and `fragment` is the text after the last group that
was closed at the top. -/
def parenthesisFault? (limit depth offset : Nat) (fragment : Text) : Text → Option Fault
  | [] => none
  | c :: rest =>
      if c = '(' then
        if depth < limit then parenthesisFault? limit (depth + 1) (offset + 1) fragment rest
        else some (.nestingTooDeep limit ⟨offset, (enclosed 0 rest).byteSize + 2⟩)
      else if c = ')' then
        match depth with
        | 0 => some (.malformedParentheses fragment ⟨offset, 1⟩)
        | 1 => parenthesisFault? limit 0 (offset + 1) rest rest
        | depth + 2 => parenthesisFault? limit (depth + 1) (offset + 1) fragment rest
      else parenthesisFault? limit depth (offset + c.utf8Size) fragment rest

/-- Splits a text into runs and groups that nest at most `limit` deep. -/
def decomposeWithin (limit : Nat) (text : Text) : Except Fault Segments :=
  if text.count '(' = text.count ')' then
    match parenthesisFault? limit 0 0 text text with
    | some fault => .error fault
    | none => .ok (.ofBalanced text)
  else .error (.malformedParentheses text (.ofText 0 text))

/-- Splits a text into runs and groups. Groups cannot nest deeper than there are characters. -/
def decompose (text : Text) : Except Fault Segments := decomposeWithin text.length text

end ComplexReckoner
