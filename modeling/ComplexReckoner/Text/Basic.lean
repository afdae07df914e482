import ComplexReckoner.Text.Blank

/-! # Text

Every stage of the calculator reads, cuts and writes lists of characters. Positions in a text count
UTF-8 bytes, so the measure of a text is its `byteSize`. The operations here are the ones an input
line meets before it is read as an expression:

* `Text.compact` drops every blank character,
* `Text.trim` drops the blank characters at both ends,
* `Text.cut?` splits at the first occurrence of a mark. -/

namespace ComplexReckoner

/-- A text is a list of characters. -/
abbrev Text := List Char

namespace Text

/-! ## Size in bytes -/

/-- The number of bytes of a text in UTF-8. -/
def byteSize : Text → Nat
  | [] => 0
  | c :: rest => c.utf8Size + byteSize rest

@[simp] theorem byteSize_nil : byteSize [] = 0 := rfl

@[simp] theorem byteSize_cons (c : Char) (rest : Text) :
    byteSize (c :: rest) = c.utf8Size + byteSize rest := rfl

@[simp] theorem byteSize_append (before after : Text) :
    byteSize (before ++ after) = byteSize before + byteSize after := by
  induction before with
  | nil => simp
  | cons c rest ih => simp [ih, Nat.add_assoc]

/-! ## Blanks -/

/-- The text without its blank characters. Spans of evaluation faults index into this form. -/
def compact (text : Text) : Text := text.filter fun c => !isBlank c

/-- The text without the blank characters at its ends. -/
def trim (text : Text) : Text :=
  ((text.dropWhile isBlank).reverse.dropWhile isBlank).reverse

@[simp] theorem compact_nil : compact [] = [] := rfl

@[simp] theorem compact_append (before after : Text) :
    compact (before ++ after) = compact before ++ compact after := by
  simp [compact]

/-- Compacting twice is compacting once. -/
@[simp] theorem compact_compact (text : Text) : compact (compact text) = compact text := by
  simp [compact]

/-! ## Cutting -/

/-- The texts before and after the first occurrence of `mark`, when there is one. -/
def cut? (mark : Char) : Text → Option (Text × Text)
  | [] => none
  | c :: rest =>
      if c = mark then some ([], rest)
      else (cut? mark rest).map fun (before, after) => (c :: before, after)

/-- A cut splits the text around a mark that does not occur before it. -/
theorem cut?_eq_some_iff (mark : Char) (text before after : Text) :
    cut? mark text = some (before, after) ↔ text = before ++ mark :: after ∧ mark ∉ before := by
  induction text generalizing before with
  | nil => simp [cut?]
  | cons c rest ih =>
    by_cases hit : c = mark
    · subst hit
      cases before with
      | nil => simp [cut?, eq_comm]
      | cons d before => simp only [cut?]; grind
    · cases before with
      | nil => simp [cut?, hit]
      | cons d before =>
        simp only [cut?, hit, if_false, Option.map_eq_some_iff, Prod.exists, Prod.mk.injEq,
          List.cons.injEq, List.cons_append, List.mem_cons, not_or]
        grind

/-- There is nothing to cut exactly when the mark does not occur. -/
theorem cut?_eq_none_iff (mark : Char) (text : Text) : cut? mark text = none ↔ mark ∉ text := by
  induction text with
  | nil => simp [cut?]
  | cons c rest ih =>
    by_cases hit : c = mark
    · simp [cut?, hit]
    · simp [cut?, hit, ih, Ne.symm hit]

end Text

end ComplexReckoner
