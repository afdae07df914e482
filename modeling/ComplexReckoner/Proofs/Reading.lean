import ComplexReckoner.Proofs.Grammar

/-! # Reading from right to left

A text is a sequence of words, signs and parentheses (`Text.lexemes`), and it can be cut before or
behind any sign or parenthesis without a difference to these (`Text.lexemes_append`).

Its derivation is found by one pass from the right. What has been read so far is an operand with
what belongs to its scope, or the rest of a scope behind an operand; and for each parenthesis that
closes and has not been met by the one that opens, the rest of the scope behind it (`Reading`). Each
lexeme in front is put there in one way or in none (`Reading.front?`), so what a text does in front
of another one depends only on what has been read of the other. The pass ends with the derivation
of the text (`Reading.read?_eq_some_iff`). -/

namespace ComplexReckoner

/-! ## Words, signs and parentheses -/

/-- The parts that a text consists of. -/
inductive Lexeme where
  /-- A word. -/
  | word (content : Word)
  /-- A sign. -/
  | sign (sign : Sign)
  /-- A parenthesis that opens. -/
  | opening
  /-- A parenthesis that closes. -/
  | closing
  deriving DecidableEq

/-- Writes a lexeme. -/
def Lexeme.text : Lexeme → Text
  | .word content => content.text
  | .sign mark => [mark.char]
  | .opening => ['(']
  | .closing => [')']

/-- The lexeme of a separator. -/
def Lexeme.ofSeparator (c : Char) : Lexeme :=
  if c = '+' then .sign .plus
  else if c = '-' then .sign .minus
  else if c = '*' then .sign .times
  else if c = '(' then .opening
  else .closing

/-- A separator is written as it was. -/
theorem Lexeme.text_ofSeparator {c : Char} (separates : c ∈ separators) :
    (ofSeparator c).text = [c] := by
  simp only [separators, List.mem_cons, List.not_mem_nil, or_false] at separates
  rcases separates with rfl | rfl | rfl | rfl | rfl <;> rfl

/-- No separator is a word. -/
theorem Lexeme.ofSeparator_ne_word (c : Char) (word : Word) : ofSeparator c ≠ .word word := by
  rw [ofSeparator]
  repeat' split
  all_goals simp

/-- A word of one character. -/
def Word.single (c : Char) (plain : c ∉ separators) : Word :=
  ⟨[c], List.cons_ne_nil _ _, by simpa using plain⟩

/-- A word with one more character in front. -/
def Word.cons (c : Char) (plain : c ∉ separators) (word : Word) : Word where
  text := c :: word.text
  nonempty := List.cons_ne_nil _ _
  plain := List.forall_mem_cons.2 ⟨plain, word.plain⟩

/-- Puts a character of a word in front of lexemes: it joins the word that begins there, or begins
one. -/
def Lexeme.consWord (c : Char) (plain : c ∉ separators) : List Lexeme → List Lexeme
  | .word content :: later => .word (content.cons c plain) :: later
  | later => .word (.single c plain) :: later

namespace Text

/-- The words, signs and parentheses of a text. -/
def lexemes : Text → List Lexeme
  | [] => []
  | c :: rest =>
      if separates : c ∈ separators then .ofSeparator c :: lexemes rest
      else Lexeme.consWord c separates (lexemes rest)

@[simp] theorem lexemes_nil : lexemes [] = [] := rfl

@[simp] theorem lexemes_opening (rest : Text) :
    lexemes ('(' :: rest) = .opening :: rest.lexemes := rfl

@[simp] theorem lexemes_closing (rest : Text) :
    lexemes (')' :: rest) = .closing :: rest.lexemes := rfl

@[simp] theorem lexemes_sign (sign : Sign) (rest : Text) :
    lexemes (sign.char :: rest) = .sign sign :: rest.lexemes := by
  cases sign <;> rfl

/-- A character that is not a separator is part of a word. -/
theorem lexemes_cons_of_plain {c : Char} (plain : c ∉ separators) (rest : Text) :
    lexemes (c :: rest) = Lexeme.consWord c plain rest.lexemes := by
  rw [lexemes, dif_neg plain]

/-- A separator is a lexeme of its own. -/
theorem lexemes_cons_of_separator {c : Char} (separates : c ∈ separators) (rest : Text) :
    lexemes (c :: rest) = .ofSeparator c :: rest.lexemes := by
  rw [lexemes, dif_pos separates]

/-- The lexemes of a text are written as the text. -/
theorem flatMap_text_lexemes (text : Text) : text.lexemes.flatMap Lexeme.text = text := by
  induction text with
  | nil => rfl
  | cons c rest ih =>
    by_cases separates : c ∈ separators
    · rw [lexemes_cons_of_separator separates, List.flatMap_cons, Lexeme.text_ofSeparator separates,
        ih]
      rfl
    · rw [lexemes_cons_of_plain separates]
      have joined : ∀ later, (Lexeme.consWord c separates later).flatMap Lexeme.text =
          c :: later.flatMap Lexeme.text := by
        intro later
        unfold Lexeme.consWord
        split <;> rfl
      rw [joined, ih]

/-! ## Cutting a text -/

/-- Whether no word can go on at the beginning of a text. -/
def StartsApart (text : Text) : Prop := ∀ c ∈ text.head?, c ∈ separators

/-- Whether no word can go on at the end of a text. -/
def EndsApart (text : Text) : Prop := ∀ c ∈ text.getLast?, c ∈ separators

/-- The empty text starts apart. -/
theorem startsApart_nil : StartsApart [] := nofun

/-- A text starts apart at a separator. -/
theorem startsApart_cons {c : Char} (separates : c ∈ separators) (rest : Text) :
    StartsApart (c :: rest) := by
  rintro d ⟨rfl⟩
  exact separates

/-- A text starts apart at a sign. -/
theorem startsApart_sign (sign : Sign) (rest : Text) : StartsApart (sign.char :: rest) :=
  startsApart_cons (by cases sign <;> decide) rest

/-- A text that starts apart does not begin with a word. -/
theorem head?_lexemes_ne_word {text : Text} (apart : text.StartsApart) (word : Word) :
    text.lexemes.head? ≠ some (.word word) := by
  cases text with
  | nil => simp
  | cons c rest =>
    rw [lexemes_cons_of_separator (apart c rfl), List.head?_cons]
    intro same
    exact Lexeme.ofSeparator_ne_word c word (Option.some.inj same)

/-- What follows the first lexeme does not matter to a character in front. -/
theorem consWord_append {c : Char} (plain : c ∉ separators) (lexemes later : List Lexeme)
    (apart : lexemes = [] → ∀ word, later.head? ≠ some (.word word)) :
    Lexeme.consWord c plain (lexemes ++ later) = Lexeme.consWord c plain lexemes ++ later := by
  cases lexemes with
  | nil =>
    cases later with
    | nil => rfl
    | cons first later =>
      cases first with
      | word content => exact absurd rfl (apart rfl content)
      | sign sign => rfl
      | opening => rfl
      | closing => rfl
  | cons first lexemes => cases first <;> rfl

/-- A text can be cut where no word goes on. -/
theorem lexemes_append (before : Text) {after : Text} (apart : after.StartsApart) :
    (before ++ after).lexemes = before.lexemes ++ after.lexemes := by
  induction before with
  | nil => rfl
  | cons c rest ih =>
    rw [List.cons_append]
    by_cases separates : c ∈ separators
    · rw [lexemes_cons_of_separator separates, lexemes_cons_of_separator separates, ih,
        List.cons_append]
    · rw [lexemes_cons_of_plain separates, lexemes_cons_of_plain separates, ih]
      exact consWord_append separates _ _ fun _ => head?_lexemes_ne_word apart

/-- A text can be cut behind any part of it where a word has ended. -/
theorem lexemes_append_of_endsApart {before : Text} (apart : before.EndsApart) (after : Text) :
    (before ++ after).lexemes = before.lexemes ++ after.lexemes := by
  rcases List.eq_nil_or_concat before with rfl | ⟨start, c, rfl⟩
  · rfl
  · have separates : c ∈ separators := apart c (by simp)
    rw [List.concat_eq_append, List.append_assoc, List.singleton_append,
      lexemes_append start (startsApart_cons separates after),
      lexemes_append start (startsApart_cons separates []), lexemes_cons_of_separator separates,
      lexemes_cons_of_separator separates]
    simp

/-- A word is one lexeme. -/
theorem lexemes_word (word : Word) : word.text.lexemes = [.word word] := by
  obtain ⟨text, nonempty, plain⟩ := word
  induction text with
  | nil => exact absurd rfl nonempty
  | cons c rest ih =>
    have plainHere : c ∉ separators := plain c List.mem_cons_self
    show lexemes (c :: rest) = _
    rw [lexemes_cons_of_plain plainHere]
    cases rest with
    | nil => rfl
    | cons d later =>
      have whole := ih (List.cons_ne_nil _ _) fun e member =>
        plain e (List.mem_cons_of_mem c member)
      rw [show lexemes (d :: later) = _ from whole]
      rfl

end Text

/-! ## The rest of a scope -/

/-- What follows an operand in its scope: nothing, or a sign and a formula. -/
abbrev Tail := Option (Sign × Formula)

namespace Tail

/-- Writes the rest of a scope. -/
def text : Tail → Text
  | none => []
  | some (sign, formula) => sign.char :: formula.text

/-- A word and the rest of its scope. -/
def behindWord (content : Word) : Tail → Formula
  | none => .word content
  | some (sign, rest) => .wordThen content sign rest

/-- A formula in parentheses and the rest of its scope. -/
def behindGroup (inner : Formula) : Tail → Formula
  | none => .group inner
  | some (sign, rest) => .groupThen inner sign rest

@[simp] theorem text_behindWord (content : Word) (tail : Tail) :
    (tail.behindWord content).text = content.text ++ tail.text := by
  match tail with
  | none => exact (List.append_nil _).symm
  | some (sign, rest) => rfl

@[simp] theorem text_behindGroup (inner : Formula) (tail : Tail) :
    (tail.behindGroup inner).text = '(' :: (inner.text ++ ')' :: tail.text) := by
  match tail with
  | none => rfl
  | some (sign, rest) => rfl

end Tail

/-! ## One pass from the right -/

/-- What has been read of a text, from the right. The rests of scopes that are listed are those
behind the parentheses that close and that no parenthesis opens yet, innermost first. -/
inductive Reading where
  /-- An operand comes first, and the formula takes in the rest of its scope. -/
  | operand (formula : Formula) (around : List Tail)
  /-- The rest of a scope comes first. -/
  | rest (tail : Tail) (around : List Tail)

namespace Reading

/-- Writes the rests of scopes behind the parentheses that close. -/
def textAround (around : List Tail) : Text := around.flatMap fun tail => ')' :: tail.text

/-- Writes what has been read. -/
def text : Reading → Text
  | operand formula around => formula.text ++ textAround around
  | rest tail around => tail.text ++ textAround around

/-- Puts a lexeme in front of what has been read, if it can stand there. -/
def front? : Lexeme → Reading → Option Reading
  | .word content, rest tail around => some (operand (tail.behindWord content) around)
  | .sign sign, operand formula around => some (rest (some (sign, formula)) around)
  | .opening, operand formula (tail :: around) => some (operand (tail.behindGroup formula) around)
  | .closing, rest tail around => some (rest none (tail :: around))
  | _, _ => none

/-- Reads lexemes from the right. -/
def read? : List Lexeme → Option Reading
  | [] => some (rest none [])
  | lexeme :: later => (read? later).bind (front? lexeme)

/-- A lexeme is written in front of what has been read. -/
theorem text_of_front? {lexeme : Lexeme} {reading next : Reading}
    (fits : front? lexeme reading = some next) : next.text = lexeme.text ++ reading.text := by
  match lexeme, reading, fits with
  | .word content, rest tail around, rfl => simp [text, Lexeme.text]
  | .sign sign, operand formula around, rfl => rfl
  | .opening, operand formula (tail :: around), rfl => simp [text, Lexeme.text, textAround]
  | .closing, rest tail around, rfl => rfl

/-- What has been read is written as it was. -/
theorem text_of_read? {lexemes : List Lexeme} {reading : Reading}
    (found : read? lexemes = some reading) : reading.text = lexemes.flatMap Lexeme.text := by
  induction lexemes generalizing reading with
  | nil =>
    cases found
    rfl
  | cons lexeme later ih =>
    obtain ⟨between, foundLater, fits⟩ := Option.bind_eq_some_iff.1 found
    rw [text_of_front? fits, ih foundLater, List.flatMap_cons]

/-- A formula can be read in front of the end of a scope. -/
theorem read?_text_append (formula : Formula) {after : Text} {around : List Tail}
    (apart : after.StartsApart) (found : read? after.lexemes = some (rest none around)) :
    read? (formula.text ++ after).lexemes = some (operand formula around) := by
  induction formula generalizing after around with
  | word content =>
    rw [Formula.text, Text.lexemes_append _ apart, Text.lexemes_word, List.singleton_append, read?,
      found]
    rfl
  | group inner ih =>
    have closed : read? (Text.lexemes (')' :: after)) = some (rest none (none :: around)) := by
      rw [Text.lexemes_closing, read?, found]
      rfl
    rw [Formula.text, List.cons_append, List.append_assoc, List.singleton_append,
      Text.lexemes_opening, read?, ih (Text.startsApart_cons (by decide) _) closed]
    rfl
  | wordThen content sign later ih =>
    rw [Formula.text, List.append_assoc, List.cons_append,
      Text.lexemes_append _ (Text.startsApart_sign sign _), Text.lexemes_word,
      List.singleton_append, Text.lexemes_sign, read?, read?, ih apart found]
    rfl
  | groupThen inner sign later ihInner ihLater =>
    have closed : read? (Text.lexemes (')' :: sign.char :: (later.text ++ after))) =
        some (rest none (some (sign, later) :: around)) := by
      rw [Text.lexemes_closing, Text.lexemes_sign, read?, read?, ihLater apart found]
      rfl
    rw [Formula.text, List.cons_append, List.append_assoc, List.cons_append, List.cons_append,
      Text.lexemes_opening, read?, ihInner (Text.startsApart_cons (by decide) _) closed]
    rfl

/-- A text has a derivation exactly when it is read as an operand with nothing around it. -/
theorem read?_eq_some_iff (text : Text) (formula : Formula) :
    read? text.lexemes = some (operand formula []) ↔ formula.text = text := by
  constructor
  · intro found
    have written := text_of_read? found
    rw [Text.flatMap_text_lexemes] at written
    rw [← written]
    exact (List.append_nil _).symm
  · rintro rfl
    have found := read?_text_append formula Text.startsApart_nil rfl
    rw [List.append_nil] at found
    exact found

end Reading

end ComplexReckoner
