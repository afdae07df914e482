import ComplexReckoner.Proofs.Decomposition
import ComplexReckoner.Token

/-! # One scan

The tokens of a text are found in stages: its segments, then each `-`, then each `+` and `*`. One
scan of the characters gives the same tokens.

* `tokenize_eq_scanMarks` joins the two passes over a run,
* `Scanned` says which tokens belong to a scope, one rule for each thing that can stand in it,
* `scanned_of_decomposeWithin` says that the tokens of a text that is decomposed are the scanned
  ones. -/

namespace ComplexReckoner

/-! ## Signs and words -/

/-- The signs between terms. -/
inductive Sign where
  /-- The sign of a sum. -/
  | plus
  /-- The sign of a difference. -/
  | minus
  /-- The sign of a product. -/
  | times
  deriving DecidableEq, Repr

/-- The character of a sign. -/
def Sign.char : Sign → Char
  | plus => '+'
  | minus => '-'
  | times => '*'

/-- Signs take one byte. -/
@[simp] theorem Sign.utf8Size_char (sign : Sign) : sign.char.utf8Size = 1 := by
  cases sign <;> rfl

/-- The kinds of tokens that a character stands for: those of a sign, and none for any other. -/
def signMarks (c : Char) : List TokenKind := subtractionMarks c ++ operatorMarks c

/-- The tokens of a sign that stands at an offset. -/
def Sign.tokens (sign : Sign) (offset : Nat) : List Token :=
  (signMarks sign.char).map (⟨·, [sign.char], offset⟩)

/-- The characters that separate words: signs and parentheses. -/
def separators : List Char := ['+', '-', '*', '(', ')']

/-- A run of characters that do not separate words. It is not empty. -/
@[ext] structure Word where
  /-- The characters of the word. -/
  text : Text
  /-- There is at least one. -/
  nonempty : text ≠ []
  /-- None of them is a separator. -/
  plain : ∀ c ∈ text, c ∉ separators
  deriving DecidableEq

/-- A character has no marks when it is not a sign. -/
theorem signMarks_eq_nil {c : Char} (plain : c ∉ separators) : signMarks c = [] := by
  simp only [separators, List.mem_cons, not_or] at plain
  rw [signMarks, subtractionMarks, operatorMarks, if_neg plain.2.1, if_neg plain.1,
    if_neg plain.2.2.1]
  rfl

/-- A character other than a parenthesis is a sign, or can stand in a word. -/
theorem PlainChar.sign_or_plain (c : PlainChar) :
    (∃ sign : Sign, c.val = sign.char) ∨ c.val ∉ separators := by
  by_cases member : c.val ∈ separators
  · simp only [separators, List.mem_cons, List.not_mem_nil, or_false] at member
    rcases member with plus | minus | times | opens | closes
    · exact Or.inl ⟨.plus, plus⟩
    · exact Or.inl ⟨.minus, minus⟩
    · exact Or.inl ⟨.times, times⟩
    · exact absurd opens c.property.1
    · exact absurd closes c.property.2
  · exact Or.inr member

/-! ## The two passes are one -/

/-- Puts one character in front of tokens, given what it is marked with. -/
def putMarked (marks : Char → List TokenKind) (c : Char) (offset : Nat) (later : List Token) :
    List Token :=
  match marks c with
  | [] => consTermChar c offset later
  | kinds => kinds.map (⟨·, [c], offset⟩) ++ later

/-- A scan puts the first character in front of the scan of the others. -/
theorem scanMarks_cons (marks : Char → List TokenKind) (offset : Nat) (c : Char) (rest : Text) :
    scanMarks marks offset (c :: rest) =
      putMarked marks c offset (scanMarks marks (offset + c.utf8Size) rest) := rfl

/-- A character without marks joins or begins a term. -/
theorem putMarked_of_nil {marks : Char → List TokenKind} {c : Char} (unmarked : marks c = [])
    (offset : Nat) (later : List Token) :
    putMarked marks c offset later = consTermChar c offset later := by
  rw [putMarked, unmarked]

/-- A character with marks gives a token for each of them. -/
theorem putMarked_of_cons {marks : Char → List TokenKind} {c : Char} {kind : TokenKind}
    {kinds : List TokenKind} (marked : marks c = kind :: kinds) (offset : Nat)
    (later : List Token) :
    putMarked marks c offset later =
      ⟨kind, [c], offset⟩ :: (kinds.map (⟨·, [c], offset⟩) ++ later) := by
  rw [putMarked, marked]
  rfl

/-- Only the first token matters to a character in front, so others may follow. -/
theorem putMarked_append (marks : Char → List TokenKind) (c : Char) (offset : Nat)
    {tokens : List Token} (nonempty : tokens ≠ []) (later : List Token) :
    putMarked marks c offset (tokens ++ later) = putMarked marks c offset tokens ++ later := by
  cases kinds : marks c with
  | nil =>
    rw [putMarked_of_nil kinds, putMarked_of_nil kinds]
    cases tokens with
    | nil => exact absurd rfl nonempty
    | cons first tokens =>
      obtain ⟨kind, literal, place⟩ := first
      cases kind <;> rfl
  | cons kind kinds' =>
    rw [putMarked_of_cons kinds, putMarked_of_cons kinds, List.cons_append, List.append_assoc]

/-- A character begins tokens of its own where no term begins. -/
theorem putMarked_of_not_term (marks : Char → List TokenKind) (c : Char) (offset : Nat)
    {later : List Token} (apart : ∀ token ∈ later.head?, token.kind ≠ .term) :
    putMarked marks c offset later = putMarked marks c offset [] ++ later := by
  cases kinds : marks c with
  | nil =>
    rw [putMarked_of_nil kinds, putMarked_of_nil kinds]
    cases later with
    | nil => rfl
    | cons first later =>
      obtain ⟨kind, literal, place⟩ := first
      cases kind with
      | term => exact absurd rfl (apart _ rfl)
      | plus => rfl
      | star => rfl
      | negativeOne => rfl
  | cons kind kinds' =>
    rw [putMarked_of_cons kinds, putMarked_of_cons kinds, List.append_nil, List.cons_append]

/-- A character in front always gives a token. -/
theorem putMarked_ne_nil (marks : Char → List TokenKind) (c : Char) (offset : Nat)
    (later : List Token) : putMarked marks c offset later ≠ [] := by
  cases kinds : marks c with
  | nil =>
    rw [putMarked_of_nil kinds]
    unfold consTermChar
    split <;> exact List.cons_ne_nil _ _
  | cons kind kinds' =>
    rw [putMarked_of_cons kinds]
    exact List.cons_ne_nil _ _

/-- A scan of a text with characters is not empty. -/
theorem scanMarks_ne_nil (marks : Char → List TokenKind) (offset : Nat) {text : Text}
    (nonempty : text ≠ []) : scanMarks marks offset text ≠ [] := by
  cases text with
  | nil => exact absurd rfl nonempty
  | cons c rest => exact putMarked_ne_nil marks c offset _

/-- The empty term stands only for a text without characters. -/
theorem orEmptyTerm_of_ne_nil (offset : Nat) {tokens : List Token} (nonempty : tokens ≠ []) :
    orEmptyTerm offset tokens = tokens := by
  cases tokens with
  | nil => exact absurd rfl nonempty
  | cons first tokens => rfl

/-- A scan for `-` that begins with a term begins where that term stands, and the term is not
empty. -/
theorem scanMarks_subtraction_term {offset place : Nat} {text literal : Text} {later : List Token}
    (begins : scanMarks subtractionMarks offset text = ⟨.term, literal, place⟩ :: later) :
    place = offset ∧ literal ≠ [] := by
  cases text with
  | nil => cases begins
  | cons c rest =>
    rw [scanMarks_cons] at begins
    by_cases minus : c = '-'
    · have marked : subtractionMarks c = [.plus, .negativeOne, .star] := if_pos minus
      rw [putMarked_of_cons marked] at begins
      cases begins
    · have unmarked : subtractionMarks c = [] := if_neg minus
      rw [putMarked_of_nil unmarked, consTermChar.eq_def] at begins
      split at begins <;> cases begins <;> exact ⟨rfl, List.cons_ne_nil _ _⟩

/-- The tokens that the second pass makes of a token of the first. -/
def splitTerm (token : Token) : List Token :=
  match token.kind with
  | .term => splitOperators token.literal token.offset
  | _ => [token]

/-- The second pass over a first one is a single scan for all signs. -/
theorem flatMap_splitTerm_scanMarks (offset : Nat) (text : Text) :
    (scanMarks subtractionMarks offset text).flatMap splitTerm =
      scanMarks signMarks offset text := by
  induction text generalizing offset with
  | nil => rfl
  | cons c rest ih =>
    have later := ih (offset + c.utf8Size)
    rw [scanMarks_cons, scanMarks_cons, ← later]
    by_cases minus : c = '-'
    · -- the tokens of a `-` are left alone by the second pass
      subst minus
      rfl
    · have unmarked : subtractionMarks c = [] := if_neg minus
      have same : ∀ tokens,
          putMarked signMarks c offset tokens = putMarked operatorMarks c offset tokens := by
        intro tokens
        simp only [putMarked, signMarks, unmarked, List.nil_append]
      rw [putMarked_of_nil unmarked, same]
      have single : splitOperators [c] offset = putMarked operatorMarks c offset [] :=
        orEmptyTerm_of_ne_nil offset (putMarked_ne_nil operatorMarks c offset [])
      -- the character joins the raw term that begins after it, if there is one
      cases scanned : scanMarks subtractionMarks (offset + c.utf8Size) rest with
      | nil =>
        rw [consTermChar, List.flatMap_cons, splitTerm, single, List.flatMap_nil, List.append_nil]
        intros
        contradiction
      | cons first tokens =>
        obtain ⟨kind, literal, place⟩ := first
        cases kind with
        | term =>
          -- the second pass over the longer raw term begins one character earlier
          obtain ⟨rfl, nonempty⟩ := scanMarks_subtraction_term scanned
          have whole : splitOperators literal (offset + c.utf8Size) =
              scanMarks operatorMarks (offset + c.utf8Size) literal :=
            orEmptyTerm_of_ne_nil _ (scanMarks_ne_nil _ _ nonempty)
          have longer : splitOperators (c :: literal) offset =
              putMarked operatorMarks c offset
                (scanMarks operatorMarks (offset + c.utf8Size) literal) :=
            orEmptyTerm_of_ne_nil _ (scanMarks_ne_nil operatorMarks offset (List.cons_ne_nil c _))
          rw [consTermChar, List.flatMap_cons, List.flatMap_cons, splitTerm, splitTerm, whole,
            longer, putMarked_append _ _ _ (scanMarks_ne_nil _ _ nonempty)]
        | plus => rw [putMarked_of_not_term _ _ _ (by simp [splitTerm]), ← single]; rfl
        | star => rw [putMarked_of_not_term _ _ _ (by simp [splitTerm]), ← single]; rfl
        | negativeOne => rw [putMarked_of_not_term _ _ _ (by simp [splitTerm]), ← single]; rfl

/-- The tokens of a run come from one scan for all signs. -/
theorem tokenize_eq_scanMarks (text : Text) (offset : Nat) :
    tokenize text offset = orEmptyTerm offset (scanMarks signMarks offset text) := by
  have passes : tokenize text offset = (expandSubtraction text offset).flatMap splitTerm := rfl
  rw [passes, expandSubtraction]
  cases text with
  | nil => rfl
  | cons c rest =>
    have nonempty : c :: rest ≠ [] := List.cons_ne_nil c rest
    rw [orEmptyTerm_of_ne_nil offset (scanMarks_ne_nil _ _ nonempty), flatMap_splitTerm_scanMarks,
      orEmptyTerm_of_ne_nil offset (scanMarks_ne_nil _ _ nonempty)]

/-! ## The tokens of a layout -/

/-- The first character of a run is put in front of the scan of the others. -/
theorem tokenize_cons (c : Char) (text : Text) (offset : Nat) :
    tokenize (c :: text) offset =
      putMarked signMarks c offset (scanMarks signMarks (offset + c.utf8Size) text) := by
  rw [tokenize_eq_scanMarks, scanMarks_cons, orEmptyTerm_of_ne_nil _ (putMarked_ne_nil _ _ _ _)]

/-- Puts one character of a term in front of the tokens of a scope. -/
def frontTermChar (c : Char) (offset : Nat) : Nested Span Token → Nested Span Token
  | .leaf ⟨.term, literal, _⟩ rest => .leaf ⟨.term, c :: literal, offset⟩ rest
  | later => .leaf ⟨.term, [c], offset⟩ later

/-- Puts one character in front of the tokens of a scope. -/
def frontChar (c : Char) (offset : Nat) (later : Nested Span Token) : Nested Span Token :=
  match signMarks c with
  | [] => frontTermChar c offset later
  | kinds => .leaves (kinds.map (⟨·, [c], offset⟩)) later

/-- Whether a scope begins with a term. -/
def beginsWithTerm : Nested Span Token → Bool
  | .leaf token _ => token.kind == .term
  | _ => false

/-- A sign in front gives its tokens. -/
theorem frontChar_sign (sign : Sign) (offset : Nat) (later : Nested Span Token) :
    frontChar sign.char offset later = .leaves (sign.tokens offset) later := by
  cases sign <;> rfl

/-- A character that is not a separator joins a term. -/
theorem frontChar_term {c : Char} (plain : c ∉ separators) (offset place : Nat) (literal : Text)
    (later : Nested Span Token) :
    frontChar c offset (.leaf ⟨.term, literal, place⟩ later) =
      .leaf ⟨.term, c :: literal, offset⟩ later := by
  rw [frontChar, signMarks_eq_nil plain]
  rfl

/-- A character of a term begins one where none begins. -/
theorem frontTermChar_of_not_term (c : Char) (offset : Nat) {later : Nested Span Token}
    (apart : beginsWithTerm later = false) :
    frontTermChar c offset later = .leaf ⟨.term, [c], offset⟩ later := by
  cases later with
  | nil => rfl
  | leaf token rest =>
    obtain ⟨kind, literal, place⟩ := token
    cases kind with
    | term => cases apart
    | plus => rfl
    | star => rfl
    | negativeOne => rfl
  | group span inner rest => rfl

/-- A character that is not a separator begins a term where none begins. -/
theorem frontChar_of_not_term {c : Char} (plain : c ∉ separators) (offset : Nat)
    {later : Nested Span Token} (apart : beginsWithTerm later = false) :
    frontChar c offset later = .leaf ⟨.term, [c], offset⟩ later := by
  rw [frontChar, signMarks_eq_nil plain]
  exact frontTermChar_of_not_term c offset apart

/-- A character in front of the first tokens of a scope is one in front of the scope. -/
theorem leaves_putMarked (c : Char) (offset : Nat) (tokens : List Token)
    {later : Nested Span Token} (apart : tokens = [] → beginsWithTerm later = false) :
    .leaves (putMarked signMarks c offset tokens) later =
      frontChar c offset (.leaves tokens later) := by
  cases kinds : signMarks c with
  | nil =>
    rw [putMarked_of_nil kinds, frontChar, kinds]
    cases tokens with
    | nil => exact (frontTermChar_of_not_term c offset (apart rfl)).symm
    | cons first tokens =>
      obtain ⟨kind, literal, place⟩ := first
      cases kind <;> rfl
  | cons kind kinds' =>
    rw [putMarked_of_cons kinds, frontChar, kinds]
    simp only [Nested.leaves, List.map_cons, List.foldr_cons, List.foldr_append]

namespace Layout

/-- The tokens of a layout that stands at an offset. -/
def tokens (offset : Nat) (layout : Layout) : Nested Span Token := (layout.segments offset).tokens

/-- A run at the beginning of the segments of a layout stands at its offset, has at least one
character, and is not followed by another run. -/
theorem segments_leaf {offset : Nat} {layout : Layout} {run : Run} {rest : Segments}
    (begins : layout.segments offset = .leaf run rest) :
    run.offset = offset ∧ run.text ≠ [] ∧ beginsWithTerm rest.tokens = false := by
  induction layout generalizing offset run rest with
  | nil => cases begins
  | leaf c later ih =>
    rw [segments] at begins
    cases following : segments (offset + c.val.utf8Size) later with
    | nil =>
      rw [following] at begins
      cases begins
      exact ⟨rfl, List.cons_ne_nil _ _, rfl⟩
    | leaf run' rest' =>
      rw [following] at begins
      cases begins
      exact ⟨rfl, List.cons_ne_nil _ _, (ih following).2.2⟩
    | group span inner rest' =>
      rw [following] at begins
      cases begins
      exact ⟨rfl, List.cons_ne_nil _ _, rfl⟩
  | group mark inner later ihInner ihLater => cases begins

@[simp] theorem tokens_nil (offset : Nat) : tokens offset .nil = .nil := rfl

/-- The first character of a layout is put in front of the tokens of the others. -/
@[simp] theorem tokens_leaf (offset : Nat) (c : PlainChar) (rest : Layout) :
    tokens offset (.leaf c rest) =
      frontChar c.val offset (tokens (offset + c.val.utf8Size) rest) := by
  rw [tokens, tokens, segments]
  -- the character joins the run that begins after it, or is a run of its own
  cases following : segments (offset + c.val.utf8Size) rest with
  | nil =>
    have alone : Segments.tokens (.leaf ⟨[c.val], offset⟩ .nil) =
        .leaves (tokenize [c.val] offset) .nil := rfl
    rw [Segments.consChar, alone, tokenize_cons, leaves_putMarked _ _ _ (fun _ => rfl)]
    · rfl
    · intros
      contradiction
  | leaf run later =>
    obtain ⟨place, nonempty, apart⟩ := segments_leaf following
    have longer : Segments.tokens (.leaf ⟨c.val :: run.text, offset⟩ later) =
        .leaves (tokenize (c.val :: run.text) offset) (Segments.tokens later) := rfl
    have before : Segments.tokens (.leaf run later) =
        .leaves (tokenize run.text run.offset) (Segments.tokens later) := rfl
    rw [Segments.consChar, longer, before, tokenize_cons, leaves_putMarked _ _ _ (fun _ => apart),
      tokenize_eq_scanMarks, place, orEmptyTerm_of_ne_nil _ (scanMarks_ne_nil _ _ nonempty)]
  | group span inner later =>
    have alone : Segments.tokens (.leaf ⟨[c.val], offset⟩ (.group span inner later)) =
        .leaves (tokenize [c.val] offset) (Segments.tokens (.group span inner later)) := rfl
    rw [Segments.consChar, alone, tokenize_cons, leaves_putMarked _ _ _ (fun _ => rfl)]
    · rfl
    · intros
      contradiction

/-- The tokens of a scope with a given layout. A scope with nothing in it has one empty term. -/
def scopeTokens (offset : Nat) (layout : Layout) : Nested Span Token :=
  ((layout.segments offset).orEmptyRun offset).tokens

/-- A scope that is not empty has the tokens of its layout. -/
theorem scopeTokens_of_ne_nil (offset : Nat) {layout : Layout} (nonempty : layout ≠ .nil) :
    layout.scopeTokens offset = layout.tokens offset := by
  cases layout with
  | nil => exact absurd rfl nonempty
  | leaf c rest =>
    rw [scopeTokens, tokens, segments]
    cases segments (offset + c.val.utf8Size) rest <;> rfl
  | group mark inner rest => rfl

@[simp] theorem tokens_group (offset : Nat) (mark : Unit) (inner rest : Layout) :
    tokens offset (.group mark inner rest) =
      .group ⟨offset, inner.text.byteSize + 2⟩ (inner.scopeTokens (offset + 1))
        (tokens (offset + inner.text.byteSize + 2) rest) := rfl

end Layout

/-! ## What is scanned -/

/-- `Scanned offset text tokens` says that `tokens` are those of `text`, which stands at `offset`:
the tokens of each sign, a term for each word, and a group for each text in parentheses. -/
inductive Scanned : Nat → Text → Nested Span Token → Prop where
  /-- There is nothing to scan. -/
  | nil (offset : Nat) : Scanned offset [] .nil
  /-- A sign comes first. -/
  | sign {offset : Nat} {text : Text} {tokens : Nested Span Token} (sign : Sign)
      (later : Scanned (offset + 1) text tokens) :
      Scanned offset (sign.char :: text) (.leaves (sign.tokens offset) tokens)
  /-- A word comes first. The next thing is not a word. -/
  | word {offset : Nat} {text : Text} {tokens : Nested Span Token} (word : Word)
      (apart : beginsWithTerm tokens = false)
      (later : Scanned (offset + word.text.byteSize) text tokens) :
      Scanned offset (word.text ++ text) (.leaf ⟨.term, word.text, offset⟩ tokens)
  /-- A pair of parentheses with nothing in it comes first. It holds an empty term. -/
  | emptyGroup {offset : Nat} {text : Text} {tokens : Nested Span Token}
      (later : Scanned (offset + 2) text tokens) :
      Scanned offset ('(' :: ')' :: text)
        (.group ⟨offset, 2⟩ (.leaf ⟨.term, [], offset + 1⟩ .nil) tokens)
  /-- A text in parentheses comes first. -/
  | group {offset : Nat} {inner text : Text} {innerTokens tokens : Nested Span Token}
      (nonempty : inner ≠ []) (within : Scanned (offset + 1) inner innerTokens)
      (later : Scanned (offset + inner.byteSize + 2) text tokens) :
      Scanned offset ('(' :: (inner ++ ')' :: text))
        (.group ⟨offset, inner.byteSize + 2⟩ innerTokens tokens)

namespace Scanned

/-- A character in front is scanned with what follows it. -/
theorem frontChar {offset : Nat} {text : Text} {tokens : Nested Span Token} (c : PlainChar)
    (later : Scanned (offset + c.val.utf8Size) text tokens) :
    Scanned offset (c.val :: text) (ComplexReckoner.frontChar c.val offset tokens) := by
  rcases c.sign_or_plain with ⟨sign, isSign⟩ | plain
  · rw [isSign, Sign.utf8Size_char] at later
    rw [isSign, frontChar_sign]
    exact .sign sign later
  · -- alone, the character is a word of its own
    have alone : ∀ {offset : Nat} {text : Text} {tokens : Nested Span Token},
        Scanned (offset + c.val.utf8Size) text tokens → beginsWithTerm tokens = false →
          Scanned offset (c.val :: text) (ComplexReckoner.frontChar c.val offset tokens) := by
      intro offset text tokens later apart
      rw [frontChar_of_not_term plain offset apart]
      exact .word ⟨[c.val], List.cons_ne_nil _ _, by simpa using plain⟩ apart later
    cases later with
    | nil => exact alone (.nil _) rfl
    | sign sign later => exact alone (.sign sign later) (by cases sign <;> rfl)
    | word word apart later =>
      -- the character and the word are one longer word
      rw [frontChar_term plain]
      have plainAll : ∀ d ∈ c.val :: word.text, d ∉ separators := by
        intro d member
        rcases List.mem_cons.1 member with rfl | inWord
        · exact plain
        · exact word.plain d inWord
      rw [Nat.add_assoc] at later
      exact .word ⟨c.val :: word.text, List.cons_ne_nil _ _, plainAll⟩ apart later
    | emptyGroup later => exact alone (.emptyGroup later) rfl
    | group nonempty within later => exact alone (.group nonempty within later) rfl

end Scanned

namespace Layout

/-- Only the empty layout has no text. -/
theorem text_eq_nil_iff (layout : Layout) : layout.text = [] ↔ layout = .nil := by
  cases layout with
  | nil => exact ⟨fun _ => rfl, fun _ => rfl⟩
  | leaf c rest => exact ⟨fun empty => (List.cons_ne_nil _ _ empty).elim, nofun⟩
  | group mark inner rest => exact ⟨fun empty => (List.cons_ne_nil _ _ empty).elim, nofun⟩

/-- The tokens of a layout are those of its text. -/
theorem scanned_tokens (offset : Nat) (layout : Layout) :
    Scanned offset layout.text (layout.tokens offset) := by
  induction layout generalizing offset with
  | nil => exact .nil offset
  | leaf c rest ih =>
    rw [text_leaf, tokens_leaf]
    exact (ih (offset + c.val.utf8Size)).frontChar c
  | group mark inner rest ihInner ihRest =>
    rw [text_group, tokens_group]
    by_cases empty : inner = .nil
    · subst empty
      exact .emptyGroup (ihRest (offset + 2))
    · rw [scopeTokens_of_ne_nil _ empty]
      exact .group (mt (text_eq_nil_iff inner).1 empty) (ihInner (offset + 1)) (ihRest _)

end Layout

/-- The tokens of a text that is decomposed are those that are scanned. A text without characters
has one empty term instead. -/
theorem scanned_of_decomposeWithin {limit : Nat} {text : Text} {segments : Segments}
    (decomposed : decomposeWithin limit text = .ok segments) :
    text = [] ∧ segments.tokens = .leaf ⟨.term, [], 0⟩ .nil ∨
      text ≠ [] ∧ Scanned 0 text segments.tokens := by
  obtain ⟨layout, rfl, -, rfl⟩ := (decomposeWithin_eq_ok_iff _ _ _).1 decomposed
  by_cases empty : layout = .nil
  · subst empty
    exact Or.inl ⟨rfl, rfl⟩
  · refine Or.inr ⟨mt layout.text_eq_nil_iff.1 empty, ?_⟩
    have sameTokens : Segments.tokens ((layout.segments 0).orEmptyRun 0) = layout.tokens 0 :=
      Layout.scopeTokens_of_ne_nil 0 empty
    rw [sameTokens]
    exact layout.scanned_tokens 0

end ComplexReckoner
