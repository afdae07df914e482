import Mathlib.Data.List.Chain
import Mathlib.Data.List.DropRight
import Mathlib.Data.List.Induction
import ComplexReckoner.Proofs.Canonical
import ComplexReckoner.Proofs.Tokens

/-! # The pieces of a scope

A scope can be seen as a sequence of pieces, which are its single characters and its groups. Signs
and groups among them can stand in places where they do not make an expression (`Misshapen`): there
may be no piece at all, or a sign at the edge, or neighbours that clash.

The leftmost neighbours that clash are found in one pass over the pieces (`Piece.clashFault?`), and
`Piece.clashFault?_eq_some_iff` says that these are blamed. -/

namespace ComplexReckoner

/-! ## Pieces -/

/-- A piece of a scope. -/
inductive Piece where
  /-- A character outside the groups of the scope. -/
  | character (c : Char)
  /-- A group, with the text in its parentheses. -/
  | group (inner : Text)
  deriving DecidableEq, Repr

/-- The pieces of a scope. -/
def Segments.pieces : Segments → List Piece
  | .nil => []
  | .leaf run rest => run.text.map .character ++ pieces rest
  | .group _ inner rest => .group (flatten inner) :: pieces rest

namespace Piece

/-- The text of a piece. -/
def text : Piece → Text
  | character c => [c]
  | group inner => '(' :: (inner ++ [')'])

/-- Whether a piece is a group. -/
def isGroup : Piece → Bool
  | character _ => false
  | group _ => true

/-- Whether a piece is a sign. -/
def isSign : Piece → Bool
  | character c => c == '+' || c == '-' || c == '*'
  | group _ => false

/-- Whether a piece is a character other than a sign. -/
def inTerm (piece : Piece) : Bool := !piece.isGroup && !piece.isSign

/-- The text of pieces one after the other. -/
def texts (pieces : List Piece) : Text := pieces.flatMap text

/-- The number of bytes of pieces one after the other. -/
def bytes (pieces : List Piece) : Nat := Text.byteSize (texts pieces)

/-- Whether two neighbours clash: they are two signs, or one is a group and the other one is not a
sign. -/
def Clash (first second : Piece) : Prop :=
  first.isSign = true ∧ second.isSign = true ∨
    first.isGroup = true ∧ second.isSign = false ∨ first.isSign = false ∧ second.isGroup = true

instance (first second : Piece) : Decidable (Clash first second) :=
  inferInstanceAs (Decidable (_ ∨ _))

/-- What is wrong with neighbours that clash, between the pieces before and after them, and the
stretch of text that is blamed: the second of two signs, the longest stretch without a sign that
touches a group, or the whole scope for two groups. -/
def blame (scope : Span) (start : Nat) (before : List Piece) (first second : Piece)
    (after : List Piece) : Shape × Span :=
  match first, second with
  | character _, character _ =>
      (.consecutiveOperators, .ofText (start + bytes (before ++ [first])) second.text)
  | character _, group _ =>
      (.missingOperator, .ofText (start + bytes ((before ++ [first]).rdropWhile inTerm))
        (texts ((before ++ [first]).rtakeWhile inTerm)))
  | group _, character _ =>
      (.missingOperator, .ofText (start + bytes (before ++ [first]))
        (texts ((second :: after).takeWhile inTerm)))
  | group _, group _ => (.missingOperator, scope)

end Piece

/-! ## Misshapen pieces -/

open Piece in
/-- Whether pieces that stand at an offset have a shape that is wrong, and what is blamed for it. -/
inductive Misshapen (scope : Span) (start : Nat) : List Piece → Shape → Span → Prop where
  /-- There is no piece. -/
  | empty : Misshapen scope start [] .emptyScope scope
  /-- The first piece is a sign. -/
  | leading {first : Piece} {rest : List Piece} (sign : first.isSign = true) :
      Misshapen scope start (first :: rest) .leadingOperator (.ofText start first.text)
  /-- The last piece is a sign, but the first one is not. -/
  | trailing {before : List Piece} {last : Piece}
      (begins : ∀ piece ∈ (before ++ [last]).head?, piece.isSign = false)
      (sign : last.isSign = true) :
      Misshapen scope start (before ++ [last]) .trailingOperator
        (.ofText (start + bytes before) last.text)
  /-- Two neighbours clash, the leftmost that do, and neither the first nor the last piece is a
  sign. -/
  | clash {before : List Piece} {first second : Piece} {after : List Piece}
      (begins : ∀ piece ∈ (before ++ first :: second :: after).head?, piece.isSign = false)
      (ends : ∀ piece ∈ (before ++ first :: second :: after).getLast?, piece.isSign = false)
      (clashes : Clash first second)
      (leftmost : (before ++ [first]).IsChain fun one next => ¬ Clash one next) :
      Misshapen scope start (before ++ first :: second :: after)
        (blame scope start before first second after).1
        (blame scope start before first second after).2

/-- Without pieces a scope is empty, and nothing else is wrong. -/
theorem misshapen_nil_iff {scope : Span} {start : Nat} {shape : Shape} {span : Span} :
    Misshapen scope start [] shape span ↔ shape = .emptyScope ∧ span = scope := by
  constructor
  · generalize none : ([] : List Piece) = pieces
    intro misshapen
    cases misshapen with
    | empty => exact ⟨rfl, rfl⟩
    | leading sign => cases none
    | trailing begins sign => simp at none
    | clash begins ends clashes leftmost => simp at none
  · rintro ⟨rfl, rfl⟩
    exact .empty

namespace Piece

/-! ## Texts and sizes -/

@[simp] theorem texts_append (pieces others : List Piece) :
    texts (pieces ++ others) = texts pieces ++ texts others := List.flatMap_append

@[simp] theorem bytes_nil : bytes [] = 0 := rfl

@[simp] theorem bytes_append (pieces others : List Piece) :
    bytes (pieces ++ others) = bytes pieces + bytes others := by
  simp [bytes]

@[simp] theorem bytes_cons (piece : Piece) (others : List Piece) :
    bytes (piece :: others) = piece.text.byteSize + bytes others := by
  simp [bytes, texts]

/-- Single characters have the text that they come from. -/
@[simp] theorem texts_map_character (text : Text) : texts (text.map character) = text := by
  induction text with
  | nil => rfl
  | cons c rest ih => exact congrArg (c :: ·) ih

@[simp] theorem bytes_map_character (text : Text) :
    bytes (text.map character) = text.byteSize := by
  rw [bytes, texts_map_character]

/-- A sign takes one byte. -/
@[simp] theorem bytes_sign (sign : Sign) : bytes [.character sign.char] = 1 := by
  simp [text]

/-- A group takes two bytes more than the text in its parentheses. -/
@[simp] theorem bytes_group (inner : Text) : bytes [.group inner] = inner.byteSize + 2 := by
  rw [bytes_cons, bytes_nil, Nat.add_zero]
  exact Layout.byteSize_group inner

/-- The pieces of a scope have its text. -/
theorem texts_pieces (segments : Segments) : texts segments.pieces = segments.flatten := by
  induction segments with
  | nil => rfl
  | leaf run rest ih =>
    rw [Segments.pieces, texts_append, texts_map_character, ih, Segments.flatten_leaf]
  | group span inner rest ihInner ihRest =>
    show text (.group (Segments.flatten inner)) ++ texts (Segments.pieces rest) = _
    rw [ihRest, Segments.flatten_group, text, List.cons_append, List.append_assoc]
    rfl

/-! ## Signs and terms -/

/-- The character of a sign is a sign. -/
@[simp] theorem isSign_char (sign : Sign) : (character sign.char).isSign = true := by
  cases sign <;> rfl

@[simp] theorem isGroup_character (c : Char) : (character c).isGroup = false := rfl

@[simp] theorem isSign_group (inner : Text) : (group inner).isSign = false := rfl

@[simp] theorem inTerm_group (inner : Text) : (group inner).inTerm = false := rfl

@[simp] theorem inTerm_char (sign : Sign) : (character sign.char).inTerm = false := by
  simp [inTerm]

/-- A character of a term is a piece in a term. -/
theorem inTerm_character (c : Char) : (character c).inTerm = isTermChar c := by
  rw [Bool.eq_iff_iff, isTermChar_eq_true_iff]
  simp [inTerm, isGroup, isSign, and_assoc]

/-- A piece is in a term when it is neither a group nor a sign. -/
theorem inTerm_eq_true_iff (piece : Piece) :
    piece.inTerm = true ↔ piece.isGroup = false ∧ piece.isSign = false := by
  simp [inTerm]

/-- A character of a term is not a sign. -/
theorem isSign_of_isTermChar {c : Char} (termChar : isTermChar c = true) :
    (character c).isSign = false := by
  rw [← inTerm_character, inTerm_eq_true_iff] at termChar
  exact termChar.2

/-- A character that is not a sign is in a term. -/
theorem inTerm_of_isSign_eq_false {c : Char} (noSign : (character c).isSign = false) :
    (character c).inTerm = true := (inTerm_eq_true_iff _).2 ⟨rfl, noSign⟩

/-- The characters of a term are pieces in a term. -/
theorem inTerm_of_mem_map_character {text : Text} (termChars : ∀ c ∈ text, isTermChar c = true) :
    ∀ piece ∈ text.map character, piece.inTerm = true := by
  intro piece member
  obtain ⟨c, inText, rfl⟩ := List.mem_map.1 member
  rw [inTerm_character]
  exact termChars c inText

/-- A term at the beginning is taken whole, if it does not go on. -/
theorem takeWhile_inTerm_append {front pieces : List Piece}
    (within : ∀ piece ∈ front, piece.inTerm = true)
    (apart : ∀ piece ∈ pieces.head?, piece.inTerm = false) :
    (front ++ pieces).takeWhile inTerm = front := by
  rw [List.takeWhile_append_of_pos within]
  cases pieces with
  | nil => simp
  | cons piece rest => simp [apart piece rfl]

/-- A term at the end is dropped whole, and nothing more, if it does not begin earlier. -/
theorem rdropWhile_inTerm_append {earlier front : List Piece}
    (within : ∀ piece ∈ front, piece.inTerm = true)
    (apart : ∀ piece ∈ earlier.getLast?, piece.inTerm = false) :
    (earlier ++ front).rdropWhile inTerm = earlier := by
  induction front using List.reverseRecOn with
  | nil =>
    rw [List.append_nil, List.rdropWhile_eq_self_iff]
    intro nonempty
    rw [apart _ (List.getLast?_eq_some_getLast nonempty)]
    exact Bool.false_ne_true
  | append_singleton front piece ih =>
    rw [List.forall_mem_append] at within
    rw [← List.append_assoc, List.rdropWhile_concat_pos _ _ _ (within.2 piece (by simp)),
      ih within.1]

/-- A term at the end is taken whole, if it does not begin earlier. -/
theorem rtakeWhile_inTerm_append {earlier front : List Piece}
    (within : ∀ piece ∈ front, piece.inTerm = true)
    (apart : ∀ piece ∈ earlier.getLast?, piece.inTerm = false) :
    (earlier ++ front).rtakeWhile inTerm = front := by
  have split := List.rdropWhile_append_rtakeWhile (p := inTerm) (l := earlier ++ front)
  rw [rdropWhile_inTerm_append within apart] at split
  exact List.append_cancel_left split

/-! ## Signs at the edge -/

/-- What is wrong with a piece at the edge of a scope, at its own offset: it is a sign. -/
def signFault? (shape : Shape) (offset : Nat) (piece? : Option Piece) : Option Fault :=
  (piece?.filter isSign).map fun piece => .malformedExpression shape (.ofText offset piece.text)

/-- A sign at the edge is at fault. -/
theorem signFault?_eq_some_iff {shape : Shape} {offset : Nat} {piece? : Option Piece}
    {fault : Fault} :
    signFault? shape offset piece? = some fault ↔
      ∃ piece ∈ piece?, piece.isSign = true ∧
        .malformedExpression shape (.ofText offset piece.text) = fault := by
  simp only [signFault?, Option.map_eq_some_iff, Option.filter_eq_some_iff, Option.mem_def,
    and_assoc]

/-- Nothing is wrong at the edge without a sign there. -/
theorem signFault?_eq_none_iff {shape : Shape} {offset : Nat} {piece? : Option Piece} :
    signFault? shape offset piece? = none ↔ ∀ piece ∈ piece?, piece.isSign = false := by
  simp [signFault?]

/-! ## Neighbours that clash -/

/-- Pieces that are not both in one term clash when both are signs, or none of them is. -/
theorem clash_iff {first second : Piece}
    (apart : ¬ (first.inTerm = true ∧ second.inTerm = true)) :
    Clash first second ↔ first.isSign = second.isSign := by
  have groupNoSign : ∀ piece : Piece, piece.isGroup = true → piece.isSign = false := by
    rintro (c | inner) isGroup
    · cases isGroup
    · rfl
  have firstGroup := groupNoSign first
  have secondGroup := groupNoSign second
  unfold Clash
  rw [inTerm_eq_true_iff, inTerm_eq_true_iff] at apart
  grind

/-- What is wrong with the leftmost neighbours that clash, when other pieces stand before. -/
def clashFault? (scope : Span) (start : Nat) (earlier : List Piece) :
    List Piece → Option (Shape × Span)
  | first :: second :: rest =>
      if Clash first second then some (blame scope start earlier first second rest)
      else clashFault? scope start (earlier ++ [first]) (second :: rest)
  | _ => none

/-- Pieces begin in the same way when some are left out at their end. -/
theorem head?_append_singleton (before : List Piece) (piece : Piece) (after : List Piece) :
    (before ++ [piece]).head? = (before ++ piece :: after).head? := by
  cases before <;> rfl

/-- The leftmost neighbours that clash are blamed. -/
theorem clashFault?_eq_some_iff {scope : Span} {start : Nat} {earlier pieces : List Piece}
    {blamed : Shape × Span} :
    clashFault? scope start earlier pieces = some blamed ↔
      ∃ before first second after, pieces = before ++ first :: second :: after ∧
        Clash first second ∧ ((before ++ [first]).IsChain fun one next => ¬ Clash one next) ∧
          blamed = blame scope start (earlier ++ before) first second after := by
  fun_induction clashFault? scope start earlier pieces with
  | case1 earlier first second rest clashes =>
    constructor
    · intro found
      refine ⟨[], first, second, rest, rfl, clashes, List.isChain_singleton _, ?_⟩
      rw [List.append_nil, Option.some.inj found]
    · rintro ⟨before, one, next, after, split, -, leftmost, rfl⟩
      cases before with
      | nil =>
        cases split
        rw [List.append_nil]
      | cons piece before =>
        -- the first two would clash to the left of the leftmost ones
        rw [List.cons_append, List.cons.injEq] at split
        obtain ⟨rfl, later⟩ := split
        rw [List.cons_append, List.isChain_cons, head?_append_singleton before one (next :: after),
          ← later] at leftmost
        exact absurd clashes (leftmost.1 second rfl)
  | case2 earlier first second rest apart ih =>
    rw [ih]
    constructor
    · rintro ⟨before, one, next, after, split, clashes, leftmost, rfl⟩
      refine ⟨first :: before, one, next, after, by rw [split]; rfl, clashes, ?_, by simp⟩
      rw [List.cons_append, List.isChain_cons, head?_append_singleton, ← split]
      refine ⟨?_, leftmost⟩
      rintro piece ⟨rfl⟩
      exact apart
    · rintro ⟨before, one, next, after, split, clashes, leftmost, rfl⟩
      cases before with
      | nil =>
        cases split
        exact absurd clashes apart
      | cons piece before =>
        obtain ⟨rfl, later⟩ := List.cons.inj split
        exact ⟨before, one, next, after, later, clashes, leftmost.tail, by simp⟩
  | case3 earlier pieces short =>
    refine ⟨nofun, ?_⟩
    rintro ⟨before, first, second, after, rfl, -⟩
    match before with
    | [] => exact absurd rfl (short _ _ _)
    | [piece] => exact absurd rfl (short _ _ _)
    | piece :: other :: before => exact absurd rfl (short _ _ _)

/-- A piece that does not clash with the next one is left behind. -/
theorem clashFault?_cons {scope : Span} {start : Nat} {earlier rest : List Piece} {first : Piece}
    (apart : ∀ second ∈ rest.head?, ¬ Clash first second) :
    clashFault? scope start earlier (first :: rest) =
      clashFault? scope start (earlier ++ [first]) rest := by
  cases rest with
  | nil => rfl
  | cons second rest => rw [clashFault?, if_neg (apart second rfl)]

/-- There is no clash along the characters of a term. -/
theorem clashFault?_term {scope : Span} {start : Nat} {earlier pieces : List Piece} {text : Text}
    {last : Char} (termChars : ∀ c ∈ text ++ [last], isTermChar c = true) :
    clashFault? scope start earlier ((text ++ [last]).map character ++ pieces) =
      clashFault? scope start (earlier ++ text.map character) (character last :: pieces) := by
  induction text generalizing earlier with
  | nil => simp
  | cons c text ih =>
    obtain ⟨here, termCharsLater⟩ := List.forall_mem_cons.1 termChars
    have apart : ∀ second ∈ ((text ++ [last]).map character ++ pieces).head?,
        ¬ Clash (character c) second := by
      intro second isNext
      rw [List.head?_append_of_ne_nil _ (by simp)] at isNext
      have within := inTerm_of_mem_map_character termCharsLater second
        (List.mem_of_mem_head? isNext)
      have noSign := isSign_of_isTermChar here
      rw [inTerm_eq_true_iff] at within
      simp [Clash, within, noSign]
    rw [List.cons_append, List.map_cons, List.cons_append, clashFault?_cons apart,
      ih termCharsLater]
    simp

end Piece

end ComplexReckoner
