import ComplexReckoner.Proofs.Pieces
import ComplexReckoner.Proofs.Priority

/-! # The shape of a scope

Whether a scope is in shape is checked on its items, where a `-` is three tokens and a term is one.
It is told from its pieces as well, the single characters and the groups.

* `Laid` ties the pieces of a scope to its items, and `Laid.of_regular` says that they are so tied
  in a text that is decomposed,
* `Laid.leading` and `Laid.trailing` compare the edges, and `Laid.neighbours` the leftmost items
  that do not alternate with the leftmost pieces that clash,
* `Laid.shapeFault?_eq_some_iff` says that a scope is at fault exactly when its pieces are
  misshapen. -/

namespace ComplexReckoner

open Piece

/-! ## The items that pieces stand for -/

variable {α : Type}

/-- Which items are there for pieces that stand at an offset: the tokens of a sign, one term for the
characters up to the next sign or group, and one group for a group. -/
inductive Laid : Nat → List Piece → List (Slot α) → Prop where
  /-- There is no piece. -/
  | nil (offset : Nat) : Laid offset [] []
  /-- A sign comes first. -/
  | sign {offset : Nat} {pieces : List Piece} {slots : List (Slot α)} (sign : Sign)
      (later : Laid (offset + bytes [.character sign.char]) pieces slots) :
      Laid offset (.character sign.char :: pieces) ((sign.scanned offset).map .token ++ slots)
  /-- The characters of a term come first. -/
  | term {offset : Nat} {text : Text} {pieces : List Piece} {slots : List (Slot α)}
      (nonempty : text ≠ []) (inTerm : ∀ c ∈ text, isTermChar c = true)
      (apart : ∀ piece ∈ pieces.head?, piece.inTerm = false)
      (later : Laid (offset + bytes (text.map .character)) pieces slots) :
      Laid offset (text.map .character ++ pieces) (.token ⟨.term, text, offset⟩ :: slots)
  /-- A group comes first. -/
  | group {offset : Nat} {pieces : List Piece} {slots : List (Slot α)} (inner : Text)
      (later : Laid (offset + bytes [.group inner]) pieces slots) :
      Laid offset (.group inner :: pieces) (.group .nil :: slots)

namespace Laid

variable {offset start : Nat} {pieces earlier : List Piece} {slots : List (Slot α)} {scope : Span}

/-- The characters of a run are laid in front of a group, or at the end. -/
theorem behind_run {text : Text} (apart : ∀ piece ∈ pieces.head?, piece.inTerm = false)
    (later : Laid (offset + text.byteSize) pieces slots) :
    Laid offset (text.map .character ++ pieces) ((scan offset text).map .token ++ slots) := by
  fun_induction scan offset text with
  | case1 offset => exact later
  | case2 offset c rest sign found ih =>
    rw [Sign.eq_char_of_ofChar? found] at later ⊢
    rw [Text.byteSize_cons, Sign.utf8Size_char, ← Nat.add_assoc] at later
    rw [List.map_append, List.append_assoc]
    refine .sign sign ?_
    rw [bytes_sign]
    exact ih later
  | case3 offset c rest none stretch ih =>
    rw [stretch_append_dropWhile c rest, Text.byteSize_append, ← Nat.add_assoc] at later
    rw [stretch_append_dropWhile c rest, List.map_append, List.append_assoc]
    refine .term (List.cons_ne_nil _ _) (fun d member => isTermChar_of_mem_stretch none member) ?_
      ?_
    · -- behind the term comes the next sign of the run, or what follows the run
      cases left : rest.dropWhile isTermChar with
      | nil => exact apart
      | cons d rest =>
        rintro piece ⟨rfl⟩
        rw [inTerm_character]
        exact isTermChar_of_head?_dropWhile (by rw [left]; rfl)
    · rw [bytes_map_character]
      exact ih later

/-- The items of regular segments that tell where they stand are laid by their pieces. -/
theorem of_regular {before : Text} {segments : Segments} (regular : segments.Regular)
    (placed : segments.PlacedAfter before) :
    Laid before.byteSize segments.pieces (segments.slots : List (Slot α)) := by
  induction segments generalizing before with
  | nil => exact .nil _
  | leaf run rest ih =>
    obtain ⟨nonempty, -, apart, regularRest⟩ := regular
    obtain ⟨place, placedRest⟩ := (Segments.placedAfter_leaf _ _ _).1 placed
    have later := ih regularRest placedRest
    rw [Text.byteSize_append] at later
    rw [Segments.pieces, Segments.slots, tokenize_eq_scan nonempty, place]
    refine behind_run ?_ later
    cases rest with
    | nil => simp [Segments.pieces]
    | leaf other rest => cases apart
    | group span inner rest => simp [Segments.pieces]
  | group span inner rest ihInner ihRest =>
    obtain ⟨-, -, placedRest⟩ := (Segments.placedAfter_group _ _ _ _).1 placed
    have later := ihRest regular.2 placedRest
    rw [Layout.byteSize_append_group, Nat.add_assoc, ← bytes_group] at later
    exact .group _ later

/-- No item is an empty term. -/
theorem isVacant_eq_false (laid : Laid offset pieces slots) :
    ∀ slot ∈ slots, slot.isVacant = false := by
  induction laid with
  | nil offset => simp
  | sign sign later ih =>
    rw [List.forall_mem_append]
    refine ⟨?_, ih⟩
    cases sign <;> simp [Sign.scanned, Slot.isVacant]
  | term nonempty inTerm apart later ih =>
    rw [List.forall_mem_cons]
    exact ⟨by simpa [Slot.isVacant] using nonempty, ih⟩
  | group inner later ih => exact List.forall_mem_cons.2 ⟨rfl, ih⟩

/-- There are no items exactly when there are no pieces. -/
theorem eq_nil_iff (laid : Laid offset pieces slots) : slots = [] ↔ pieces = [] := by
  cases laid with
  | nil offset => simp
  | sign sign later => cases sign <;> simp [Sign.scanned]
  | term nonempty inTerm apart later => simp [nonempty]
  | group inner later => simp

/-- An operator at the beginning comes from a sign there. -/
theorem leading (laid : Laid offset pieces slots) :
    edgeFault? .leadingOperator slots.head? =
      signFault? .leadingOperator offset pieces.head? := by
  cases laid with
  | nil offset => rfl
  | sign sign later => cases sign <;> rfl
  | @term offset text pieces slots nonempty termChars apart later =>
    obtain ⟨c, rest, rfl⟩ := List.exists_cons_of_ne_nil nonempty
    apply Eq.symm
    rw [List.map_cons, List.cons_append, List.head?_cons]
    apply signFault?_eq_none_iff.2
    rintro piece ⟨rfl⟩
    exact isSign_of_isTermChar (termChars c List.mem_cons_self)
  | group inner later => rfl

/-- What is at the end is told by the last of the pieces that come later, if there are any. -/
theorem trailing_append {front : List Piece} {frontSlots : List (Slot α)}
    (alone : edgeFault? .trailingOperator frontSlots.getLast? =
      signFault? .trailingOperator (offset + bytes front.dropLast) front.getLast?)
    (later : Laid (offset + bytes front) pieces slots)
    (ends : edgeFault? .trailingOperator slots.getLast? =
      signFault? .trailingOperator (offset + bytes front + bytes pieces.dropLast)
        pieces.getLast?) :
    edgeFault? .trailingOperator (frontSlots ++ slots).getLast? =
      signFault? .trailingOperator (offset + bytes (front ++ pieces).dropLast)
        (front ++ pieces).getLast? := by
  by_cases none : pieces = []
  · rw [none, later.eq_nil_iff.2 none, List.append_nil, List.append_nil, alone]
  · rw [List.getLast?_append_of_ne_nil _ (later.eq_nil_iff.not.2 none), ends,
      List.getLast?_append_of_ne_nil _ none, List.dropLast_append_of_ne_nil none, bytes_append,
      Nat.add_assoc]

/-- An operator at the end comes from a sign there. -/
theorem trailing (laid : Laid offset pieces slots) :
    edgeFault? .trailingOperator slots.getLast? =
      signFault? .trailingOperator (offset + bytes pieces.dropLast) pieces.getLast? := by
  induction laid with
  | nil offset => rfl
  | sign sign later ih =>
    refine trailing_append ?_ later ih
    cases sign <;> rfl
  | @term offset text pieces slots nonempty termChars apart later ih =>
    have alone : edgeFault? .trailingOperator
        ([.token ⟨.term, text, offset⟩] : List (Slot α)).getLast? =
          signFault? .trailingOperator (offset + bytes (text.map character).dropLast)
            (text.map character).getLast? := by
      apply Eq.symm
      apply signFault?_eq_none_iff.2
      intro piece isLast
      have within := inTerm_of_mem_map_character termChars piece (List.mem_of_getLast? isLast)
      rw [inTerm_eq_true_iff] at within
      exact within.2
    exact trailing_append alone later ih
  | @group offset pieces slots inner later ih =>
    have alone : edgeFault? .trailingOperator ([.group .nil] : List (Slot α)).getLast? =
        signFault? .trailingOperator (offset + bytes [Piece.group inner].dropLast)
          [Piece.group inner].getLast? := rfl
    exact trailing_append alone later ih

end Laid

/-! ## Neighbours -/

/-- The fault of a shape and of what is blamed for it. -/
def Fault.ofShape (blamed : Shape × Span) : Fault := .malformedExpression blamed.1 blamed.2

/-- Whether an item begins with a piece that stands at an offset, before other pieces. -/
structure Slot.BeginsWith (slot : Slot α) (offset : Nat) (piece : Piece) (after : List Piece) :
    Prop where
  operator : slot.isOperator = piece.isSign
  group : piece.isGroup = true → slot.span? = none
  sign : piece.isSign = true → slot.span? = some (.ofText offset piece.text)
  term : piece.inTerm = true →
    slot.span? = some (.ofText offset (texts ((piece :: after).takeWhile inTerm)))

/-- Whether an item ends with a piece that comes behind other pieces, the first of which stands at
an offset. -/
structure Slot.EndsWith (slot : Slot α) (start : Nat) (before : List Piece) (piece : Piece) :
    Prop where
  operator : slot.isOperator = piece.isSign
  group : piece.isGroup = true → slot.span? = none
  term : piece.inTerm = true →
    slot.span? = some (.ofText (start + bytes ((before ++ [piece]).rdropWhile inTerm))
      (texts ((before ++ [piece]).rtakeWhile inTerm)))

/-- Neighbours among items are at fault when the pieces clash where they meet. -/
theorem neighbourFault?_of_pieces {scope : Span} {start : Nat} {before after : List Piece}
    {first second : Piece} {one next : Slot α} (ends : one.EndsWith start before first)
    (begins : next.BeginsWith (start + bytes (before ++ [first])) second after)
    (apart : ¬ (first.inTerm = true ∧ second.inTerm = true)) :
    neighbourFault? scope one next =
      if Clash first second then some (.ofShape (blame scope start before first second after))
      else none := by
  by_cases clashes : Clash first second
  · rw [if_pos clashes]
    rw [clash_iff apart] at clashes
    unfold neighbourFault?
    rw [ends.operator, begins.operator, clashes]
    match first, second with
    | .character c, .character d =>
      -- not both are in a term, so both are signs
      have isSign : (character d).isSign = true := by
        by_contra noSign
        rw [Bool.not_eq_true] at noSign
        exact apart ⟨inTerm_of_isSign_eq_false (clashes.trans noSign),
          inTerm_of_isSign_eq_false noSign⟩
      rw [isSign, begins.sign isSign]
      rfl
    | .character c, .group inner =>
      rw [isSign_group, ends.term (inTerm_of_isSign_eq_false clashes)]
      rfl
    | .group inner, .character d =>
      have noSign : (character d).isSign = false := clashes.symm
      rw [noSign, ends.group rfl, begins.term (inTerm_of_isSign_eq_false noSign)]
      rfl
    | .group inner, .group other =>
      rw [isSign_group, ends.group rfl, begins.group rfl]
      rfl
  · rw [if_neg clashes, neighbourFault?_eq_none_iff, ends.operator, begins.operator]
    rw [clash_iff apart] at clashes
    exact Bool.eq_not.2 (Ne.symm clashes)

namespace Laid

variable {offset start : Nat} {pieces earlier : List Piece} {slots : List (Slot α)} {scope : Span}

/-- The first item begins with the first piece. -/
theorem front {piece : Piece} (laid : Laid offset (piece :: pieces) slots) :
    ∃ slot rest, slots = slot :: rest ∧ slot.BeginsWith offset piece pieces := by
  generalize whole : piece :: pieces = all at laid
  cases laid with
  | nil offset => cases whole
  | sign sign later =>
    cases whole
    cases sign <;> exact ⟨_, _, rfl, rfl, by simp, fun _ => rfl, by simp⟩
  | @term offset text later slots nonempty termChars apart rest =>
    have stretch := takeWhile_inTerm_append (inTerm_of_mem_map_character termChars) apart
    have inText : piece ∈ text.map character := by
      obtain ⟨c, text, rfl⟩ := List.exists_cons_of_ne_nil nonempty
      rw [(List.cons.inj whole).1]
      exact List.mem_cons_self
    have within := inTerm_of_mem_map_character termChars piece inText
    rw [inTerm_eq_true_iff] at within
    refine ⟨_, _, rfl, within.2.symm, by simp [within], by simp [within], fun _ => ?_⟩
    rw [whole, stretch, texts_map_character]
    rfl
  | group inner later =>
    cases whole
    exact ⟨_, _, rfl, rfl, fun _ => rfl, by simp, by simp⟩

/-- Items behind an item are at fault as the pieces behind its last piece are. -/
theorem neighbours_cons {first : Piece} {one : Slot α} (ends : one.EndsWith start earlier first)
    (later : Laid (start + bytes (earlier ++ [first])) pieces slots)
    (apart : first.inTerm = true → ∀ piece ∈ pieces.head?, piece.inTerm = false)
    (behind : firstNeighbourFault? scope slots =
      (clashFault? scope start (earlier ++ [first]) pieces).map .ofShape) :
    firstNeighbourFault? scope (one :: slots) =
      (clashFault? scope start earlier (first :: pieces)).map .ofShape := by
  cases pieces with
  | nil =>
    rw [later.eq_nil_iff.2 rfl]
    rfl
  | cons second after =>
    obtain ⟨next, rest, rfl, begins⟩ := later.front
    have notBoth : ¬ (first.inTerm = true ∧ second.inTerm = true) := by
      rintro ⟨firstInTerm, secondInTerm⟩
      rw [apart firstInTerm second rfl] at secondInTerm
      cases secondInTerm
    rw [firstNeighbourFault?, neighbourFault?_of_pieces ends begins notBoth, clashFault?]
    by_cases clashes : Clash first second
    · rw [if_pos clashes, if_pos clashes]
      rfl
    · rw [if_neg clashes, if_neg clashes, Option.none_or, behind]

/-- The tokens of a sign are at fault with what follows them only. -/
theorem neighbours_sign (scope : Span) (sign : Sign) (offset : Nat) (slots : List (Slot α)) :
    ∃ token : Token, token.isOperator = true ∧
      firstNeighbourFault? scope ((sign.scanned offset).map .token ++ slots) =
        firstNeighbourFault? scope (.token token :: slots) := by
  cases sign with
  | plus => exact ⟨⟨.plus, ['+'], offset⟩, rfl, rfl⟩
  | minus => exact ⟨⟨.star, ['-'], offset⟩, rfl, rfl⟩
  | times => exact ⟨⟨.star, ['*'], offset⟩, rfl, rfl⟩

/-- The leftmost items that do not alternate come from the leftmost pieces that clash. -/
theorem neighbours (laid : Laid offset pieces slots) (place : offset = start + bytes earlier)
    (apart : ∀ piece ∈ pieces.head?, piece.inTerm = true →
      ∀ last ∈ earlier.getLast?, last.inTerm = false) :
    firstNeighbourFault? scope slots = (clashFault? scope start earlier pieces).map .ofShape := by
  -- along the items, the pieces that have been left behind are kept as the earlier ones
  induction laid generalizing earlier with
  | nil offset => rfl
  | @sign offset pieces slots sign later ih =>
    obtain ⟨token, isOperator, same⟩ := neighbours_sign scope sign offset slots
    rw [same]
    rw [place, Nat.add_assoc, ← bytes_append] at later ih
    have ends : (Slot.token token : Slot α).EndsWith start earlier (.character sign.char) := by
      refine ⟨?_, by simp, by simp⟩
      rw [isSign_char]
      exact isOperator
    exact neighbours_cons ends later (by simp) (ih rfl (by simp))
  | @term offset text pieces slots nonempty termChars apartLater later ih =>
    have within := inTerm_of_mem_map_character termChars
    have apartHere : ∀ last ∈ earlier.getLast?, last.inTerm = false := by
      obtain ⟨c, rest, rfl⟩ := List.exists_cons_of_ne_nil nonempty
      exact apart _ rfl (within _ List.mem_cons_self)
    -- the pieces behind the term meet its last character
    obtain ⟨init, last, rfl⟩ := (List.eq_nil_or_concat' text).resolve_left nonempty
    have joined : earlier ++ init.map character ++ [character last] =
        earlier ++ (init ++ [last]).map character := by
      simp
    rw [place, Nat.add_assoc, ← bytes_append, ← joined] at later ih
    rw [clashFault?_term termChars]
    have ends : (Slot.token ⟨.term, init ++ [last], offset⟩ : Slot α).EndsWith start
        (earlier ++ init.map character) (.character last) := by
      refine ⟨(isSign_of_isTermChar (termChars last (by simp))).symm, by simp, fun _ => ?_⟩
      rw [joined, rdropWhile_inTerm_append within apartHere,
        rtakeWhile_inTerm_append within apartHere, texts_map_character, ← place]
      rfl
    refine neighbours_cons ends later (fun _ => apartLater) (ih rfl ?_)
    intro piece isNext inTerm
    rw [apartLater piece isNext] at inTerm
    cases inTerm
  | @group offset pieces slots inner later ih =>
    rw [place, Nat.add_assoc, ← bytes_append] at later ih
    have ends : (Slot.group .nil : Slot α).EndsWith start earlier (.group inner) :=
      ⟨rfl, fun _ => rfl, by simp⟩
    exact neighbours_cons ends later (by simp) (ih rfl (by simp))

/-- What is wrong with the shape of a scope with pieces is what is wrong with its pieces. -/
theorem shapeFault?_eq_some_iff (laid : Laid start pieces slots) (nonempty : pieces ≠ [])
    (shape : Shape) (span : Span) :
    shapeFault? scope slots = some (.malformedExpression shape span) ↔
      Misshapen scope start pieces shape span := by
  have occupied : vacancyFault? scope slots = none :=
    (vacancyFault?_eq_none_iff scope slots).2
      ⟨laid.eq_nil_iff.not.2 nonempty, laid.isVacant_eq_false⟩
  have clash : firstNeighbourFault? scope slots =
      (clashFault? scope start [] pieces).map .ofShape :=
    laid.neighbours rfl (by simp)
  rw [shapeFault?, occupied, Option.none_or, laid.leading, laid.trailing, clash,
    Option.or_eq_some_iff, Option.or_eq_some_iff]
  constructor
  · rintro (leading | ⟨begins, trailing | ⟨ends, neighbours⟩⟩)
    · obtain ⟨first, isFirst, sign, told⟩ := signFault?_eq_some_iff.1 leading
      cases told
      obtain ⟨rest, rfl⟩ := List.head?_eq_some_iff.1 isFirst
      exact .leading sign
    · obtain ⟨last, isLast, sign, told⟩ := signFault?_eq_some_iff.1 trailing
      cases told
      obtain ⟨before, rfl⟩ := List.getLast?_eq_some_iff.1 isLast
      rw [List.dropLast_concat]
      exact .trailing (signFault?_eq_none_iff.1 begins) sign
    · obtain ⟨blamed, found, told⟩ := Option.map_eq_some_iff.1 neighbours
      cases told
      obtain ⟨before, first, second, after, rfl, clashes, leftmost, rfl⟩ :=
        clashFault?_eq_some_iff.1 found
      exact .clash (signFault?_eq_none_iff.1 begins) (signFault?_eq_none_iff.1 ends) clashes
        leftmost
  · intro misshapen
    cases misshapen with
    | empty => exact absurd rfl nonempty
    | leading sign => exact Or.inl (signFault?_eq_some_iff.2 ⟨_, rfl, sign, rfl⟩)
    | @trailing before last begins sign =>
      refine Or.inr ⟨signFault?_eq_none_iff.2 begins, Or.inl (signFault?_eq_some_iff.2 ?_)⟩
      rw [List.dropLast_concat]
      exact ⟨last, List.getLast?_concat, sign, rfl⟩
    | @clash before first second after begins ends clashes leftmost =>
      refine Or.inr ⟨signFault?_eq_none_iff.2 begins, Or.inr ⟨signFault?_eq_none_iff.2 ends, ?_⟩⟩
      have found : clashFault? scope start [] (before ++ first :: second :: after) =
          some (blame scope start before first second after) :=
        clashFault?_eq_some_iff.2 ⟨before, first, second, after, rfl, clashes, leftmost, rfl⟩
      rw [found]
      rfl

end Laid

/-! ## The scopes of a text -/

/-- The offset of the first piece of a scope: the beginning of a text, or what comes behind the
parenthesis that opens. -/
def Scope.start (scope : Scope) : Nat :=
  if scope.closing?.isSome then scope.span.offset + 1 else scope.span.offset

namespace Segments

/-- Segments are kept as they are unless there are none. -/
theorem orEmptyRun_of_ne_nil {segments : Segments} (filled : segments ≠ .nil) (offset : Nat) :
    segments.orEmptyRun offset = segments := by
  cases segments with
  | nil => exact absurd rfl filled
  | leaf run rest => rfl
  | group span inner rest => rfl

end Segments

namespace Layout

/-- What is wrong with the shape of a scope that holds a layout is what is wrong with its pieces. -/
theorem shapeFault?_eq_some_iff (layout : Layout) (before : Text) (scope : Span) (shape : Shape)
    (span : Span) {content : Segments}
    (holds : content = (layout.segments before.byteSize).orEmptyRun before.byteSize) :
    shapeFault? scope (content.slots : List (Slot α)) = some (.malformedExpression shape span) ↔
      Misshapen scope before.byteSize content.pieces shape span := by
  by_cases empty : layout = .nil
  · -- the scope has one empty term, and no piece
    subst empty
    have told : shapeFault? scope (content.slots : List (Slot α)) =
        some (.malformedExpression .emptyScope scope) := by
      rw [holds]
      rfl
    have none : content.pieces = [] := by
      rw [holds]
      rfl
    rw [told, none, misshapen_nil_iff]
    simp [eq_comm]
  · have someText : layout.text ≠ [] := mt layout.text_eq_nil_iff.1 empty
    have filled : layout.segments before.byteSize ≠ .nil := by
      intro none
      rw [← flatten_segments layout before.byteSize, none] at someText
      exact someText rfl
    rw [Segments.orEmptyRun_of_ne_nil filled] at holds
    have laid : Laid before.byteSize content.pieces (content.slots : List (Slot α)) := by
      rw [holds]
      exact .of_regular (layout.regular_segments _) (layout.placedAfter_segments before)
    have somePiece : content.pieces ≠ [] := by
      intro none
      have text := texts_pieces content
      rw [none, holds, flatten_segments] at text
      exact someText text.symm
    exact laid.shapeFault?_eq_some_iff somePiece shape span

/-- The groups of a layout are scopes of groups. -/
theorem exists_groupScope_of_mem_groups {layout : Layout} {offset : Nat} {scope : Scope}
    (member : scope ∈ (layout.segments offset).groups) :
    ∃ place inner, scope = groupScope place inner := by
  induction layout generalizing offset with
  | nil => cases member
  | leaf c rest ih =>
    rw [segments, groups_consChar] at member
    exact ih member
  | group mark inner rest ihInner ihRest =>
    rw [groups_group] at member
    rcases List.mem_append.1 member with within | here
    · exact ihInner within
    · rcases List.mem_cons.1 here with rfl | behind
      · exact ⟨offset, inner, rfl⟩
      · exact ihRest behind

end Layout

/-- Each scope of a text that is decomposed holds the segments of a layout, behind some text. -/
theorem exists_layout_of_mem_scopes {limit : Nat} {whole : Text} {segments : Segments}
    (decomposed : decomposeWithin limit whole = .ok segments) {scope : Scope}
    (member : scope ∈ segments.scopes whole) :
    ∃ (before : Text) (layout : Layout), before.byteSize = scope.start ∧
      scope.content = (layout.segments before.byteSize).orEmptyRun before.byteSize := by
  obtain ⟨layout, rfl, -, rfl⟩ := (decomposeWithin_eq_ok_iff _ _ _).1 decomposed
  rcases List.mem_append.1 member with within | top
  · rw [Layout.groups_orEmptyRun] at within
    obtain ⟨earlier, -, -, place⟩ := (Layout.parenthesised_of_mem_groups within).holds
    obtain ⟨opening, inner, rfl⟩ := Layout.exists_groupScope_of_mem_groups within
    -- the pieces of the group come behind the parenthesis that opens it
    have size : (earlier ++ ['(']).byteSize = opening + 1 := by
      rw [Layout.byteSize_append_open, ← Nat.zero_add (Text.byteSize earlier), ← place]
      rfl
    refine ⟨earlier ++ ['('], inner, size, ?_⟩
    rw [size]
    rfl
  · rw [List.mem_singleton.1 top]
    exact ⟨[], layout, rfl, rfl⟩

/-! ## Assembly -/

/-- The groups of a scope are assembled if each of them is. -/
theorem Interpretation.exists_assembleGroups_of_items (interpretation : Interpretation α)
    {segments : Segments}
    (parsed : ∀ span inner, .group span inner ∈ segments.items →
      ∃ expression, interpretation.assemble span inner.tokens = .ok expression) :
    ∃ slots, interpretation.assembleGroups segments.tokens = .ok slots := by
  induction segments with
  | nil => exact ⟨[], rfl⟩
  | leaf run rest ih =>
    obtain ⟨slots, assembled⟩ := ih fun span inner later =>
      parsed span inner (List.mem_cons_of_mem _ later)
    exact ⟨_, interpretation.assembleGroups_leaves_eq_ok_iff.2 ⟨slots, assembled, rfl⟩⟩
  | group span inner rest ihInner ihRest =>
    obtain ⟨slots, assembled⟩ := ihRest fun span inner later =>
      parsed span inner (List.mem_cons_of_mem _ later)
    obtain ⟨expression, whole⟩ := parsed span inner List.mem_cons_self
    rw [assemble, bind_eq_ok_iff] at whole
    obtain ⟨innerSlots, assembledInner, closed⟩ := whole
    exact ⟨_, interpretation.assembleGroups_group_eq_ok_iff.2
      ⟨innerSlots, assembledInner, expression, closed, slots, assembled, rfl⟩⟩

/-- A scope whose groups have been assembled is malformed when its shape is. -/
theorem Environment.closeScope_malformed_iff (environment : Environment ComplexFloat)
    (scope : Span) (slots : List (Slot ComplexFloat)) (shape : Shape) (span : Span) :
    environment.interpretation.closeScope scope slots =
        .error (.malformedExpression shape span) ↔
      shapeFault? scope slots = some (.malformedExpression shape span) := by
  rw [Interpretation.closeScope]
  cases shapeFault? scope slots with
  | some fault => simp
  | none =>
    refine ⟨fun fails => ?_, by simp⟩
    -- no term fails to be resolved for its shape
    obtain ⟨token, -, -, unresolved⟩ := Interpretation.exists_term_of_resolveSlots_eq_error fails
    rcases Environment.resolve_eq_error unresolved with
      ⟨flaw, told⟩ | ⟨told, -⟩ | ⟨_, _, _, -, told⟩ <;> cases told

/-- The shape of a scope is told by its characters.

A scope of a text that is decomposed is its top level or the inside of a pair of parentheses. If its
groups have been parsed, it is malformed exactly when its pieces, the characters outside of the
groups and the groups themselves, are misshapen, and for this reason. -/
theorem shape_is_told_by_pieces (environment : Environment ComplexFloat) (limit : Nat)
    (whole : Text) (segments : Segments) (decomposed : decomposeWithin limit whole = .ok segments)
    (scope : Scope) (member : scope ∈ segments.scopes whole)
    (parsed : ∀ span inner, .group span inner ∈ scope.content.items →
      ∃ expression, environment.interpretation.assemble span inner.tokens = .ok expression) :
    (scope = ⟨.ofText 0 whole, none, segments⟩ ∨ scope.Parenthesised 0 whole) ∧
    texts scope.content.pieces = scope.content.flatten ∧
    ∀ shape span,
      environment.interpretation.assemble scope.span scope.content.tokens =
          .error (.malformedExpression shape span) ↔
        Misshapen scope.span scope.start scope.content.pieces shape span := by
  refine ⟨top_or_parenthesised_of_mem_scopes decomposed member, texts_pieces scope.content, ?_⟩
  intro shape span
  obtain ⟨before, layout, place, holds⟩ := exists_layout_of_mem_scopes decomposed member
  obtain ⟨slots, assembled⟩ := environment.interpretation.exists_assembleGroups_of_items parsed
  have veiled : slots.map Slot.veiled = scope.content.slots := by
    rcases environment.interpretation.assembleGroups_groups scope.content with
      ⟨fault, -, fails⟩ | ⟨-, found, same, veiled⟩
    · rw [assembled] at fails
      cases fails
    · rw [assembled] at same
      rwa [Except.ok.inj same]
  have closes : environment.interpretation.assemble scope.span scope.content.tokens =
      environment.interpretation.closeScope scope.span slots := by
    rw [Interpretation.assemble, assembled]
    rfl
  rw [closes, environment.closeScope_malformed_iff, ← shapeFault?_veiled, veiled, ← place]
  exact layout.shapeFault?_eq_some_iff before scope.span shape span holds

/-- In `i-é(i)` the leftmost pieces that clash are the `é` and the group, and the two bytes of the
term between the sign and the group are blamed. -/
theorem shape_is_told_by_pieces_term :
    (Environment.interpretation ∅).assemble ⟨0, 7⟩ (Segments.tokens
        (.leaf ⟨['i', '-', 'é'], 0⟩ (.group ⟨4, 3⟩ (.leaf ⟨['i'], 5⟩ .nil) .nil))) =
      .error (.malformedExpression .missingOperator ⟨2, 2⟩) := by
  have decomposed : decomposeWithin 1 ['i', '-', 'é', '(', 'i', ')'] =
      .ok (.leaf ⟨['i', '-', 'é'], 0⟩ (.group ⟨4, 3⟩ (.leaf ⟨['i'], 5⟩ .nil) .nil)) := rfl
  have misshapen := @Misshapen.clash ⟨0, 7⟩ 0 [.character 'i', .character '-'] (.character 'é')
    (.group ['i']) [] (by decide) (by decide) (by decide) (by decide)
  refine ((shape_is_told_by_pieces ∅ 1 _ _ decomposed ⟨⟨0, 7⟩, none, _⟩
    (List.mem_append_right _ List.mem_cons_self) ?_).2.2 _ _).2 misshapen
  -- the only group holds the imaginary unit
  intro span inner member
  have same : Segment.group span inner = .group ⟨4, 3⟩ (.leaf ⟨['i'], 5⟩ .nil) := by
    simpa [Segments.items] using member
  cases same
  exact ⟨_, rfl⟩

end ComplexReckoner
