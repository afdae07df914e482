import Mathlib.Data.List.Forall2
import ComplexReckoner.Console.Program
import ComplexReckoner.Proofs.Lookups
import ComplexReckoner.Proofs.InputLines

/-! # What a listing shows

A listing and an expression come from two walks through the tokens of a text, one that writes lines
and one that builds a tree. They pass the same stops.

* `Nested.walk` lists the stops of a walk, and `Stop.openAfter?` keeps count of the groups,
* `Listing.readLine?` reads a line, and `Listing.source` is the text that lines stand for,
* `Scanned.source_entries` says that this is the text that was scanned,
* `Listing.shows_of_assembleGroups` says that the lines show what is assembled from the tokens. -/

namespace ComplexReckoner

/-! ## Walks -/

/-- A stop of a walk through a nested sequence. -/
inductive Stop (α : Type) where
  /-- A leaf. -/
  | leaf (content : α)
  /-- The beginning of a group. -/
  | enter
  /-- The end of a group. -/
  | leave
  deriving DecidableEq, Repr

/-- The stops of a walk in reading order. What a group holds comes between its beginning and its
end. -/
def Nested.walk {γ α : Type} : Nested γ α → List (Stop α)
  | .nil => []
  | .leaf content rest => .leaf content :: walk rest
  | .group _ inner rest => .enter :: (walk inner ++ .leave :: walk rest)

/-- The number of groups that are open after some stops, unless one of them is the end of a group
that has not begun. -/
def Stop.openAfter? {α : Type} (opened : Nat) : List (Stop α) → Option Nat
  | [] => some opened
  | .leaf _ :: rest => openAfter? opened rest
  | .enter :: rest => openAfter? (opened + 1) rest
  | .leave :: rest =>
      match opened with
      | 0 => none
      | opened + 1 => openAfter? opened rest

/-- A walk leaves the groups that it enters, and no others. -/
theorem Nested.openAfter?_walk_append {γ α : Type} (nested : Nested γ α) (opened : Nat)
    (later : List (Stop α)) :
    Stop.openAfter? opened (nested.walk ++ later) = Stop.openAfter? opened later := by
  induction nested generalizing opened later with
  | nil => rfl
  | leaf content rest ih => exact ih opened later
  | group mark inner rest ihInner ihRest =>
    rw [walk, List.cons_append, List.append_assoc, List.cons_append, Stop.openAfter?, ihInner]
    exact ihRest opened later

namespace Listing

/-! ## Lines -/

/-- What a line of a listing shows: a parenthesis, or a token by its kind and its characters. -/
abbrev Entry := Stop (TokenKind × Text)

/-- What a line with given fields shows. -/
def entryOfFields? (kind literal value : Text) : Option Entry :=
  if kind = "PLUS".toList ∧ value = "null".toList then some (.leaf (.plus, literal))
  else if kind = "STAR".toList ∧ value = "null".toList then some (.leaf (.star, literal))
  else if kind = "NEGATIVE_ONE".toList ∧ value = "-1".toList then
    some (.leaf (.negativeOne, literal))
  else if kind = "TERM".toList ∧ value = "null".toList then some (.leaf (.term, literal))
  else if kind = "LEFT_PAREN".toList ∧ literal = ['('] ∧ value = "null".toList then some .enter
  else if kind = "RIGHT_PAREN".toList ∧ literal = [')'] ∧ value = "null".toList then some .leave
  else none

/-- Reads a line. Its fields are a kind, characters and a value, with single spaces between. -/
def readLine? (line : Text) : Option Entry :=
  match Text.cut? ' ' line with
  | none => none
  | some (kind, fields) =>
      match Text.cut? ' ' fields with
      | none => none
      | some (literal, value) => entryOfFields? kind literal value

/-- The fields of a line are found if no space is in them. -/
theorem readLine?_fields {kind literal : Text} (kindSingle : ' ' ∉ kind)
    (literalSingle : ' ' ∉ literal) (value : Text) :
    readLine? (kind ++ ' ' :: (literal ++ ' ' :: value)) = entryOfFields? kind literal value := by
  have first := (Text.cut?_eq_some_iff ' ' (kind ++ ' ' :: (literal ++ ' ' :: value)) kind
    (literal ++ ' ' :: value)).2 ⟨rfl, kindSingle⟩
  have second := (Text.cut?_eq_some_iff ' ' (literal ++ ' ' :: value) literal value).2
    ⟨rfl, literalSingle⟩
  simp only [readLine?, first, second]

/-- The line of a token shows its kind and its characters. -/
theorem readLine?_render {token : Token} (single : ' ' ∉ token.literal) :
    readLine? token.render = some (.leaf (token.kind, token.literal)) := by
  obtain ⟨kind, literal, offset⟩ := token
  cases kind with
  | plus => exact readLine?_fields (show ' ' ∉ "PLUS".toList by decide) single "null".toList
  | star => exact readLine?_fields (show ' ' ∉ "STAR".toList by decide) single "null".toList
  | negativeOne =>
    exact readLine?_fields (show ' ' ∉ "NEGATIVE_ONE".toList by decide) single "-1".toList
  | term => exact readLine?_fields (show ' ' ∉ "TERM".toList by decide) single "null".toList

/-- What the lines of tokens show. -/
def entries (tokens : Nested Span Token) : List Entry :=
  (tokens.expand fun token => [(token.kind, token.literal)]).walk

@[simp] theorem entries_leaf (token : Token) (rest : Nested Span Token) :
    entries (.leaf token rest) = .leaf (token.kind, token.literal) :: entries rest := rfl

@[simp] theorem entries_group (span : Span) (inner rest : Nested Span Token) :
    entries (.group span inner rest) = .enter :: (entries inner ++ .leave :: entries rest) := rfl

/-- The parentheses among the lines of tokens nest. -/
theorem openAfter?_entries (tokens : Nested Span Token) :
    Stop.openAfter? 0 (entries tokens) = some 0 := by
  have closes := Nested.openAfter?_walk_append
    (tokens.expand fun token => [(token.kind, token.literal)]) 0 []
  rw [List.append_nil] at closes
  exact closes

section Lines

variable {tokens : Nested Span Token}

/-- The lines of tokens without spaces show the tokens. -/
theorem map_readLine?_scopeLines (single : ∀ token ∈ tokens.contents, ' ' ∉ token.literal) :
    (scopeLines tokens).map readLine? = (entries tokens).map some := by
  induction tokens with
  | nil => rfl
  | leaf token rest ih =>
    obtain ⟨singleHere, singleLater⟩ := List.forall_mem_cons.1 single
    rw [scopeLines, entries_leaf, List.map_cons, List.map_cons, readLine?_render singleHere,
      ih singleLater]
  | group span inner rest ihInner ihRest =>
    obtain ⟨singleInside, singleLater⟩ := List.forall_mem_append.1 single
    have opening : readLine? "LEFT_PAREN ( null".toList = some .enter := rfl
    have closing : readLine? "RIGHT_PAREN ) null".toList = some .leave := rfl
    simp only [scopeLines, entries_group, List.map_cons, List.map_append, ihInner singleInside,
      ihRest singleLater, opening, closing]

/-- The line of a token breaks only where its characters do. -/
theorem newline_notMem_render {token : Token} (single : '\n' ∉ token.literal) :
    '\n' ∉ token.render := by
  have around : ∀ before after : Text, '\n' ∉ before → '\n' ∉ after →
      '\n' ∉ before ++ token.literal ++ after := by
    intro before after singleBefore singleAfter
    simp only [List.mem_append, not_or]
    exact ⟨⟨singleBefore, single⟩, singleAfter⟩
  unfold Token.render
  cases token.kind <;> exact around _ _ (by decide) (by decide)

/-- The lines of tokens break only where the characters of a token do. -/
theorem newline_notMem_scopeLines (single : ∀ token ∈ tokens.contents, '\n' ∉ token.literal) :
    ∀ line ∈ scopeLines tokens, '\n' ∉ line := by
  induction tokens with
  | nil => nofun
  | leaf token rest ih =>
    obtain ⟨singleHere, singleLater⟩ := List.forall_mem_cons.1 single
    exact List.forall_mem_cons.2 ⟨newline_notMem_render singleHere, ih singleLater⟩
  | group span inner rest ihInner ihRest =>
    obtain ⟨singleInside, singleLater⟩ := List.forall_mem_append.1 single
    refine List.forall_mem_cons.2 ⟨by decide, List.forall_mem_append.2 ⟨ihInner singleInside, ?_⟩⟩
    exact List.forall_mem_cons.2 ⟨by decide, ihRest singleLater⟩

end Lines

/-! ## The source of a listing -/

/-- The text that lines stand for: the characters of each token and the parentheses, where the three
tokens of a subtraction stand for one `-`. -/
def source : List Entry → Text
  | .leaf (.plus, ['-']) :: .leaf (.negativeOne, ['-']) :: .leaf (.star, ['-']) :: rest =>
      '-' :: source rest
  | .leaf (_, literal) :: rest => literal ++ source rest
  | .enter :: rest => '(' :: source rest
  | .leave :: rest => ')' :: source rest
  | [] => []

end Listing

namespace Scanned

variable {offset : Nat} {text : Text} {tokens : Nested Span Token}

/-- The lines of the tokens of a text stand for the text. -/
theorem source_entries (scanned : Scanned offset text tokens) (later : List Listing.Entry) :
    Listing.source (Listing.entries tokens ++ later) = text ++ Listing.source later := by
  induction scanned generalizing later with
  | nil offset => rfl
  | sign sign following ih =>
    -- the triple of a minus is there as a whole
    cases sign <;> exact congrArg (List.cons _) (ih later)
  | word word apart following ih =>
    rw [Listing.entries_leaf, List.cons_append, Listing.source, ih, List.append_assoc]
    nofun
  | emptyGroup following ih => exact congrArg ('(' :: ')' :: ·) (ih later)
  | group nonempty within following ihInner ihRest =>
    rw [Listing.entries_group, List.cons_append, Listing.source, List.append_assoc,
      List.cons_append, ihInner, Listing.source, ihRest]
    simp only [List.cons_append, List.append_assoc]

/-- The characters of a token are found in the text. -/
theorem mem_text_of_mem_literal (scanned : Scanned offset text tokens) {token : Token}
    (member : token ∈ tokens.contents) {c : Char} (among : c ∈ token.literal) : c ∈ text := by
  induction scanned with
  | nil offset => cases member
  | sign sign later ih =>
    rw [Nested.contents_leaves] at member
    rcases List.mem_append.1 member with ofSign | following
    · obtain ⟨kind, -, rfl⟩ := List.mem_map.1 ofSign
      rw [List.mem_singleton.1 among]
      exact List.mem_cons_self
    · exact List.mem_cons_of_mem _ (ih following)
  | word word apart later ih =>
    rcases List.mem_cons.1 member with rfl | following
    · exact List.mem_append_left _ among
    · exact List.mem_append_right _ (ih following)
  | emptyGroup later ih =>
    rcases List.mem_cons.1 member with rfl | following
    · cases among
    · exact List.mem_cons_of_mem _ (List.mem_cons_of_mem _ (ih following))
  | group nonempty within later ihInner ihRest =>
    refine List.mem_cons_of_mem _ ?_
    rcases List.mem_append.1 member with inside | following
    · exact List.mem_append_left _ (ihInner inside)
    · exact List.mem_append_right _ (List.mem_cons_of_mem _ (ihRest following))

end Scanned

section Decomposed

variable {limit : Nat} {text : Text} {segments : Segments}

/-- The lines of a text that is decomposed stand for the text. -/
theorem source_of_decomposeWithin (decomposed : decomposeWithin limit text = .ok segments) :
    Listing.source (Listing.entries segments.tokens) = text := by
  rcases scanned_of_decomposeWithin decomposed with ⟨empty, sole⟩ | ⟨-, scanned⟩
  · rw [empty, sole]
    rfl
  · have whole := scanned.source_entries []
    rw [List.append_nil] at whole
    exact whole.trans (List.append_nil text)

/-- The tokens of a compacted text have no blanks in them. -/
theorem blank_notMem_literal (decomposed : decomposeWithin limit text.compact = .ok segments)
    {c : Char} (blank : isBlank c = true) : ∀ token ∈ segments.tokens.contents,
      c ∉ token.literal := by
  intro token member among
  rcases scanned_of_decomposeWithin decomposed with ⟨-, sole⟩ | ⟨-, scanned⟩
  · rw [sole] at member
    rw [List.mem_singleton.1 member] at among
    cases among
  · have kept := List.of_mem_filter (scanned.mem_text_of_mem_literal member among)
    rw [blank] at kept
    cases kept

/-- A text is decomposed in one way, whatever the limit. -/
theorem decomposeWithin_unique {other : Nat} {others : Segments}
    (decomposed : decomposeWithin limit text = .ok segments)
    (decomposedToo : decomposeWithin other text = .ok others) : others = segments := by
  obtain ⟨layout, rfl, -, rfl⟩ := (decomposeWithin_eq_ok_iff _ _ _).1 decomposed
  obtain ⟨second, same, -, rfl⟩ := (decomposeWithin_eq_ok_iff _ _ _).1 decomposedToo
  rw [Layout.text_injective same]

end Decomposed

namespace Listing

/-! ## Listings and expressions -/

/-- Whether a line shows a stop of a walk through an expression: operators show themselves, the
factor of a subtraction shows `-1`, a term shows its value in an environment, and parentheses show
the beginning and the end of a group. -/
def Shows (environment : Environment ComplexFloat) : Entry → Stop (Term ComplexFloat) → Prop
  | .leaf (.plus, _), stop => stop = .leaf (.operator .plus)
  | .leaf (.star, _), stop => stop = .leaf (.operator .star)
  | .leaf (.negativeOne, _), stop => stop = .leaf (.value ⟨-1.0, 0.0⟩)
  | .leaf (.term, literal), stop =>
      ∃ value, (∀ offset, environment.resolve literal offset = .ok value) ∧
        stop = .leaf (.value value)
  | .enter, stop => stop = .enter
  | .leave, stop => stop = .leave

variable {environment : Environment ComplexFloat}

/-- The line of a token shows what the token stands for. -/
theorem shows_token {token : Token} {term : Term ComplexFloat}
    (resolved : environment.interpretation.token token = .ok term) :
    Shows environment (.leaf (token.kind, token.literal)) (.leaf term) := by
  obtain ⟨kind, literal, offset⟩ := token
  cases kind with
  | plus => exact congrArg Stop.leaf (Except.ok.inj resolved).symm
  | star => exact congrArg Stop.leaf (Except.ok.inj resolved).symm
  | negativeOne => exact congrArg Stop.leaf (Except.ok.inj resolved).symm
  | term =>
    obtain ⟨resolves, rfl⟩ :=
      Interpretation.token_term_eq_ok environment.uniform_interpretation resolved
    exact ⟨_, resolves, rfl⟩

/-- The lines of tokens show, one by one, the stops of a walk through what is assembled from the
tokens. -/
theorem shows_of_assembleGroups {tokens : Nested Span Token} {slots : List (Slot ComplexFloat)}
    {tree : Expression ComplexFloat}
    (assembled : environment.interpretation.assembleGroups tokens = .ok slots)
    (resolved : environment.interpretation.resolveSlots slots = .ok tree) :
    List.Forall₂ (Shows environment) (entries tokens) tree.walk := by
  induction tokens generalizing slots tree with
  | nil =>
    cases assembled
    cases resolved
    exact .nil
  | leaf token rest ih =>
    obtain ⟨later, assembledLater, rfl⟩ :=
      (Interpretation.assembleGroups_leaf_eq_ok_iff _).1 assembled
    obtain ⟨term, resolvedHere, branch, resolvedLater, rfl⟩ :=
      (Interpretation.resolveSlots_token_eq_ok_iff _).1 resolved
    exact .cons (shows_token resolvedHere) (ih assembledLater resolvedLater)
  | group span inner rest ihInner ihRest =>
    obtain ⟨within, assembledInside, branch, closed, later, assembledLater, rfl⟩ :=
      (Interpretation.assembleGroups_group_eq_ok_iff _).1 assembled
    obtain ⟨following, resolvedLater, rfl⟩ :=
      (Interpretation.resolveSlots_group_eq_ok_iff _).1 resolved
    -- the group was resolved when its scope was closed, from the tokens between its two lines
    have resolvedInside := ((Interpretation.closeScope_eq_ok_iff _).1 closed).2
    exact .cons rfl (List.rel_append (ihInner assembledInside resolvedInside)
      (.cons rfl (ihRest assembledLater resolvedLater)))

/-- The lines of a text show, one by one, the stops of a walk through its expression. -/
theorem shows_of_parse {limit : Nat} {limits : Limits} {text : Text} {segments : Segments}
    {tree : Expression ComplexFloat} (decomposed : decomposeWithin limit text = .ok segments)
    (parsed : Expression.parse environment.interpretation limits text = .ok tree) :
    List.Forall₂ (Shows environment) (entries segments.tokens) tree.walk := by
  obtain ⟨others, decomposedToo, assembled⟩ := bind_eq_ok_iff.1 parsed
  rw [decomposeWithin_unique decomposed decomposedToo] at assembled
  obtain ⟨slots, assembledGroups, closed⟩ := bind_eq_ok_iff.1 assembled
  exact shows_of_assembleGroups assembledGroups
    ((Interpretation.closeScope_eq_ok_iff _).1 closed).2

end Listing

namespace Console

/-- Lines of output are read one by one. -/
theorem readings_flatMap_asLine {lines : List Text} (single : ∀ line ∈ lines, '\n' ∉ line) :
    Text.readings (lines.flatMap asLine) = lines.map asLine := by
  induction lines with
  | nil => rfl
  | cons line rest ih =>
    obtain ⟨singleHere, singleLater⟩ := List.forall_mem_cons.1 single
    have inside : ∀ c ∈ line, (c == '\n') = false := by
      intro c member
      rw [beq_eq_false_iff_ne]
      rintro rfl
      exact singleHere member
    rw [List.flatMap_cons, asLine, List.append_assoc, List.singleton_append, Text.readings,
      piecesThrough_append_end inside (by decide)]
    exact congrArg (_ :: ·) (ih singleLater)

/-- A listing is faithful to the text and to the parser.

Whatever the limit, if the tokens of an expression are listed, there is a line for each token, each
parenthesis and the end. The lines nest properly, and the text that they stand for is the compacted
expression. And in every environment in which the compacted expression is parsed, the lines show,
one by one, the stops of a walk through its tree. -/
theorem listing_is_faithful (limits : Limits) (expression : Text)
    (files : Text → Option (List UInt8)) (input : List UInt8) :
    let listing := Invocation.report ⟨.tokens expression, limits⟩ files input
    listing.exitCode = 0 →
      ∃ (lines : List Text) (entries : List Listing.Entry),
        listing.output.readings = (lines ++ [Listing.endLine]).map asLine ∧
        lines.map Listing.readLine? = entries.map some ∧
        Stop.openAfter? 0 entries = some 0 ∧
        Listing.source entries = expression.compact ∧
        ∀ (environment : Environment ComplexFloat) (other : Limits)
          (tree : Expression ComplexFloat),
          Expression.parse environment.interpretation other expression.compact = .ok tree →
            List.Forall₂ (Listing.Shows environment) entries tree.walk := by
  intro listing succeeds
  have reported : listing = reportTokens limits expression := rfl
  cases decomposed : decomposeWithin limits.maxDepth expression.compact with
  | error fault =>
    rw [reported, reportTokens, Listing.ofText, decomposed] at succeeds
    cases succeeds
  | ok segments =>
    have written : listing.output =
        (Listing.scopeLines segments.tokens ++ [Listing.endLine]).flatMap asLine := by
      rw [reported, reportTokens, Listing.ofText, decomposed]
      rfl
    have single : ∀ line ∈ Listing.scopeLines segments.tokens ++ [Listing.endLine],
        '\n' ∉ line := by
      refine List.forall_mem_append.2 ⟨?_, List.forall_mem_singleton.2 (by decide)⟩
      exact Listing.newline_notMem_scopeLines (blank_notMem_literal decomposed (by decide))
    refine ⟨Listing.scopeLines segments.tokens, Listing.entries segments.tokens, ?_, ?_,
      Listing.openAfter?_entries _, source_of_decomposeWithin decomposed, ?_⟩
    · rw [written, readings_flatMap_asLine single]
    · exact Listing.map_readLine?_scopeLines (blank_notMem_literal decomposed (by decide))
    · intro environment other tree parsed
      exact Listing.shows_of_parse decomposed parsed

/-- The lines of `i - (x)` show its tree where `x` is bound: the `-` is three of them, and the
parentheses are two. -/
theorem listing_is_faithful_difference :
    let expression : Text := ['i', ' ', '-', ' ', '(', 'x', ')']
    let listing := Invocation.report ⟨.tokens expression, {}⟩ (fun _ => none) []
    let environment : Environment ComplexFloat := .bind ∅ ['x'] (.ofReal 2.0)
    listing.exitCode = 0 ∧
      ∃ (lines : List Text) (entries : List Listing.Entry),
        listing.output.readings = (lines ++ [Listing.endLine]).map asLine ∧
        lines.map Listing.readLine? = entries.map some ∧
        Stop.openAfter? 0 entries = some 0 ∧
        Listing.source entries = ['i', '-', '(', 'x', ')'] ∧
        List.Forall₂ (Listing.Shows environment) entries
          [.leaf (.value (.ofImaginary 1.0)), .leaf (.operator .plus), .leaf (.value ⟨-1.0, 0.0⟩),
            .leaf (.operator .star), .enter, .leaf (.value (.ofReal 2.0)), .leave] := by
  intro expression listing environment
  have succeeds : listing.exitCode = 0 := rfl
  let tree : Expression ComplexFloat :=
    .leaf (.value (.ofImaginary 1.0)) (.leaf (.operator .plus) (.leaf (.value ⟨-1.0, 0.0⟩)
      (.leaf (.operator .star) (.group () (.leaf (.value (.ofReal 2.0)) .nil) .nil))))
  have parsed : Expression.parse environment.interpretation {} expression.compact = .ok tree := rfl
  obtain ⟨lines, entries, output, shown, nest, source, faithful⟩ :=
    listing_is_faithful {} expression (fun _ => none) [] succeeds
  exact ⟨succeeds, lines, entries, output, shown, nest, source, faithful environment {} tree parsed⟩

end Console

end ComplexReckoner
