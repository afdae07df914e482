import Mathlib.Data.List.Chain
import ComplexReckoner.Proofs.Balance
import ComplexReckoner.Proofs.Decomposition

/-! # Canonical segments

Decomposition is a bijection between the balanced texts and the canonical trees of segments, and
`Segments.flatten` is its inverse. A tree is canonical (`Segments.Canonical`) when each of its
scopes is in order, so that there is one way only to cut the text of a scope into runs and groups
(`Segments.IsScope`), and when its runs and groups tell where they stand.

The canonical trees are the segments of layouts (`Segments.canonical_iff`). One direction goes
through the characters of a layout, the other one puts the characters of each run in front of the
layout of what follows (`Layout.exists_run_before`). -/

namespace ComplexReckoner

/-- A run or a group. -/
inductive Segment where
  /-- A run of text. -/
  | run (run : Run)
  /-- A group, with its span and what it holds. -/
  | group (span : Span) (inner : Segments)

namespace Segment

/-- Whether a segment is a run. -/
def isRun : Segment → Bool
  | .run _ => true
  | .group _ _ => false

/-- Whether two segments may stand side by side: they are not both runs. -/
def Apart (first second : Segment) : Prop := ¬ (first.isRun = true ∧ second.isRun = true)

/-- The text of a segment, the parentheses of a group included. -/
def text : Segment → Text
  | .run piece => piece.text
  | .group _ inner => '(' :: (inner.flatten ++ [')'])

/-- Where a segment is said to stand. -/
def span : Segment → Span
  | .run piece => .ofText piece.offset piece.text
  | .group span _ => span

end Segment

/-- Whether a run has no parentheses. -/
def Run.Plain (run : Run) : Prop := '(' ∉ run.text ∧ ')' ∉ run.text

namespace Segments

/-! ## Canonical trees -/

/-- The runs and groups of a scope, in order. -/
def items : Segments → List Segment
  | .nil => []
  | .leaf run rest => .run run :: items rest
  | .group span inner rest => .group span inner :: items rest

/-- What the groups of a scope hold, and the groups within them. -/
def insides : Segments → List Segments
  | .nil => []
  | .leaf _ rest => insides rest
  | .group _ inner rest => inner :: (insides inner ++ insides rest)

/-- The scopes of a tree at all levels. -/
def levels (segments : Segments) : List Segments := segments :: segments.insides

/-- Whether a scope is in order: it is cut into runs and groups as far as possible, and no
further. -/
structure IsScope (level : Segments) : Prop where
  /-- There is something in it. -/
  inhabited : level.items ≠ []
  /-- No run has a parenthesis. -/
  plain : ∀ run, .run run ∈ level.items → run.Plain
  /-- No two runs stand side by side. -/
  apart : level.items.IsChain Segment.Apart
  /-- A run is empty only when nothing else is in the scope. -/
  occupied : ∀ run, .run run ∈ level.items → run.text = [] → level.items = [.run run]

/-- A run or a group of a tree, and the text that comes before it. -/
structure Place where
  /-- The text before the segment. -/
  before : Text
  /-- The segment. -/
  segment : Segment

/-- The runs and groups of a tree at all levels, when the tree itself comes after a text. -/
def places (before : Text) : Segments → List Place
  | .nil => []
  | .leaf run rest => ⟨before, .run run⟩ :: places (before ++ run.text) rest
  | .group span inner rest =>
      ⟨before, .group span inner⟩ ::
        (places (before ++ ['(']) inner ++
          places (before ++ '(' :: (flatten inner ++ [')'])) rest)

/-- Whether the runs and groups of a tree that comes after a text tell where they stand. -/
def PlacedAfter (before : Text) (segments : Segments) : Prop :=
  ∀ place ∈ segments.places before,
    place.segment.span = .ofText place.before.byteSize place.segment.text

/-- Whether a tree is canonical. -/
structure Canonical (segments : Segments) : Prop where
  /-- Each of its scopes is in order. -/
  scopes : ∀ level ∈ segments.levels, level.IsScope
  /-- Its runs and groups tell where they stand. -/
  placed : segments.PlacedAfter []

/-! ## Where segments stand -/

/-- A run tells where it stands by its offset. -/
theorem placedAfter_leaf (before : Text) (run : Run) (rest : Segments) :
    PlacedAfter before (.leaf run rest) ↔
      run.offset = before.byteSize ∧ PlacedAfter (before ++ run.text) rest := by
  simp only [PlacedAfter, places, List.forall_mem_cons]
  refine and_congr_left fun _ => ?_
  simp [Segment.span, Segment.text, Span.ofText]

/-- A group tells where it stands by its span. -/
theorem placedAfter_group (before : Text) (span : Span) (inner rest : Segments) :
    PlacedAfter before (.group span inner rest) ↔
      span = .ofText before.byteSize ('(' :: (inner.flatten ++ [')'])) ∧
        PlacedAfter (before ++ ['(']) inner ∧
          PlacedAfter (before ++ '(' :: (inner.flatten ++ [')'])) rest := by
  simp only [PlacedAfter, places, List.forall_mem_cons, List.forall_mem_append]
  exact Iff.rfl

/-- The text of a segment stands where it is said to come from. -/
theorem isPrefix_of_mem_places {before : Text} {segments : Segments} {place : Place}
    (member : place ∈ segments.places before) :
    place.before ++ place.segment.text <+: before ++ segments.flatten := by
  induction segments generalizing before with
  | nil => cases member
  | leaf run rest ih =>
    rw [flatten_leaf, ← List.append_assoc]
    rcases List.mem_cons.1 member with rfl | later
    · exact List.prefix_append _ _
    · exact ih later
  | group span inner rest ihInner ihRest =>
    have whole : before ++ flatten (.group span inner rest) =
        before ++ '(' :: (flatten inner ++ [')']) ++ flatten rest := by
      simp
    rcases List.mem_cons.1 member with rfl | later
    · rw [whole]
      exact List.prefix_append _ _
    · rcases List.mem_append.1 later with inside | after
      · refine (ihInner inside).trans ⟨')' :: flatten rest, ?_⟩
        simp
      · rw [whole]
        exact ihRest after

/-! ## Scopes in order -/

/-- Whether a scope begins with a run. -/
def beginsWithRun : Segments → Bool
  | .leaf _ _ => true
  | _ => false

/-- Whether segments can stand at the end of a scope that has something in it. -/
def Regular : Segments → Prop
  | .nil => True
  | .leaf run rest =>
      run.text ≠ [] ∧ run.Plain ∧ beginsWithRun rest = false ∧ Regular rest
  | .group _ inner rest => (∀ level ∈ levels inner, IsScope level) ∧ Regular rest

/-- No two runs stand side by side after a run, if none begins there. -/
theorem isChain_items_leaf (run : Run) (rest : Segments) :
    (items (.leaf run rest)).IsChain Segment.Apart ↔
      rest.beginsWithRun = false ∧ rest.items.IsChain Segment.Apart := by
  rw [items, List.isChain_cons]
  refine and_congr_left fun _ => ?_
  cases rest <;> simp [items, beginsWithRun, Segment.Apart, Segment.isRun]

/-- A group can stand beside any segment. -/
theorem isChain_items_group (span : Span) (inner rest : Segments) :
    (items (.group span inner rest)).IsChain Segment.Apart ↔
      rest.items.IsChain Segment.Apart := by
  rw [items, List.isChain_cons]
  exact and_iff_right fun segment _ both => Bool.false_ne_true both.1

/-- Segments are regular when their runs are not empty and all else is as in a scope. -/
theorem regular_iff (segments : Segments) :
    segments.Regular ↔
      (∀ run, .run run ∈ segments.items → run.text ≠ [] ∧ run.Plain) ∧
        segments.items.IsChain Segment.Apart ∧
        ∀ level ∈ segments.insides, level.IsScope := by
  induction segments with
  | nil => simp [Regular, items, insides]
  | leaf run rest ih =>
    rw [Regular, ih, isChain_items_leaf, insides]
    have runs : (∀ other, .run other ∈ items (.leaf run rest) → other.text ≠ [] ∧ other.Plain) ↔
        (run.text ≠ [] ∧ run.Plain) ∧
          ∀ other, .run other ∈ items rest → other.text ≠ [] ∧ other.Plain := by
      simp only [items, List.mem_cons, Segment.run.injEq, or_imp, forall_and, forall_eq]
      tauto
    rw [runs]
    tauto
  | group span inner rest ihInner ihRest =>
    rw [Regular, ihRest, isChain_items_group, insides]
    have runs : (∀ other, .run other ∈ items (.group span inner rest) →
          other.text ≠ [] ∧ other.Plain) ↔
        ∀ other, .run other ∈ items rest → other.text ≠ [] ∧ other.Plain := by
      simp [items]
    rw [runs, levels]
    simp only [List.forall_mem_cons, List.forall_mem_append]
    tauto

/-- The scopes of a tree are in order when it is one empty run, or is regular and not empty. -/
theorem isScope_levels_iff (segments : Segments) :
    (∀ level ∈ segments.levels, level.IsScope) ↔
      (∃ offset, segments = .leaf ⟨[], offset⟩ .nil) ∨ segments ≠ .nil ∧ segments.Regular := by
  have inhabited : segments.items ≠ [] ↔ segments ≠ .nil := by
    cases segments <;> simp [items]
  rw [levels, List.forall_mem_cons, regular_iff]
  constructor
  · rintro ⟨scope, within⟩
    by_cases empty : ∃ run, .run run ∈ segments.items ∧ run.text = []
    · -- the empty run is all there is in the scope
      obtain ⟨⟨text, offset⟩, member, rfl⟩ := empty
      have alone := scope.occupied _ member rfl
      refine Or.inl ⟨offset, ?_⟩
      match segments, alone with
      | .leaf run .nil, alone =>
        cases alone
        rfl
    · refine Or.inr ⟨inhabited.1 scope.inhabited, ?_, scope.apart, within⟩
      intro run member
      exact ⟨fun none => empty ⟨run, member, none⟩, scope.plain run member⟩
  · rintro (⟨offset, rfl⟩ | ⟨nonempty, runs, apart, within⟩)
    · refine ⟨⟨nofun, ?_, List.isChain_singleton _, ?_⟩, nofun⟩
      · intro run member
        cases List.mem_singleton.1 member
        exact ⟨List.not_mem_nil, List.not_mem_nil⟩
      · intro run member _
        cases List.mem_singleton.1 member
        rfl
    · refine ⟨⟨inhabited.2 nonempty, fun run member => (runs run member).2, apart, ?_⟩, within⟩
      intro run member empty
      exact absurd empty (runs run member).1

/-! ## Scopes with nothing in them -/

/-- The scopes of segments are in order when the empty one has been given a run. -/
theorem isScope_levels_orEmptyRun {segments : Segments} (regular : segments.Regular)
    (offset : Nat) : ∀ level ∈ (segments.orEmptyRun offset).levels, level.IsScope := by
  rw [isScope_levels_iff]
  cases segments with
  | nil => exact Or.inl ⟨offset, rfl⟩
  | leaf run rest => exact Or.inr ⟨nofun, regular⟩
  | group span inner rest => exact Or.inr ⟨nofun, regular⟩

/-- The run that is given to an empty scope tells where it stands. -/
theorem placedAfter_orEmptyRun {before : Text} {segments : Segments}
    (placed : segments.PlacedAfter before) :
    (segments.orEmptyRun before.byteSize).PlacedAfter before := by
  cases segments with
  | nil => exact (placedAfter_leaf _ _ _).2 ⟨rfl, nofun⟩
  | leaf run rest => exact placed
  | group span inner rest => exact placed

end Segments

/-! ## The segments of a layout -/

namespace Layout

open Segments

/-- The size of a text in parentheses. -/
theorem byteSize_group (inner : Text) :
    Text.byteSize ('(' :: (inner ++ [')'])) = inner.byteSize + 2 := by
  rw [byteSize_parenthesised, Text.byteSize_nil, Nat.add_zero]

/-- The size of a text up to the inside of a group. -/
theorem byteSize_append_open (before : Text) :
    (before ++ ['(']).byteSize = before.byteSize + 1 := by
  rw [Text.byteSize_append]
  rfl

/-- The size of a text up to the end of a group. -/
theorem byteSize_append_group (before inner : Text) :
    (before ++ '(' :: (inner ++ [')'])).byteSize = before.byteSize + inner.byteSize + 2 := by
  rw [Text.byteSize_append, byteSize_group, Nat.add_assoc]

/-- The segments of a layout are regular. -/
theorem regular_segments (layout : Layout) (offset : Nat) : (layout.segments offset).Regular := by
  induction layout generalizing offset with
  | nil => trivial
  | leaf c rest ih =>
    have plain : ∀ {text : Text} {place : Nat}, Run.Plain ⟨text, place⟩ →
        Run.Plain ⟨c.val :: text, offset⟩ := by
      intro text place plainText
      refine ⟨?_, ?_⟩
      · exact List.not_mem_cons_of_ne_of_not_mem (Ne.symm c.property.1) plainText.1
      · exact List.not_mem_cons_of_ne_of_not_mem (Ne.symm c.property.2) plainText.2
    have alone : Run.Plain ⟨[], offset⟩ := ⟨List.not_mem_nil, List.not_mem_nil⟩
    have later := ih (offset + c.val.utf8Size)
    rw [segments]
    -- the character joins the run that begins after it, or is a run of its own
    cases following : segments (offset + c.val.utf8Size) rest with
    | nil => exact ⟨List.cons_ne_nil _ _, plain alone, rfl, trivial⟩
    | leaf run after =>
      rw [following] at later
      obtain ⟨-, plainRun, apart, regular⟩ := later
      exact ⟨List.cons_ne_nil _ _, plain plainRun, apart, regular⟩
    | group span inner after =>
      rw [following] at later
      exact ⟨List.cons_ne_nil _ _, plain alone, rfl, later⟩
  | group mark inner rest ihInner ihRest =>
    exact ⟨isScope_levels_orEmptyRun (ihInner (offset + 1)) (offset + 1), ihRest _⟩

/-- The segments of a layout tell where they stand. -/
theorem placedAfter_segments (layout : Layout) (before : Text) :
    (layout.segments before.byteSize).PlacedAfter before := by
  induction layout generalizing before with
  | nil => exact List.forall_mem_nil _
  | leaf c rest ih =>
    have later := ih (before ++ [c.val])
    have next : (before ++ [c.val]).byteSize = before.byteSize + c.val.utf8Size := by simp
    rw [next] at later
    rw [segments]
    cases following : segments (before.byteSize + c.val.utf8Size) rest with
    | nil => exact (placedAfter_leaf _ _ _).2 ⟨rfl, List.forall_mem_nil _⟩
    | leaf run after =>
      rw [following, placedAfter_leaf, List.append_assoc] at later
      exact (placedAfter_leaf _ _ _).2 ⟨rfl, later.2⟩
    | group span inner after =>
      rw [following] at later
      exact (placedAfter_leaf _ _ _).2 ⟨rfl, later⟩
  | group mark inner rest ihInner ihRest =>
    have inside := placedAfter_orEmptyRun (ihInner (before ++ ['(']))
    have after := ihRest (before ++ '(' :: (text inner ++ [')']))
    rw [byteSize_append_open] at inside
    rw [byteSize_append_group] at after
    rw [segments, placedAfter_group, flatten_orEmptyRun, flatten_segments, Span.ofText,
      byteSize_group]
    exact ⟨rfl, inside, after⟩

/-- A group after a character is a group after the text that ends with the character. -/
theorem mem_places_of_consChar {before : Text} {c : Char} {offset : Nat} {segments : Segments}
    {place : Place} (member : place ∈ (consChar c offset segments).places before)
    (isGroup : place.segment.isRun = false) : place ∈ segments.places (before ++ [c]) := by
  cases segments with
  | nil =>
    cases List.mem_singleton.1 member
    cases isGroup
  | leaf run rest =>
    rcases List.mem_cons.1 member with rfl | later
    · cases isGroup
    · rw [places, List.append_assoc]
      exact List.mem_cons_of_mem _ later
  | group span inner rest =>
    rcases List.mem_cons.1 member with rfl | later
    · cases isGroup
    · exact later

/-- The run that is given to an empty scope is not a group. -/
theorem mem_places_of_orEmptyRun {before : Text} {offset : Nat} {segments : Segments}
    {place : Place} (member : place ∈ (segments.orEmptyRun offset).places before)
    (isGroup : place.segment.isRun = false) : place ∈ segments.places before := by
  cases segments with
  | nil =>
    cases List.mem_singleton.1 member
    cases isGroup
  | leaf run rest => exact member
  | group span inner rest => exact member

/-- The text between the parentheses of a group is that of a layout. -/
theorem exists_text_eq_inner (layout : Layout) {offset : Nat} {before : Text} {place : Place}
    (member : place ∈ (layout.segments offset).places before) {span : Span} {inner : Segments}
    (isGroup : place.segment = .group span inner) :
    ∃ inside : Layout, inside.text = inner.flatten := by
  induction layout generalizing offset before with
  | nil => cases member
  | leaf c rest ih => exact ih (mem_places_of_consChar member (by rw [isGroup]; rfl))
  | group mark within rest ihWithin ihRest =>
    rcases List.mem_cons.1 member with rfl | later
    · cases isGroup
      exact ⟨within, by rw [flatten_orEmptyRun, flatten_segments]⟩
    · rcases List.mem_append.1 later with inside | after
      · exact ihWithin (mem_places_of_orEmptyRun inside (by rw [isGroup]; rfl))
      · exact ihRest after

/-! ## The layout of canonical segments -/

/-- A run can stand before a layout that does not begin with a run. -/
theorem exists_run_before {text : Text} (nonempty : text ≠ []) {offset : Nat}
    (plain : Run.Plain ⟨text, offset⟩) (rest : Layout)
    (apart : (rest.segments (offset + text.byteSize)).beginsWithRun = false) :
    ∃ layout : Layout, layout.segments offset =
      .leaf ⟨text, offset⟩ (rest.segments (offset + text.byteSize)) := by
  -- the last character begins the run, and each one before it joins the run
  induction text generalizing offset with
  | nil => exact absurd rfl nonempty
  | cons c later ih =>
    obtain ⟨noOpening, noClosing⟩ := plain
    rw [List.mem_cons, not_or] at noOpening noClosing
    have isPlain : c ≠ '(' ∧ c ≠ ')' := ⟨Ne.symm noOpening.1, Ne.symm noClosing.1⟩
    by_cases last : later = []
    · subst last
      refine ⟨.leaf ⟨c, isPlain⟩ rest, ?_⟩
      rw [segments]
      rw [Text.byteSize_cons, Text.byteSize_nil, Nat.add_zero] at apart ⊢
      cases following : rest.segments (offset + c.utf8Size) with
      | nil => rfl
      | leaf run after =>
        rw [following] at apart
        cases apart
      | group span inner after => rfl
    · rw [Text.byteSize_cons, ← Nat.add_assoc] at apart ⊢
      obtain ⟨layout, same⟩ := ih last ⟨noOpening.2, noClosing.2⟩ apart
      refine ⟨.leaf ⟨c, isPlain⟩ layout, ?_⟩
      rw [segments, same]
      rfl

/-- A scope in order has a layout, once it has one if it is regular. -/
theorem exists_orEmptyRun_eq {level : Segments} {before : Text}
    (scopes : ∀ inner ∈ level.levels, inner.IsScope) (placed : level.PlacedAfter before)
    (found : level.Regular → ∃ layout : Layout, layout.segments before.byteSize = level) :
    ∃ layout : Layout,
      (layout.segments before.byteSize).orEmptyRun before.byteSize = level := by
  rcases (isScope_levels_iff level).1 scopes with ⟨offset, rfl⟩ | ⟨nonempty, regular⟩
  · refine ⟨.nil, ?_⟩
    have stands : offset = before.byteSize := ((placedAfter_leaf _ _ _).1 placed).1
    rw [stands]
    rfl
  · obtain ⟨layout, rfl⟩ := found regular
    refine ⟨layout, ?_⟩
    cases inside : layout.segments before.byteSize with
    | nil => exact absurd inside nonempty
    | leaf run rest => rfl
    | group span inner rest => rfl

/-- Regular segments that tell where they stand are those of a layout. -/
theorem exists_segments_eq {segments : Segments} {before : Text} (regular : segments.Regular)
    (placed : segments.PlacedAfter before) :
    ∃ layout : Layout, layout.segments before.byteSize = segments := by
  induction segments generalizing before with
  | nil => exact ⟨.nil, rfl⟩
  | leaf run rest ih =>
    obtain ⟨nonempty, plain, apart, regularRest⟩ := regular
    obtain ⟨stands, placedRest⟩ := (placedAfter_leaf _ _ _).1 placed
    obtain ⟨layout, rfl⟩ := ih regularRest placedRest
    rw [Text.byteSize_append, ← stands] at apart ⊢
    exact exists_run_before nonempty plain layout apart
  | group span inner rest ihInner ihRest =>
    obtain ⟨scopes, regularRest⟩ := regular
    obtain ⟨rfl, placedInner, placedRest⟩ := (placedAfter_group _ _ _ _).1 placed
    obtain ⟨inside, rfl⟩ :=
      exists_orEmptyRun_eq scopes placedInner fun regularInner => ihInner regularInner placedInner
    obtain ⟨after, rfl⟩ := ihRest regularRest placedRest
    refine ⟨.group () inside after, ?_⟩
    rw [segments, flatten_orEmptyRun, flatten_segments, Span.ofText, byteSize_group,
      byteSize_append_open, byteSize_append_group]

/-- Groups nest less deep than there are characters. -/
theorem depth_le_length (layout : Layout) : layout.depth ≤ layout.text.length := by
  induction layout with
  | nil => exact Nat.le_refl 0
  | leaf c rest ih =>
    rw [depth, text_leaf, List.length_cons]
    omega
  | group mark inner rest ihInner ihRest =>
    rw [depth, text_group, List.length_cons, List.length_append, List.length_cons]
    omega

end Layout

/-! ## Decomposition and canonical trees -/

/-- The canonical trees are the segments of layouts. -/
theorem Segments.canonical_iff (segments : Segments) :
    segments.Canonical ↔ ∃ layout : Layout, (layout.segments 0).orEmptyRun 0 = segments := by
  constructor
  · rintro ⟨scopes, placed⟩
    exact Layout.exists_orEmptyRun_eq scopes placed fun regular =>
      Layout.exists_segments_eq regular placed
  · rintro ⟨layout, rfl⟩
    have stands := layout.placedAfter_segments []
    exact ⟨isScope_levels_orEmptyRun (layout.regular_segments 0) 0, placedAfter_orEmptyRun stands⟩

/-- A text is decomposed exactly when it is balanced, and when never more parentheses are open along
it than the limit allows. -/
theorem exists_decomposeWithin_eq_ok_iff (limit : Nat) (text : Text) :
    (∃ segments, decomposeWithin limit text = .ok segments) ↔
      text.Balanced ∧ ∀ start, start <+: text → start.count '(' ≤ start.count ')' + limit := by
  rw [← Layout.exists_text_eq_iff]
  simp only [decomposeWithin_eq_ok_iff]
  constructor
  · rintro ⟨_, layout, sameText, within, -⟩
    exact ⟨layout, sameText, within⟩
  · rintro ⟨layout, sameText, within⟩
    exact ⟨_, layout, sameText, within, rfl⟩

/-- Decomposition succeeds exactly on balanced texts, and is a bijection with canonical trees.

A text is decomposed exactly when as many parentheses open as close, never more close than open
along the text, and never more are open than the limit allows. The segments then come from the text
and are canonical: their scopes are in order, and each of their runs and groups stands in the text
where it is said to stand, after the text before it. The parentheses of a group match, because the
text between them is balanced. Conversely, the text of a canonical tree is decomposed into this
tree. -/
theorem decomposition_is_canonical (limit : Nat) (text : Text) :
    ((∃ segments, decomposeWithin limit text = .ok segments) ↔
      text.count '(' = text.count ')' ∧
        (∀ start, start <+: text → start.count ')' ≤ start.count '(') ∧
        ∀ start, start <+: text → start.count '(' - start.count ')' ≤ limit) ∧
    (∀ segments, decomposeWithin limit text = .ok segments →
      segments.flatten = text ∧ segments.Canonical ∧
        ∀ place ∈ segments.places [], place.before ++ place.segment.text <+: text ∧
          ∀ span inner, place.segment = .group span inner → inner.flatten.Balanced) ∧
    ∀ tree : Segments, tree.Canonical → decompose tree.flatten = .ok tree := by
  refine ⟨?_, ?_, ?_⟩
  · simp only [Nat.sub_le_iff_le_add']
    rw [exists_decomposeWithin_eq_ok_iff]
    constructor
    · rintro ⟨⟨counts, opened⟩, within⟩
      exact ⟨counts, opened, within⟩
    · rintro ⟨counts, opened, within⟩
      exact ⟨⟨counts, opened⟩, within⟩
  · intro segments decomposed
    obtain ⟨layout, rfl, -, rfl⟩ := (decomposeWithin_eq_ok_iff _ _ _).1 decomposed
    have comes : ((layout.segments 0).orEmptyRun 0).flatten = layout.text := by
      rw [Segments.flatten_orEmptyRun, Layout.flatten_segments]
    refine ⟨comes, (Segments.canonical_iff _).2 ⟨layout, rfl⟩, ?_⟩
    intro place member
    refine ⟨comes ▸ Segments.isPrefix_of_mem_places member, ?_⟩
    intro span inner isGroup
    have listed := Layout.mem_places_of_orEmptyRun member (by rw [isGroup]; rfl)
    obtain ⟨inside, same⟩ := layout.exists_text_eq_inner listed isGroup
    rw [← same]
    exact inside.balanced_text
  · intro tree canonical
    obtain ⟨layout, rfl⟩ := (Segments.canonical_iff tree).1 canonical
    refine (decomposeWithin_eq_ok_iff _ _ _).2 ⟨layout, ?_, ?_, rfl⟩
    · rw [Segments.flatten_orEmptyRun, Layout.flatten_segments]
    · rw [Segments.flatten_orEmptyRun, Layout.flatten_segments]
      exact layout.depth_le_length

/-- The text `é(()a)` has a group within a group, with nothing in it, and a character of two
bytes. -/
theorem decomposition_is_canonical_nested :
    let tree : Segments := .leaf ⟨['é'], 0⟩ (.group ⟨2, 5⟩
      (.group ⟨3, 2⟩ (.leaf ⟨[], 4⟩ .nil) (.leaf ⟨['a'], 5⟩ .nil)) .nil)
    decomposeWithin 2 ['é', '(', '(', ')', 'a', ')'] = .ok tree ∧ tree.Canonical ∧
      decompose ['é', '(', '(', ')', 'a', ')'] = .ok tree := by
  intro tree
  have decomposed : decomposeWithin 2 ['é', '(', '(', ')', 'a', ')'] = .ok tree := by decide
  obtain ⟨-, gives, back⟩ := decomposition_is_canonical 2 ['é', '(', '(', ')', 'a', ')']
  have canonical : tree.Canonical := (gives tree decomposed).2.1
  exact ⟨decomposed, canonical, back tree canonical⟩

end ComplexReckoner
