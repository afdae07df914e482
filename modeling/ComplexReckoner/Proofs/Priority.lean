import ComplexReckoner.Proofs.Pointing

/-! # Which fault is told

A text can be at fault in many places, but one fault is told. Each scope, which is the top level or
the inside of a pair of parentheses, has a fault of its own or none (`Interpretation.ownFault?`):
its groups count as values there, whatever is in them. The fault that is told is that of the scope
whose parenthesis closes first among the scopes at fault, and the top level comes last.

The scopes of a text are listed as they close (`Segments.scopes`). Assembly tells the first fault
along this list (`Interpretation.assemble_scopes`), and the offsets of the parentheses ascend along
it (`Layout.pairwise_groups`). -/

namespace ComplexReckoner

variable {α : Type}

/-! ## Scopes and their own faults -/

/-- A scope of a text. -/
structure Scope where
  /-- The stretch of text that is blamed for the scope as a whole. -/
  span : Span
  /-- The offset of the parenthesis that closes the scope. There is none at the top level. -/
  closing? : Option Nat
  /-- The runs and groups of the scope. -/
  content : Segments

/-- Whether a scope closes before another one. The top level is the last to close. -/
def Scope.ClosesBefore (first second : Scope) : Prop :=
  match first.closing?, second.closing? with
  | some place, some other => place < other
  | some _, none => True
  | none, _ => False

namespace Segments

/-- The groups of a scope and the groups within them, as they close. -/
def groups : Segments → List Scope
  | .nil => []
  | .leaf _ rest => groups rest
  | .group span inner rest =>
      groups inner ++ ⟨span, some (span.offset + span.length - 1), inner⟩ :: groups rest

/-- The scopes of a text, as they close. -/
def scopes (whole : Text) (segments : Segments) : List Scope :=
  segments.groups ++ [⟨.ofText 0 whole, none, segments⟩]

/-- The items of a scope. Nothing is told of what is in its groups. -/
def slots : Segments → List (Slot α)
  | .nil => []
  | .leaf run rest => (tokenize run.text run.offset).map .token ++ slots rest
  | .group _ _ rest => .group .nil :: slots rest

end Segments

namespace Interpretation

variable (interpretation : Interpretation α)

/-- The fault of an item that is a term without a value. -/
def termFault? : Slot α → Option Fault
  | .token ⟨.term, literal, offset⟩ =>
      match interpretation.term literal offset with
      | .error fault => some fault
      | .ok _ => none
  | _ => none

/-- What is wrong with items: their shape, and otherwise the leftmost term without a value. -/
def itemsFault? (scope : Span) (slots : List (Slot α)) : Option Fault :=
  (shapeFault? scope slots).or (slots.findSome? interpretation.termFault?)

/-- The fault of a scope itself. -/
def ownFault? (scope : Scope) : Option Fault :=
  interpretation.itemsFault? scope.span scope.content.slots

end Interpretation

/-! ## Items whose groups are unknown -/

namespace Slot

/-- An item with nothing told of what is in a group. -/
def veiled : Slot α → Slot α
  | .token piece => .token piece
  | .group _ => .group .nil

@[simp] theorem isOperator_veiled (slot : Slot α) : slot.veiled.isOperator = slot.isOperator := by
  cases slot <;> rfl

@[simp] theorem isVacant_veiled (slot : Slot α) : slot.veiled.isVacant = slot.isVacant := by
  cases slot <;> rfl

@[simp] theorem span?_veiled (slot : Slot α) : slot.veiled.span? = slot.span? := by
  cases slot <;> rfl

end Slot

/-- What is missing in a scope does not depend on what is in its groups. -/
theorem vacancyFault?_veiled (scope : Span) (slots : List (Slot α)) :
    vacancyFault? scope (slots.map Slot.veiled) = vacancyFault? scope slots := by
  match slots with
  | [] => rfl
  | [slot] => simp [vacancyFault?]
  | first :: second :: rest =>
    have vacant : (Slot.isVacant ∘ Slot.veiled : Slot α → Bool) = Slot.isVacant :=
      funext Slot.isVacant_veiled
    simp only [List.map_cons, vacancyFault?]
    rw [← List.map_cons, ← List.map_cons, List.find?_map, vacant, Option.map_map]
    congr 1
    funext slot
    simp

/-- What is wrong at the edge of a scope does not depend on what is in its groups. -/
theorem edgeFault?_veiled (shape : Shape) (slot? : Option (Slot α)) :
    edgeFault? shape (slot?.map Slot.veiled) = edgeFault? shape slot? := by
  match slot? with
  | none => rfl
  | some (.token token) => rfl
  | some (.group expression) => rfl

/-- What is wrong with neighbours does not depend on what is in the groups. -/
theorem firstNeighbourFault?_veiled (scope : Span) (slots : List (Slot α)) :
    firstNeighbourFault? scope (slots.map Slot.veiled) = firstNeighbourFault? scope slots := by
  match slots with
  | [] => rfl
  | [slot] => rfl
  | first :: second :: rest =>
    have later := firstNeighbourFault?_veiled scope (second :: rest)
    rw [List.map_cons] at later
    simp [firstNeighbourFault?, neighbourFault?, later]

/-- What is wrong with the shape of a scope does not depend on what is in its groups. -/
theorem shapeFault?_veiled (scope : Span) (slots : List (Slot α)) :
    shapeFault? scope (slots.map Slot.veiled) = shapeFault? scope slots := by
  rw [shapeFault?, shapeFault?, List.head?_map, List.getLast?_map, vacancyFault?_veiled,
    edgeFault?_veiled, edgeFault?_veiled, firstNeighbourFault?_veiled]

namespace Interpretation

variable (interpretation : Interpretation α)

/-- The fault of a term does not depend on what is in groups. -/
theorem termFault?_veiled (slot : Slot α) :
    interpretation.termFault? slot.veiled = interpretation.termFault? slot := by
  cases slot <;> rfl

/-- What is wrong with items does not depend on what is in their groups. -/
theorem itemsFault?_veiled (scope : Span) (slots : List (Slot α)) :
    interpretation.itemsFault? scope (slots.map Slot.veiled) =
      interpretation.itemsFault? scope slots := by
  have terms : (interpretation.termFault? ∘ Slot.veiled) = interpretation.termFault? :=
    funext interpretation.termFault?_veiled
  rw [itemsFault?, itemsFault?, shapeFault?_veiled, List.findSome?_map, terms]

/-! ## The fault that assembly tells -/

/-- A token has no fault of a term exactly when it stands for a term of an expression. -/
theorem token_eq_error_iff (token : Token) (fault : Fault) :
    interpretation.token token = .error fault ↔
      interpretation.termFault? (.token token) = some fault := by
  obtain ⟨kind, literal, offset⟩ := token
  cases kind with
  | plus => exact ⟨nofun, nofun⟩
  | star => exact ⟨nofun, nofun⟩
  | negativeOne => exact ⟨nofun, nofun⟩
  | term =>
    show (interpretation.term literal offset).map Term.value = .error fault ↔ _
    rw [termFault?]
    cases interpretation.term literal offset with
    | ok value => exact ⟨nofun, nofun⟩
    | error other => exact ⟨fun same => congrArg some (Except.error.inj same), fun same =>
        congrArg Except.error (Option.some.inj same)⟩

/-- The terms of a scope fail to be resolved with the fault of the leftmost one without a value. -/
theorem resolveSlots_eq_error_iff (slots : List (Slot α)) (fault : Fault) :
    interpretation.resolveSlots slots = .error fault ↔
      slots.findSome? interpretation.termFault? = some fault := by
  induction slots with
  | nil => exact ⟨nofun, nofun⟩
  | cons slot rest ih =>
    rw [List.findSome?_cons]
    cases slot with
    | group expression =>
      rw [resolveSlots, bind_pure_eq_error_iff]
      exact ih
    | token token =>
      rw [resolveSlots, bind_eq_error_iff]
      cases stands : interpretation.token token with
      | error other =>
        rw [(interpretation.token_eq_error_iff token other).1 stands]
        simp
      | ok term =>
        -- the token stands for a term, so any fault comes later
        have sound : interpretation.termFault? (.token token) = none := by
          rw [Option.eq_none_iff_forall_ne_some]
          intro other found
          rw [(interpretation.token_eq_error_iff token other).2 found] at stands
          cases stands
        rw [sound, ← ih]
        constructor
        · rintro (fails | ⟨_, -, fails⟩)
          · cases fails
          · exact bind_pure_eq_error_iff.1 fails
        · intro fails
          exact Or.inr ⟨term, rfl, bind_pure_eq_error_iff.2 fails⟩

/-- A scope whose groups have been assembled fails to be closed with the fault of its items. -/
theorem closeScope_eq_error_iff (scope : Span) (slots : List (Slot α)) (fault : Fault) :
    interpretation.closeScope scope slots = .error fault ↔
      interpretation.itemsFault? scope slots = some fault := by
  rw [closeScope, itemsFault?]
  cases shapeFault? scope slots with
  | some other => simp
  | none =>
    rw [Option.none_or]
    exact interpretation.resolveSlots_eq_error_iff slots fault

/-- A scope whose groups have been assembled is closed when nothing is wrong with its items. -/
theorem exists_closeScope_of_itemsFault?_eq_none {scope : Span} {slots : List (Slot α)}
    (sound : interpretation.itemsFault? scope slots = none) :
    ∃ expression, interpretation.closeScope scope slots = .ok expression := by
  cases closed : interpretation.closeScope scope slots with
  | ok expression => exact ⟨expression, rfl⟩
  | error fault =>
    rw [(interpretation.closeScope_eq_error_iff scope slots fault).1 closed] at sound
    cases sound

/-- The groups of a scope fail to be assembled with the first fault among them, as they close; and
without a fault the items are those of the scope, with the groups as they were assembled. -/
theorem assembleGroups_groups (segments : Segments) :
    (∃ fault, segments.groups.findSome? interpretation.ownFault? = some fault ∧
        interpretation.assembleGroups segments.tokens = .error fault) ∨
      segments.groups.findSome? interpretation.ownFault? = none ∧
        ∃ slots, interpretation.assembleGroups segments.tokens = .ok slots ∧
          slots.map Slot.veiled = segments.slots := by
  induction segments with
  | nil => exact Or.inr ⟨rfl, [], rfl, rfl⟩
  | leaf run rest ih =>
    have tokens : Segments.tokens (.leaf run rest) =
        .leaves (tokenize run.text run.offset) (Segments.tokens rest) := rfl
    rw [Segments.groups, tokens]
    rcases ih with ⟨fault, found, fails⟩ | ⟨sound, slots, assembled, same⟩
    · exact Or.inl ⟨fault, found, assembleGroups_leaves_eq_error_iff.2 fails⟩
    · refine Or.inr ⟨sound, _, (interpretation.assembleGroups_leaves_eq_ok_iff).2
        ⟨slots, assembled, rfl⟩, ?_⟩
      rw [List.map_append, same, List.map_map, Segments.slots]
      rfl
  | group span inner rest ihInner ihRest =>
    have tokens : Segments.tokens (.group span inner rest) =
        .group span (Segments.tokens inner) (Segments.tokens rest) := rfl
    rw [Segments.groups, tokens, List.findSome?_append, List.findSome?_cons]
    rcases ihInner with ⟨fault, found, fails⟩ | ⟨sound, innerSlots, assembledInner, sameInner⟩
    · -- a group within is at fault
      refine Or.inl ⟨fault, by rw [found, Option.some_or], ?_⟩
      exact assembleGroups_group_eq_error_iff.2 (Or.inl fails)
    rw [sound, Option.none_or]
    cases own : interpretation.ownFault? ⟨span, some (span.offset + span.length - 1), inner⟩ with
    | some fault =>
      have fails : interpretation.closeScope span innerSlots = .error fault := by
        rw [closeScope_eq_error_iff, ← itemsFault?_veiled, sameInner]
        exact own
      refine Or.inl ⟨fault, rfl, ?_⟩
      exact assembleGroups_group_eq_error_iff.2 (Or.inr ⟨innerSlots, assembledInner, Or.inl fails⟩)
    | none =>
      have soundHere : interpretation.itemsFault? span innerSlots = none := by
        rw [← itemsFault?_veiled, sameInner]
        exact own
      obtain ⟨expression, closed⟩ :=
        interpretation.exists_closeScope_of_itemsFault?_eq_none soundHere
      rcases ihRest with ⟨fault, found, fails⟩ | ⟨soundRest, slots, assembled, same⟩
      · refine Or.inl ⟨fault, found, assembleGroups_group_eq_error_iff.2 (Or.inr ?_)⟩
        exact ⟨innerSlots, assembledInner, Or.inr ⟨expression, closed, fails⟩⟩
      · refine Or.inr ⟨soundRest, _, interpretation.assembleGroups_group_eq_ok_iff.2
          ⟨innerSlots, assembledInner, expression, closed, slots, assembled, rfl⟩, ?_⟩
        rw [List.map_cons, same, Segments.slots]
        rfl

/-- A text fails to be assembled with the first fault among its scopes, as they close. -/
theorem assemble_scopes (whole : Text) (segments : Segments) (fault : Fault) :
    interpretation.assemble (.ofText 0 whole) segments.tokens = .error fault ↔
      (segments.scopes whole).findSome? interpretation.ownFault? = some fault := by
  rw [assemble, bind_eq_error_iff, Segments.scopes, List.findSome?_append,
    List.findSome?_singleton]
  rcases interpretation.assembleGroups_groups segments with
    ⟨other, found, fails⟩ | ⟨sound, slots, assembled, same⟩
  · rw [found, fails]
    simp
  · rw [sound, assembled, Option.none_or, ownFault?, ← same, itemsFault?_veiled,
      ← closeScope_eq_error_iff]
    simp

end Interpretation

/-! ## Where scopes stand -/

/-- Whether a scope is the inside of a pair of parentheses in a text that stands at an offset. -/
structure Scope.Parenthesised (scope : Scope) (offset : Nat) (text : Text) : Prop where
  /-- The text of the scope stands there, in parentheses. -/
  holds : Holds offset text scope.span.offset ('(' :: (scope.content.flatten ++ [')']))
  /-- The span takes in both parentheses. -/
  length : scope.span.length = scope.content.flatten.byteSize + 2
  /-- The parenthesis that closes the scope comes after its text. -/
  closing : scope.closing? = some (scope.span.offset + scope.content.flatten.byteSize + 1)

namespace Scope.Parenthesised

variable {scope : Scope} {offset place : Nat} {text part : Text}

/-- What is in parentheses in a part is so in the text that holds it. -/
theorem widen (holds : Holds offset text place part) (inside : scope.Parenthesised place part) :
    scope.Parenthesised offset text :=
  { inside with holds := holds.trans inside.holds }

/-- The parenthesis that closes a scope stands in the text. -/
theorem exists_closing (inside : scope.Parenthesised offset text) :
    ∃ place, scope.closing? = some place ∧ offset < place ∧ place < offset + text.byteSize := by
  obtain ⟨before, after, rfl, stands⟩ := inside.holds
  have size := Layout.byteSize_parenthesised scope.content.flatten []
  rw [Text.byteSize_nil, Nat.add_zero] at size
  refine ⟨_, inside.closing, ?_, ?_⟩
  · omega
  · rw [Text.byteSize_append, Text.byteSize_append, size]
    omega

end Scope.Parenthesised

namespace Layout

/-- A character in front adds no group. -/
@[simp] theorem groups_consChar (c : Char) (offset : Nat) (segments : Segments) :
    (Segments.consChar c offset segments).groups = segments.groups := by
  cases segments <;> rfl

/-- An empty run adds no group. -/
@[simp] theorem groups_orEmptyRun (offset : Nat) (segments : Segments) :
    (segments.orEmptyRun offset).groups = segments.groups := by
  cases segments <;> rfl

/-- The scope of a group of a layout. -/
def groupScope (offset : Nat) (inner : Layout) : Scope where
  span := ⟨offset, inner.text.byteSize + 2⟩
  closing? := some (offset + (inner.text.byteSize + 2) - 1)
  content := (inner.segments (offset + 1)).orEmptyRun (offset + 1)

/-- The groups of a layout whose first item is a group. -/
theorem groups_group (offset : Nat) (mark : Unit) (inner rest : Layout) :
    (segments offset (.group mark inner rest)).groups =
      (inner.segments (offset + 1)).groups ++
        groupScope offset inner :: (rest.segments (offset + inner.text.byteSize + 2)).groups := by
  rw [segments, Segments.groups, groups_orEmptyRun]
  rfl

/-- A group stands in its text. -/
theorem parenthesised_groupScope (offset : Nat) (inner : Layout) (after : Text) :
    (groupScope offset inner).Parenthesised offset ('(' :: (inner.text ++ ')' :: after)) := by
  have text : (groupScope offset inner).content.flatten = inner.text := by
    rw [groupScope, Segments.flatten_orEmptyRun, flatten_segments]
  refine ⟨⟨[], after, ?_, rfl⟩, ?_, ?_⟩
  · rw [text]
    simp
  · rw [text]
    rfl
  · rw [text]
    show some (offset + (inner.text.byteSize + 2) - 1) = some (offset + inner.text.byteSize + 1)
    congr 1

/-- The groups of a layout stand in its text. -/
theorem parenthesised_of_mem_groups {layout : Layout} {offset : Nat} {scope : Scope}
    (member : scope ∈ (layout.segments offset).groups) :
    scope.Parenthesised offset layout.text := by
  induction layout generalizing offset with
  | nil => cases member
  | leaf c rest ih =>
    rw [segments, groups_consChar] at member
    exact (ih member).widen (holds_behind offset [c.val] _)
  | group mark inner rest ihInner ihRest =>
    rw [groups_group] at member
    rcases List.mem_append.1 member with within | here
    · exact (ihInner within).widen (holds_group offset _ _)
    · rcases List.mem_cons.1 here with rfl | behind
      · exact parenthesised_groupScope offset inner _
      · exact (ihRest behind).widen (holds_behind_group offset _ _)

/-- The groups of a layout are listed as they close. -/
theorem pairwise_groups (layout : Layout) (offset : Nat) :
    (layout.segments offset).groups.Pairwise Scope.ClosesBefore := by
  induction layout generalizing offset with
  | nil => exact .nil
  | leaf c rest ih =>
    rw [segments, groups_consChar]
    exact ih _
  | group mark inner rest ihInner ihRest =>
    have close : (groupScope offset inner).closing? =
        some (offset + (text inner).byteSize + 1) := rfl
    -- the groups within close before this one, and those behind it after
    have before : ∀ scope ∈ (segments (offset + 1) inner).groups,
        ∃ place, scope.closing? = some place ∧ place < offset + (text inner).byteSize + 1 := by
      intro scope member
      obtain ⟨place, closes, -, below⟩ := (parenthesised_of_mem_groups member).exists_closing
      exact ⟨place, closes, by omega⟩
    have after : ∀ scope ∈ (segments (offset + (text inner).byteSize + 2) rest).groups,
        ∃ place, scope.closing? = some place ∧ offset + (text inner).byteSize + 1 < place := by
      intro scope member
      obtain ⟨place, closes, above, -⟩ := (parenthesised_of_mem_groups member).exists_closing
      exact ⟨place, closes, by omega⟩
    rw [groups_group, List.pairwise_append, List.pairwise_cons]
    refine ⟨ihInner _, ⟨?_, ihRest _⟩, ?_⟩
    · intro scope member
      obtain ⟨place, closes, above⟩ := after scope member
      rw [Scope.ClosesBefore, close, closes]
      exact above
    · intro first within second behind
      obtain ⟨place, closes, below⟩ := before first within
      rcases List.mem_cons.1 behind with rfl | later
      · rw [Scope.ClosesBefore, closes, close]
        exact below
      · obtain ⟨other, closesLater, above⟩ := after second later
        rw [Scope.ClosesBefore, closes, closesLater]
        exact Nat.lt_trans below above

/-- There is one group for each parenthesis that opens. -/
theorem length_groups (layout : Layout) (offset : Nat) :
    (layout.segments offset).groups.length = layout.text.count '(' := by
  induction layout generalizing offset with
  | nil => rfl
  | leaf c rest ih =>
    rw [segments, groups_consChar, ih, text_leaf, List.count_cons_of_ne c.property.1]
  | group mark inner rest ihInner ihRest =>
    rw [groups_group, List.length_append, List.length_cons, ihInner, ihRest, text_group,
      List.count_cons_self, List.count_append, List.count_cons_of_ne (by decide)]
    omega

end Layout

/-! ## The scopes of a text -/

section Texts

variable {limit : Nat} {whole : Text} {segments : Segments}
  (decomposed : decomposeWithin limit whole = .ok segments)

include decomposed

/-- The groups of a text that is decomposed are those of its layout. -/
theorem exists_layout_groups :
    ∃ layout : Layout, layout.text = whole ∧ segments.groups = (layout.segments 0).groups := by
  obtain ⟨layout, sameText, -, rfl⟩ := (decomposeWithin_eq_ok_iff _ _ _).1 decomposed
  exact ⟨layout, sameText, Layout.groups_orEmptyRun _ _⟩

/-- The scopes of a text are the top level and the insides of its parentheses. -/
theorem top_or_parenthesised_of_mem_scopes {scope : Scope}
    (member : scope ∈ segments.scopes whole) :
    scope = ⟨.ofText 0 whole, none, segments⟩ ∨ scope.Parenthesised 0 whole := by
  obtain ⟨layout, rfl, sameGroups⟩ := exists_layout_groups decomposed
  rw [Segments.scopes, sameGroups] at member
  rcases List.mem_append.1 member with within | top
  · exact Or.inr (Layout.parenthesised_of_mem_groups within)
  · exact Or.inl (List.mem_singleton.1 top)

/-- The scopes of a text are listed as they close. -/
theorem pairwise_scopes : (segments.scopes whole).Pairwise Scope.ClosesBefore := by
  obtain ⟨layout, rfl, sameGroups⟩ := exists_layout_groups decomposed
  rw [Segments.scopes, sameGroups, List.pairwise_append]
  refine ⟨layout.pairwise_groups 0, List.pairwise_singleton _ _, ?_⟩
  intro scope within top member
  obtain ⟨place, closes, -⟩ := (Layout.parenthesised_of_mem_groups within).exists_closing
  rw [List.mem_singleton.1 member, Scope.ClosesBefore, closes]
  trivial

end Texts

/-- No two scopes close before each other. -/
theorem Scope.ClosesBefore.asymm {first second : Scope} (before : first.ClosesBefore second) :
    ¬ second.ClosesBefore first := by
  intro after
  rw [Scope.ClosesBefore] at before after
  cases closesFirst : first.closing? <;> cases closesSecond : second.closing? <;>
    simp only [closesFirst, closesSecond] at before after
  omega

/-- Along scopes that are listed as they close, the first fault is that of the scope at fault that
closes before all others at fault. -/
theorem findSome?_eq_some_iff_closes_first {scopes : List Scope}
    (ordered : scopes.Pairwise Scope.ClosesBefore) (fault? : Scope → Option Fault) (fault : Fault) :
    scopes.findSome? fault? = some fault ↔
      ∃ scope ∈ scopes, fault? scope = some fault ∧
        ∀ other ∈ scopes, fault? other ≠ none → other = scope ∨ scope.ClosesBefore other := by
  have first : ∀ {fault}, scopes.findSome? fault? = some fault →
      ∃ scope ∈ scopes, fault? scope = some fault ∧
        ∀ other ∈ scopes, fault? other ≠ none → other = scope ∨ scope.ClosesBefore other := by
    intro fault found
    obtain ⟨before, scope, after, rfl, faulty, sound⟩ := List.findSome?_eq_some_iff.1 found
    refine ⟨scope, by simp, faulty, ?_⟩
    intro other member otherFaulty
    rcases List.mem_append.1 member with earlier | later
    · exact absurd (sound other earlier) otherFaulty
    · rcases List.mem_cons.1 later with same | behind
      · exact Or.inl same
      · exact Or.inr ((List.pairwise_cons.1 (List.pairwise_append.1 ordered).2.1).1 other behind)
  refine ⟨first, ?_⟩
  rintro ⟨scope, member, faulty, least⟩
  cases found : scopes.findSome? fault? with
  | none =>
    rw [List.findSome?_eq_none_iff.1 found scope member] at faulty
    cases faulty
  | some told =>
    -- the scope that is found and the given one would close before each other
    obtain ⟨other, otherMember, otherFaulty, otherLeast⟩ := first found
    have sameScope : other = scope := by
      rcases least other otherMember (by simp [otherFaulty]) with same | before
      · exact same
      · rcases otherLeast scope member (by simp [faulty]) with same | after
        · exact same.symm
        · exact absurd after before.asymm
    rw [← otherFaulty, sameScope, faulty]

/-- Among several faults the one of the scope that closes first is told.

The scopes of a text that is decomposed are its top level and the insides of its parentheses, one
for each parenthesis that opens. Parsing fails exactly when one of them has a fault of its own, and
with the fault of the one whose parenthesis closes before those of all others at fault, the top
level counting as last. -/
theorem Expression.parse_tells_first_to_close (environment : Environment ComplexFloat)
    (limits : Limits) (whole : Text) (segments : Segments)
    (decomposed : decomposeWithin limits.maxDepth whole = .ok segments) :
    ((segments.scopes whole).length = whole.count '(' + 1 ∧
      ∀ scope ∈ segments.scopes whole,
        scope = ⟨.ofText 0 whole, none, segments⟩ ∨ scope.Parenthesised 0 whole) ∧
    ((∃ fault, parse environment.interpretation limits whole = .error fault) ↔
      ∃ scope ∈ segments.scopes whole, environment.interpretation.ownFault? scope ≠ none) ∧
    ∀ fault, parse environment.interpretation limits whole = .error fault ↔
      ∃ scope ∈ segments.scopes whole,
        environment.interpretation.ownFault? scope = some fault ∧
          ∀ other ∈ segments.scopes whole, environment.interpretation.ownFault? other ≠ none →
            other = scope ∨ scope.ClosesBefore other := by
  have told : ∀ fault, parse environment.interpretation limits whole = .error fault ↔
      (segments.scopes whole).findSome? environment.interpretation.ownFault? = some fault := by
    intro fault
    rw [← Interpretation.assemble_scopes, parse, decomposed]
    rfl
  refine ⟨⟨?_, fun scope member => top_or_parenthesised_of_mem_scopes decomposed member⟩, ?_, ?_⟩
  · obtain ⟨layout, rfl, sameGroups⟩ := exists_layout_groups decomposed
    rw [Segments.scopes, List.length_append, sameGroups, Layout.length_groups]
    rfl
  · rw [exists_congr told, ← Option.ne_none_iff_exists', ne_eq, List.findSome?_eq_none_iff]
    simp
  · intro fault
    rw [told]
    exact findSome?_eq_some_iff_closes_first (pairwise_scopes decomposed) _ fault

/-- In `+(y(+))` every scope is at fault, and the sign in the inner parentheses is blamed. -/
theorem Expression.parse_tells_first_to_close_nested :
    ∃ scope ∈ Segments.scopes ['+', '(', 'y', '(', '+', ')', ')']
        (.leaf ⟨['+'], 0⟩ (.group ⟨1, 6⟩ (.leaf ⟨['y'], 2⟩ (.group ⟨3, 3⟩ (.leaf ⟨['+'], 4⟩ .nil)
          .nil)) .nil)),
      (Environment.interpretation ∅).ownFault? scope =
        some (.malformedExpression .leadingOperator ⟨4, 1⟩) := by
  obtain ⟨scope, member, faulty, -⟩ := ((parse_tells_first_to_close ∅ {}
    ['+', '(', 'y', '(', '+', ')', ')'] _ rfl).2.2 (.malformedExpression .leadingOperator ⟨4, 1⟩)).1
      rfl
  exact ⟨scope, member, faulty⟩

end ComplexReckoner
