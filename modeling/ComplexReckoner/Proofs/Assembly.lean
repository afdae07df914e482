import ComplexReckoner.Expression

/-! # Assembly

When a scope can be assembled, into what, and what is to blame when it cannot. Nothing is wrong with
its shape exactly when no item in it is an empty term and its items alternate: a term, an operator,
a term, and so on up to a last term. Otherwise one of its tokens is to blame, or the scope as a
whole. The steps of the assembly are the steps of the parts, one equivalence for each. -/

namespace ComplexReckoner

variable {α : Type}

/-- A computation after another one succeeds when both do. -/
theorem bind_eq_ok_iff {ε β : Type} {first : Except ε α} {next : α → Except ε β} {result : β} :
    first >>= next = .ok result ↔ ∃ value, first = .ok value ∧ next value = .ok result := by
  cases first with
  | error fault => exact ⟨nofun, nofun⟩
  | ok value => exact ⟨fun succeeds => ⟨value, rfl, succeeds⟩, fun ⟨_, same, succeeds⟩ =>
      (Except.ok.inj same) ▸ succeeds⟩

/-- What is built from a result is there when the result is. -/
theorem bind_pure_eq_ok_iff {ε β : Type} {first : Except ε α} {build : α → β} {result : β} :
    (first >>= fun value => pure (build value)) = .ok result ↔
      ∃ value, first = .ok value ∧ result = build value := by
  rw [bind_eq_ok_iff]
  exact exists_congr fun value => and_congr_right fun _ =>
    ⟨fun same => (Except.ok.inj same).symm, fun same => congrArg Except.ok same.symm⟩

/-- A computation after another one fails when the first does, or else the second. -/
theorem bind_eq_error_iff {ε β : Type} {first : Except ε α} {next : α → Except ε β} {fault : ε} :
    first >>= next = .error fault ↔
      first = .error fault ∨ ∃ value, first = .ok value ∧ next value = .error fault := by
  cases first with
  | error other =>
    constructor
    · intro fails
      cases fails
      exact Or.inl rfl
    · rintro (fails | ⟨_, succeeds, _⟩)
      · cases fails
        rfl
      · cases succeeds
  | ok value =>
    constructor
    · intro fails
      exact Or.inr ⟨value, rfl, fails⟩
    · rintro (fails | ⟨_, same, fails⟩)
      · cases fails
      · cases same
        exact fails

/-- What is built from a result is missing when the result is. -/
theorem bind_pure_eq_error_iff {ε β : Type} {first : Except ε α} {build : α → β} {fault : ε} :
    (first >>= fun value => pure (build value)) = .error fault ↔ first = .error fault := by
  rw [bind_eq_error_iff]
  constructor
  · rintro (fails | ⟨_, _, fails⟩)
    · exact fails
    · cases fails
  · intro fails
    exact Or.inl fails

namespace Slot

/-- Whether items alternate up to a last term, when the next item is an operator or is none. -/
def AlternateFrom (operatorNext : Bool) : List (Slot α) → Prop
  | [] => operatorNext = true
  | slot :: rest => slot.isOperator = operatorNext ∧ AlternateFrom (!operatorNext) rest

@[simp] theorem alternateFrom_nil (operatorNext : Bool) :
    AlternateFrom operatorNext ([] : List (Slot α)) ↔ operatorNext = true := Iff.rfl

@[simp] theorem alternateFrom_cons (operatorNext : Bool) (slot : Slot α) (rest : List (Slot α)) :
    AlternateFrom operatorNext (slot :: rest) ↔
      slot.isOperator = operatorNext ∧ AlternateFrom (!operatorNext) rest := Iff.rfl

end Slot

/-! ## Shapes without a fault -/

/-- Nothing is wrong with two neighbours exactly when one of them is an operator. -/
theorem neighbourFault?_eq_none_iff (scope : Span) (before after : Slot α) :
    neighbourFault? scope before after = none ↔ after.isOperator = !before.isOperator := by
  unfold neighbourFault?
  cases before.isOperator <;> cases after.isOperator <;> simp

/-- Nothing is wrong at the edge of a scope exactly when no operator stands there. -/
theorem edgeFault?_eq_none_iff (shape : Shape) (slot? : Option (Slot α)) :
    edgeFault? shape slot? = none ↔ ∀ slot ∈ slot?, slot.isOperator = false := by
  cases slot? with
  | none => simp [edgeFault?]
  | some slot => cases slot <;> simp [edgeFault?, Slot.isOperator]

/-- Nothing is missing in a scope exactly when it has items, and none of them is an empty term. -/
theorem vacancyFault?_eq_none_iff (scope : Span) (slots : List (Slot α)) :
    vacancyFault? scope slots = none ↔ slots ≠ [] ∧ ∀ slot ∈ slots, slot.isVacant = false := by
  match slots with
  | [] => simp [vacancyFault?]
  | [slot] => simp [vacancyFault?]
  | first :: second :: rest => simp [vacancyFault?, List.find?_eq_none]

/-- Neighbours differ and the last item is a term exactly when the items alternate from the first
one on. -/
theorem alternateFrom_isOperator_iff (scope : Span) (slot : Slot α) (rest : List (Slot α)) :
    edgeFault? .trailingOperator (slot :: rest).getLast? = none ∧
        firstNeighbourFault? scope (slot :: rest) = none ↔
      Slot.AlternateFrom slot.isOperator (slot :: rest) := by
  induction rest generalizing slot with
  | nil =>
    rw [edgeFault?_eq_none_iff, Slot.alternateFrom_cons]
    simp [firstNeighbourFault?]
  | cons next rest ih =>
    -- the first two items differ, and the others alternate from the second one on
    have last : (slot :: next :: rest).getLast? = (next :: rest).getLast? := by
      rw [List.getLast?_cons_cons]
    rw [last, firstNeighbourFault?, Option.or_eq_none_iff, neighbourFault?_eq_none_iff,
      Slot.alternateFrom_cons]
    constructor
    · rintro ⟨edge, differ, neighbours⟩
      rw [← differ]
      exact ⟨rfl, (ih next).1 ⟨edge, neighbours⟩⟩
    · rintro ⟨-, alternate⟩
      have differ : next.isOperator = !slot.isOperator := alternate.1
      rw [← differ] at alternate
      obtain ⟨edge, neighbours⟩ := (ih next).2 alternate
      exact ⟨edge, differ, neighbours⟩

/-- Nothing is wrong with the shape of a scope exactly when no item is an empty term and the items
alternate, beginning and ending with a term. -/
theorem shapeFault?_eq_none_iff (scope : Span) (slots : List (Slot α)) :
    shapeFault? scope slots = none ↔
      (∀ slot ∈ slots, slot.isVacant = false) ∧ Slot.AlternateFrom false slots := by
  rw [shapeFault?, Option.or_eq_none_iff, Option.or_eq_none_iff, Option.or_eq_none_iff,
    vacancyFault?_eq_none_iff, edgeFault?_eq_none_iff]
  cases slots with
  | nil => simp
  | cons slot rest =>
    rw [alternateFrom_isOperator_iff]
    constructor
    · rintro ⟨⟨-, occupied⟩, leading, alternate⟩
      have term : slot.isOperator = false := leading slot rfl
      rw [term] at alternate
      exact ⟨occupied, alternate⟩
    · rintro ⟨occupied, alternate⟩
      have term : slot.isOperator = false := alternate.1
      refine ⟨⟨List.cons_ne_nil _ _, occupied⟩, ?_, ?_⟩
      · rintro first ⟨rfl⟩
        exact term
      · rw [term]
        exact alternate

/-! ## Shapes with a fault -/

/-- Whether a shape is one that an operator is to blame for. -/
def Shape.blamesOperator : Shape → Bool
  | .leadingOperator | .trailingOperator | .consecutiveOperators => true
  | .emptyScope | .missingOperator => false

/-- Whether a fault is one of the shape of a scope, and blames one of its tokens, or the scope.
Where an operator is to blame, the token is one. -/
def Fault.BlamesShape (fault : Fault) (scope : Span) (slots : List (Slot α)) : Prop :=
  ∃ shape span, fault = .malformedExpression shape span ∧
    (shape.blamesOperator = false ∧ span = scope ∨
      ∃ token, .token token ∈ slots ∧ span = token.span ∧
        (shape.blamesOperator = true → token.isOperator = true))

/-- What is missing in a scope is blamed on an empty term in it, or on the scope. -/
theorem blamesShape_of_vacancyFault? {scope : Span} {slots : List (Slot α)} {fault : Fault}
    (found : vacancyFault? scope slots = some fault) : fault.BlamesShape scope slots := by
  match slots, found with
  | [], found => exact ⟨_, _, (Option.some.inj found).symm, Or.inl ⟨rfl, rfl⟩⟩
  | [slot], found =>
    rw [vacancyFault?, Option.ite_none_right_eq_some] at found
    exact ⟨_, _, (Option.some.inj found.2).symm, Or.inl ⟨rfl, rfl⟩⟩
  | first :: second :: rest, found =>
    obtain ⟨slot, vacant, rfl⟩ := Option.map_eq_some_iff.1 found
    have member := List.mem_of_find?_eq_some vacant
    have isVacant := List.find?_some vacant
    -- a group is never an empty term
    cases slot with
    | token token => exact ⟨_, _, rfl, Or.inr ⟨token, member, rfl, nofun⟩⟩
    | group expression => cases isVacant

/-- What is wrong at the edge of a scope is blamed on the operator there. -/
theorem blamesShape_of_edgeFault? {scope : Span} {shape : Shape} {slots : List (Slot α)}
    {slot? : Option (Slot α)} {fault : Fault} (among : ∀ slot ∈ slot?, slot ∈ slots)
    (found : edgeFault? shape slot? = some fault) : fault.BlamesShape scope slots := by
  match slot?, found with
  | some (.token token), found =>
    rw [edgeFault?, Option.ite_none_right_eq_some] at found
    exact ⟨_, _, (Option.some.inj found.2).symm,
      Or.inr ⟨token, among _ rfl, rfl, fun _ => found.1⟩⟩

/-- What is wrong with two neighbours is blamed on one of them, or on the scope. -/
theorem blamesShape_of_neighbourFault? {scope : Span} {before after : Slot α} {fault : Fault}
    (found : neighbourFault? scope before after = some fault) :
    fault.BlamesShape scope [before, after] := by
  rw [neighbourFault?] at found
  split at found
  · next operatorBefore operatorAfter =>
    -- two operators, of which the second is blamed
    cases found
    cases after with
    | token token => exact ⟨_, _, rfl, Or.inr ⟨token, by simp, rfl, fun _ => operatorAfter⟩⟩
    | group expression => cases operatorAfter
  · -- two terms, of which a token is blamed if there is one
    cases found
    cases before with
    | token token => exact ⟨_, _, rfl, Or.inr ⟨token, by simp, rfl, nofun⟩⟩
    | group expression =>
      cases after with
      | token token => exact ⟨_, _, rfl, Or.inr ⟨token, by simp, rfl, nofun⟩⟩
      | group other => exact ⟨_, _, rfl, Or.inl ⟨rfl, rfl⟩⟩
  · cases found

/-- A fault that blames some of the items of a scope blames the scope. -/
theorem Fault.BlamesShape.mono {fault : Fault} {scope : Span} {some all : List (Slot α)}
    (among : ∀ slot ∈ some, slot ∈ all) (blames : fault.BlamesShape scope some) :
    fault.BlamesShape scope all := by
  obtain ⟨shape, span, told, isScope | ⟨token, member, rest⟩⟩ := blames
  · exact ⟨shape, span, told, Or.inl isScope⟩
  · exact ⟨shape, span, told, Or.inr ⟨token, among _ member, rest⟩⟩

/-- What is wrong with neighbours in a scope is blamed on one of them, or on the scope. -/
theorem blamesShape_of_firstNeighbourFault? {scope : Span} {slots : List (Slot α)} {fault : Fault}
    (found : firstNeighbourFault? scope slots = some fault) : fault.BlamesShape scope slots := by
  induction slots with
  | nil => cases found
  | cons before rest ih =>
    cases rest with
    | nil => cases found
    | cons after rest =>
      rw [firstNeighbourFault?, Option.or_eq_some_iff] at found
      rcases found with here | ⟨-, later⟩
      · refine (blamesShape_of_neighbourFault? here).mono ?_
        intro slot member
        simp only [List.mem_cons, List.not_mem_nil, or_false] at member ⊢
        exact member.imp_right Or.inl
      · exact (ih later).mono fun slot member => List.mem_cons_of_mem _ member

/-- What is wrong with the shape of a scope is blamed on one of its tokens, or on the scope. -/
theorem blamesShape_of_shapeFault? {scope : Span} {slots : List (Slot α)} {fault : Fault}
    (found : shapeFault? scope slots = some fault) : fault.BlamesShape scope slots := by
  rw [shapeFault?, Option.or_eq_some_iff, Option.or_eq_some_iff, Option.or_eq_some_iff] at found
  rcases found with vacancy | ⟨-, leading | ⟨-, trailing | ⟨-, neighbours⟩⟩⟩
  · exact blamesShape_of_vacancyFault? vacancy
  · exact blamesShape_of_edgeFault? (fun slot first => List.mem_of_mem_head? first) leading
  · exact blamesShape_of_edgeFault? (fun slot last => List.mem_of_mem_getLast? last) trailing
  · exact blamesShape_of_firstNeighbourFault? neighbours

/-! ## Steps of the assembly -/

namespace Interpretation

variable (interpretation : Interpretation α)

/-- A scope is closed when its shape is in order and its terms have values. -/
theorem closeScope_eq_ok_iff {scope : Span} {slots : List (Slot α)} {expression : Expression α} :
    interpretation.closeScope scope slots = .ok expression ↔
      ((∀ slot ∈ slots, slot.isVacant = false) ∧ Slot.AlternateFrom false slots) ∧
        interpretation.resolveSlots slots = .ok expression := by
  rw [closeScope, ← shapeFault?_eq_none_iff scope]
  cases shapeFault? scope slots with
  | none => exact ⟨fun closes => ⟨rfl, closes⟩, fun closes => closes.2⟩
  | some fault => exact ⟨nofun, nofun⟩

/-- A token is resolved before the items that follow it. -/
theorem resolveSlots_token_eq_ok_iff {token : Token} {rest : List (Slot α)}
    {expression : Expression α} :
    interpretation.resolveSlots (.token token :: rest) = .ok expression ↔
      ∃ term, interpretation.token token = .ok term ∧
        ∃ later, interpretation.resolveSlots rest = .ok later ∧ expression = .leaf term later := by
  rw [resolveSlots, bind_eq_ok_iff]
  refine exists_congr fun term => and_congr_right fun _ => ?_
  exact bind_pure_eq_ok_iff

/-- A group is kept as it was assembled. -/
theorem resolveSlots_group_eq_ok_iff {inner : Expression α} {rest : List (Slot α)}
    {expression : Expression α} :
    interpretation.resolveSlots (.group inner :: rest) = .ok expression ↔
      ∃ later, interpretation.resolveSlots rest = .ok later ∧
        expression = .group () inner later := by
  rw [resolveSlots]
  exact bind_pure_eq_ok_iff

/-- A token at the beginning of a scope becomes an item as it is. -/
theorem assembleGroups_leaf_eq_ok_iff {token : Token} {later : Nested Span Token}
    {slots : List (Slot α)} :
    interpretation.assembleGroups (.leaf token later) = .ok slots ↔
      ∃ rest, interpretation.assembleGroups later = .ok rest ∧ slots = .token token :: rest := by
  rw [assembleGroups]
  exact bind_pure_eq_ok_iff

/-- Tokens at the beginning of a scope become items as they are. -/
theorem assembleGroups_leaves_eq_ok_iff {tokens : List Token} {later : Nested Span Token}
    {slots : List (Slot α)} :
    interpretation.assembleGroups (.leaves tokens later) = .ok slots ↔
      ∃ rest, interpretation.assembleGroups later = .ok rest ∧
        slots = tokens.map .token ++ rest := by
  induction tokens generalizing slots with
  | nil =>
    rw [Nested.leaves_nil, List.map_nil]
    constructor
    · intro assembled
      exact ⟨slots, assembled, rfl⟩
    · rintro ⟨rest, assembled, rfl⟩
      exact assembled
  | cons token tokens ih =>
    rw [Nested.leaves_cons, assembleGroups_leaf_eq_ok_iff]
    constructor
    · rintro ⟨between, assembled, rfl⟩
      obtain ⟨rest, assembledRest, rfl⟩ := ih.1 assembled
      exact ⟨rest, assembledRest, rfl⟩
    · rintro ⟨rest, assembledRest, rfl⟩
      exact ⟨tokens.map .token ++ rest, ih.2 ⟨rest, assembledRest, rfl⟩, rfl⟩

/-- A group at the beginning of a scope is assembled and closed before the items that follow it. -/
theorem assembleGroups_group_eq_ok_iff {span : Span} {inner later : Nested Span Token}
    {slots : List (Slot α)} :
    interpretation.assembleGroups (.group span inner later) = .ok slots ↔
      ∃ innerSlots, interpretation.assembleGroups inner = .ok innerSlots ∧
        ∃ expression, interpretation.closeScope span innerSlots = .ok expression ∧
          ∃ rest, interpretation.assembleGroups later = .ok rest ∧
            slots = .group expression :: rest := by
  rw [assembleGroups, bind_eq_ok_iff]
  refine exists_congr fun innerSlots => and_congr_right fun _ => ?_
  rw [bind_eq_ok_iff]
  refine exists_congr fun expression => and_congr_right fun _ => ?_
  exact bind_pure_eq_ok_iff

/-! ## Steps that fail -/

variable {interpretation}

/-- Nothing fails at a token. -/
theorem assembleGroups_leaf_eq_error_iff {token : Token} {later : Nested Span Token}
    {fault : Fault} :
    interpretation.assembleGroups (.leaf token later) = .error fault ↔
      interpretation.assembleGroups later = .error fault := by
  rw [assembleGroups]
  exact bind_pure_eq_error_iff

/-- Nothing fails at tokens. -/
theorem assembleGroups_leaves_eq_error_iff {tokens : List Token} {later : Nested Span Token}
    {fault : Fault} :
    interpretation.assembleGroups (.leaves tokens later) = .error fault ↔
      interpretation.assembleGroups later = .error fault := by
  induction tokens with
  | nil => exact Iff.rfl
  | cons token tokens ih => rw [Nested.leaves_cons, assembleGroups_leaf_eq_error_iff, ih]

/-- What fails at a group is a group in it, or else the group itself, or else what follows it. -/
theorem assembleGroups_group_eq_error_iff {span : Span} {inner later : Nested Span Token}
    {fault : Fault} :
    interpretation.assembleGroups (.group span inner later) = .error fault ↔
      interpretation.assembleGroups inner = .error fault ∨
        ∃ slots, interpretation.assembleGroups inner = .ok slots ∧
          (interpretation.closeScope span slots = .error fault ∨
            ∃ expression, interpretation.closeScope span slots = .ok expression ∧
              interpretation.assembleGroups later = .error fault) := by
  rw [assembleGroups, bind_eq_error_iff]
  refine or_congr_right (exists_congr fun slots => and_congr_right fun _ => ?_)
  rw [bind_eq_error_iff]
  refine or_congr_right (exists_congr fun expression => and_congr_right fun _ => ?_)
  exact bind_pure_eq_error_iff

/-- The terms of a scope are not resolved because one of them is not. -/
theorem exists_term_of_resolveSlots_eq_error {slots : List (Slot α)} {fault : Fault}
    (fails : interpretation.resolveSlots slots = .error fault) :
    ∃ token, .token token ∈ slots ∧ token.kind = .term ∧
      interpretation.term token.literal token.offset = .error fault := by
  induction slots with
  | nil => cases fails
  | cons slot rest ih =>
    have later : interpretation.resolveSlots rest = .error fault →
        ∃ token, .token token ∈ slot :: rest ∧ token.kind = .term ∧
          interpretation.term token.literal token.offset = .error fault := by
      intro failsLater
      obtain ⟨token, member, found⟩ := ih failsLater
      exact ⟨token, List.mem_cons_of_mem _ member, found⟩
    cases slot with
    | group expression =>
      rw [resolveSlots] at fails
      exact later (bind_pure_eq_error_iff.1 fails)
    | token token =>
      rw [resolveSlots, bind_eq_error_iff] at fails
      rcases fails with failsHere | ⟨term, -, failsLater⟩
      · refine ⟨token, List.mem_cons_self, ?_⟩
        obtain ⟨kind, literal, offset⟩ := token
        cases kind with
        | plus => cases failsHere
        | star => cases failsHere
        | negativeOne => cases failsHere
        | term =>
          have mapped : (interpretation.term literal offset).map Term.value = .error fault :=
            failsHere
          cases found : interpretation.term literal offset with
          | ok value =>
            rw [found] at mapped
            cases mapped
          | error other =>
            rw [found] at mapped
            cases mapped
            exact ⟨rfl, rfl⟩
      · exact later (bind_pure_eq_error_iff.1 failsLater)

end Interpretation

end ComplexReckoner
