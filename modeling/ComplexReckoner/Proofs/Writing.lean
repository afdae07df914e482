import ComplexReckoner.Evaluation
import ComplexReckoner.Proofs.Layout

/-! # What is written can be told apart

The text of an expression tells its shape. Items are separated by single spaces, values stand in
brackets that no value has in its own text, and a group ends at the parenthesis that closes it. So
two expressions have the same text exactly when they have the same operators and groups at the same
places, and values with the same text everywhere else.

* `Nested.Parallel` compares two trees place by place, and `Expression.SameShape` does so for
  expressions,
* `Expression.IsReadOff` says that an expression can be read off a text that goes on behind it,
  with one lemma for each thing that an expression can begin with,
* `ComplexFloat.isWritten_of_mem_render` tells the characters that numbers are written with. -/

namespace ComplexReckoner

variable {α : Type}

/-- A space stands before every item but the first. -/
theorem Text.intercalate_space (item : Text) (items : List Text) :
    List.intercalate [' '] (item :: items) = item ++ items.flatMap (' ' :: ·) := by
  induction items generalizing item with
  | nil => simp
  | cons next items ih =>
    rw [List.intercalate_cons_cons, ih, List.flatMap_cons, List.append_assoc, List.singleton_append,
      List.cons_append]

/-! ## Trees of the same shape -/

/-- Whether two nested sequences have leaves and groups at the same places, with leaves that are
related. -/
inductive Nested.Parallel {γ : Type} (related : α → α → Prop) : Nested γ α → Nested γ α → Prop where
  /-- Both end here. -/
  | nil : Parallel related .nil .nil
  /-- Both have a leaf here. -/
  | leaf {content other : α} {rest otherRest : Nested γ α} (here : related content other)
      (later : Parallel related rest otherRest) :
      Parallel related (.leaf content rest) (.leaf other otherRest)
  /-- Both have a group here. -/
  | group {mark otherMark : γ} {inner otherInner rest otherRest : Nested γ α}
      (within : Parallel related inner otherInner) (later : Parallel related rest otherRest) :
      Parallel related (.group mark inner rest) (.group otherMark otherInner otherRest)

/-- Whether two leaves are the same operator, or values that are written the same. -/
inductive Term.WrittenAlike (write : α → Text) : Term α → Term α → Prop where
  /-- They are one operator. -/
  | operator (operator : Operator) : WrittenAlike write (.operator operator) (.operator operator)
  /-- They are values, and these have the same text. -/
  | value {value other : α} (same : write value = write other) :
      WrittenAlike write (.value value) (.value other)

namespace Expression

/-- Whether two expressions have the same operators and groups at the same places, and values that
are written the same at the other places. -/
def SameShape (write : α → Text) (first second : Expression α) : Prop :=
  Nested.Parallel (Term.WrittenAlike write) first second

/-! ## The text of a scope -/

section Equations

variable (write : α → Text)

/-- Writes the items of a scope that has begun, with a space before each of them. -/
def renderFurther (expression : Expression α) : Text :=
  (renderItems write expression).flatMap (' ' :: ·)

@[simp] theorem renderWith_nil : renderWith write (.nil : Expression α) = [] := rfl

@[simp] theorem renderFurther_nil : renderFurther write (.nil : Expression α) = [] := rfl

@[simp] theorem renderWith_leaf (term : Term α) (rest : Expression α) :
    renderWith write (.leaf term rest) = renderTerm write term ++ renderFurther write rest :=
  Text.intercalate_space _ _

@[simp] theorem renderWith_group (mark : Unit) (inner rest : Expression α) :
    renderWith write (.group mark inner rest) =
      '(' :: (renderWith write inner ++ ')' :: renderFurther write rest) := by
  rw [renderWith, renderItems, Text.intercalate_space]
  simp [renderWith, renderFurther]

/-- Items that do not begin a scope are written as if they did, behind a space. -/
theorem renderFurther_of_ne_nil {expression : Expression α} (filled : expression ≠ .nil) :
    renderFurther write expression = ' ' :: renderWith write expression := by
  cases expression with
  | nil => exact absurd rfl filled
  | leaf term rest =>
    rw [renderWith_leaf]
    rfl
  | group mark inner rest =>
    rw [renderWith_group]
    simp [renderFurther, renderItems, renderWith]

/-- A leaf begins with a character that is no parenthesis. -/
theorem exists_renderTerm_eq_cons (term : Term α) :
    ∃ c text, renderTerm write term = c :: text ∧ c ≠ '(' ∧ c ≠ ')' := by
  cases term with
  | operator operator => cases operator <;> exact ⟨_, _, rfl, by decide, by decide⟩
  | value value => exact ⟨_, _, rfl, by decide, by decide⟩

/-- A leaf and a group begin with different characters. -/
theorem renderWith_leaf_append_ne_group (term : Term α) (mark : Unit)
    (rest inner otherRest : Expression α) (after other : Text) :
    renderWith write (.leaf term rest) ++ after ≠
      renderWith write (.group mark inner otherRest) ++ other := by
  obtain ⟨c, text, begins, notOpen, -⟩ := exists_renderTerm_eq_cons write term
  rw [renderWith_leaf, begins, renderWith_group]
  intro same
  exact notOpen (List.cons.inj same).1

/-- A scope that can end where its items are to come has none. -/
theorem eq_nil_of_endsScope_renderWith {expression : Expression α} {after : Text}
    (ends : Layout.EndsScope (renderWith write expression ++ after)) : expression = .nil := by
  cases expression with
  | nil => rfl
  | leaf term rest =>
    obtain ⟨c, text, begins, -, notClose⟩ := exists_renderTerm_eq_cons write term
    rw [renderWith_leaf, begins] at ends
    exact absurd ends (Layout.not_endsScope notClose _)
  | group mark inner rest =>
    rw [renderWith_group] at ends
    exact absurd ends (Layout.not_endsScope (by decide) _)

/-- A scope that can end where more items are to come has no more of them. -/
theorem eq_nil_of_endsScope_renderFurther {expression : Expression α} {after : Text}
    (ends : Layout.EndsScope (renderFurther write expression ++ after)) : expression = .nil := by
  by_cases empty : expression = .nil
  · exact empty
  · rw [renderFurther_of_ne_nil write empty] at ends
    exact absurd ends (Layout.not_endsScope (by decide) _)

end Equations

/-! ## Reading an expression off its text -/

section Reading

variable {write : α → Text}

/-- A leaf is determined by any text that begins with it. -/
theorem renderTerm_append_inj (closed : ∀ value, ']' ∉ write value) {first second : Term α}
    {after other : Text}
    (same : renderTerm write first ++ after = renderTerm write second ++ other) :
    Term.WrittenAlike write first second ∧ after = other := by
  cases first with
  | operator operator =>
    cases second with
    | operator another =>
      -- an operator is one character, and each has its own
      cases operator <;> cases another <;> cases same <;> exact ⟨.operator _, rfl⟩
    | value held => cases operator <;> cases same
  | value value =>
    cases second with
    | operator another => cases another <;> cases same
    | value held =>
      simp only [renderTerm, List.cons_append, List.append_assoc, List.nil_append, List.cons.injEq,
        true_and] at same
      -- both values end at the first bracket that closes
      have ends := (Text.cut?_eq_some_iff ']' _ _ after).2 ⟨rfl, closed value⟩
      have endsToo := (Text.cut?_eq_some_iff ']' _ _ other).2 ⟨same, closed held⟩
      obtain ⟨sameText, sameAfter⟩ := Prod.mk.inj (Option.some.inj (ends.symm.trans endsToo))
      exact ⟨.value sameText, sameAfter⟩

/-- Whether the shape of an expression is determined by any text that begins with the expression,
when its scope can end there. -/
def IsReadOff (write : α → Text) (first : Expression α) : Prop :=
  ∀ ⦃second : Expression α⦄ ⦃after other : Text⦄, Layout.EndsScope after →
    Layout.EndsScope other → renderWith write first ++ after = renderWith write second ++ other →
      SameShape write first second ∧ after = other

/-- The end of a scope can be told from an item. -/
theorem isReadOff_nil : IsReadOff write (.nil : Expression α) := by
  intro second after other ends otherEnds same
  rw [renderWith_nil, List.nil_append] at same
  have empty : second = .nil := eq_nil_of_endsScope_renderWith write (same ▸ ends)
  subst empty
  exact ⟨.nil, same⟩

/-- What can be read off at the beginning of a scope can be read off further on. -/
theorem IsReadOff.further {first second : Expression α} (readOff : IsReadOff write first)
    {after other : Text} (ends : Layout.EndsScope after) (otherEnds : Layout.EndsScope other)
    (same : renderFurther write first ++ after = renderFurther write second ++ other) :
    SameShape write first second ∧ after = other := by
  by_cases empty : first = .nil
  · subst empty
    rw [renderFurther_nil, List.nil_append] at same
    have emptyToo : second = .nil := eq_nil_of_endsScope_renderFurther write (same ▸ ends)
    subst emptyToo
    exact ⟨.nil, same⟩
  · by_cases emptyToo : second = .nil
    · subst emptyToo
      rw [renderFurther_nil, List.nil_append] at same
      exact absurd (eq_nil_of_endsScope_renderFurther write (same ▸ otherEnds)) empty
    · -- a space comes first on both sides
      rw [renderFurther_of_ne_nil write empty, renderFurther_of_ne_nil write emptyToo,
        List.cons_append, List.cons_append, List.cons.injEq] at same
      exact readOff ends otherEnds same.2

/-- A leaf is read off before the items that follow it. -/
theorem IsReadOff.leaf (closed : ∀ value, ']' ∉ write value) (term : Term α) {rest : Expression α}
    (readOff : IsReadOff write rest) : IsReadOff write (.leaf term rest) := by
  intro second after other ends otherEnds same
  cases second with
  | nil =>
    rw [renderWith_nil, List.nil_append] at same
    cases eq_nil_of_endsScope_renderWith write (same ▸ otherEnds)
  | leaf another otherRest =>
    rw [renderWith_leaf, renderWith_leaf, List.append_assoc, List.append_assoc] at same
    obtain ⟨alike, sameRest⟩ := renderTerm_append_inj closed same
    obtain ⟨sameShape, sameAfter⟩ := readOff.further ends otherEnds sameRest
    exact ⟨.leaf alike sameShape, sameAfter⟩
  | group mark inner otherRest =>
    exact absurd same (renderWith_leaf_append_ne_group write term mark rest inner otherRest _ _)

/-- A group is read off up to the parenthesis that closes it, and then the items that follow it. -/
theorem IsReadOff.group (mark : Unit) {inner rest : Expression α}
    (within : IsReadOff write inner) (readOff : IsReadOff write rest) :
    IsReadOff write (.group mark inner rest) := by
  intro second after other ends otherEnds same
  cases second with
  | nil =>
    rw [renderWith_nil, List.nil_append] at same
    cases eq_nil_of_endsScope_renderWith write (same ▸ otherEnds)
  | leaf term otherRest =>
    exact absurd same.symm
      (renderWith_leaf_append_ne_group write term mark otherRest inner rest _ _)
  | group otherMark otherInner otherRest =>
    simp only [renderWith_group, List.cons_append, List.append_assoc, List.cons.injEq,
      true_and] at same
    obtain ⟨sameInner, sameClose⟩ := within (Layout.endsScope_close _) (Layout.endsScope_close _)
      same
    obtain ⟨sameShape, sameAfter⟩ := readOff.further ends otherEnds (List.cons.inj sameClose).2
    exact ⟨.group sameInner sameShape, sameAfter⟩

/-- Every expression can be read off, when no value is written with a bracket that closes. -/
theorem isReadOff (closed : ∀ value, ']' ∉ write value) (expression : Expression α) :
    IsReadOff write expression := by
  induction expression with
  | nil => exact isReadOff_nil
  | leaf term rest ih => exact .leaf closed term ih
  | group mark inner rest ihInner ihRest => exact .group mark ihInner ihRest

/-- Leaves that are written alike have the same text. -/
theorem renderTerm_eq_of_writtenAlike {first second : Term α}
    (alike : Term.WrittenAlike write first second) :
    renderTerm write first = renderTerm write second := by
  cases alike with
  | operator operator => rfl
  | value same => rw [renderTerm, renderTerm, same]

/-- Expressions of the same shape have items with the same texts. -/
theorem SameShape.renderItems_eq {first second : Expression α}
    (sameShape : SameShape write first second) :
    renderItems write first = renderItems write second := by
  induction sameShape with
  | nil => rfl
  | leaf here later ih =>
    rw [renderItems, renderItems, renderTerm_eq_of_writtenAlike here, ih]
  | group within later ihInner ihRest => rw [renderItems, renderItems, ihInner, ihRest]

/-- Two expressions are written the same exactly when they have the same shape, if no value is
written with a bracket that closes. -/
theorem renderWith_eq_iff (closed : ∀ value, ']' ∉ write value) (first second : Expression α) :
    renderWith write first = renderWith write second ↔ SameShape write first second := by
  constructor
  · intro same
    have appended : renderWith write first ++ [] = renderWith write second ++ [] := by rw [same]
    exact (isReadOff closed first Layout.endsScope_nil Layout.endsScope_nil appended).1
  · intro sameShape
    rw [renderWith, renderWith, sameShape.renderItems_eq]

end Reading

end Expression

/-! ## The characters of a number -/

/-- Whether numbers are written with a character: a letter, a digit, a sign or a point. -/
def isWritten (c : Char) : Bool := c.isAlphanum || c == '+' || c == '-' || c == '.'

/-- Digits are digits. -/
theorem isWritten_of_mem_toDigits (n : Nat) : ∀ c ∈ Nat.toDigits 10 n, isWritten c = true := by
  intro c member
  have digit : c.isDigit = true := Nat.isDigit_of_mem_toDigits (by decide) (by decide) member
  simp [isWritten, Char.isAlphanum, digit]

/-- Zeros are digits. -/
theorem isWritten_of_mem_replicate (n : Nat) :
    ∀ c ∈ List.replicate n '0', isWritten c = true := by
  intro c member
  rw [(List.mem_replicate.1 member).2]
  decide

/-- A decimal number is written with digits and a point. -/
theorem isWritten_of_mem_positional (decimal : Decimal) :
    ∀ c ∈ decimal.positional, isWritten c = true := by
  unfold Decimal.positional
  split
  · exact List.forall_mem_append.2
      ⟨isWritten_of_mem_toDigits _, isWritten_of_mem_replicate _⟩
  · refine List.forall_mem_append.2 ⟨isWritten_of_mem_toDigits _, ?_⟩
    refine List.forall_mem_cons.2 ⟨by decide, ?_⟩
    exact List.forall_mem_append.2 ⟨isWritten_of_mem_replicate _, isWritten_of_mem_toDigits _⟩

namespace ComplexFloat

/-- What is not negative is written with digits, or has a name. -/
theorem isWritten_of_mem_renderMagnitude (x : Float) :
    ∀ c ∈ renderMagnitude x, isWritten c = true := by
  have digits := isWritten_of_mem_positional (Decimal.shortest x)
  unfold renderMagnitude
  split
  · exact List.all_eq_true.1 (by decide)
  · split
    · exact List.all_eq_true.1 (by decide)
    · dsimp only
      split
      · exact digits
      · exact List.forall_mem_cons.2 ⟨by decide, digits⟩

/-- A part is written with a sign and what is not negative. -/
theorem isWritten_of_mem_renderPart {positive : Text} (sign : ∀ c ∈ positive, isWritten c = true)
    (x : Float) : ∀ c ∈ renderPart positive x, isWritten c = true := by
  unfold renderPart
  split
  · exact List.forall_mem_cons.2 ⟨by decide, isWritten_of_mem_renderMagnitude _⟩
  · exact List.forall_mem_append.2 ⟨sign, isWritten_of_mem_renderMagnitude _⟩

/-- A complex number is written with its two parts and the imaginary unit. -/
theorem isWritten_of_mem_render (z : ComplexFloat) : ∀ c ∈ z.render, isWritten c = true := by
  refine List.forall_mem_append.2 ⟨List.forall_mem_append.2 ⟨?_, ?_⟩, ?_⟩
  · exact isWritten_of_mem_renderPart (List.all_eq_true.1 (by decide)) z.re
  · exact isWritten_of_mem_renderPart (List.all_eq_true.1 (by decide)) z.im
  · exact List.all_eq_true.1 (by decide)

/-- No number is written with a space, a bracket or a parenthesis. -/
theorem delimiter_notMem_render (z : ComplexFloat) :
    ∀ c ∈ [' ', '[', ']', '(', ')'], c ∉ z.render := by
  intro c delimiter member
  have written := isWritten_of_mem_render z c member
  have none : [' ', '[', ']', '(', ')'].all (fun c => !isWritten c) = true := by decide
  have unused := List.all_eq_true.1 none c delimiter
  rw [written] at unused
  cases unused

end ComplexFloat

namespace Expression

/-- The text of an expression is unambiguous.

Whatever two texts they were parsed from, and in whatever environments, two expressions are written
the same exactly when they have the same shape: as many items in every scope, the same operators and
groups at the same places, and at the other places values that are written the same. -/
theorem written_tree_is_unambiguous (first second : Expression ComplexFloat) :
    first.render = second.render ↔ SameShape ComplexFloat.render first second := by
  refine renderWith_eq_iff ?_ first second
  intro value
  exact ComplexFloat.delimiter_notMem_render value ']' (by decide)

example : (parse (Environment.interpretation ∅) {} "2*(i+1)".toList).toOption.map render =
    some "[2+0i] * ([0+1i] + [1+0i])".toList := by decide +kernel

end Expression

end ComplexReckoner
