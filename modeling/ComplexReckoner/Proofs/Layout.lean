import ComplexReckoner.Segments

/-! # Layouts

The layout of a text with balanced parentheses: the characters and groups of each scope, one by one
and without any position. It is what a text and its segments have in common.

* `Layout.text` writes a layout, and different layouts have different texts,
* `Layout.depth` counts how far its groups nest,
* every text is a layout, then layouts behind parentheses that close nothing, then layouts behind
  parentheses that nothing closes (`Layout.exists_layers`). -/

namespace ComplexReckoner

/-- A character other than a parenthesis. -/
abbrev PlainChar := { c : Char // c ≠ '(' ∧ c ≠ ')' }

/-- The characters and groups of a scope. -/
abbrev Layout := Nested Unit PlainChar

namespace Layout

/-! ## The text of a layout -/

/-- Writes a layout. -/
def text : Layout → Text
  | .nil => []
  | .leaf c rest => c.val :: text rest
  | .group _ inner rest => '(' :: (text inner ++ ')' :: text rest)

@[simp] theorem text_nil : text .nil = [] := rfl

@[simp] theorem text_leaf (c : PlainChar) (rest : Layout) :
    text (.leaf c rest) = c.val :: text rest := rfl

@[simp] theorem text_group (mark : Unit) (inner rest : Layout) :
    text (.group mark inner rest) = '(' :: (text inner ++ ')' :: text rest) := rfl

/-- How many groups of a layout lie within each other. -/
def depth : Layout → Nat
  | .nil => 0
  | .leaf _ rest => depth rest
  | .group _ inner rest => max (depth inner + 1) (depth rest)

/-- A layout has as many parentheses that open as parentheses that close. -/
theorem count_text (layout : Layout) : layout.text.count '(' = layout.text.count ')' := by
  induction layout with
  | nil => rfl
  | leaf c rest ih =>
    rw [text_leaf, List.count_cons_of_ne c.property.1, List.count_cons_of_ne c.property.2, ih]
  | group mark inner rest ihInner ihRest =>
    simp only [text_group, List.count_cons, List.count_append, ihInner, ihRest]
    simp
    omega

/-! ## Reading a layout off its text -/

/-- Whether a scope can end before a text: nothing follows, or a parenthesis that closes. -/
def EndsScope (text : Text) : Prop := ∀ c ∈ text.head?, c = ')'

/-- A scope can end at the end of a text. -/
theorem endsScope_nil : EndsScope [] := by simp [EndsScope]

/-- A scope can end before a parenthesis that closes. -/
theorem endsScope_close (text : Text) : EndsScope (')' :: text) := by simp [EndsScope]

/-- A scope does not end before any other character. -/
theorem not_endsScope {c : Char} (other : c ≠ ')') (text : Text) : ¬ EndsScope (c :: text) := by
  intro ends
  exact other (ends c rfl)

/-- A layout is determined by any text that begins with it, when its scope can end there. -/
theorem text_append_inj {first second : Layout} {firstRest secondRest : Text}
    (firstEnds : EndsScope firstRest) (secondEnds : EndsScope secondRest)
    (same : first.text ++ firstRest = second.text ++ secondRest) :
    first = second ∧ firstRest = secondRest := by
  induction first generalizing second firstRest secondRest with
  | nil =>
    -- the second layout is empty too, or its first character would end the scope of the first
    cases second with
    | nil => exact ⟨rfl, same⟩
    | leaf c rest =>
      rw [text_nil, List.nil_append] at same
      exact absurd (same ▸ firstEnds) (not_endsScope c.property.2 _)
    | group mark inner rest =>
      rw [text_nil, List.nil_append] at same
      exact absurd (same ▸ firstEnds) (not_endsScope (by decide) _)
  | leaf c rest ih =>
    cases second with
    | nil =>
      rw [text_nil, List.nil_append] at same
      exact absurd (same ▸ secondEnds) (not_endsScope c.property.2 _)
    | leaf d other =>
      rw [text_leaf, text_leaf, List.cons_append, List.cons_append, List.cons.injEq] at same
      obtain ⟨sameRest, sameEnd⟩ := ih firstEnds secondEnds same.2
      exact ⟨by rw [Subtype.ext same.1, sameRest], sameEnd⟩
    | group mark inner other =>
      -- the first character is a parenthesis on one side only
      rw [text_leaf, text_group, List.cons_append, List.cons_append, List.cons.injEq] at same
      exact absurd same.1 c.property.1
  | group mark inner rest ihInner ihRest =>
    cases second with
    | nil =>
      rw [text_nil, List.nil_append] at same
      exact absurd (same ▸ secondEnds) (not_endsScope (by decide) _)
    | leaf d other =>
      rw [text_group, text_leaf, List.cons_append, List.cons_append, List.cons.injEq] at same
      exact absurd same.1.symm d.property.1
    | group otherMark otherInner other =>
      simp only [text_group, List.cons_append, List.append_assoc, List.cons.injEq, true_and] at same
      -- the parenthesis that closes the group ends the scope within
      obtain ⟨sameInner, sameAfter⟩ := ihInner (endsScope_close _) (endsScope_close _) same
      rw [List.cons.injEq] at sameAfter
      obtain ⟨sameRest, sameEnd⟩ := ihRest firstEnds secondEnds sameAfter.2
      exact ⟨by rw [sameInner, sameRest], sameEnd⟩

/-- Different layouts have different texts. -/
theorem text_injective {first second : Layout} (same : first.text = second.text) :
    first = second := by
  have appended : first.text ++ [] = second.text ++ [] := by rw [same]
  exact (text_append_inj endsScope_nil endsScope_nil appended).1

/-! ## Any text -/

/-- Layouts, each behind a parenthesis. -/
def behind (parenthesis : Char) (layouts : List Layout) : Text :=
  layouts.flatMap fun layout => parenthesis :: layout.text

@[simp] theorem behind_nil (parenthesis : Char) : behind parenthesis [] = [] := rfl

@[simp] theorem behind_cons (parenthesis : Char) (layout : Layout) (layouts : List Layout) :
    behind parenthesis (layout :: layouts) =
      parenthesis :: (layout.text ++ behind parenthesis layouts) := rfl

/-- Behind parentheses of one kind, there are as many more of them as there are layouts. -/
theorem count_behind {own other : Char} (different : own ≠ other)
    (balanced : ∀ layout : Layout, layout.text.count own = layout.text.count other)
    (layouts : List Layout) :
    (behind own layouts).count own = (behind own layouts).count other + layouts.length := by
  induction layouts with
  | nil => rfl
  | cons layout layouts ih =>
    have balancedHere := balanced layout
    rw [behind_cons, List.count_cons_self, List.count_cons_of_ne different, List.count_append,
      List.count_append, List.length_cons]
    omega

/-- Every text is a layout, then layouts behind parentheses that close nothing, then layouts behind
parentheses that nothing closes. -/
theorem exists_layers (text : Text) : ∃ (here : Layout) (closed opened : List Layout),
    text = here.text ++ (behind ')' closed ++ behind '(' opened) := by
  induction text with
  | nil => exact ⟨.nil, [], [], rfl⟩
  | cons c rest ih =>
    obtain ⟨here, closed, opened, rfl⟩ := ih
    by_cases opens : c = '('
    · subst opens
      -- the first parenthesis that closed nothing so far closes this one, if there is any
      cases closed with
      | nil => exact ⟨.nil, [], here :: opened, by simp⟩
      | cons after closed => exact ⟨.group () here after, closed, opened, by simp⟩
    · by_cases closes : c = ')'
      · subst closes
        exact ⟨.nil, here :: closed, opened, by simp⟩
      · exact ⟨.leaf ⟨c, opens, closes⟩ here, closed, opened, by simp⟩

/-- How many more parentheses close than open is told by the layers of a text. -/
theorem count_layers (here : Layout) (closed opened : List Layout) :
    (here.text ++ (behind ')' closed ++ behind '(' opened)).count '(' + closed.length =
      (here.text ++ (behind ')' closed ++ behind '(' opened)).count ')' + opened.length := by
  have balanced := count_text here
  have closing := count_behind (by decide) (fun layout => (count_text layout).symm) closed
  have opening := count_behind (by decide) count_text opened
  simp only [List.count_append]
  omega

/-- A text with more parentheses that close than open has a first one that closes nothing. -/
theorem exists_text_close {text : Text} (more : text.count '(' < text.count ')') :
    ∃ (here : Layout) (after : Text), text = here.text ++ ')' :: after := by
  obtain ⟨here, closed, opened, rfl⟩ := exists_layers text
  have counts := count_layers here closed opened
  cases closed with
  | nil =>
    rw [List.length_nil] at counts
    omega
  | cons after closed =>
    exact ⟨here, after.text ++ (behind ')' closed ++ behind '(' opened), by simp⟩

end Layout

/-! ## How far parentheses nest -/

namespace Text

/-- The largest number of parentheses that are open at the same time along a text, when some are
open before it. A parenthesis that closes nothing does not count. -/
def nestingFrom (opened : Nat) : Text → Nat
  | [] => opened
  | c :: rest =>
      if c = '(' then nestingFrom (opened + 1) rest
      else if c = ')' then max opened (nestingFrom (opened - 1) rest)
      else nestingFrom opened rest

/-- The largest number of parentheses that are open at the same time along a text. -/
def nesting (text : Text) : Nat := nestingFrom 0 text

/-- The parentheses that are open before a text count. -/
theorem le_nestingFrom (opened : Nat) (text : Text) : opened ≤ nestingFrom opened text := by
  induction text generalizing opened with
  | nil => exact Nat.le_refl opened
  | cons c rest ih =>
    rw [nestingFrom]
    split
    · exact Nat.le_of_succ_le (ih (opened + 1))
    · split
      · exact Nat.le_max_left _ _
      · exact ih opened

/-- Along a layout as many parentheses are open as its groups nest deep. -/
theorem nestingFrom_text_append (layout : Layout) (opened : Nat) (after : Text) :
    nestingFrom opened (layout.text ++ after) =
      max (layout.depth + opened) (nestingFrom opened after) := by
  induction layout generalizing opened after with
  | nil =>
    have least := le_nestingFrom opened after
    rw [Layout.text_nil, List.nil_append, Layout.depth]
    omega
  | leaf c rest ih =>
    rw [Layout.text_leaf, List.cons_append, nestingFrom, if_neg c.property.1, if_neg c.property.2,
      ih, Layout.depth]
  | group mark inner rest ihInner ihRest =>
    have opening : ∀ text, nestingFrom opened ('(' :: text) = nestingFrom (opened + 1) text :=
      fun _ => rfl
    have closing : ∀ text, nestingFrom (opened + 1) (')' :: text) =
        max (opened + 1) (nestingFrom opened text) := fun _ => rfl
    simp only [Layout.text_group, List.cons_append, List.append_assoc]
    rw [opening, ihInner, closing, ihRest, Layout.depth]
    omega

/-- The parentheses of a layout nest as deep as its groups. -/
@[simp] theorem nesting_text (layout : Layout) : nesting layout.text = layout.depth := by
  have along := nestingFrom_text_append layout 0 []
  rw [List.append_nil] at along
  rw [nesting, along, nestingFrom, Nat.add_zero, Nat.max_zero]

end Text

end ComplexReckoner
