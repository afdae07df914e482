import ComplexReckoner.Proofs.Layout

/-! # Balanced texts

The parentheses of a text are balanced when as many of them open as close, and when along the text
never more have closed than opened. The texts of layouts are the balanced ones, and the groups of a
layout nest as deep as parentheses are open at the same time along its text
(`Layout.exists_text_eq_iff`). -/

namespace ComplexReckoner

/-- Whether the parentheses of a text are balanced. -/
structure Text.Balanced (text : Text) : Prop where
  /-- As many parentheses open as close. -/
  counts : text.count '(' = text.count ')'
  /-- Along the text never more parentheses have closed than opened. -/
  opened : ∀ start, start <+: text → start.count ')' ≤ start.count '('

namespace Layout

/-! ## The beginnings of a layout -/

/-- The beginnings of a text that starts with a group: nothing, a part of the group that does not
reach its end, or the group with a beginning of what follows it. -/
theorem parenthesised_beginning {start inner rest : Text}
    (begins : start <+: '(' :: (inner ++ ')' :: rest)) :
    start = [] ∨ (∃ within, start = '(' :: within ∧ within <+: inner) ∨
      ∃ later, start = '(' :: (inner ++ ')' :: later) ∧ later <+: rest := by
  rcases List.prefix_cons_iff.1 begins with empty | ⟨within, rfl, follows⟩
  · exact Or.inl empty
  · refine Or.inr ?_
    rcases List.prefix_or_prefix_of_prefix follows (List.prefix_append inner _) with
      inside | ⟨beyond, rfl⟩
    · exact Or.inl ⟨within, rfl, inside⟩
    · -- what goes beyond the text of the group begins with the parenthesis that closes it
      rw [List.prefix_append_right_inj] at follows
      rcases List.prefix_cons_iff.1 follows with rfl | ⟨later, rfl, inRest⟩
      · rw [List.append_nil]
        exact Or.inl ⟨inner, rfl, List.prefix_rfl⟩
      · exact Or.inr ⟨later, rfl, inRest⟩

/-- The parentheses of a text in parentheses and of what follows it. -/
theorem count_parenthesised (inner rest : Text) :
    ('(' :: (inner ++ ')' :: rest)).count '(' = inner.count '(' + rest.count '(' + 1 ∧
      ('(' :: (inner ++ ')' :: rest)).count ')' = inner.count ')' + rest.count ')' + 1 := by
  constructor
  · rw [List.count_cons_self, List.count_append, List.count_cons_of_ne (by decide)]
  · rw [List.count_cons_of_ne (by decide), List.count_append, List.count_cons_self, Nat.add_assoc]

/-- Along a layout never more parentheses have closed than opened, and never more are open than its
groups nest deep. -/
theorem count_beginning (layout : Layout) {start : Text} (begins : start <+: layout.text) :
    start.count ')' ≤ start.count '(' ∧ start.count '(' ≤ start.count ')' + layout.depth := by
  induction layout generalizing start with
  | nil =>
    rw [List.prefix_nil.1 begins]
    simp
  | leaf c rest ih =>
    rcases List.prefix_cons_iff.1 begins with rfl | ⟨later, rfl, inRest⟩
    · simp
    · rw [List.count_cons_of_ne c.property.1, List.count_cons_of_ne c.property.2]
      exact ih inRest
  | group mark inner rest ihInner ihRest =>
    have balanced := count_text inner
    rcases parenthesised_beginning begins with rfl | ⟨within, rfl, inside⟩ | ⟨later, rfl, inRest⟩
    · simp
    · -- one group more is open than within the group
      have counted := ihInner inside
      rw [List.count_cons_self, List.count_cons_of_ne (by decide), depth]
      omega
    · -- the group as a whole does not count
      have counted := ihRest inRest
      obtain ⟨opening, closing⟩ := count_parenthesised (text inner) later
      rw [opening, closing, depth]
      omega

/-- Somewhere along a layout as many parentheses are open as its groups nest deep. -/
theorem exists_deepest_beginning (layout : Layout) :
    ∃ start, start <+: layout.text ∧ start.count '(' = start.count ')' + layout.depth := by
  induction layout with
  | nil => exact ⟨[], List.prefix_rfl, rfl⟩
  | leaf c rest ih =>
    obtain ⟨start, begins, deep⟩ := ih
    refine ⟨c.val :: start, List.cons_prefix_cons.2 ⟨rfl, begins⟩, ?_⟩
    rw [List.count_cons_of_ne c.property.1, List.count_cons_of_ne c.property.2]
    exact deep
  | group mark inner rest ihInner ihRest =>
    obtain ⟨within, inside, deepInside⟩ := ihInner
    obtain ⟨later, inRest, deepLater⟩ := ihRest
    by_cases deeper : depth rest ≤ depth inner + 1
    · -- the deepest place lies in the group
      refine ⟨'(' :: within, ?_, ?_⟩
      · exact List.cons_prefix_cons.2 ⟨rfl, inside.trans (List.prefix_append _ _)⟩
      · rw [List.count_cons_self, List.count_cons_of_ne (by decide), depth]
        omega
    · -- the deepest place comes after the group
      have balanced := count_text inner
      refine ⟨'(' :: (text inner ++ ')' :: later), ?_, ?_⟩
      · rw [text_group, List.cons_prefix_cons, List.prefix_append_right_inj, List.cons_prefix_cons]
        exact ⟨rfl, rfl, inRest⟩
      · obtain ⟨opening, closing⟩ := count_parenthesised (text inner) later
        rw [opening, closing, depth]
        omega

/-! ## The texts of layouts -/

/-- The text of a layout is balanced. -/
theorem balanced_text (layout : Layout) : layout.text.Balanced where
  counts := count_text layout
  opened := fun _ begins => (count_beginning layout begins).1

/-- A balanced text is the text of a layout. -/
theorem exists_text_eq_of_balanced {text : Text} (balanced : text.Balanced) :
    ∃ layout : Layout, layout.text = text := by
  obtain ⟨layout, closed, opened, rfl⟩ := exists_layers text
  have counts := count_layers layout closed opened
  have evenly := balanced.counts
  cases closed with
  | nil =>
    -- no parenthesis closes in excess, so by the counts none opens in excess
    have noneOpened : opened = [] := by
      rw [List.length_nil] at counts
      exact List.length_eq_zero_iff.1 (by omega)
    subst noneOpened
    exact ⟨layout, by simp⟩
  | cons after closed =>
    -- the layout and the parenthesis that closes nothing are a beginning with too many of these
    have more := balanced.opened (layout.text ++ [')']) (by simp)
    have evenlyHere := count_text layout
    have one : [')'].count ')' = 1 ∧ [')'].count '(' = 0 := by decide
    rw [List.count_append, List.count_append, one.1, one.2] at more
    omega

/-- The texts of layouts within a limit are the balanced texts along which never more parentheses
are open than the limit allows. -/
theorem exists_text_eq_iff (limit : Nat) (text : Text) :
    (∃ layout : Layout, layout.text = text ∧ layout.depth ≤ limit) ↔
      text.Balanced ∧ ∀ start, start <+: text → start.count '(' ≤ start.count ')' + limit := by
  constructor
  · rintro ⟨layout, rfl, within⟩
    refine ⟨layout.balanced_text, fun start begins => ?_⟩
    have counted := layout.count_beginning begins
    omega
  · rintro ⟨balanced, within⟩
    obtain ⟨layout, rfl⟩ := exists_text_eq_of_balanced balanced
    obtain ⟨start, begins, deep⟩ := layout.exists_deepest_beginning
    have kept := within start begins
    exact ⟨layout, rfl, by omega⟩

end Layout

end ComplexReckoner
