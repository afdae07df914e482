import ComplexReckoner.Proofs.Layout

/-! # Decomposition

A text is decomposed exactly when it is the text of a layout that keeps the limit, and its segments
are then those of the layout. Any other text is refused for one of three reasons, and the span of
the fault marks the text that the reason is about. -/

namespace ComplexReckoner

namespace Layout

/-! ## Gathering the segments of a layout -/

/-- The size of a text in parentheses, and of what follows it. -/
theorem byteSize_parenthesised (inner after : Text) :
    Text.byteSize ('(' :: (inner ++ ')' :: after)) = inner.byteSize + 2 + after.byteSize := by
  have one : '('.utf8Size = 1 ∧ ')'.utf8Size = 1 := by decide
  rw [Text.byteSize_cons, Text.byteSize_append, Text.byteSize_cons, one.1, one.2]
  omega

/-- The segments of a layout that stands at an offset. -/
def segments (offset : Nat) : Layout → Segments
  | .nil => .nil
  | .leaf c rest => Segments.consChar c.val offset (segments (offset + c.val.utf8Size) rest)
  | .group _ inner rest =>
      .group ⟨offset, (text inner).byteSize + 2⟩
        ((segments (offset + 1) inner).orEmptyRun (offset + 1))
        (segments (offset + (text inner).byteSize + 2) rest)

/-- The segments of a layout come from its text. -/
@[simp] theorem flatten_segments (layout : Layout) (offset : Nat) :
    (layout.segments offset).flatten = layout.text := by
  induction layout generalizing offset with
  | nil => rfl
  | leaf c rest ih => rw [segments, Segments.flatten_consChar, ih, text_leaf]
  | group mark inner rest ihInner ihRest =>
    rw [segments, Segments.flatten_group, Segments.flatten_orEmptyRun, ihInner, ihRest, text_group]

end Layout

namespace Segments

/-- A character other than a parenthesis joins what is gathered after it. -/
theorem gather_plain (offset : Nat) (c : PlainChar) (text : Text) :
    gather offset (c.val :: text) =
      ⟨consChar c.val offset (gather (offset + c.val.utf8Size) text).here,
        (gather (offset + c.val.utf8Size) text).around⟩ := by
  rw [gather, if_neg c.property.1, if_neg c.property.2]

/-- A parenthesis that closes leaves behind what is gathered after it. -/
theorem gather_close (offset : Nat) (text : Text) :
    gather offset (')' :: text) =
      ⟨.nil, (offset, (gather (offset + 1) text).here) :: (gather (offset + 1) text).around⟩ := rfl

/-- A parenthesis that opens takes up the group that was left behind. -/
theorem gather_open {offset close : Nat} {text : Text} {inner after : Segments}
    {around : List (Nat × Segments)}
    (later : gather (offset + 1) text = ⟨inner, (close, after) :: around⟩) :
    gather offset ('(' :: text) =
      ⟨.group ⟨offset, close + 1 - offset⟩ (inner.orEmptyRun (offset + 1)) after, around⟩ := by
  have one : '('.utf8Size = 1 := by decide
  rw [gather, one, later]
  rfl

/-- Gathering a layout gives its segments, when nothing follows it in its scope. -/
theorem gather_text_append (layout : Layout) (offset : Nat) (after : Text)
    (ends : (gather (offset + layout.text.byteSize) after).here = .nil) :
    gather offset (layout.text ++ after) =
      ⟨layout.segments offset, (gather (offset + layout.text.byteSize) after).around⟩ := by
  induction layout generalizing offset after with
  | nil =>
    rw [Layout.text_nil, Text.byteSize_nil, Nat.add_zero] at ends
    rw [Layout.text_nil, List.nil_append, Layout.segments, ← ends]
    rfl
  | leaf c rest ih =>
    rw [Layout.text_leaf, Text.byteSize_cons, ← Nat.add_assoc] at ends ⊢
    rw [List.cons_append, gather_plain, ih _ _ ends, Layout.segments]
  | group mark inner rest ihInner ihRest =>
    rw [Layout.text_group, Layout.byteSize_parenthesised, ← Nat.add_assoc,
      ← Nat.add_assoc] at ends ⊢
    rw [List.cons_append, List.append_assoc, List.cons_append]
    -- the scope within ends at its closing parenthesis, which leaves the rest behind
    have closed := gather_close (offset + 1 + (Layout.text inner).byteSize)
      (Layout.text rest ++ after)
    have opened := ihInner (offset + 1) (')' :: (Layout.text rest ++ after)) (by rw [closed])
    have position : offset + 1 + (Layout.text inner).byteSize + 1 =
        offset + (Layout.text inner).byteSize + 2 := by
      omega
    rw [closed, position, ihRest _ _ ends] at opened
    rw [gather_open opened, Layout.segments]
    have length : offset + 1 + (Layout.text inner).byteSize + 1 - offset =
        (Layout.text inner).byteSize + 2 := by
      omega
    rw [length]

/-- The segments of a balanced text are those of its layout. -/
theorem ofBalanced_text (layout : Layout) :
    ofBalanced layout.text = (layout.segments 0).orEmptyRun 0 := by
  have gathered := gather_text_append layout 0 [] rfl
  rw [List.append_nil] at gathered
  rw [ofBalanced, gathered]

end Segments

/-! ## Passing a layout -/

/-- A character other than a parenthesis is no reason to refuse a text. -/
theorem parenthesisFault?_plain (limit depth offset : Nat) (fragment : Text) (c : PlainChar)
    (text : Text) :
    parenthesisFault? limit depth offset fragment (c.val :: text) =
      parenthesisFault? limit depth (offset + c.val.utf8Size) fragment text := by
  simp only [parenthesisFault?, if_neg c.property.1, if_neg c.property.2]

/-- A group may begin below the limit. -/
theorem parenthesisFault?_open {limit depth : Nat} (below : depth < limit) (offset : Nat)
    (fragment text : Text) :
    parenthesisFault? limit depth offset fragment ('(' :: text) =
      parenthesisFault? limit (depth + 1) (offset + 1) fragment text := by
  simp only [parenthesisFault?, if_pos below, if_true]

/-- A group may not begin at the limit. -/
theorem parenthesisFault?_open_limit {limit depth : Nat} (reached : ¬ depth < limit) (offset : Nat)
    (fragment text : Text) :
    parenthesisFault? limit depth offset fragment ('(' :: text) =
      some (.nestingTooDeep limit ⟨offset, (enclosed 0 text).byteSize + 2⟩) := by
  simp only [parenthesisFault?, if_neg reached, if_true]

/-- A parenthesis closes a group that is open. The fragment is another one after a group at the
top. -/
theorem parenthesisFault?_close (limit depth offset : Nat) (fragment text : Text) :
    ∃ later, parenthesisFault? limit (depth + 1) offset fragment (')' :: text) =
      parenthesisFault? limit depth (offset + 1) later text := by
  cases depth with
  | zero => exact ⟨text, rfl⟩
  | succ depth => exact ⟨fragment, rfl⟩

/-- A layout is enclosed as a whole. -/
theorem enclosed_text_append (opened : Nat) (layout : Layout) (after : Text) :
    enclosed opened (layout.text ++ after) = layout.text ++ enclosed opened after := by
  induction layout generalizing opened after with
  | nil => rfl
  | leaf c rest ih =>
    rw [Layout.text_leaf, List.cons_append, List.cons_append, ← ih]
    simp only [enclosed, if_neg c.property.1, if_neg c.property.2]
  | group mark inner rest ihInner ihRest =>
    have opening : ∀ text, enclosed opened ('(' :: text) = '(' :: enclosed (opened + 1) text :=
      fun _ => rfl
    have closing : ∀ text, enclosed (opened + 1) (')' :: text) = ')' :: enclosed opened text :=
      fun _ => rfl
    simp only [Layout.text_group, List.cons_append, List.append_assoc]
    rw [opening, ihInner, closing, ihRest]

namespace Layout

/-- The first group of a layout that lies too deep, when `depth` groups are open around it. -/
def deepFault? (limit depth offset : Nat) : Layout → Option Fault
  | .nil => none
  | .leaf c rest => deepFault? limit depth (offset + c.val.utf8Size) rest
  | .group _ inner rest =>
      if depth < limit then
        (deepFault? limit (depth + 1) (offset + 1) inner).or
          (deepFault? limit depth (offset + (text inner).byteSize + 2) rest)
      else some (.nestingTooDeep limit ⟨offset, (text inner).byteSize + 2⟩)

/-- No group of a layout that keeps the limit lies too deep. -/
theorem deepFault?_of_within {limit depth : Nat} (layout : Layout)
    (within : layout.depth + depth ≤ limit) (offset : Nat) :
    layout.deepFault? limit depth offset = none := by
  induction layout generalizing depth offset with
  | nil => rfl
  | leaf c rest ih => exact ih within _
  | group mark inner rest ihInner ihRest =>
    rw [Layout.depth] at within
    rw [deepFault?, if_pos (by omega), ihInner (by omega), ihRest (by omega), Option.none_or]

/-- A group of a layout that exceeds the limit lies too deep. -/
theorem deepFault?_of_beyond {limit depth : Nat} (layout : Layout) (start : depth ≤ limit)
    (beyond : limit < layout.depth + depth) (offset : Nat) :
    ∃ span, layout.deepFault? limit depth offset = some (.nestingTooDeep limit span) := by
  induction layout generalizing depth offset with
  | nil =>
    rw [Layout.depth] at beyond
    omega
  | leaf c rest ih => exact ih start beyond _
  | group mark inner rest ihInner ihRest =>
    rw [Layout.depth] at beyond
    rw [deepFault?]
    split
    · next below =>
      by_cases deepInside : limit < Layout.depth inner + (depth + 1)
      · obtain ⟨span, found⟩ := ihInner below deepInside (offset + 1)
        exact ⟨span, by rw [found, Option.some_or]⟩
      · -- the group itself keeps the limit, so what follows it does not
        rw [deepFault?_of_within inner (by omega), Option.none_or]
        exact ihRest start (by omega) _
    · exact ⟨_, rfl⟩

end Layout

/-- The search finds a group of a layout that lies too deep, or else it goes on behind the
layout. -/
theorem parenthesisFault?_text_append_eq (layout : Layout) (limit depth offset : Nat)
    (fragment after : Text) :
    ∃ later, parenthesisFault? limit depth offset fragment (layout.text ++ after) =
      (layout.deepFault? limit depth offset).or
        (parenthesisFault? limit depth (offset + layout.text.byteSize) later after) := by
  induction layout generalizing depth offset fragment after with
  | nil => exact ⟨fragment, rfl⟩
  | leaf c rest ih =>
    obtain ⟨later, passed⟩ := ih depth (offset + c.val.utf8Size) fragment after
    refine ⟨later, ?_⟩
    rw [Layout.text_leaf, List.cons_append, parenthesisFault?_plain, passed, Text.byteSize_cons,
      Nat.add_assoc, Layout.deepFault?]
  | group mark inner rest ihInner ihRest =>
    rw [Layout.text_group, List.cons_append, List.append_assoc, List.cons_append]
    by_cases below : depth < limit
    · obtain ⟨inside, passedInner⟩ :=
        ihInner (depth + 1) (offset + 1) fragment (')' :: (Layout.text rest ++ after))
      obtain ⟨outside, passedClose⟩ :=
        parenthesisFault?_close limit depth (offset + 1 + (Layout.text inner).byteSize) inside
          (Layout.text rest ++ after)
      obtain ⟨later, passedRest⟩ :=
        ihRest depth (offset + (Layout.text inner).byteSize + 2) outside after
      have position : offset + 1 + (Layout.text inner).byteSize + 1 =
          offset + (Layout.text inner).byteSize + 2 := by
        omega
      refine ⟨later, ?_⟩
      rw [parenthesisFault?_open below, passedInner, passedClose, position, passedRest,
        Layout.byteSize_parenthesised, Layout.deepFault?, if_pos below, Option.or_assoc]
      simp only [Nat.add_assoc]
    · have ends : enclosed 0 (')' :: (Layout.text rest ++ after)) = [] := rfl
      refine ⟨fragment, ?_⟩
      rw [parenthesisFault?_open_limit below, enclosed_text_append, ends, List.append_nil,
        Layout.deepFault?, if_neg below, Option.some_or]

/-- Along the text of a layout nothing but a group that lies too deep is refused. -/
theorem parenthesisFault?_text (layout : Layout) (limit depth offset : Nat) (fragment : Text) :
    parenthesisFault? limit depth offset fragment layout.text =
      layout.deepFault? limit depth offset := by
  obtain ⟨later, passed⟩ :=
    parenthesisFault?_text_append_eq layout limit depth offset fragment []
  rw [List.append_nil] at passed
  rw [passed, parenthesisFault?, Option.or_none]

/-- A layout that keeps the limit is passed without a fault. -/
theorem parenthesisFault?_text_append {limit depth : Nat} (layout : Layout)
    (within : layout.depth + depth ≤ limit) (offset : Nat) (fragment after : Text) :
    ∃ later, parenthesisFault? limit depth offset fragment (layout.text ++ after) =
      parenthesisFault? limit depth (offset + layout.text.byteSize) later after := by
  obtain ⟨later, passed⟩ :=
    parenthesisFault?_text_append_eq layout limit depth offset fragment after
  rw [layout.deepFault?_of_within within, Option.none_or] at passed
  exact ⟨later, passed⟩

/-- A layout that exceeds the limit is refused for that. -/
theorem parenthesisFault?_text_append_deep {limit depth : Nat} (layout : Layout)
    (start : depth ≤ limit) (beyond : limit < layout.depth + depth) (offset : Nat)
    (fragment after : Text) :
    ∃ span, parenthesisFault? limit depth offset fragment (layout.text ++ after) =
      some (.nestingTooDeep limit span) := by
  obtain ⟨later, passed⟩ :=
    parenthesisFault?_text_append_eq layout limit depth offset fragment after
  obtain ⟨span, found⟩ := layout.deepFault?_of_beyond start beyond offset
  rw [found, Option.some_or] at passed
  exact ⟨span, passed⟩

/-- The parentheses of a layout that keeps the limit are in order. -/
theorem parenthesisFault?_text_eq_none {limit : Nat} {layout : Layout}
    (within : layout.depth ≤ limit) (fragment : Text) :
    parenthesisFault? limit 0 0 fragment layout.text = none := by
  have withinHere : layout.depth + 0 ≤ limit := within
  rw [parenthesisFault?_text, layout.deepFault?_of_within withinHere]

/-! ## The texts that are decomposed -/

/-- A text with as many parentheses that open as close, and without a fault, is the text of a layout
that keeps the limit. -/
theorem exists_layout_of_parenthesisFault?_eq_none {limit : Nat} {fragment text : Text}
    (balanced : text.count '(' = text.count ')')
    (sound : parenthesisFault? limit 0 0 fragment text = none) :
    ∃ layout : Layout, layout.text = text ∧ layout.depth ≤ limit := by
  obtain ⟨layout, closed, opened, rfl⟩ := Layout.exists_layers text
  have counts := Layout.count_layers layout closed opened
  have within : layout.depth + 0 ≤ limit := by
    refine Nat.le_of_not_lt fun beyond => ?_
    obtain ⟨span, found⟩ := parenthesisFault?_text_append_deep layout (Nat.zero_le limit) beyond 0
      fragment (Layout.behind ')' closed ++ Layout.behind '(' opened)
    rw [found] at sound
    cases sound
  cases closed with
  | nil =>
    -- no parenthesis closes in excess, so by the counts none opens in excess
    have noneOpened : opened = [] := by
      rw [List.length_nil] at counts
      exact List.length_eq_zero_iff.1 (by omega)
    subst noneOpened
    exact ⟨layout, by simp, within⟩
  | cons after closed =>
    -- the first parenthesis that closes nothing would have been found
    obtain ⟨later, passed⟩ := parenthesisFault?_text_append layout within 0 fragment
      (Layout.behind ')' (after :: closed) ++ Layout.behind '(' opened)
    rw [passed] at sound
    cases sound

/-- A text is decomposed exactly when it is the text of a layout within the limit, and then into the
segments of the layout. -/
theorem decomposeWithin_eq_ok_iff (limit : Nat) (text : Text) (segments : Segments) :
    decomposeWithin limit text = .ok segments ↔
      ∃ layout : Layout, layout.text = text ∧ layout.depth ≤ limit ∧
        segments = (layout.segments 0).orEmptyRun 0 := by
  constructor
  · intro decomposed
    rw [decomposeWithin] at decomposed
    split at decomposed
    · next balanced =>
      split at decomposed
      · cases decomposed
      · next sound =>
        obtain ⟨layout, rfl, within⟩ := exists_layout_of_parenthesisFault?_eq_none balanced sound
        refine ⟨layout, rfl, within, ?_⟩
        rw [← Segments.ofBalanced_text]
        exact (Except.ok.inj decomposed).symm
    · cases decomposed
  · rintro ⟨layout, rfl, within, rfl⟩
    rw [decomposeWithin, if_pos (Layout.count_text layout),
      parenthesisFault?_text_eq_none within, Segments.ofBalanced_text]

/-! ## The texts that are refused -/

/-- Whether a fault marks a parenthesis that closes nothing, or a group beyond a limit, in a text
that stands at an offset. -/
def Fault.MarksParenthesis (fault : Fault) (limit offset : Nat) (text : Text) : Prop :=
  (∃ fragment span, fault = .malformedParentheses fragment span ∧ span.Marks offset text [')']) ∨
    ∃ span, ∃ layout : Layout, fault = .nestingTooDeep limit span ∧
      span.Marks offset text ('(' :: (layout.text ++ [')']))

/-- A fault marks the same parenthesis in a text with one more character before it. -/
theorem Fault.MarksParenthesis.cons {fault : Fault} {limit offset : Nat} {text : Text} (c : Char)
    (marks : fault.MarksParenthesis limit (offset + c.utf8Size) text) :
    fault.MarksParenthesis limit offset (c :: text) := by
  rcases marks with ⟨fragment, span, told, marks⟩ | ⟨span, layout, told, marks⟩
  · exact Or.inl ⟨fragment, span, told, marks.append_left [c]⟩
  · exact Or.inr ⟨span, layout, told, marks.append_left [c]⟩

/-- The fault that is found marks the parenthesis it is about. As many groups are open as there are
parentheses that close in excess. -/
theorem marksParenthesis_of_parenthesisFault? {limit depth offset : Nat} {fragment text : Text}
    {fault : Fault} (excess : text.count '(' + depth = text.count ')')
    (found : parenthesisFault? limit depth offset fragment text = some fault) :
    fault.MarksParenthesis limit offset text := by
  induction text generalizing depth offset fragment with
  | nil => cases found
  | cons c rest ih =>
    by_cases opens : c = '('
    · subst opens
      rw [List.count_cons_self, List.count_cons_of_ne (by decide)] at excess
      by_cases below : depth < limit
      · rw [parenthesisFault?_open below] at found
        exact (ih (by omega) found).cons '('
      · rw [parenthesisFault?_open_limit below] at found
        -- the group at fault is closed, because more parentheses close than open after it
        have more : rest.count '(' < rest.count ')' := by omega
        obtain ⟨layout, after, rfl⟩ := Layout.exists_text_close more
        have inside : enclosed 0 (')' :: after) = [] := rfl
        rw [enclosed_text_append, inside, List.append_nil] at found
        refine Or.inr ⟨_, layout, (Option.some.inj found).symm, [], after, by simp, ?_⟩
        rw [Span.ofText, Layout.byteSize_parenthesised]
        rfl
    · by_cases closes : c = ')'
      · subst closes
        rw [List.count_cons_self, List.count_cons_of_ne (by decide)] at excess
        cases depth with
        | zero =>
          -- no group is open, so the parenthesis itself is to blame
          exact Or.inl ⟨fragment, _, (Option.some.inj found).symm, [], rest, rfl, rfl⟩
        | succ depth =>
          obtain ⟨later, passed⟩ := parenthesisFault?_close limit depth offset fragment rest
          rw [passed] at found
          exact (ih (by omega) found).cons ')'
      · rw [List.count_cons_of_ne opens, List.count_cons_of_ne closes] at excess
        rw [parenthesisFault?_plain limit depth offset fragment ⟨c, opens, closes⟩] at found
        exact (ih excess found).cons c

/-- A text that is not decomposed is refused as a whole, for a parenthesis that closes nothing, or
for a group beyond the limit. -/
theorem decomposeWithin_eq_error {limit : Nat} {text : Text} {fault : Fault}
    (refused : decomposeWithin limit text = .error fault) :
    (∃ fragment span, fault = .malformedParentheses fragment span ∧
        text ≠ [] ∧ span.Marks 0 text text) ∨
      fault.MarksParenthesis limit 0 text := by
  rw [decomposeWithin] at refused
  split at refused
  · next balanced =>
    split at refused
    · next found =>
      cases refused
      have excess : text.count '(' + 0 = text.count ')' := balanced
      exact Or.inr (marksParenthesis_of_parenthesisFault? excess found)
    · cases refused
  · next unbalanced =>
    cases refused
    refine Or.inl ⟨text, _, rfl, ?_, Span.marks_ofText 0 text⟩
    rintro rfl
    exact unbalanced rfl

end ComplexReckoner
