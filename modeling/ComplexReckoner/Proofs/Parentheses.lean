import Mathlib.Data.List.Infix
import ComplexReckoner.Proofs.Canonical

/-! # Which parenthesis is blamed

A text whose parentheses are as many on both sides can still be refused, for a parenthesis that
closes nothing or for a group beyond the limit. Of these two the one that comes first is blamed.

* `Text.FirstAt` says from which character on something holds of the beginnings of a text: that
  more parentheses have closed than opened (`Text.Overclosed`), or that more are open than the limit
  allows (`Text.TooDeep`),
* `parenthesisFault?_append_of_keepsOrder` says that the search comes to such a character,
* `Layout.plain_or_last_group` cuts a text after its last group at the top. What comes after it is
  told with a parenthesis that closes nothing. -/

namespace ComplexReckoner

/-! ## The first place along a text -/

namespace Text

/-- Whether more parentheses have closed than opened in a text. -/
def Overclosed (text : Text) : Prop := text.count '(' < text.count ')'

/-- Whether more parentheses are open after a text than a limit allows. -/
def TooDeep (limit : Nat) (text : Text) : Prop := text.count ')' + limit < text.count '('

instance (text : Text) : Decidable text.Overclosed := inferInstanceAs (Decidable (_ < _))

instance (limit : Nat) (text : Text) : Decidable (text.TooDeep limit) :=
  inferInstanceAs (Decidable (_ < _))

/-- Whether a property holds of the beginnings of a text from a character on: of the beginning that
ends with the character, and of no shorter one. -/
structure FirstAt (property : Text → Prop) (text before : Text) (c : Char) : Prop where
  /-- The character stands there. -/
  stands : before ++ [c] <+: text
  /-- The property holds after the character. -/
  holds : property (before ++ [c])
  /-- The property does not hold earlier. -/
  earliest : ∀ start, start <+: before → ¬ property start

/-- A property that holds of a beginning of a text holds from some character on. -/
theorem exists_firstAt {property : Text → Prop} {text start : Text} (begins : start <+: text)
    (holds : property start) (empty : ¬ property []) :
    ∃ before c, FirstAt property text before c := by
  induction text generalizing start property with
  | nil =>
    rw [List.prefix_nil.1 begins] at holds
    exact absurd holds empty
  | cons d rest ih =>
    by_cases here : property [d]
    · refine ⟨[], d, ⟨⟨rest, rfl⟩, here, ?_⟩⟩
      intro shorter inside
      rw [List.prefix_nil.1 inside]
      exact empty
    · -- the first character is part of every beginning for which the property holds
      rcases List.prefix_cons_iff.1 begins with rfl | ⟨later, rfl, inRest⟩
      · exact absurd holds empty
      obtain ⟨before, c, stands, holdsThere, earliest⟩ :=
        @ih (fun text => property (d :: text)) later inRest holds here
      refine ⟨d :: before, c, ⟨List.cons_prefix_cons.2 ⟨rfl, stands⟩, holdsThere, ?_⟩⟩
      intro shorter inside
      rcases List.prefix_cons_iff.1 inside with rfl | ⟨within, rfl, inBefore⟩
      · exact empty
      · exact earliest within inBefore

/-- A longer beginning of a text has more bytes. -/
theorem byteSize_lt_of_concat_prefix {before text : Text} {c : Char}
    (begins : before ++ [c] <+: text) : before.byteSize < text.byteSize := by
  obtain ⟨after, rfl⟩ := begins
  have size := c.utf8Size_pos
  simp only [byteSize_append, byteSize_cons]
  omega

/-- More parentheses have closed than opened from one that closes on. -/
theorem FirstAt.closes {text before : Text} {c : Char} (first : FirstAt Overclosed text before c) :
    c = ')' := by
  have kept := first.earliest before List.prefix_rfl
  have exceeded := first.holds
  by_contra other
  unfold Overclosed at kept exceeded
  rw [List.count_append, List.count_append, List.count_singleton, List.count_singleton] at exceeded
  simp only [beq_iff_eq, other, if_false] at exceeded
  omega

/-- More parentheses are open than the limit allows from one that opens on. -/
theorem FirstAt.opens {limit : Nat} {text before : Text} {c : Char}
    (first : FirstAt (TooDeep limit) text before c) : c = '(' := by
  have kept := first.earliest before List.prefix_rfl
  have exceeded := first.holds
  by_contra other
  unfold TooDeep at kept exceeded
  rw [List.count_append, List.count_append, List.count_singleton, List.count_singleton] at exceeded
  simp only [beq_iff_eq, other, if_false] at exceeded
  omega

/-- A property whose first place lies behind a beginning of a text does not hold along it. -/
theorem forall_prefix_not {property : Text → Prop} (empty : ¬ property []) {text before : Text}
    (begins : before <+: text)
    (later : ∀ earlier c, FirstAt property text earlier c →
      before.byteSize < earlier.byteSize) :
    ∀ start, start <+: before → ¬ property start := by
  intro start inside holds
  obtain ⟨earlier, c, first⟩ := exists_firstAt inside holds empty
  have stands : FirstAt property text earlier c :=
    { first with stands := first.stands.trans begins }
  have above := later earlier c stands
  have below := byteSize_lt_of_concat_prefix first.stands
  omega

/-- Whether a text is cut after the last of its groups at the top, or is not cut and has none. -/
structure CutAfterGroups (text done rest : Text) : Prop where
  /-- The text is cut there. -/
  split : text = done ++ rest
  /-- A group ends there, unless it is the beginning. -/
  group : done = [] ∨ ∃ earlier inside : Text, earlier.Balanced ∧ inside.Balanced ∧
    done = earlier ++ '(' :: (inside ++ [')'])
  /-- No parenthesis comes after it. -/
  plain : '(' ∉ rest ∧ ')' ∉ rest

end Text

/-! ## The search for a fault -/

namespace Text

/-- Whether along a text, before which `depth` groups are open, never more parentheses close than
are open, and never more are open than the limit allows. -/
def KeepsOrder (limit depth : Nat) (text : Text) : Prop :=
  ∀ start, start <+: text →
    start.count ')' ≤ start.count '(' + depth ∧ start.count '(' + depth ≤ start.count ')' + limit

namespace KeepsOrder

variable {limit depth : Nat} {rest : Text}

/-- What holds of every beginning holds of those with one more character in front. -/
theorem cons {c : Char} (kept : KeepsOrder limit depth (c :: rest)) {start : Text}
    (begins : start <+: rest) : (c :: start).count ')' ≤ (c :: start).count '(' + depth ∧
      (c :: start).count '(' + depth ≤ (c :: start).count ')' + limit :=
  kept (c :: start) (List.cons_prefix_cons.2 ⟨rfl, begins⟩)

/-- A parenthesis that opens may do so, and opens one more group. -/
theorem behind_open (kept : KeepsOrder limit depth ('(' :: rest)) :
    depth < limit ∧ KeepsOrder limit (depth + 1) rest := by
  have counted : ∀ start, start <+: rest → start.count ')' ≤ start.count '(' + (depth + 1) ∧
      start.count '(' + (depth + 1) ≤ start.count ')' + limit := by
    intro start begins
    have here := kept.cons begins
    simp only [List.count_cons_self, List.count_cons_of_ne (show '(' ≠ ')' by decide)] at here
    omega
  have first := counted [] List.nil_prefix
  simp only [List.count_nil] at first
  exact ⟨by omega, counted⟩

/-- A parenthesis that closes has a group to close. -/
theorem behind_close (kept : KeepsOrder limit depth (')' :: rest)) :
    ∃ outer, depth = outer + 1 ∧ KeepsOrder limit outer rest := by
  have first := kept.cons List.nil_prefix
  simp only [List.count_cons_self, List.count_cons_of_ne (show ')' ≠ '(' by decide),
    List.count_nil] at first
  refine ⟨depth - 1, by omega, ?_⟩
  intro start begins
  have here := kept.cons begins
  simp only [List.count_cons_self, List.count_cons_of_ne (show ')' ≠ '(' by decide)] at here
  omega

/-- Any other character changes nothing. -/
theorem behind_plain (c : PlainChar) (kept : KeepsOrder limit depth (c.val :: rest)) :
    KeepsOrder limit depth rest := by
  intro start begins
  have here := kept.cons begins
  simp only [List.count_cons_of_ne c.property.1, List.count_cons_of_ne c.property.2] at here
  exact here

end KeepsOrder

end Text

/-- The search passes a text that keeps the order of parentheses, and counts those that are open. -/
theorem parenthesisFault?_append_of_keepsOrder {limit depth : Nat} {before : Text}
    (kept : before.KeepsOrder limit depth) (offset : Nat) (fragment after : Text) :
    ∃ reached later, reached + before.count ')' = before.count '(' + depth ∧
      parenthesisFault? limit depth offset fragment (before ++ after) =
        parenthesisFault? limit reached (offset + before.byteSize) later after := by
  induction before generalizing depth offset fragment with
  | nil => exact ⟨depth, fragment, by simp, rfl⟩
  | cons c rest ih =>
    have next : ∀ size, offset + size + Text.byteSize rest = offset + (size + Text.byteSize rest) :=
      fun size => Nat.add_assoc _ _ _
    by_cases opens : c = '('
    · subst opens
      obtain ⟨below, keptRest⟩ := kept.behind_open
      obtain ⟨reached, later, counts, passed⟩ := ih keptRest (offset + 1) fragment
      refine ⟨reached, later, ?_, ?_⟩
      · rw [List.count_cons_self, List.count_cons_of_ne (by decide)]
        omega
      · rw [List.cons_append, parenthesisFault?_open below, passed, next]
        rfl
    · by_cases closes : c = ')'
      · subst closes
        obtain ⟨outer, rfl, keptRest⟩ := kept.behind_close
        obtain ⟨outside, passedClose⟩ :=
          parenthesisFault?_close limit outer offset fragment (rest ++ after)
        obtain ⟨reached, later, counts, passed⟩ := ih keptRest (offset + 1) outside
        refine ⟨reached, later, ?_, ?_⟩
        · rw [List.count_cons_self, List.count_cons_of_ne (by decide)]
          omega
        · rw [List.cons_append, passedClose, passed, next]
          rfl
      · have keptRest := kept.behind_plain ⟨c, opens, closes⟩
        obtain ⟨reached, later, counts, passed⟩ := ih keptRest (offset + c.utf8Size) fragment
        refine ⟨reached, later, ?_, ?_⟩
        · rw [List.count_cons_of_ne opens, List.count_cons_of_ne closes, counts]
        · rw [List.cons_append, parenthesisFault?_plain _ _ _ _ ⟨c, opens, closes⟩, passed, next]
          rfl

/-- The search passes a text without parentheses, and keeps the fragment. -/
theorem parenthesisFault?_append_of_plain {plain : Text} (noOpening : '(' ∉ plain)
    (noClosing : ')' ∉ plain) (limit depth offset : Nat) (fragment after : Text) :
    parenthesisFault? limit depth offset fragment (plain ++ after) =
      parenthesisFault? limit depth (offset + plain.byteSize) fragment after := by
  induction plain generalizing offset with
  | nil => rfl
  | cons c rest ih =>
    rw [List.mem_cons, not_or] at noOpening noClosing
    have isPlain : c ≠ '(' ∧ c ≠ ')' := ⟨Ne.symm noOpening.1, Ne.symm noClosing.1⟩
    rw [List.cons_append, parenthesisFault?_plain _ _ _ _ ⟨c, isPlain⟩,
      ih noOpening.2 noClosing.2, Text.byteSize_cons, Nat.add_assoc]

/-- A layout has no group, or a last one at the top. -/
theorem Layout.plain_or_last_group (layout : Layout) :
    ('(' ∉ layout.text ∧ ')' ∉ layout.text) ∨
      ∃ (earlier inside : Layout) (rest : Text), ('(' ∉ rest ∧ ')' ∉ rest) ∧
        layout.text = earlier.text ++ '(' :: (inside.text ++ ')' :: rest) ∧
        earlier.depth ≤ layout.depth ∧ inside.depth + 1 ≤ layout.depth := by
  induction layout with
  | nil => exact Or.inl ⟨List.not_mem_nil, List.not_mem_nil⟩
  | leaf c later ih =>
    rcases ih with ⟨noOpening, noClosing⟩ | ⟨earlier, inside, rest, plain, split, outer, inner⟩
    · refine Or.inl ⟨?_, ?_⟩
      · exact List.not_mem_cons_of_ne_of_not_mem (Ne.symm c.property.1) noOpening
      · exact List.not_mem_cons_of_ne_of_not_mem (Ne.symm c.property.2) noClosing
    · refine Or.inr ⟨.leaf c earlier, inside, rest, plain, ?_, outer, inner⟩
      rw [text_leaf, text_leaf, split]
      rfl
  | group mark within later ihWithin ihLater =>
    rcases ihLater with plain | ⟨earlier, inside, rest, plain, split, outer, inner⟩
    · -- this group is the last one
      refine Or.inr ⟨.nil, within, text later, plain, rfl, ?_, ?_⟩
      · exact Nat.zero_le _
      · exact Nat.le_max_left _ _
    · refine Or.inr ⟨.group mark within earlier, inside, rest, plain, ?_, ?_, ?_⟩
      · simp only [text_group, split, List.cons_append, List.append_assoc]
      · rw [depth, depth]
        omega
      · rw [depth]
        omega

/-- A parenthesis that closes nothing, behind a layout that keeps the limit, is found. What is told
with it begins after the last group. -/
theorem parenthesisFault?_stray {limit : Nat} (layout : Layout) (within : layout.depth ≤ limit)
    (after : Text) :
    ∃ done rest, Text.CutAfterGroups layout.text done rest ∧
      parenthesisFault? limit 0 0 (layout.text ++ ')' :: after) (layout.text ++ ')' :: after) =
        some (.malformedParentheses (rest ++ ')' :: after) ⟨layout.text.byteSize, 1⟩) := by
  rcases layout.plain_or_last_group with
    ⟨noOpening, noClosing⟩ | ⟨earlier, inside, rest, plain, split, outer, inner⟩
  · refine ⟨[], layout.text, ⟨rfl, Or.inl rfl, noOpening, noClosing⟩, ?_⟩
    rw [parenthesisFault?_append_of_plain noOpening noClosing, Nat.zero_add]
    rfl
  · have outerWithin : earlier.depth + 0 ≤ limit := by omega
    have innerWithin : inside.depth + (0 + 1) ≤ limit := by omega
    have below : 0 < limit := by omega
    refine ⟨earlier.text ++ '(' :: (inside.text ++ [')']), rest, ⟨?_, Or.inr ?_, plain⟩, ?_⟩
    · rw [split]
      simp
    · exact ⟨earlier.text, inside.text, earlier.balanced_text, inside.balanced_text, rfl⟩
    · -- the search passes what is before the group, the group, and what is between
      have whole : layout.text ++ ')' :: after =
          earlier.text ++ '(' :: (inside.text ++ ')' :: (rest ++ ')' :: after)) := by
        rw [split]
        simp
      obtain ⟨before, passedBefore⟩ := parenthesisFault?_text_append earlier outerWithin 0
        (layout.text ++ ')' :: after) ('(' :: (inside.text ++ ')' :: (rest ++ ')' :: after)))
      obtain ⟨opened, passedInside⟩ := parenthesisFault?_text_append inside innerWithin
        (0 + earlier.text.byteSize + 1) before (')' :: (rest ++ ')' :: after))
      have closing : ∀ offset fragment, parenthesisFault? limit (0 + 1) offset fragment
          (')' :: (rest ++ ')' :: after)) =
            parenthesisFault? limit 0 (offset + 1) (rest ++ ')' :: after) (rest ++ ')' :: after) :=
        fun _ _ => rfl
      rw [← whole] at passedBefore
      rw [passedBefore, parenthesisFault?_open below, passedInside, closing,
        parenthesisFault?_append_of_plain plain.1 plain.2]
      have size : 0 + earlier.text.byteSize + 1 + inside.text.byteSize + 1 + rest.byteSize =
          layout.text.byteSize := by
        rw [split, Text.byteSize_append, Layout.byteSize_parenthesised]
        omega
      rw [size]
      rfl

/-! ## The texts that are refused -/

/-- When as many parentheses open as close, a text is refused for the fault that is found in it. -/
theorem decomposeWithin_eq_error_iff_of_counts {limit : Nat} {text : Text}
    (counts : text.count '(' = text.count ')') (fault : Fault) :
    decomposeWithin limit text = .error fault ↔
      parenthesisFault? limit 0 0 text text = some fault := by
  rw [decomposeWithin, if_pos counts]
  cases parenthesisFault? limit 0 0 text text <;> simp

/-- A parenthesis that opens before any closes nothing is closed, and the text between is
balanced. -/
theorem exists_close_of_counts {text before after : Text}
    (counts : text.count '(' = text.count ')') (split : text = before ++ '(' :: after)
    (opened : before.count ')' ≤ before.count '(') :
    ∃ inside rest : Text, after = inside ++ ')' :: rest ∧ inside.Balanced ∧
      enclosed 0 after = inside := by
  have more : after.count '(' < after.count ')' := by
    rw [split, List.count_append, List.count_append, List.count_cons_self,
      List.count_cons_of_ne (by decide)] at counts
    omega
  obtain ⟨layout, rest, rfl⟩ := Layout.exists_text_close more
  refine ⟨layout.text, rest, rfl, layout.balanced_text, ?_⟩
  rw [enclosed_text_append]
  exact List.append_nil _

/-- A parenthesis that closes nothing is blamed when no group before it lies too deep. -/
theorem parenthesisFault?_of_stray {limit : Nat} {text stray : Text}
    (first : text.FirstAt Text.Overclosed stray ')')
    (shallow : ∀ start, start <+: stray → ¬ Text.TooDeep limit start) :
    ∃ done rest after, stray.CutAfterGroups done rest ∧ text = stray ++ ')' :: after ∧
      parenthesisFault? limit 0 0 text text =
        some (.malformedParentheses (rest ++ ')' :: after) ⟨stray.byteSize, 1⟩) := by
  have kept := first.earliest
  have exceeded := first.holds
  unfold Text.Overclosed at kept exceeded
  rw [List.count_append, List.count_append, List.count_singleton, List.count_singleton] at exceeded
  -- as many have closed as opened before it, so that the text before it is balanced
  have balanced : stray.Balanced := by
    refine ⟨?_, fun start begins => Nat.le_of_not_lt (kept start begins)⟩
    have here := kept stray List.prefix_rfl
    simp at exceeded
    omega
  have within : ∀ start, start <+: stray → start.count '(' ≤ start.count ')' + limit :=
    fun start begins => Nat.le_of_not_lt (shallow start begins)
  obtain ⟨layout, rfl, keepsLimit⟩ := (Layout.exists_text_eq_iff limit stray).2 ⟨balanced, within⟩
  obtain ⟨after, rfl⟩ := first.stands
  obtain ⟨done, rest, cut, found⟩ := parenthesisFault?_stray layout keepsLimit after
  rw [List.append_assoc]
  exact ⟨done, rest, after, cut, rfl, found⟩

/-- A group that lies too deep is blamed when no parenthesis before it closes nothing. -/
theorem parenthesisFault?_of_deep {limit : Nat} {text deep : Text}
    (counts : text.count '(' = text.count ')')
    (first : text.FirstAt (Text.TooDeep limit) deep '(')
    (opened : ∀ start, start <+: deep → ¬ Text.Overclosed start) :
    ∃ inside after : Text, text = deep ++ '(' :: (inside ++ ')' :: after) ∧ inside.Balanced ∧
      parenthesisFault? limit 0 0 text text =
        some (.nestingTooDeep limit (.ofText deep.byteSize ('(' :: (inside ++ [')'])))) := by
  have exceeded := first.holds
  have shallow := first.earliest
  unfold Text.TooDeep at exceeded shallow
  unfold Text.Overclosed at opened
  rw [List.count_append, List.count_append, List.count_singleton, List.count_singleton] at exceeded
  have kept : deep.KeepsOrder limit 0 := by
    intro start begins
    have below := opened start begins
    have above := shallow start begins
    omega
  obtain ⟨behind, split⟩ := first.stands
  rw [List.append_assoc, List.singleton_append] at split
  have notClosed := opened deep List.prefix_rfl
  obtain ⟨inside, after, rfl, balanced, encloses⟩ :=
    exists_close_of_counts counts split.symm (Nat.le_of_not_lt notClosed)
  refine ⟨inside, after, split.symm, balanced, ?_⟩
  -- the search comes to the parenthesis with as many groups open as the limit allows
  obtain ⟨reached, later, opening, passed⟩ :=
    parenthesisFault?_append_of_keepsOrder kept 0 text ('(' :: (inside ++ ')' :: after))
  have atLimit : ¬ reached < limit := by
    simp at exceeded
    omega
  rw [split] at passed
  rw [passed, parenthesisFault?_open_limit atLimit, encloses, Nat.zero_add, Span.ofText,
    Layout.byteSize_group]

/-- The parenthesis that a refused text is refused for.

A text with unequal numbers of parentheses is refused as a whole. In any other text that is refused
there is a first parenthesis that closes nothing, or a first one that opens a group beyond the
limit. Of these the one that stands first is blamed: the former by itself, with the text after the
last group at the top before it as the fragment, and the latter with its group. No other
parenthesis can be at fault, because each one that opens before the first that closes nothing is
closed behind a balanced text. -/
theorem first_parenthesis_is_blamed (limit : Nat) (text : Text) (fault : Fault)
    (refused : decomposeWithin limit text = .error fault) :
    (text.count '(' ≠ text.count ')' →
      fault = .malformedParentheses text ⟨0, text.byteSize⟩) ∧
    (text.count '(' = text.count ')' →
      ((∃ stray, text.FirstAt Text.Overclosed stray ')') ∨
        ∃ deep, text.FirstAt (Text.TooDeep limit) deep '(') ∧
      (∀ stray, text.FirstAt Text.Overclosed stray ')' →
        (∀ deep, text.FirstAt (Text.TooDeep limit) deep '(' → stray.byteSize < deep.byteSize) →
        ∃ done rest fragment : Text, stray.CutAfterGroups done rest ∧ text = done ++ fragment ∧
          fault = .malformedParentheses fragment ⟨stray.byteSize, 1⟩) ∧
      (∀ deep, text.FirstAt (Text.TooDeep limit) deep '(' →
        (∀ stray, text.FirstAt Text.Overclosed stray ')' → deep.byteSize < stray.byteSize) →
        ∃ inside after : Text, text = deep ++ '(' :: (inside ++ ')' :: after) ∧ inside.Balanced ∧
          fault = .nestingTooDeep limit (.ofText deep.byteSize ('(' :: (inside ++ [')'])))) ∧
      ∀ before after : Text, text = before ++ '(' :: after →
        (∀ start, start <+: before → ¬ Text.Overclosed start) →
        ∃ inside rest : Text, after = inside ++ ')' :: rest ∧ inside.Balanced) := by
  have noneClosed : ¬ Text.Overclosed [] := by simp [Text.Overclosed]
  have noneOpen : ¬ Text.TooDeep limit [] := by simp [Text.TooDeep]
  refine ⟨?_, fun counts => ⟨?_, ?_, ?_, ?_⟩⟩
  · intro uneven
    rw [decomposeWithin, if_neg uneven] at refused
    exact (Except.error.inj refused).symm
  · -- a text without either is decomposed
    by_contra neither
    rw [not_or, not_exists, not_exists] at neither
    have balanced : text.Balanced := by
      refine ⟨counts, fun start begins => Nat.le_of_not_lt fun exceeds => ?_⟩
      obtain ⟨stray, c, first⟩ := Text.exists_firstAt begins exceeds noneClosed
      exact neither.1 stray (first.closes ▸ first)
    have within : ∀ start, start <+: text → start.count '(' ≤ start.count ')' + limit := by
      intro start begins
      refine Nat.le_of_not_lt fun exceeds => ?_
      obtain ⟨deep, c, first⟩ := Text.exists_firstAt begins exceeds noneOpen
      exact neither.2 deep (first.opens ▸ first)
    obtain ⟨segments, decomposed⟩ :=
      (exists_decomposeWithin_eq_ok_iff limit text).2 ⟨balanced, within⟩
    rw [decomposed] at refused
    cases refused
  · intro stray first earlier
    have shallow := Text.forall_prefix_not noneOpen ((List.prefix_append _ _).trans first.stands)
      fun deep c there => earlier deep (there.opens ▸ there)
    obtain ⟨done, rest, after, cut, split, found⟩ := parenthesisFault?_of_stray first shallow
    rw [decomposeWithin_eq_error_iff_of_counts counts, found] at refused
    refine ⟨done, rest, rest ++ ')' :: after, cut, ?_, (Option.some.inj refused).symm⟩
    rw [split, ← List.append_assoc, ← cut.split]
  · intro deep first earlier
    have opened := Text.forall_prefix_not noneClosed ((List.prefix_append _ _).trans first.stands)
      fun stray c there => earlier stray (there.closes ▸ there)
    obtain ⟨inside, after, split, balanced, found⟩ := parenthesisFault?_of_deep counts first opened
    rw [decomposeWithin_eq_error_iff_of_counts counts, found] at refused
    exact ⟨inside, after, split, balanced, (Option.some.inj refused).symm⟩
  · intro before after split opened
    have notClosed := Nat.le_of_not_lt (opened before List.prefix_rfl)
    obtain ⟨inside, rest, closed, balanced, -⟩ := exists_close_of_counts counts split notClosed
    exact ⟨inside, rest, closed, balanced⟩

/-- In `(é))(((b))` with the limit 1 the second `)` closes nothing, and no group before it lies too
deep. What comes after the group `(é)` is told with it. -/
theorem first_parenthesis_is_blamed_stray :
    let text := ['(', 'é', ')', ')', '(', '(', '(', 'b', ')', ')']
    decomposeWithin 1 text = .error (.malformedParentheses (text.drop 3) ⟨4, 1⟩) ∧
      ∃ done rest fragment : Text, Text.CutAfterGroups ['(', 'é', ')'] done rest ∧
        text = done ++ fragment ∧ text.drop 3 = fragment := by
  intro text
  have refused : decomposeWithin 1 text = .error (.malformedParentheses (text.drop 3) ⟨4, 1⟩) := by
    decide
  have stray : Text.FirstAt Text.Overclosed text ['(', 'é', ')'] ')' := by
    refine ⟨⟨_, rfl⟩, by decide, fun start begins => ?_⟩
    have kept : ∀ start ∈ List.inits ['(', 'é', ')'], ¬ Text.Overclosed start := by decide
    exact kept start ((List.mem_inits _ _).2 begins)
  have later : ∀ deep, Text.FirstAt (Text.TooDeep 1) text deep '(' →
      Text.byteSize ['(', 'é', ')'] < Text.byteSize deep := by
    intro deep first
    have deeper : ∀ start ∈ List.inits text, Text.TooDeep 1 start → 5 < Text.byteSize start := by
      decide
    have beyond := deeper _ ((List.mem_inits _ _).2 first.stands) first.holds
    have one : Text.byteSize ['('] = 1 ∧ Text.byteSize ['(', 'é', ')'] = 4 := by decide
    rw [Text.byteSize_append, one.1] at beyond
    omega
  obtain ⟨done, rest, fragment, cut, split, told⟩ :=
    ((first_parenthesis_is_blamed 1 text _ refused).2 (by decide)).2.1 _ stray later
  exact ⟨refused, done, rest, fragment, cut, split, (Fault.malformedParentheses.inj told).1⟩

end ComplexReckoner
