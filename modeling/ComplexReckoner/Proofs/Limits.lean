import ComplexReckoner.Proofs.Priority

/-! # The nesting limit

A lower limit refuses more texts, and refuses them for their depth. It never changes which other
fault is told, nor any value: the search for a parenthesis at fault goes along the text in the same
way for both limits until the lower one is exceeded (`parenthesisFault?_of_le`), and nothing after
that search looks at the limit.

A text whose parentheses nest within the limit is never refused for its depth: where a group is
found too deep, more parentheses are open than the limit allows
(`lt_nestingFrom_of_nestingTooDeep`), and the scopes of a text that is decomposed have other faults
(`assemble_ne_nestingTooDeep`). -/

namespace ComplexReckoner

/-! ## Two limits -/

/-- A lower limit is exceeded, or the same is found as with a higher one. -/
theorem parenthesisFault?_of_le {lower upper : Nat} (below : lower ≤ upper) (depth offset : Nat)
    (fragment text : Text) :
    (∃ span, parenthesisFault? lower depth offset fragment text =
        some (.nestingTooDeep lower span)) ∨
      parenthesisFault? lower depth offset fragment text =
        parenthesisFault? upper depth offset fragment text := by
  induction text generalizing depth offset fragment with
  | nil => exact Or.inr rfl
  | cons c rest ih =>
    by_cases opens : c = '('
    · subst opens
      by_cases within : depth < lower
      · have withinUpper : depth < upper := by omega
        rw [parenthesisFault?_open within, parenthesisFault?_open withinUpper]
        exact ih (depth + 1) (offset + 1) fragment
      · -- the search with the lower limit stops here
        exact Or.inl ⟨_, parenthesisFault?_open_limit within offset fragment rest⟩
    · by_cases closes : c = ')'
      · subst closes
        match depth with
        | 0 => exact Or.inr rfl
        | 1 => exact ih 0 (offset + 1) rest
        | depth + 2 => exact ih (depth + 1) (offset + 1) fragment
      · have plain : ∀ limit, parenthesisFault? limit depth offset fragment (c :: rest) =
            parenthesisFault? limit depth (offset + c.utf8Size) fragment rest := fun limit =>
          parenthesisFault?_plain limit depth offset fragment ⟨c, opens, closes⟩ rest
        rw [plain lower, plain upper]
        exact ih depth (offset + c.utf8Size) fragment

/-- A text is refused for its depth with the lower limit, or decomposed as with a higher one. -/
theorem decomposeWithin_of_le {lower upper : Nat} (below : lower ≤ upper) (text : Text) :
    (∃ span, decomposeWithin lower text = .error (.nestingTooDeep lower span)) ∨
      decomposeWithin lower text = decomposeWithin upper text := by
  unfold decomposeWithin
  by_cases balanced : text.count '(' = text.count ')'
  · rw [if_pos balanced, if_pos balanced]
    rcases parenthesisFault?_of_le below 0 0 text text with ⟨span, found⟩ | same
    · refine Or.inl ⟨span, ?_⟩
      rw [found]
    · rw [same]
      exact Or.inr rfl
  · rw [if_neg balanced, if_neg balanced]
    exact Or.inr rfl

/-! ## Texts that nest within the limit -/

/-- Where a group is found too deep, more parentheses are open than the limit allows. -/
theorem lt_nestingFrom_of_nestingTooDeep {limit depth offset told : Nat} {fragment text : Text}
    {span : Span}
    (found : parenthesisFault? limit depth offset fragment text =
      some (.nestingTooDeep told span)) : limit < text.nestingFrom depth := by
  induction text generalizing depth offset fragment with
  | nil => cases found
  | cons c rest ih =>
    by_cases opens : c = '('
    · subst opens
      show limit < Text.nestingFrom (depth + 1) rest
      by_cases within : depth < limit
      · rw [parenthesisFault?_open within] at found
        exact ih found
      · -- with this parenthesis one more is open than the limit allows
        have least := Text.le_nestingFrom (depth + 1) rest
        omega
    · by_cases closes : c = ')'
      · subst closes
        cases depth with
        | zero => cases found
        | succ depth =>
          obtain ⟨later, passed⟩ := parenthesisFault?_close limit depth offset fragment rest
          rw [passed] at found
          have along : limit < Text.nestingFrom depth rest := ih found
          show limit < max (depth + 1) (Text.nestingFrom depth rest)
          omega
      · rw [parenthesisFault?_plain limit depth offset fragment ⟨c, opens, closes⟩ rest] at found
        rw [Text.nestingFrom, if_neg opens, if_neg closes]
        exact ih found

/-- A text that is refused for its depth nests deeper than the limit. -/
theorem lt_nesting_of_decomposeWithin {limit told : Nat} {text : Text} {span : Span}
    (refused : decomposeWithin limit text = .error (.nestingTooDeep told span)) :
    limit < text.nesting := by
  rw [decomposeWithin] at refused
  split at refused
  · split at refused
    · next found =>
      cases refused
      exact lt_nestingFrom_of_nestingTooDeep found
    · cases refused
  · cases refused

section Scopes

variable (environment : Environment ComplexFloat) (limit : Nat) (span : Span)

/-- The fault of a scope itself is one of its shape or of one of its terms, not of its depth. -/
theorem ownFault?_ne_nestingTooDeep (scope : Scope) :
    environment.interpretation.ownFault? scope ≠ some (.nestingTooDeep limit span) := by
  intro told
  rw [Interpretation.ownFault?, Interpretation.itemsFault?, Option.or_eq_some_iff] at told
  rcases told with shape | ⟨-, term⟩
  · obtain ⟨_, _, same, -⟩ := blamesShape_of_shapeFault? shape
    cases same
  · -- a term is miswritten, not bound, or has a character that is not accepted
    rw [← Interpretation.resolveSlots_eq_error_iff] at term
    obtain ⟨token, -, -, fails⟩ := Interpretation.exists_term_of_resolveSlots_eq_error term
    rcases Environment.resolve_eq_error fails with ⟨_, same⟩ | ⟨same, -⟩ | ⟨_, _, _, -, same⟩ <;>
      cases same

/-- A text that is decomposed is not refused for its depth afterwards. -/
theorem assemble_ne_nestingTooDeep (whole : Text) (segments : Segments) :
    environment.interpretation.assemble (.ofText 0 whole) segments.tokens ≠
      .error (.nestingTooDeep limit span) := by
  intro fails
  rw [Interpretation.assemble_scopes] at fails
  obtain ⟨scope, -, own⟩ := List.exists_of_findSome?_eq_some fails
  exact ownFault?_ne_nestingTooDeep environment limit span scope own

end Scopes

/-! ## Values and limits -/

/-- A text whose value is refused for its depth nests deeper than the limit. -/
theorem lt_nesting_of_evaluate {environment : Environment ComplexFloat} {limits : Limits}
    {text : Text} {told : Nat} {span : Span}
    (fails : evaluate environment limits text = .error (.nestingTooDeep told span)) :
    limits.maxDepth < text.compact.nesting := by
  rw [evaluate_eq_error_iff, Expression.parse, bind_eq_error_iff] at fails
  rcases fails with refused | ⟨segments, -, failsAssembly⟩
  · exact lt_nesting_of_decomposeWithin refused
  · exact absurd failsAssembly (assemble_ne_nestingTooDeep environment told span _ segments)

/-- A nesting limit only ever turns a result into the fault of a group that lies too deep.

With the lower of two limits a text is refused for its depth, and the lower limit is told; or it has
the same value as with the higher one, or the same fault. The former never happens when the
parentheses of the text nest within the lower limit. -/
theorem limit_only_refuses_depth (environment : Environment ComplexFloat) (text : Text)
    (lower upper : Limits) (below : lower.maxDepth ≤ upper.maxDepth) :
    ((∃ span, evaluate environment lower text = .error (.nestingTooDeep lower.maxDepth span)) ∨
        evaluate environment lower text = evaluate environment upper text) ∧
      (text.compact.nesting ≤ lower.maxDepth → ∀ limit span,
        evaluate environment lower text ≠ .error (.nestingTooDeep limit span)) := by
  constructor
  · rcases decomposeWithin_of_le below text.compact with ⟨span, refused⟩ | same
    · refine Or.inl ⟨span, ?_⟩
      rw [evaluate_eq_error_iff, Expression.parse, refused]
      rfl
    · -- only decomposition looks at the limit
      refine Or.inr ?_
      rw [evaluate, evaluate, Expression.parse, Expression.parse, same]
  · intro within limit span fails
    have beyond := lt_nesting_of_evaluate fails
    omega

/-- The text `((i))` is refused with the limit 1, and has one value with the limits 2 and 3. -/
theorem limit_only_refuses_depth_twice :
    evaluate ∅ ⟨1⟩ ['(', '(', 'i', ')', ')'] = .error (.nestingTooDeep 1 ⟨1, 3⟩) ∧
      evaluate ∅ ⟨2⟩ ['(', '(', 'i', ')', ')'] = .ok (.ofImaginary 1.0) ∧
      evaluate ∅ ⟨2⟩ ['(', '(', 'i', ')', ')'] = evaluate ∅ ⟨3⟩ ['(', '(', 'i', ')', ')'] := by
  obtain ⟨refusedOrSame, never⟩ :=
    limit_only_refuses_depth ∅ ['(', '(', 'i', ')', ')'] ⟨2⟩ ⟨3⟩ (by decide)
  refine ⟨rfl, rfl, refusedOrSame.resolve_left ?_⟩
  rintro ⟨span, refused⟩
  exact never (by decide) 2 span refused

end ComplexReckoner
