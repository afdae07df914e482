import Mathlib.Data.List.Forall2
import ComplexReckoner.Proofs.Names
import ComplexReckoner.Proofs.Reading

/-! # Substitution

A name can be replaced by its definition in parentheses, wherever it stands. The text behind it is
read in the same way, and then both are an operand. From there on the pass from the right does the
same on both sides (`Reading.read?_related`): it gives two derivations, or none, and the two have
the same terms once every group is replaced by its value (`Interpretation.SameTerms`). -/

namespace ComplexReckoner

/-! ## Two passes side by side -/

/-- A relation between formulas that each of them has to itself, and that is kept when more is put
in front of or around the formulas. -/
structure Formula.Congruence (related : Formula → Formula → Prop) : Prop where
  /-- A formula is related to itself. -/
  refl : ∀ formula, related formula formula
  /-- Formulas in parentheses are related as the formulas are. -/
  group : ∀ {first second}, related first second → related (.group first) (.group second)
  /-- What follows a word may be replaced. -/
  wordThen : ∀ {first second} (content : Word) (sign : Sign), related first second →
    related (.wordThen content sign first) (.wordThen content sign second)
  /-- What is in parentheses may be replaced, and what follows it. -/
  groupThen : ∀ {inner otherInner first second} (sign : Sign), related inner otherInner →
    related first second →
      related (.groupThen inner sign first) (.groupThen otherInner sign second)

/-- Whether two rests of scopes are the same up to a relation between formulas. -/
inductive Tail.Related (related : Formula → Formula → Prop) : Tail → Tail → Prop where
  /-- Nothing follows. -/
  | none : Related related none none
  /-- The same sign follows. -/
  | some (sign : Sign) {first second : Formula} (same : related first second) :
      Related related (some (sign, first)) (some (sign, second))

/-- Whether what has been read of two texts is the same up to a relation between formulas. -/
inductive Reading.Related (related : Formula → Formula → Prop) : Reading → Reading → Prop where
  /-- An operand comes first. -/
  | operand {first second : Formula} {around otherAround : List Tail} (same : related first second)
      (sameAround : List.Forall₂ (Tail.Related related) around otherAround) :
      Related related (.operand first around) (.operand second otherAround)
  /-- The rest of a scope comes first. -/
  | rest {tail other : Tail} {around otherAround : List Tail} (same : tail.Related related other)
      (sameAround : List.Forall₂ (Tail.Related related) around otherAround) :
      Related related (.rest tail around) (.rest other otherAround)

/-- What cannot be read cannot be read behind anything. -/
theorem Reading.read?_append_eq_none (before : List Lexeme) {after : List Lexeme}
    (unread : read? after = none) : read? (before ++ after) = none := by
  induction before with
  | nil => exact unread
  | cons lexeme before ih =>
    rw [List.cons_append, read?, ih]
    rfl

/-- When one text is read as a formula, the other is read as one that is related. -/
theorem Reading.exists_related {related : Formula → Formula → Prop} {text other : Text}
    (same : Option.Rel (Related related) (read? text.lexemes) (read? other.lexemes)) :
    (∀ formula : Formula, formula.text = text →
        ∃ second : Formula, second.text = other ∧ related formula second) ∧
      ∀ formula : Formula, formula.text = other →
        ∃ first : Formula, first.text = text ∧ related first formula := by
  constructor
  · intro formula written
    rw [(read?_eq_some_iff text formula).2 written] at same
    generalize found : read? other.lexemes = reading at same
    obtain ⟨⟨sameFormula, ⟨⟩⟩⟩ := same
    exact ⟨_, (read?_eq_some_iff other _).1 found, sameFormula⟩
  · intro formula written
    rw [(read?_eq_some_iff other formula).2 written] at same
    generalize found : read? text.lexemes = reading at same
    obtain ⟨⟨sameFormula, ⟨⟩⟩⟩ := same
    exact ⟨_, (read?_eq_some_iff text _).1 found, sameFormula⟩

section Related

variable {related : Formula → Formula → Prop} (congruence : Formula.Congruence related)

include congruence

/-- The rest of a scope is related to itself. -/
theorem Tail.Related.refl (tail : Tail) : tail.Related related tail := by
  rcases tail with _ | ⟨sign, rest⟩
  · exact .none
  · exact .some sign (congruence.refl rest)

/-- A word is put in front of rests of scopes that are related. -/
theorem Tail.Related.behindWord (content : Word) {tail other : Tail}
    (same : tail.Related related other) :
    related (tail.behindWord content) (other.behindWord content) := by
  cases same with
  | none => exact congruence.refl _
  | some sign same => exact congruence.wordThen content sign same

/-- Formulas in parentheses are put in front of rests of scopes. -/
theorem Tail.Related.behindGroup {inner otherInner : Formula} (within : related inner otherInner)
    {tail other : Tail} (same : tail.Related related other) :
    related (tail.behindGroup inner) (other.behindGroup otherInner) := by
  cases same with
  | none => exact congruence.group within
  | some sign same => exact congruence.groupThen sign within same

namespace Reading

/-- The same lexeme can be put in front, or not, of what is related, and it stays related. -/
theorem front?_related (lexeme : Lexeme) {first second : Reading}
    (same : first.Related related second) :
    Option.Rel (Related related) (front? lexeme first) (front? lexeme second) := by
  cases same with
  | operand same sameAround =>
    cases lexeme with
    | word content => exact .none
    | sign sign => exact .some (.rest (.some sign same) sameAround)
    | opening =>
      cases sameAround with
      | nil => exact .none
      | cons sameTail sameAround =>
        exact .some (.operand (sameTail.behindGroup congruence same) sameAround)
    | closing => exact .none
  | rest same sameAround =>
    cases lexeme with
    | word content => exact .some (.operand (same.behindWord congruence content) sameAround)
    | sign sign => exact .none
    | opening => exact .none
    | closing => exact .some (.rest .none (.cons same sameAround))

/-- The same lexemes can be put in front, or not, of what is related, and it stays related. -/
theorem read?_related (before : List Lexeme) {after otherAfter : List Lexeme}
    (same : Option.Rel (Related related) (read? after) (read? otherAfter)) :
    Option.Rel (Related related) (read? (before ++ after)) (read? (before ++ otherAfter)) := by
  induction before with
  | nil => exact same
  | cons lexeme before ih =>
    rw [List.cons_append, List.cons_append, read?, read?]
    generalize read? (before ++ after) = first, read? (before ++ otherAfter) = second at ih ⊢
    cases ih with
    | none => exact .none
    | some same => exact front?_related congruence lexeme same

/-- A word and a formula in parentheses can stand in front of the same texts, and what is read there
is related when they are related whatever follows them. -/
theorem read?_word_related_group {content : Word} {inner : Formula}
    (same : ∀ tail : Tail, related (tail.behindWord content) (tail.behindGroup inner))
    {after : Text} (apart : after.StartsApart) :
    Option.Rel (Related related) (read? (content.text ++ after).lexemes)
      (read? (Text.lexemes ('(' :: (inner.text ++ ')' :: after)))) := by
  rw [Text.lexemes_append _ apart, Text.lexemes_word, List.singleton_append, Text.lexemes_opening,
    read?, read?]
  have closing : read? (Text.lexemes (')' :: after)) =
      (read? after.lexemes).bind (front? .closing) := rfl
  have startsClosing : Text.StartsApart (')' :: after) := Text.startsApart_cons (by decide) after
  -- only the rest of a scope can follow, and both become an operand in front of it
  cases found : read? after.lexemes with
  | none =>
    rw [found] at closing
    rw [Text.lexemes_append _ startsClosing, read?_append_eq_none _ closing]
    exact .none
  | some reading =>
    rw [found] at closing
    cases reading with
    | operand formula around =>
      rw [Text.lexemes_append _ startsClosing, read?_append_eq_none _ closing]
      exact .none
    | rest tail around =>
      rw [read?_text_append inner startsClosing closing]
      have sameAround : List.Forall₂ (Tail.Related related) around around :=
        List.forall₂_same.2 fun other _ => .refl congruence other
      exact .some (.operand (same tail) sameAround)

end Reading

end Related

/-! ## Formulas with the same terms -/

namespace Interpretation

variable {α : Type} [Add α] [Mul α] (interpretation : Interpretation α)

/-- Whether all words of a formula have values. -/
def ResolvesAll (formula : Formula) : Prop :=
  ∀ word ∈ formula.words, interpretation.Resolves word (interpretation.valueOf word)

/-- Whether two formulas have values for their words, or both have not, and the same terms when
every group is replaced by its value. -/
structure SameTerms (first second : Formula) : Prop where
  /-- The words of one have values when the words of the other have. -/
  resolves : interpretation.ResolvesAll first ↔ interpretation.ResolvesAll second
  /-- The terms are the same. -/
  settles : (first.expression interpretation.minusOne interpretation.valueOf).settleGroups =
    (second.expression interpretation.minusOne interpretation.valueOf).settleGroups

variable {interpretation}

/-- The terms of a sign come before those of what follows. -/
theorem settleGroups_sign (sign : Sign) {first second : Expression α} {minusOne : α}
    (same : first.settleGroups = second.settleGroups) :
    Expression.settleGroups (.leaves (sign.terms minusOne) first) =
      Expression.settleGroups (.leaves (sign.terms minusOne) second) := by
  cases sign <;>
    simp only [Sign.terms, Nested.leaves_cons, Nested.leaves_nil, Expression.settleGroups, same]

/-- Having the same terms is kept when more is put in front of or around formulas. -/
theorem congruence_sameTerms : Formula.Congruence interpretation.SameTerms where
  refl := fun formula => ⟨Iff.rfl, rfl⟩
  group := by
    intro first second same
    refine ⟨same.resolves, ?_⟩
    simp only [Formula.expression, Expression.settleGroups, same.settles]
  wordThen := by
    intro first second content sign same
    refine ⟨?_, ?_⟩
    · simp only [ResolvesAll, Formula.words, List.forall_mem_cons]
      exact and_congr_right fun _ => same.resolves
    · simp only [Formula.expression, Expression.settleGroups, settleGroups_sign sign same.settles]
  groupThen := by
    intro inner otherInner first second sign within same
    refine ⟨?_, ?_⟩
    · simp only [ResolvesAll, Formula.words, List.forall_mem_append]
      exact and_congr within.resolves same.resolves
    · simp only [Formula.expression, Expression.settleGroups, within.settles,
        settleGroups_sign sign same.settles]

/-- A word has the same terms as a formula in parentheses with the same value, whatever follows
them. -/
theorem sameTerms_behind {content : Word} {inner : Formula} {value : α}
    (resolves : interpretation.Resolves content.text value)
    (resolvesInner : interpretation.ResolvesAll inner)
    (evaluated : (inner.expression interpretation.minusOne interpretation.valueOf).evaluate =
      .ok value) (tail : Tail) :
    interpretation.SameTerms (tail.behindWord content) (tail.behindGroup inner) := by
  have resolvesWord :
      interpretation.Resolves content.text (interpretation.valueOf content.text) := by
    rw [resolves.valueOf_eq]
    exact resolves
  have settled : ∀ later : Expression α,
      Expression.settleGroups (.leaf (.value (interpretation.valueOf content.text)) later) =
        Expression.settleGroups
          (.group () (inner.expression interpretation.minusOne interpretation.valueOf) later) := by
    intro later
    obtain ⟨terms, settledInner, settles⟩ := bind_eq_ok_iff.1 evaluated
    rw [Expression.settleGroups, Expression.settleGroups, settledInner, resolves.valueOf_eq]
    show _ = Expression.settle terms >>= _
    rw [settles]
    rfl
  rcases tail with _ | ⟨sign, rest⟩
  · refine ⟨⟨fun _ => resolvesInner, fun _ => ?_⟩, settled _⟩
    rintro word member
    rw [List.mem_singleton.1 member]
    exact resolvesWord
  · refine ⟨?_, settled _⟩
    simp only [ResolvesAll, Tail.behindWord, Tail.behindGroup, Formula.words, List.forall_mem_cons,
      List.forall_mem_append]
    exact and_congr_left fun _ => ⟨fun _ => resolvesInner, fun _ => resolvesWord⟩

/-- Formulas have the same terms either way round. -/
theorem SameTerms.symm {first second : Formula} (same : interpretation.SameTerms first second) :
    interpretation.SameTerms second first :=
  ⟨same.resolves.symm, same.settles.symm⟩

/-- Formulas with the same terms have the same value, or both have none. -/
theorem SameTerms.evaluate_eq {first second : Formula}
    (same : interpretation.SameTerms first second) :
    (first.expression interpretation.minusOne interpretation.valueOf).evaluate =
      (second.expression interpretation.minusOne interpretation.valueOf).evaluate := by
  rw [Expression.evaluate, Expression.evaluate, same.settles]

end Interpretation

/-! ## The values of texts -/

/-- The parentheses of a derived text nest as deep as those of its derivation. -/
theorem Formula.nesting_text (formula : Formula) : formula.text.nesting = formula.depth := by
  obtain ⟨layout, sameText, sameDepth, -⟩ := formula.exists_layout
  rw [← sameText, ← sameDepth, Text.nesting_text]

section Texts

variable (environment : Environment ComplexFloat) (limits : Limits)

/-- A text without blanks has a value exactly when it has a derivation that keeps the limit and
whose words have values, and then its value is that of the derivation. -/
theorem evaluate_eq_ok_iff {text : Text} (compacted : text.compact = text) (value : ComplexFloat) :
    evaluate environment limits text = .ok value ↔
      ∃ formula : Formula, formula.text = text ∧ formula.depth ≤ limits.maxDepth ∧
        environment.interpretation.ResolvesAll formula ∧
        (formula.expression .minusOne environment.interpretation.valueOf).evaluate = .ok value := by
  rw [evaluate, compacted, bind_eq_ok_iff]
  constructor
  · rintro ⟨expression, parsed, evaluated⟩
    obtain ⟨formula, written, within, resolves, rfl⟩ :=
      (Expression.parse_eq_ok_iff environment.uniform_interpretation _ _ _).1 parsed
    exact ⟨formula, written, within, resolves, evaluated⟩
  · rintro ⟨formula, written, within, resolves, evaluated⟩
    refine ⟨_, ?_, evaluated⟩
    exact (Expression.parse_eq_ok_iff environment.uniform_interpretation _ _ _).2
      ⟨formula, written, within, resolves, rfl⟩

variable {environment limits}

/-- A text has the values of another one when it has a formula with the same terms for each formula
of the other. -/
theorem evaluate_eq_ok_of_sameTerms {text other : Text} (compacted : text.compact = text)
    (otherCompacted : other.compact = other) (within : other.nesting ≤ limits.maxDepth)
    (same : ∀ formula : Formula, formula.text = text → ∃ second : Formula, second.text = other ∧
      environment.interpretation.SameTerms formula second) {value : ComplexFloat}
    (evaluated : evaluate environment limits text = .ok value) :
    evaluate environment limits other = .ok value := by
  obtain ⟨formula, written, -, resolves, settled⟩ :=
    (evaluate_eq_ok_iff environment limits compacted value).1 evaluated
  obtain ⟨second, rfl, sameTerms⟩ := same formula written
  rw [Formula.nesting_text] at within
  refine (evaluate_eq_ok_iff environment limits otherCompacted value).2
    ⟨second, rfl, within, sameTerms.resolves.1 resolves, ?_⟩
  rw [← settled]
  exact sameTerms.evaluate_eq.symm

end Texts

/-! ## Replacing a name -/

/-- Texts with a name and with its definition in parentheses are read side by side. -/
theorem read?_name_related_definition {environment : Environment ComplexFloat} (content : Word)
    {inner : Formula} {value : ComplexFloat}
    (resolves : environment.interpretation.Resolves content.text value)
    (resolvesInner : environment.interpretation.ResolvesAll inner)
    (evaluated :
      (inner.expression .minusOne environment.interpretation.valueOf).evaluate = .ok value)
    {before after : Text} (ends : before.EndsApart) (starts : after.StartsApart) :
    Option.Rel (Reading.Related environment.interpretation.SameTerms)
      (Reading.read? (before ++ (content.text ++ after)).lexemes)
      (Reading.read? (before ++ '(' :: (inner.text ++ ')' :: after)).lexemes) := by
  have congruence : Formula.Congruence environment.interpretation.SameTerms :=
    Interpretation.congruence_sameTerms
  rw [Text.lexemes_append_of_endsApart ends, Text.lexemes_append_of_endsApart ends]
  refine Reading.read?_related congruence _ ?_
  refine Reading.read?_word_related_group congruence (fun tail => ?_) starts
  exact Interpretation.sameTerms_behind resolves resolvesInner evaluated tail

/-- A name can be replaced by its definition in parentheses.

In any text where the name stands between signs or parentheses, or at the edges, a value is found
exactly when it is found with the definition in its place, and it is the same value. The definition
is any text with the value that the name is bound to, and the limit leaves room for both texts. -/
theorem name_replaced_by_definition (environment : Environment ComplexFloat) (name : Text)
    (nonempty : name ≠ []) (alphabetic : ∀ c ∈ name, isAlphabetic c = true)
    (other : ∃ c ∈ name, c ≠ 'i') (definition : Text) (value : ComplexFloat) (sufficient : Limits)
    (defines : evaluate environment sufficient definition = .ok value)
    (bound : environment.get? name = some value) (before after : Text)
    (plain : ∀ c ∈ before ++ (definition ++ after), isBlank c = false)
    (ends : ∀ c ∈ before.getLast?, c ∈ ['+', '-', '*', '('])
    (starts : ∀ c ∈ after.head?, c ∈ ['+', '-', '*', ')']) (limits : Limits)
    (within : (before ++ (name ++ after)).nesting ≤ limits.maxDepth)
    (withinReplaced : (before ++ '(' :: (definition ++ ')' :: after)).nesting ≤ limits.maxDepth)
    (result : ComplexFloat) :
    evaluate environment limits (before ++ (name ++ after)) = .ok result ↔
      evaluate environment limits (before ++ '(' :: (definition ++ ')' :: after)) = .ok result := by
  have valid : isName name = true := (isName_eq_true_iff name).2 ⟨nonempty, alphabetic⟩
  have resolves : environment.interpretation.Resolves name value :=
    resolve_name environment valid other bound
  simp only [List.forall_mem_append] at plain
  obtain ⟨plainBefore, plainDefinition, plainAfter⟩ := plain
  -- the definition has a derivation, whatever limit it was evaluated with
  obtain ⟨inner, rfl, -, resolvesInner, evaluated⟩ :=
    (evaluate_eq_ok_iff environment sufficient (Text.compact_of_forall plainDefinition) value).1
      defines
  have compacted : (before ++ (name ++ after)).compact = before ++ (name ++ after) := by
    refine Text.compact_of_forall ?_
    simp only [List.forall_mem_append]
    exact ⟨plainBefore, fun c member => isBlank_of_isAlphabetic (alphabetic c member), plainAfter⟩
  have compactedReplaced : (before ++ '(' :: (inner.text ++ ')' :: after)).compact =
      before ++ '(' :: (inner.text ++ ')' :: after) := by
    refine Text.compact_of_forall ?_
    simp only [List.forall_mem_append, List.forall_mem_cons]
    exact ⟨plainBefore, by decide, plainDefinition, by decide, plainAfter⟩
  have endsApart : before.EndsApart := fun c last =>
    (by decide : ['+', '-', '*', '('] ⊆ separators) (ends c last)
  have startsApart : after.StartsApart := fun c first =>
    (by decide : ['+', '-', '*', ')'] ⊆ separators) (starts c first)
  obtain ⟨replaced, restored⟩ := Reading.exists_related
    (read?_name_related_definition (Word.ofName name valid) resolves resolvesInner evaluated
      endsApart startsApart)
  constructor
  · intro found
    exact evaluate_eq_ok_of_sameTerms compacted compactedReplaced withinReplaced replaced found
  · intro found
    refine evaluate_eq_ok_of_sameTerms compactedReplaced compacted within ?_ found
    intro formula written
    obtain ⟨first, sameText, same⟩ := restored formula written
    exact ⟨first, sameText, same.symm⟩

/-- In `i*(x)-i` the name `x` can be replaced by its definition `i*i`. -/
theorem name_replaced_by_definition_square :
    evaluate (Environment.bind ∅ ['x'] (.ofImaginary 1.0 * .ofImaginary 1.0)) {}
        ['i', '*', '(', '(', 'i', '*', 'i', ')', ')', '-', 'i'] =
      .ok (.ofImaginary 1.0 * (.ofImaginary 1.0 * .ofImaginary 1.0) +
        .minusOne * .ofImaginary 1.0) := by
  let environment : Environment ComplexFloat :=
    .bind ∅ ['x'] (.ofImaginary 1.0 * .ofImaginary 1.0)
  have defines : evaluate environment {} ['i', '*', 'i'] =
      .ok (.ofImaginary 1.0 * .ofImaginary 1.0) := rfl
  have found : evaluate environment {} ['i', '*', '(', 'x', ')', '-', 'i'] =
      .ok (.ofImaginary 1.0 * (.ofImaginary 1.0 * .ofImaginary 1.0) +
        .minusOne * .ofImaginary 1.0) := rfl
  have unblank : (['i', '*', '('] ++ (['i', '*', 'i'] ++ [')', '-', 'i'])).all
      (!isBlank ·) = true := by decide
  refine (name_replaced_by_definition environment ['x'] (by decide)
    (List.forall_mem_singleton.2 (by decide)) ⟨'x', by decide, by decide⟩ ['i', '*', 'i'] _ {}
    defines ?_ ['i', '*', '('] [')', '-', 'i'] ?_ (by simp) (by simp) {} (by decide) (by decide)
    _).1 found
  · exact Environment.get?_bind_self ∅ ['x'] _
  · intro c member
    simpa using List.all_eq_true.1 unblank c member

end ComplexReckoner
