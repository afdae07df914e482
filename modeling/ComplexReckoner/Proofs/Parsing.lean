import ComplexReckoner.Evaluation
import ComplexReckoner.Proofs.Assembly
import ComplexReckoner.Proofs.Grammar
import ComplexReckoner.Proofs.Terms

/-! # Parsing

An expression is assembled from a text exactly when the text has a derivation, its groups keep the
limit and its words have values; and it is the expression that is read off the derivation.

The proof goes along the tokens. What can be assembled from the tokens of a scope is the expression
of a formula, or of what follows an atom in one (`Interpretation.exists_formula`); and from the
tokens of a formula its expression is assembled (`Interpretation.exists_slots`). -/

namespace ComplexReckoner

variable {α : Type}

namespace Interpretation

variable (interpretation : Interpretation α)

/-! ## The values of words -/

/-- Whether the value of a term does not depend on where it stands. -/
def Uniform : Prop :=
  ∀ {text : Text} {offset : Nat} {value : α}, interpretation.term text offset = .ok value →
    ∀ other, interpretation.term text other = .ok value

/-- Whether a word has a value, wherever it stands. -/
def Resolves (word : Text) (value : α) : Prop :=
  ∀ offset, interpretation.term word offset = .ok value

/-- The value of a word, and the factor `-1` for a word that has none. -/
def valueOf (word : Text) : α :=
  match interpretation.term word 0 with
  | .ok value => value
  | .error _ => interpretation.minusOne

variable {interpretation}

/-- A word that has a value has its own value. -/
theorem Resolves.valueOf_eq {word : Text} {value : α}
    (resolves : interpretation.Resolves word value) : interpretation.valueOf word = value := by
  rw [valueOf, resolves 0]

/-- A token that stands for a value is that of a word with this value. -/
theorem token_term_eq_ok {text : Text} {offset : Nat} {term : Term α}
    (uniform : interpretation.Uniform)
    (resolved : interpretation.token ⟨.term, text, offset⟩ = .ok term) :
    interpretation.Resolves text (interpretation.valueOf text) ∧
      term = .value (interpretation.valueOf text) := by
  have mapped : (interpretation.term text offset).map Term.value = .ok term := resolved
  cases found : interpretation.term text offset with
  | error fault =>
    rw [found] at mapped
    cases mapped
  | ok value =>
    rw [found] at mapped
    have resolves : interpretation.Resolves text value := uniform found
    rw [resolves.valueOf_eq]
    exact ⟨resolves, (Except.ok.inj mapped).symm⟩

variable (interpretation)

/-- Whether the words of a formula have values and an expression is read off it with these. -/
def Denotes (formula : Formula) (expression : Expression α) : Prop :=
  (∀ word ∈ formula.words, interpretation.Resolves word (interpretation.valueOf word)) ∧
    expression = formula.expression interpretation.minusOne interpretation.valueOf

/-! ## Signs among the items of a scope -/

/-- The items of a sign. -/
def signSlots (sign : Sign) (offset : Nat) : List (Slot α) := (sign.tokens offset).map .token

@[simp] theorem signSlots_plus (offset : Nat) :
    (signSlots .plus offset : List (Slot α)) = [.token ⟨.plus, ['+'], offset⟩] := rfl

@[simp] theorem signSlots_minus (offset : Nat) :
    (signSlots .minus offset : List (Slot α)) =
      [.token ⟨.plus, ['-'], offset⟩, .token ⟨.negativeOne, ['-'], offset⟩,
        .token ⟨.star, ['-'], offset⟩] := rfl

@[simp] theorem signSlots_times (offset : Nat) :
    (signSlots .times offset : List (Slot α)) = [.token ⟨.star, ['*'], offset⟩] := rfl

/-- No item of a sign is an empty term. -/
theorem isVacant_of_mem_signSlots {sign : Sign} {offset : Nat} {slot : Slot α}
    (member : slot ∈ signSlots sign offset) : slot.isVacant = false := by
  cases sign <;> simp at member
  · rw [member]
    rfl
  · rcases member with rfl | rfl | rfl <;> rfl
  · rw [member]
    rfl

/-- A sign stands where an operator may come, and a term comes after it. -/
theorem alternateFrom_signSlots (next : Bool) (sign : Sign) (offset : Nat) (rest : List (Slot α)) :
    Slot.AlternateFrom next (signSlots sign offset ++ rest) ↔
      next = true ∧ Slot.AlternateFrom false rest := by
  cases sign <;> cases next <;> simp [Slot.isOperator, Token.isOperator]

/-- A token that stands for a known term needs no resolution. -/
theorem resolveSlots_known_eq_ok_iff {token : Token} {term : Term α}
    (known : interpretation.token token = .ok term) {rest : List (Slot α)}
    {expression : Expression α} :
    interpretation.resolveSlots (.token token :: rest) = .ok expression ↔
      ∃ later, interpretation.resolveSlots rest = .ok later ∧ expression = .leaf term later := by
  rw [resolveSlots_token_eq_ok_iff, known]
  constructor
  · rintro ⟨other, same, later⟩
    cases same
    exact later
  · intro later
    exact ⟨term, rfl, later⟩

/-- The terms of a sign need no resolution. -/
theorem resolveSlots_signSlots_eq_ok_iff {sign : Sign} {offset : Nat} {rest : List (Slot α)}
    {expression : Expression α} :
    interpretation.resolveSlots (signSlots sign offset ++ rest) = .ok expression ↔
      ∃ later, interpretation.resolveSlots rest = .ok later ∧
        expression = .leaves (sign.terms interpretation.minusOne) later := by
  cases sign with
  | plus => exact interpretation.resolveSlots_known_eq_ok_iff rfl
  | times => exact interpretation.resolveSlots_known_eq_ok_iff rfl
  | minus =>
    rw [signSlots_minus, List.cons_append, interpretation.resolveSlots_known_eq_ok_iff rfl]
    constructor
    · rintro ⟨sum, resolvedSum, rfl⟩
      obtain ⟨factor, resolvedFactor, rfl⟩ :=
        (interpretation.resolveSlots_known_eq_ok_iff rfl).1 resolvedSum
      obtain ⟨later, resolvedLater, rfl⟩ :=
        (interpretation.resolveSlots_known_eq_ok_iff rfl).1 resolvedFactor
      exact ⟨later, resolvedLater, rfl⟩
    · rintro ⟨later, resolvedLater, rfl⟩
      refine ⟨_, (interpretation.resolveSlots_known_eq_ok_iff rfl).2 ⟨_, ?_, rfl⟩, rfl⟩
      exact (interpretation.resolveSlots_known_eq_ok_iff rfl).2 ⟨later, resolvedLater, rfl⟩

/-! ## From tokens to a formula -/

variable {interpretation}

/-- What is assembled from the tokens of a scope is read off a formula, and what is assembled from
the tokens behind an atom is nothing, or read off a sign and a formula. -/
theorem exists_formula (uniform : interpretation.Uniform) {offset : Nat} {text : Text}
    {tokens : Nested Span Token} (scanned : Scanned offset text tokens) {slots : List (Slot α)}
    {expression : Expression α} (assembled : interpretation.assembleGroups tokens = .ok slots)
    (resolved : interpretation.resolveSlots slots = .ok expression) :
    (Slot.AlternateFrom false slots →
        ∃ formula : Formula, formula.text = text ∧ interpretation.Denotes formula expression) ∧
      (Slot.AlternateFrom true slots → text = [] ∧ expression = .nil ∨
        ∃ (sign : Sign) (formula : Formula) (later : Expression α),
          text = sign.char :: formula.text ∧ interpretation.Denotes formula later ∧
            expression = .leaves (sign.terms interpretation.minusOne) later) := by
  induction scanned generalizing slots expression with
  | nil offset =>
    cases assembled
    cases resolved
    exact ⟨nofun, fun _ => Or.inl ⟨rfl, rfl⟩⟩
  | sign sign later ih =>
    obtain ⟨rest, assembledRest, rfl⟩ := interpretation.assembleGroups_leaves_eq_ok_iff.1 assembled
    obtain ⟨after, resolvedRest, rfl⟩ := interpretation.resolveSlots_signSlots_eq_ok_iff.1 resolved
    refine ⟨fun alternate => ?_, fun alternate => Or.inr ?_⟩
    · -- a scope does not begin with a sign
      cases ((alternateFrom_signSlots _ _ _ _).1 alternate).1
    · have alternateRest := ((alternateFrom_signSlots _ _ _ _).1 alternate).2
      obtain ⟨formula, rfl, denotes⟩ := (ih assembledRest resolvedRest).1 alternateRest
      exact ⟨sign, formula, after, rfl, denotes, rfl⟩
  | word word apart later ih =>
    obtain ⟨rest, assembledRest, rfl⟩ := interpretation.assembleGroups_leaf_eq_ok_iff.1 assembled
    obtain ⟨term, resolvedTerm, after, resolvedRest, rfl⟩ :=
      interpretation.resolveSlots_token_eq_ok_iff.1 resolved
    obtain ⟨resolves, rfl⟩ := token_term_eq_ok uniform resolvedTerm
    refine ⟨fun alternate => ?_, fun alternate => absurd alternate.1 nofun⟩
    -- the word is the last atom, or a sign and a formula follow it
    rcases (ih assembledRest resolvedRest).2 alternate.2 with
      ⟨rfl, rfl⟩ | ⟨sign, formula, later, rfl, ⟨resolvesLater, rfl⟩, rfl⟩
    · refine ⟨.word word, (List.append_nil _).symm, ?_, rfl⟩
      intro other member
      rw [List.mem_singleton.1 member]
      exact resolves
    · refine ⟨.wordThen word sign formula, rfl, ?_, rfl⟩
      intro other member
      rcases List.mem_cons.1 member with rfl | inRest
      · exact resolves
      · exact resolvesLater other inRest
  | emptyGroup later ih =>
    obtain ⟨innerSlots, assembledInner, inner, closed, -⟩ :=
      interpretation.assembleGroups_group_eq_ok_iff.1 assembled
    obtain ⟨none, assembledNone, rfl⟩ :=
      interpretation.assembleGroups_leaf_eq_ok_iff.1 assembledInner
    -- the empty term in the group would have been refused
    obtain ⟨⟨occupied, -⟩, -⟩ := interpretation.closeScope_eq_ok_iff.1 closed
    exact absurd (occupied _ List.mem_cons_self) nofun
  | group nonempty within later ihInner ihRest =>
    obtain ⟨innerSlots, assembledInner, inner, closed, rest, assembledRest, rfl⟩ :=
      interpretation.assembleGroups_group_eq_ok_iff.1 assembled
    obtain ⟨⟨-, alternateInner⟩, resolvedInner⟩ := interpretation.closeScope_eq_ok_iff.1 closed
    obtain ⟨after, resolvedRest, rfl⟩ := interpretation.resolveSlots_group_eq_ok_iff.1 resolved
    obtain ⟨innerFormula, rfl, resolvesInner, rfl⟩ :=
      (ihInner assembledInner resolvedInner).1 alternateInner
    refine ⟨fun alternate => ?_, fun alternate => absurd alternate.1 nofun⟩
    -- the group is the last atom, or a sign and a formula follow it
    rcases (ihRest assembledRest resolvedRest).2 alternate.2 with
      ⟨rfl, rfl⟩ | ⟨sign, formula, later, rfl, ⟨resolvesLater, rfl⟩, rfl⟩
    · exact ⟨.group innerFormula, rfl, resolvesInner, rfl⟩
    · refine ⟨.groupThen innerFormula sign formula, rfl, ?_, rfl⟩
      intro other member
      exact (List.mem_append.1 member).elim (resolvesInner other) (resolvesLater other)

/-! ## From a formula to its expression -/

variable (interpretation)

/-- An item that stands for an atom: it is neither an operator nor an empty term, and `item` puts
what it stands for in front of what follows. -/
structure IsAtom (slot : Slot α) (item : Expression α → Expression α) : Prop where
  /-- It is not an operator. -/
  term : slot.isOperator = false
  /-- It is not an empty term. -/
  occupied : slot.isVacant = false
  /-- It is resolved before what follows. -/
  resolve : ∀ {rest : List (Slot α)} {later : Expression α},
    interpretation.resolveSlots rest = .ok later →
      interpretation.resolveSlots (slot :: rest) = .ok (item later)

variable {interpretation}

/-- The term of a word that has a value is an atom. -/
theorem isAtom_word {word : Word} {value : α} (resolves : interpretation.Resolves word.text value)
    (offset : Nat) :
    interpretation.IsAtom (.token ⟨.term, word.text, offset⟩) (.leaf (.value value)) where
  term := rfl
  occupied := by
    have nonempty := word.nonempty
    simp [Slot.isVacant, nonempty]
  resolve := by
    intro rest later resolved
    have known : interpretation.token ⟨.term, word.text, offset⟩ = .ok (.value value) := by
      have mapped : interpretation.token ⟨.term, word.text, offset⟩ =
          (interpretation.term word.text offset).map .value := rfl
      rw [mapped, resolves offset]
      rfl
    exact (interpretation.resolveSlots_known_eq_ok_iff known).2 ⟨later, resolved, rfl⟩

/-- A group that has been assembled is an atom. -/
theorem isAtom_group (inner : Expression α) :
    interpretation.IsAtom (.group inner) (.group () inner) where
  term := rfl
  occupied := rfl
  resolve := fun resolved => interpretation.resolveSlots_group_eq_ok_iff.2 ⟨_, resolved, rfl⟩

/-- A scope with one atom is in order. -/
theorem IsAtom.closeScope {slot : Slot α} {item : Expression α → Expression α}
    (atom : interpretation.IsAtom slot item) (scope : Span) :
    interpretation.closeScope scope [slot] = .ok (item .nil) := by
  rw [closeScope_eq_ok_iff]
  refine ⟨⟨?_, atom.term, rfl⟩, atom.resolve rfl⟩
  intro other member
  rw [List.mem_singleton.1 member]
  exact atom.occupied

/-- A scope in order stays so with an atom and a sign in front of it. -/
theorem IsAtom.closeScope_sign {slot : Slot α} {item : Expression α → Expression α}
    (atom : interpretation.IsAtom slot item) (sign : Sign) (offset : Nat) {scope : Span}
    {rest : List (Slot α)} {later : Expression α}
    (closed : interpretation.closeScope scope rest = .ok later) :
    interpretation.closeScope scope (slot :: (signSlots sign offset ++ rest)) =
      .ok (item (.leaves (sign.terms interpretation.minusOne) later)) := by
  rw [closeScope_eq_ok_iff] at closed ⊢
  obtain ⟨⟨occupied, alternate⟩, resolved⟩ := closed
  refine ⟨⟨?_, atom.term, ?_⟩, atom.resolve ?_⟩
  · intro other member
    rcases List.mem_cons.1 member with rfl | among
    · exact atom.occupied
    · exact (List.mem_append.1 among).elim isVacant_of_mem_signSlots (occupied other)
  · exact (alternateFrom_signSlots _ _ _ _).2 ⟨rfl, alternate⟩
  · exact interpretation.resolveSlots_signSlots_eq_ok_iff.2 ⟨later, resolved, rfl⟩

/-- The items of a formula are in order as a scope, and are its expression when its words have
values. -/
theorem exists_slots (formula : Formula) (offset : Nat)
    (resolves : ∀ word ∈ formula.words,
      interpretation.Resolves word (interpretation.valueOf word)) :
    ∃ slots, interpretation.assembleGroups (formula.tokens offset) = .ok slots ∧
      ∀ scope, interpretation.closeScope scope slots =
        .ok (formula.expression interpretation.minusOne interpretation.valueOf) := by
  induction formula generalizing offset with
  | word content =>
    have atom := isAtom_word (resolves content.text List.mem_cons_self) offset
    refine ⟨_, interpretation.assembleGroups_leaf_eq_ok_iff.2 ⟨[], rfl, rfl⟩, ?_⟩
    exact atom.closeScope
  | group inner ih =>
    obtain ⟨innerSlots, assembledInner, closed⟩ := ih (offset + 1) resolves
    refine ⟨_, interpretation.assembleGroups_group_eq_ok_iff.2
      ⟨innerSlots, assembledInner, _, closed _, [], rfl, rfl⟩, ?_⟩
    exact (isAtom_group _).closeScope
  | wordThen content sign rest ih =>
    have atom := isAtom_word (resolves content.text List.mem_cons_self) offset
    obtain ⟨restSlots, assembledRest, closed⟩ := ih (offset + content.text.byteSize + 1)
      fun word member => resolves word (List.mem_cons_of_mem _ member)
    have assembledSign : interpretation.assembleGroups
        (.leaves (sign.tokens (offset + content.text.byteSize))
          (rest.tokens (offset + content.text.byteSize + 1))) =
          .ok (signSlots sign (offset + content.text.byteSize) ++ restSlots) :=
      interpretation.assembleGroups_leaves_eq_ok_iff.2 ⟨restSlots, assembledRest, rfl⟩
    refine ⟨_, interpretation.assembleGroups_leaf_eq_ok_iff.2 ⟨_, assembledSign, rfl⟩, ?_⟩
    exact fun scope => atom.closeScope_sign sign _ (closed scope)
  | groupThen inner sign rest ihInner ihRest =>
    obtain ⟨innerSlots, assembledInner, closedInner⟩ := ihInner (offset + 1)
      fun word member => resolves word (List.mem_append_left _ member)
    obtain ⟨restSlots, assembledRest, closed⟩ := ihRest (offset + inner.text.byteSize + 2 + 1)
      fun word member => resolves word (List.mem_append_right _ member)
    have assembledSign : interpretation.assembleGroups
        (.leaves (sign.tokens (offset + inner.text.byteSize + 2))
          (rest.tokens (offset + inner.text.byteSize + 2 + 1))) =
          .ok (signSlots sign (offset + inner.text.byteSize + 2) ++ restSlots) :=
      interpretation.assembleGroups_leaves_eq_ok_iff.2 ⟨restSlots, assembledRest, rfl⟩
    refine ⟨_, interpretation.assembleGroups_group_eq_ok_iff.2
      ⟨innerSlots, assembledInner, _, closedInner _, _, assembledSign, rfl⟩, ?_⟩
    exact fun scope => (isAtom_group _).closeScope_sign sign _ (closed scope)

end Interpretation

namespace Expression

/-! ## The texts that are parsed -/

/-- An expression is parsed from a text exactly when a derivation of the text keeps the limit and
denotes the expression. -/
theorem parse_eq_ok_iff {interpretation : Interpretation α} (uniform : interpretation.Uniform)
    (limits : Limits) (whole : Text) (expression : Expression α) :
    parse interpretation limits whole = .ok expression ↔
      ∃ formula : Formula, formula.text = whole ∧ formula.depth ≤ limits.maxDepth ∧
        interpretation.Denotes formula expression := by
  constructor
  · intro parsed
    obtain ⟨segments, decomposed, assembled⟩ := bind_eq_ok_iff.1 parsed
    obtain ⟨slots, assembledGroups, closed⟩ := bind_eq_ok_iff.1 assembled
    obtain ⟨⟨occupied, alternate⟩, resolved⟩ := interpretation.closeScope_eq_ok_iff.1 closed
    rcases scanned_of_decomposeWithin decomposed with ⟨-, sole⟩ | ⟨-, scanned⟩
    · -- an empty text has one item, an empty term
      rw [sole] at assembledGroups
      obtain ⟨none, -, rfl⟩ := interpretation.assembleGroups_leaf_eq_ok_iff.1 assembledGroups
      exact absurd (occupied _ List.mem_cons_self) nofun
    · obtain ⟨formula, rfl, denotes⟩ :=
        (Interpretation.exists_formula uniform scanned assembledGroups resolved).1 alternate
      refine ⟨formula, rfl, ?_, denotes⟩
      -- the layout of the text and that of the derivation are the same, and so are their depths
      obtain ⟨layout, layoutText, within, -⟩ := (decomposeWithin_eq_ok_iff _ _ _).1 decomposed
      obtain ⟨other, otherText, otherDepth, -⟩ := formula.exists_layout
      have sameLayout : other = layout := Layout.text_injective (otherText.trans layoutText.symm)
      rw [← otherDepth, sameLayout]
      exact within
  · rintro ⟨formula, rfl, within, resolves, rfl⟩
    obtain ⟨layout, sameText, sameDepth, sameTokens⟩ := formula.exists_layout
    have nonempty : layout ≠ .nil := by
      intro empty
      exact formula.text_ne_nil (sameText ▸ layout.text_eq_nil_iff.2 empty)
    obtain ⟨slots, assembledGroups, closed⟩ := Interpretation.exists_slots formula 0 resolves
    have decomposed : decomposeWithin limits.maxDepth formula.text =
        .ok ((layout.segments 0).orEmptyRun 0) :=
      (decomposeWithin_eq_ok_iff _ _ _).2 ⟨layout, sameText, sameDepth ▸ within, rfl⟩
    refine bind_eq_ok_iff.2 ⟨_, decomposed, bind_eq_ok_iff.2 ⟨slots, ?_, closed _⟩⟩
    rw [← assembledGroups, ← sameTokens, ← Layout.scopeTokens_of_ne_nil 0 nonempty]
    rfl

/-- What is parsed alternates. -/
theorem alternates_of_parse {interpretation : Interpretation α} (uniform : interpretation.Uniform)
    {limits : Limits} {whole : Text} {expression : Expression α}
    (parsed : parse interpretation limits whole = .ok expression) : expression.Alternates := by
  obtain ⟨formula, -, -, -, rfl⟩ := (parse_eq_ok_iff uniform _ _ _).1 parsed
  exact formula.alternates_expression _ _

end Expression

/-! ## The texts that are parsed in an environment -/

/-- Terms have their values in an environment wherever they stand. -/
theorem Environment.uniform_interpretation (environment : Environment ComplexFloat) :
    environment.interpretation.Uniform := resolve_eq_ok_of_resolve_eq_ok

/-- Parsing accepts the grammar and builds the tree of the derivation. It succeeds exactly on the
derivable texts that keep the limit and whose words can all be resolved; and then the values,
operators and groups, which alternate, are those of the one derivation of the text. -/
theorem Expression.parse_accepts_grammar (environment : Environment ComplexFloat) (limits : Limits)
    (whole : Text) :
    ((∃ expression, parse environment.interpretation limits whole = .ok expression) ↔
      ∃ formula : Formula, formula.text = whole ∧ formula.depth ≤ limits.maxDepth ∧
        ∀ word ∈ formula.words, ∀ offset, ∃ value, environment.resolve word offset = .ok value) ∧
    ∀ expression, parse environment.interpretation limits whole = .ok expression →
      expression.Alternates ∧
      ∀ formula : Formula, formula.text = whole → ∃ value : Text → ComplexFloat,
        (∀ word ∈ formula.words, ∀ offset, environment.resolve word offset = .ok (value word)) ∧
          expression = formula.expression .minusOne value := by
  have uniform : environment.interpretation.Uniform := environment.uniform_interpretation
  refine ⟨⟨?_, ?_⟩, ?_⟩
  · rintro ⟨expression, parsed⟩
    obtain ⟨formula, sameText, within, resolves, -⟩ := (parse_eq_ok_iff uniform _ _ _).1 parsed
    exact ⟨formula, sameText, within, fun word member offset => ⟨_, resolves word member offset⟩⟩
  · rintro ⟨formula, sameText, within, resolvable⟩
    refine ⟨_, (parse_eq_ok_iff uniform _ _ _).2 ⟨formula, sameText, within, ?_, rfl⟩⟩
    intro word member
    obtain ⟨value, resolved⟩ := resolvable word member 0
    have resolves : environment.interpretation.Resolves word value := uniform resolved
    rw [resolves.valueOf_eq]
    exact resolves
  · intro expression parsed
    obtain ⟨formula, sameText, -, resolves, rfl⟩ := (parse_eq_ok_iff uniform _ _ _).1 parsed
    refine ⟨formula.alternates_expression _ _, ?_⟩
    intro other otherText
    rw [Formula.text_injective (otherText.trans sameText.symm)]
    exact ⟨environment.interpretation.valueOf, resolves, rfl⟩

/-- The text `x-(x*i)` is parsed as soon as `x` is bound: the difference is a sum with a multiple of
`-1`, and the group is the last factor. -/
theorem Expression.parse_accepts_grammar_difference :
    ∃ expression : Expression ComplexFloat,
      parse ((∅ : Environment ComplexFloat).bind ['x'] .minusOne).interpretation {}
          ['x', '-', '(', 'x', '*', 'i', ')'] = .ok expression ∧
        expression.Alternates ∧
        expression = .leaf (.value .minusOne) (.leaf (.operator .plus) (.leaf (.value .minusOne)
          (.leaf (.operator .star) (.group () (.leaf (.value .minusOne) (.leaf (.operator .star)
            (.leaf (.value (.ofImaginary 1.0)) .nil))) .nil)))) := by
  refine ⟨_, rfl, ?_, rfl⟩
  exact ((parse_accepts_grammar (Environment.bind ∅ ['x'] .minusOne) {}
    ['x', '-', '(', 'x', '*', 'i', ')']).2 _ rfl).1

end ComplexReckoner
