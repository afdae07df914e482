import ComplexReckoner.Expression
import ComplexReckoner.Proofs.Scan

/-! # The grammar of expressions

An expression is a sequence of atoms with a sign between any two of them, and an atom is a word or
an expression in parentheses:

    Expr ::= Atom (Sign Atom)*
    Atom ::= Word | '(' Expr ')'

A `Formula` is a derivation of this grammar. It has a text, and a text has at most one derivation
(`Formula.text_injective`). An expression is read off a derivation once its words have values; in
each scope its values and groups alternate with operators (`Formula.alternates_expression`). -/

namespace ComplexReckoner

variable {α : Type}

/-- The derivations of the grammar. -/
inductive Formula where
  /-- A word alone. -/
  | word (content : Word)
  /-- A formula in parentheses alone. -/
  | group (inner : Formula)
  /-- A word, a sign and what follows. -/
  | wordThen (content : Word) (sign : Sign) (rest : Formula)
  /-- A formula in parentheses, a sign and what follows. -/
  | groupThen (inner : Formula) (sign : Sign) (rest : Formula)

/-- The terms of a sign: a difference is the sum with a multiple of the factor `-1`. -/
def Sign.terms (minusOne : α) : Sign → List (Term α)
  | plus => [.operator .plus]
  | minus => [.operator .plus, .value minusOne, .operator .star]
  | times => [.operator .star]

namespace Formula

/-- The text that is derived. -/
def text : Formula → Text
  | .word content => content.text
  | .group inner => '(' :: (inner.text ++ [')'])
  | .wordThen content sign rest => content.text ++ sign.char :: rest.text
  | .groupThen inner sign rest => '(' :: (inner.text ++ ')' :: sign.char :: rest.text)

/-- How many parentheses lie within each other. -/
def depth : Formula → Nat
  | .word _ => 0
  | .group inner => inner.depth + 1
  | .wordThen _ _ rest => rest.depth
  | .groupThen inner _ rest => max (inner.depth + 1) rest.depth

/-- The words that occur, in reading order. -/
def words : Formula → List Text
  | .word content => [content.text]
  | .group inner => inner.words
  | .wordThen content _ rest => content.text :: rest.words
  | .groupThen inner _ rest => inner.words ++ rest.words

/-- The expression that is read off a derivation, given the values of words. -/
def expression (minusOne : α) (value : Text → α) : Formula → Expression α
  | .word content => .leaf (.value (value content.text)) .nil
  | .group inner => .group () (inner.expression minusOne value) .nil
  | .wordThen content sign rest =>
      .leaf (.value (value content.text))
        (.leaves (sign.terms minusOne) (rest.expression minusOne value))
  | .groupThen inner sign rest =>
      .group () (inner.expression minusOne value)
        (.leaves (sign.terms minusOne) (rest.expression minusOne value))

/-- The tokens of a derivation whose text stands at an offset. -/
def tokens (offset : Nat) : Formula → Nested Span Token
  | .word content => .leaf ⟨.term, content.text, offset⟩ .nil
  | .group inner => .group ⟨offset, inner.text.byteSize + 2⟩ (inner.tokens (offset + 1)) .nil
  | .wordThen content sign rest =>
      let next := offset + content.text.byteSize
      .leaf ⟨.term, content.text, offset⟩ (.leaves (sign.tokens next) (rest.tokens (next + 1)))
  | .groupThen inner sign rest =>
      let next := offset + inner.text.byteSize + 2
      .group ⟨offset, inner.text.byteSize + 2⟩ (inner.tokens (offset + 1))
        (.leaves (sign.tokens next) (rest.tokens (next + 1)))

/-! ## The layout of a derivation -/

/-- A derived text is not empty. -/
theorem text_ne_nil (formula : Formula) : formula.text ≠ [] := by
  cases formula with
  | word content => exact content.nonempty
  | group inner => exact List.cons_ne_nil _ _
  | wordThen content sign rest =>
    intro empty
    exact content.nonempty (List.append_eq_nil_iff.1 empty).1
  | groupThen inner sign rest => exact List.cons_ne_nil _ _

end Formula

/-- A character that is not a separator is not a parenthesis. -/
def PlainChar.ofPlain (c : Char) (plain : c ∉ separators) : PlainChar :=
  ⟨c, fun opens => plain (opens ▸ by decide), fun closes => plain (closes ▸ by decide)⟩

/-- The character of a sign is not a parenthesis. -/
def Sign.plainChar (sign : Sign) : PlainChar := ⟨sign.char, by cases sign <;> decide⟩

namespace Layout

/-- A word can stand before a layout that does not begin with a word, and is one token there. -/
theorem exists_word_before (word : Word) (rest : Layout)
    (apart : ∀ offset, beginsWithTerm (rest.tokens offset) = false) :
    ∃ layout : Layout, layout.text = word.text ++ rest.text ∧ layout.depth = rest.depth ∧
      ∀ offset, layout.tokens offset =
        .leaf ⟨.term, word.text, offset⟩ (rest.tokens (offset + word.text.byteSize)) := by
  obtain ⟨text, nonempty, plain⟩ := word
  -- the last character of the word begins the term, and each one before it joins the term
  induction text with
  | nil => exact absurd rfl nonempty
  | cons c later ih =>
    have plainHere : c ∉ separators := plain c List.mem_cons_self
    have plainLater : ∀ d ∈ later, d ∉ separators := fun d member =>
      plain d (List.mem_cons_of_mem c member)
    by_cases last : later = []
    · subst last
      refine ⟨.leaf (.ofPlain c plainHere) rest, rfl, rfl, fun offset => ?_⟩
      rw [tokens_leaf]
      exact frontChar_of_not_term plainHere offset (apart _)
    · obtain ⟨layout, sameText, sameDepth, sameTokens⟩ := ih last plainLater
      refine ⟨.leaf (.ofPlain c plainHere) layout, congrArg (c :: ·) sameText, sameDepth,
        fun offset => ?_⟩
      rw [tokens_leaf, sameTokens, Text.byteSize_cons, ← Nat.add_assoc]
      exact frontChar_term plainHere offset _ _ _

/-- A sign can stand before any layout, and gives its tokens there. -/
theorem tokens_sign (sign : Sign) (rest : Layout) (offset : Nat) :
    tokens offset (.leaf sign.plainChar rest) =
      .leaves (sign.tokens offset) (tokens (offset + 1) rest) := by
  have shown : sign.plainChar.val = sign.char := rfl
  rw [tokens_leaf, shown, Sign.utf8Size_char, frontChar_sign]

/-- No term begins with a sign. -/
theorem beginsWithTerm_sign (sign : Sign) (rest : Layout) (offset : Nat) :
    beginsWithTerm (tokens offset (.leaf sign.plainChar rest)) = false := by
  rw [tokens_sign]
  cases sign <;> rfl

end Layout

namespace Formula

/-- A derivation has a layout with the same text, depth and tokens. -/
theorem exists_layout (formula : Formula) :
    ∃ layout : Layout, layout.text = formula.text ∧ layout.depth = formula.depth ∧
      ∀ offset, layout.tokens offset = formula.tokens offset := by
  induction formula with
  | word content =>
    obtain ⟨layout, sameText, sameDepth, sameTokens⟩ :=
      Layout.exists_word_before content .nil (fun _ => rfl)
    rw [Layout.text_nil, List.append_nil] at sameText
    exact ⟨layout, sameText, sameDepth, sameTokens⟩
  | group inner ih =>
    obtain ⟨layout, sameText, sameDepth, sameTokens⟩ := ih
    have nonempty : layout ≠ .nil := by
      intro empty
      exact inner.text_ne_nil (sameText ▸ layout.text_eq_nil_iff.2 empty)
    refine ⟨.group () layout .nil, ?_, ?_, fun offset => ?_⟩
    · rw [Layout.text_group, Layout.text_nil, sameText, text]
    · rw [Layout.depth, Layout.depth, sameDepth, depth, Nat.max_zero]
    · rw [Layout.tokens_group, Layout.scopeTokens_of_ne_nil _ nonempty, sameTokens, sameText,
        Layout.tokens_nil, tokens]
  | wordThen content sign rest ih =>
    obtain ⟨layout, sameText, sameDepth, sameTokens⟩ := ih
    obtain ⟨whole, wholeText, wholeDepth, wholeTokens⟩ :=
      Layout.exists_word_before content (.leaf sign.plainChar layout)
        (Layout.beginsWithTerm_sign sign layout)
    refine ⟨whole, ?_, ?_, fun offset => ?_⟩
    · rw [wholeText, Layout.text_leaf, sameText, text]
      rfl
    · rw [wholeDepth, Layout.depth, sameDepth, depth]
    · rw [wholeTokens, Layout.tokens_sign, sameTokens, tokens]
  | groupThen inner sign rest ihInner ihRest =>
    obtain ⟨innerLayout, innerText, innerDepth, innerTokens⟩ := ihInner
    obtain ⟨layout, sameText, sameDepth, sameTokens⟩ := ihRest
    have nonempty : innerLayout ≠ .nil := by
      intro empty
      exact inner.text_ne_nil (innerText ▸ innerLayout.text_eq_nil_iff.2 empty)
    refine ⟨.group () innerLayout (.leaf sign.plainChar layout), ?_, ?_, fun offset => ?_⟩
    · rw [Layout.text_group, Layout.text_leaf, innerText, sameText, text]
      rfl
    · rw [Layout.depth, Layout.depth, innerDepth, sameDepth, depth]
    · rw [Layout.tokens_group, Layout.scopeTokens_of_ne_nil _ nonempty, innerTokens, innerText,
        Layout.tokens_sign, sameTokens, tokens]

/-- The sign at the beginning of a scope can be read off its tokens. -/
theorem leaves_sign_inj {first second : Sign} {offset : Nat} {rest other : Nested Span Token}
    (same : Nested.leaves (first.tokens offset) rest = .leaves (second.tokens offset) other) :
    first = second ∧ rest = other := by
  cases first <;> cases second <;> cases same <;> exact ⟨rfl, rfl⟩

/-- No scope with a sign is empty. -/
theorem leaves_sign_ne_nil (sign : Sign) (offset : Nat) (rest : Nested Span Token) :
    Nested.leaves (sign.tokens offset) rest ≠ .nil := by
  cases sign <;> exact nofun

/-- Different derivations have different tokens. -/
theorem tokens_injective {first second : Formula} (offset : Nat)
    (same : first.tokens offset = second.tokens offset) : first = second := by
  -- the first token tells words from groups, and the next one whether the derivation goes on
  induction first generalizing second offset with
  | word content =>
    cases second with
    | word other =>
      rw [tokens, tokens, Nested.leaf.injEq, Token.mk.injEq] at same
      rw [Word.ext same.1.2.1]
    | group inner => cases same
    | wordThen other sign rest =>
      rw [tokens, tokens, Nested.leaf.injEq] at same
      exact absurd same.2.symm (leaves_sign_ne_nil _ _ _)
    | groupThen inner sign rest => cases same
  | group inner ih =>
    cases second with
    | word other => cases same
    | group otherInner =>
      rw [tokens, tokens, Nested.group.injEq] at same
      rw [ih _ same.2.1]
    | wordThen other sign rest => cases same
    | groupThen otherInner sign rest =>
      rw [tokens, tokens, Nested.group.injEq] at same
      exact absurd same.2.2.symm (leaves_sign_ne_nil _ _ _)
  | wordThen content sign rest ih =>
    cases second with
    | word other =>
      rw [tokens, tokens, Nested.leaf.injEq] at same
      exact absurd same.2 (leaves_sign_ne_nil _ _ _)
    | group inner => cases same
    | wordThen other otherSign otherRest =>
      rw [tokens, tokens, Nested.leaf.injEq, Token.mk.injEq] at same
      obtain ⟨⟨-, sameText, -⟩, sameLater⟩ := same
      -- the words are equally long, so what follows stands at the same offset
      rw [sameText] at sameLater
      obtain ⟨sameSign, sameRest⟩ := leaves_sign_inj sameLater
      rw [Word.ext sameText, sameSign, ih _ sameRest]
    | groupThen inner otherSign otherRest => cases same
  | groupThen inner sign rest ihInner ihRest =>
    cases second with
    | word other => cases same
    | group otherInner =>
      rw [tokens, tokens, Nested.group.injEq] at same
      exact absurd same.2.2 (leaves_sign_ne_nil _ _ _)
    | wordThen other otherSign otherRest => cases same
    | groupThen otherInner otherSign otherRest =>
      rw [tokens, tokens, Nested.group.injEq] at same
      obtain ⟨-, sameInner, sameLater⟩ := same
      have inners := ihInner _ sameInner
      subst inners
      obtain ⟨sameSign, sameRest⟩ := leaves_sign_inj sameLater
      rw [sameSign, ihRest _ sameRest]

/-- A text has at most one derivation. -/
theorem text_injective {first second : Formula} (same : first.text = second.text) :
    first = second := by
  obtain ⟨layout, layoutText, -, layoutTokens⟩ := first.exists_layout
  obtain ⟨other, otherText, -, otherTokens⟩ := second.exists_layout
  have sameLayout : layout = other := Layout.text_injective (by rw [layoutText, otherText, same])
  refine tokens_injective 0 ?_
  rw [← layoutTokens, ← otherTokens, sameLayout]

end Formula

/-! ## The expression of a derivation -/

namespace Expression

/-- Whether the values and groups of every scope alternate with operators, and come first and
last. -/
inductive Alternates : Expression α → Prop where
  /-- A value alone. -/
  | value (value : α) : Alternates (.leaf (.value value) .nil)
  /-- A group alone. -/
  | group {inner : Expression α} (within : Alternates inner) : Alternates (.group () inner .nil)
  /-- A value, an operator and what follows. -/
  | valueThen (value : α) (operator : Operator) {rest : Expression α} (later : Alternates rest) :
      Alternates (.leaf (.value value) (.leaf (.operator operator) rest))
  /-- A group, an operator and what follows. -/
  | groupThen {inner rest : Expression α} (within : Alternates inner) (operator : Operator)
      (later : Alternates rest) :
      Alternates (.group () inner (.leaf (.operator operator) rest))

/-- A value before a sign keeps the alternation. -/
theorem Alternates.valueSign (minusOne value : α) (sign : Sign) {rest : Expression α}
    (later : Alternates rest) :
    Alternates (.leaf (.value value) (.leaves (sign.terms minusOne) rest)) := by
  cases sign with
  | plus => exact .valueThen value .plus later
  | minus => exact .valueThen value .plus (.valueThen minusOne .star later)
  | times => exact .valueThen value .star later

/-- A group before a sign keeps the alternation. -/
theorem Alternates.groupSign (minusOne : α) {inner : Expression α} (within : Alternates inner)
    (sign : Sign) {rest : Expression α} (later : Alternates rest) :
    Alternates (.group () inner (.leaves (sign.terms minusOne) rest)) := by
  cases sign with
  | plus => exact .groupThen within .plus later
  | minus => exact .groupThen within .plus (.valueThen minusOne .star later)
  | times => exact .groupThen within .star later

end Expression

/-- The expression of a derivation alternates. -/
theorem Formula.alternates_expression (minusOne : α) (value : Text → α) (formula : Formula) :
    (formula.expression minusOne value).Alternates := by
  induction formula with
  | word content => exact .value _
  | group inner ih => exact .group ih
  | wordThen content sign rest ih => exact .valueSign minusOne _ sign ih
  | groupThen inner sign rest ihInner ihRest => exact .groupSign minusOne ihInner sign ihRest

end ComplexReckoner
