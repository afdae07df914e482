import ComplexReckoner.Proofs.Names
import ComplexReckoner.Proofs.Reading

/-! # What is looked up

Evaluation reads an environment at few names: the words of the text that are alphabetic and not made
of the imaginary unit alone (`Text.LooksUp`). Environments that agree on these names give the same
result, be it a value or a fault.

The argument follows the stages. Assembly asks an interpretation for the terms among the tokens and
for nothing else (`Interpretation.assemble_congr`); every such term is a word of the text
(`Scanned.writes_of_mem_contents`); and a term is looked up only if it is such a name
(`Environment.resolve_congr`). -/

namespace ComplexReckoner

variable {α : Type}

/-! ## Words of a text -/

namespace Text

/-- Whether a word is written in a text: it is a maximal run of characters that are not
separators. -/
def Writes (text word : Text) : Prop :=
  word ≠ [] ∧ (∀ c ∈ word, c ∉ separators) ∧
    ∃ before after : Text, text = before ++ (word ++ after) ∧ before.EndsApart ∧ after.StartsApart

/-- Whether a name is looked up when a text is evaluated: it is written there as a word of
alphabetic characters, and could not be a number. -/
def LooksUp (text name : Text) : Prop :=
  text.Writes name ∧ (∀ c ∈ name, isAlphabetic c = true) ∧ ∃ c ∈ name, c ≠ 'i'

/-- A text that ends with a separator ends apart. -/
theorem endsApart_concat {c : Char} (separates : c ∈ separators) (start : Text) :
    EndsApart (start ++ [c]) := by
  intro d last
  rw [List.getLast?_concat] at last
  cases last
  exact separates

/-- A word is written where nothing else of it goes on. -/
theorem writes_word (word : Word) {after : Text} (starts : after.StartsApart) :
    Writes (word.text ++ after) word.text :=
  ⟨word.nonempty, word.plain, [], after, rfl, nofun, starts⟩

/-- What is written in a text is written behind more text, unless a word goes on at the seam. -/
theorem Writes.behind {before text word : Text} (seam : before.EndsApart ∨ text.StartsApart)
    (writes : text.Writes word) : Writes (before ++ text) word := by
  obtain ⟨nonempty, plain, start, after, rfl, ends, starts⟩ := writes
  refine ⟨nonempty, plain, before ++ start, after, by rw [List.append_assoc], ?_, starts⟩
  intro c last
  rcases List.eq_nil_or_concat start with rfl | ⟨init, d, rfl⟩
  · rw [List.append_nil] at last
    rcases seam with endsBefore | startsHere
    · exact endsBefore c last
    · -- the word itself would start with a separator
      obtain ⟨first, rest, rfl⟩ := List.exists_cons_of_ne_nil nonempty
      exact absurd (startsHere first rfl) (plain first List.mem_cons_self)
  · rw [List.concat_eq_append] at ends last
    rw [← List.append_assoc, List.getLast?_concat] at last
    exact ends c (by rw [List.getLast?_concat]; exact last)

/-- What is written in a text is written before more text that starts apart. -/
theorem Writes.before {text word after : Text} (apart : after.StartsApart)
    (writes : text.Writes word) : Writes (text ++ after) word := by
  obtain ⟨nonempty, plain, start, rest, rfl, ends, starts⟩ := writes
  refine ⟨nonempty, plain, start, rest ++ after, by simp only [List.append_assoc], ends, ?_⟩
  cases rest with
  | nil => exact apart
  | cons c rest => exact startsApart_cons (starts c rfl) (rest ++ after)

/-- What is written between parentheses is written in the text around them. -/
theorem Writes.inGroup {inner word : Text} (after : Text) (writes : inner.Writes word) :
    Writes ('(' :: (inner ++ ')' :: after)) word := by
  have inside : Writes (inner ++ ')' :: after) word :=
    writes.before (startsApart_cons (by decide) after)
  exact inside.behind (Or.inl (endsApart_concat (by decide) []))

/-- What is written after parentheses is written in the text with them. -/
theorem Writes.behindGroup {text word : Text} (inner : Text) (writes : text.Writes word) :
    Writes ('(' :: (inner ++ ')' :: text)) word := by
  have closed : EndsApart (('(' :: inner) ++ [')']) := endsApart_concat (by decide) ('(' :: inner)
  have behind : Writes (('(' :: inner) ++ [')'] ++ text) word := writes.behind (Or.inl closed)
  simpa using behind

end Text

/-! ## Terms among tokens -/

/-- The leaves of a sequence and of its groups, in reading order. -/
def Nested.contents {γ : Type} : Nested γ α → List α
  | .nil => []
  | .leaf content rest => content :: contents rest
  | .group _ inner rest => contents inner ++ contents rest

/-- Leaves in front come first. -/
@[simp] theorem Nested.contents_leaves {γ : Type} (list : List α) (rest : Nested γ α) :
    (Nested.leaves list rest).contents = list ++ rest.contents := by
  induction list with
  | nil => rfl
  | cons content list ih => rw [Nested.leaves_cons, Nested.contents, ih, List.cons_append]

/-- No token of a sign is a term. -/
theorem Sign.kind_ne_term {sign : Sign} {offset : Nat} {token : Token}
    (member : token ∈ sign.tokens offset) : token.kind ≠ .term := by
  obtain ⟨kind, among, rfl⟩ := List.mem_map.1 member
  have notTerm : TokenKind.term ∉ signMarks sign.char := by
    cases sign <;> decide
  rintro rfl
  exact notTerm among

namespace Scanned

variable {offset : Nat} {text : Text} {tokens : Nested Span Token}

/-- Where no term begins, no word goes on. -/
theorem startsApart (scanned : Scanned offset text tokens)
    (apart : beginsWithTerm tokens = false) : text.StartsApart := by
  cases scanned with
  | nil => exact Text.startsApart_nil
  | sign sign later => exact Text.startsApart_sign sign _
  | word word _ later => cases apart
  | emptyGroup later => exact Text.startsApart_cons (by decide) _
  | group nonempty within later => exact Text.startsApart_cons (by decide) _

/-- A term among the tokens of a text is empty, or a word of the text. -/
theorem writes_of_mem_contents (scanned : Scanned offset text tokens) {token : Token}
    (member : token ∈ tokens.contents) (isTerm : token.kind = .term) :
    token.literal = [] ∨ text.Writes token.literal := by
  -- each rule puts something in front of a scanned text, and no word goes on at any of these seams
  induction scanned with
  | nil offset => cases member
  | sign sign later ih =>
    rw [Nested.contents_leaves] at member
    rcases List.mem_append.1 member with ofSign | among
    · exact absurd isTerm (Sign.kind_ne_term ofSign)
    · have separates : sign.char ∈ separators := by cases sign <;> decide
      exact (ih among).imp_right (.behind (Or.inl (Text.endsApart_concat separates [])))
  | word word apart later ih =>
    have starts := later.startsApart apart
    rcases List.mem_cons.1 member with rfl | among
    · exact Or.inr (Text.writes_word word starts)
    · exact (ih among).imp_right (.behind (Or.inr starts))
  | emptyGroup later ih =>
    rcases List.mem_cons.1 member with rfl | among
    · exact Or.inl rfl
    · exact (ih among).imp_right (.behindGroup [])
  | group nonempty within later ihInner ihRest =>
    rcases List.mem_append.1 member with inside | among
    · exact (ihInner inside).imp_right (.inGroup _)
    · exact (ihRest among).imp_right (.behindGroup _)

end Scanned

/-- A term among the tokens of a text that is decomposed is empty, or a word of the text. -/
theorem writes_of_decomposeWithin {limit : Nat} {text : Text} {segments : Segments}
    (decomposed : decomposeWithin limit text = .ok segments) {token : Token}
    (member : token ∈ segments.tokens.contents) (isTerm : token.kind = .term) :
    token.literal = [] ∨ text.Writes token.literal := by
  rcases scanned_of_decomposeWithin decomposed with ⟨-, sole⟩ | ⟨-, scanned⟩
  · rw [sole] at member
    rw [List.mem_singleton.1 member]
    exact Or.inl rfl
  · exact scanned.writes_of_mem_contents member isTerm

/-! ## Two interpretations side by side -/

namespace Interpretation

variable {first second : Interpretation α}

/-- Terms are resolved alike when their tokens are. -/
theorem resolveSlots_congr {slots : List (Slot α)}
    (same : ∀ token, .token token ∈ slots → first.token token = second.token token) :
    first.resolveSlots slots = second.resolveSlots slots := by
  induction slots with
  | nil => rfl
  | cons slot rest ih =>
    have sameRest := ih fun token member => same token (List.mem_cons_of_mem _ member)
    cases slot with
    | token token => rw [resolveSlots, resolveSlots, same token List.mem_cons_self, sameRest]
    | group expression => rw [resolveSlots, resolveSlots, sameRest]

/-- A scope is closed alike when its tokens are resolved alike. -/
theorem closeScope_congr (scope : Span) {slots : List (Slot α)}
    (same : ∀ token, .token token ∈ slots → first.token token = second.token token) :
    first.closeScope scope slots = second.closeScope scope slots := by
  rw [closeScope, closeScope, resolveSlots_congr same]

/-- The tokens that are items of a scope are among its tokens. -/
theorem mem_contents_of_assembleGroups {tokens : Nested Span Token} {slots : List (Slot α)}
    (assembled : first.assembleGroups tokens = .ok slots) {token : Token}
    (member : .token token ∈ slots) : token ∈ tokens.contents := by
  induction tokens generalizing slots with
  | nil =>
    cases assembled
    cases member
  | leaf head later ih =>
    obtain ⟨rest, assembledLater, rfl⟩ := first.assembleGroups_leaf_eq_ok_iff.1 assembled
    rcases List.mem_cons.1 member with same | among
    · cases same
      exact List.mem_cons_self
    · exact List.mem_cons_of_mem _ (ih assembledLater among)
  | group span inner later ihInner ihLater =>
    obtain ⟨_, -, _, -, rest, assembledLater, rfl⟩ :=
      first.assembleGroups_group_eq_ok_iff.1 assembled
    rcases List.mem_cons.1 member with same | among
    · cases same
    · exact List.mem_append_right _ (ihLater assembledLater among)

/-- Groups are assembled alike when all tokens are resolved alike. -/
theorem assembleGroups_congr {tokens : Nested Span Token}
    (same : ∀ token ∈ tokens.contents, first.token token = second.token token) :
    first.assembleGroups tokens = second.assembleGroups tokens := by
  induction tokens with
  | nil => rfl
  | leaf head later ih =>
    have sameLater := ih fun token member => same token (List.mem_cons_of_mem _ member)
    rw [assembleGroups, assembleGroups, sameLater]
  | group span inner later ihInner ihLater =>
    have sameInner := ihInner fun token member => same token (List.mem_append_left _ member)
    have sameLater := ihLater fun token member => same token (List.mem_append_right _ member)
    rw [assembleGroups, assembleGroups, sameInner, sameLater]
    -- what is left is the scope of the group, whose tokens are among those of the group
    cases assembled : second.assembleGroups inner with
    | error fault => rfl
    | ok slots =>
      have closed : first.closeScope span slots = second.closeScope span slots := by
        refine closeScope_congr span fun token member => same token ?_
        exact List.mem_append_left _ (mem_contents_of_assembleGroups assembled member)
      show first.closeScope span slots >>= _ = second.closeScope span slots >>= _
      rw [closed]

/-- A text is assembled alike when all its tokens are resolved alike. -/
theorem assemble_congr (scope : Span) {tokens : Nested Span Token}
    (same : ∀ token ∈ tokens.contents, first.token token = second.token token) :
    first.assemble scope tokens = second.assemble scope tokens := by
  rw [assemble, assemble, assembleGroups_congr same]
  cases assembled : second.assembleGroups tokens with
  | error fault => rfl
  | ok slots =>
    exact closeScope_congr scope fun token member =>
      same token (mem_contents_of_assembleGroups assembled member)

end Interpretation

/-! ## Environments that agree -/

namespace Environment

/-- Whether two environments agree on the names that are looked up in a text: these are bound to the
same value or not at all. -/
def AgreeOn (first second : Environment α) (text : Text) : Prop :=
  ∀ name, text.LooksUp name → first.get? name = second.get? name

/-- A binding of a name that is not looked up makes no difference. -/
theorem agreeOn_bind (environment : Environment α) {name text : Text} (value : α)
    (unread : ¬ text.LooksUp name) : (environment.bind name value).AgreeOn environment text := by
  intro other reads
  have different : other ≠ name := by
    rintro rfl
    exact unread reads
  exact environment.get?_bind_of_ne value different

/-- A term is resolved alike when it is looked up alike, if it is at all. -/
theorem resolve_congr {first second : Environment ComplexFloat} {term : Text}
    (same : (∀ c ∈ term, isAlphabetic c = true) → (∃ c ∈ term, c ≠ 'i') →
      first.get? term = second.get? term) (offset : Nat) :
    first.resolve term offset = second.resolve term offset := by
  rcases term_cases term with numeric | ⟨breaks, alphabetic | neither⟩
  · rw [resolve_of_numeric first offset numeric, resolve_of_numeric second offset numeric]
  · -- a character that is not numeric is not the imaginary unit
    have other : ∃ c ∈ term, c ≠ 'i' := by
      obtain ⟨c, member, breaking⟩ := breaks
      refine ⟨c, member, ?_⟩
      rintro rfl
      cases breaking
    rw [resolve_of_alphabetic first offset breaks alphabetic,
      resolve_of_alphabetic second offset breaks alphabetic, lookUp, lookUp, same alphabetic other]
  · -- a character is to blame, whatever is bound
    obtain ⟨found, breaking⟩ := exists_first?_of_breaks offset breaks
    rw [← List.all_eq_true] at neither
    rw [resolve, resolve, breaking]
    simp only [if_neg neither]

end Environment

section Evaluation

variable {first second : Environment ComplexFloat} {limits : Limits}

/-- A text is parsed alike in environments that agree on it. -/
theorem Expression.parse_congr {whole : Text} (agree : first.AgreeOn second whole) :
    parse first.interpretation limits whole = parse second.interpretation limits whole := by
  rw [parse, parse]
  cases decomposed : decomposeWithin limits.maxDepth whole with
  | error fault => rfl
  | ok segments =>
    refine Interpretation.assemble_congr _ ?_
    rintro ⟨kind, literal, offset⟩ member
    -- signs mean the same in every environment
    cases kind with
    | plus => rfl
    | star => rfl
    | negativeOne => rfl
    | term =>
      have resolved : first.resolve literal offset = second.resolve literal offset := by
        refine Environment.resolve_congr (fun alphabetic other => ?_) offset
        rcases writes_of_decomposeWithin decomposed member rfl with empty | writes
        · -- an empty term has no character at all
          obtain ⟨c, among, -⟩ := other
          rw [show literal = [] from empty] at among
          cases among
        · exact agree literal ⟨writes, alphabetic, other⟩
      exact congrArg (Except.map Term.value) resolved

/-- A text is evaluated alike in environments that agree on it. -/
theorem evaluate_congr {text : Text} (agree : first.AgreeOn second text.compact) :
    evaluate first limits text = evaluate second limits text := by
  rw [evaluate, evaluate, Expression.parse_congr agree]

/-! ## Extensions of an environment -/

/-- The expression of a derivation depends on the values of its words only. -/
theorem Formula.expression_congr (minusOne : α) {value other : Text → α} {formula : Formula}
    (same : ∀ word ∈ formula.words, value word = other word) :
    formula.expression minusOne value = formula.expression minusOne other := by
  induction formula with
  | word content => rw [expression, expression, same content.text List.mem_cons_self]
  | group inner ih => rw [expression, expression, ih same]
  | wordThen content sign rest ih =>
    have sameRest := ih fun word member => same word (List.mem_cons_of_mem _ member)
    rw [expression, expression, same content.text List.mem_cons_self, sameRest]
  | groupThen inner sign rest ihInner ihRest =>
    have sameInner := ihInner fun word member => same word (List.mem_append_left _ member)
    have sameRest := ihRest fun word member => same word (List.mem_append_right _ member)
    rw [expression, expression, sameInner, sameRest]

/-- What a term resolves to is kept in an extension of the environment. -/
theorem Environment.resolve_of_extends
    (larger : ∀ name value, first.get? name = some value → second.get? name = some value)
    {term : Text} {offset : Nat} {value : ComplexFloat}
    (resolved : first.resolve term offset = .ok value) :
    second.resolve term offset = .ok value := by
  rw [resolve_eq_ok_iff] at resolved ⊢
  rcases resolved with number | ⟨breaks, alphabetic, bound⟩
  · exact Or.inl number
  · exact Or.inr ⟨breaks, alphabetic, larger term value bound⟩

/-- What is parsed is kept in an extension of the environment. -/
theorem Expression.parse_of_extends
    (larger : ∀ name value, first.get? name = some value → second.get? name = some value)
    {whole : Text} {expression : Expression ComplexFloat}
    (parsed : parse first.interpretation limits whole = .ok expression) :
    parse second.interpretation limits whole = .ok expression := by
  -- the derivation does not depend on the environment, and its words keep their values
  obtain ⟨formula, written, within, resolves, rfl⟩ :=
    (parse_eq_ok_iff first.uniform_interpretation _ _ _).1 parsed
  have kept : ∀ word ∈ formula.words,
      second.interpretation.Resolves word (first.interpretation.valueOf word) :=
    fun word member offset => Environment.resolve_of_extends larger (resolves word member offset)
  have same : ∀ word ∈ formula.words,
      first.interpretation.valueOf word = second.interpretation.valueOf word :=
    fun word member => (kept word member).valueOf_eq.symm
  refine (parse_eq_ok_iff second.uniform_interpretation _ _ _).2
    ⟨formula, written, within, ?_, formula.expression_congr _ same⟩
  intro word member
  rw [← same word member]
  exact kept word member

end Evaluation

/-- Evaluation reads only the names that are written in a text.

Environments that agree on the names that are looked up in the compacted text give the same result.
So a binding of a name that is empty, or made of the letter `i` alone, or not alphabetic changes no
evaluation; and a text with a value has the same value in every extension of the environment. -/
theorem evaluation_reads_written_names :
    (∀ (first second : Environment ComplexFloat) (limits : Limits) (text : Text),
      (∀ name, text.compact.Writes name → (∀ c ∈ name, isAlphabetic c = true) →
        (∃ c ∈ name, c ≠ 'i') → first.get? name = second.get? name) →
      evaluate first limits text = evaluate second limits text) ∧
    (∀ (environment : Environment ComplexFloat) (name : Text) (value : ComplexFloat),
      (name = [] ∨ (∀ c ∈ name, c = 'i') ∨ ∃ c ∈ name, isAlphabetic c = false) →
      ∀ (limits : Limits) (text : Text),
        evaluate (environment.bind name value) limits text = evaluate environment limits text) ∧
    ∀ (environment extension : Environment ComplexFloat) (limits : Limits) (text : Text)
      (value : ComplexFloat),
      (∀ name held, environment.get? name = some held → extension.get? name = some held) →
      evaluate environment limits text = .ok value →
        evaluate extension limits text = .ok value := by
  refine ⟨?_, ?_, ?_⟩
  · intro first second limits text same
    exact evaluate_congr fun name ⟨writes, alphabetic, other⟩ => same name writes alphabetic other
  · intro environment name value odd limits text
    refine evaluate_congr (environment.agreeOn_bind value ?_)
    -- a name that is looked up is not empty, is alphabetic and has another character than `i`
    rintro ⟨⟨nonempty, -⟩, alphabetic, other⟩
    rcases odd with empty | units | ⟨c, member, foreign⟩
    · exact nonempty empty
    · obtain ⟨c, member, different⟩ := other
      exact different (units c member)
    · rw [alphabetic c member] at foreign
      cases foreign
  · intro environment extension limits text value larger evaluated
    obtain ⟨expression, parsed, settled⟩ := bind_eq_ok_iff.1 evaluated
    exact bind_eq_ok_iff.2 ⟨expression, Expression.parse_of_extends larger parsed, settled⟩

/-- The name `z` is not read in `i*xz`, where it is part of another word; the name `i` is never
read; and `x` keeps its value when `y` is bound too. -/
theorem evaluation_reads_written_names_parts :
    evaluate (.bind ∅ ['z'] .minusOne) {} ['i', '*', 'x', 'z'] =
        .error (.undefinedVariable ['x', 'z'] ⟨2, 2⟩) ∧
      evaluate (.bind ∅ ['i'] .minusOne) {} ['i'] = .ok (.ofImaginary 1.0) ∧
      evaluate (.bind (.bind ∅ ['x'] .minusOne) ['y'] (.ofImaginary 1.0)) {} ['x'] =
        .ok .minusOne := by
  obtain ⟨agreeing, odd, extended⟩ := evaluation_reads_written_names
  refine ⟨?_, ?_, ?_⟩
  · refine (agreeing _ ∅ {} ['i', '*', 'x', 'z'] ?_).trans rfl
    intro name writes _ _
    refine Environment.get?_bind_of_ne ∅ _ ?_
    rintro rfl
    -- before the `z` stands the `x` of the same word
    obtain ⟨-, -, before, after, split, ends, -⟩ := writes
    have compacted : Text.compact ['i', '*', 'x', 'z'] = ['i', '*', 'x', 'z'] := by decide
    rw [compacted] at split
    rcases before with _ | ⟨a, _ | ⟨b, _ | ⟨c, rest⟩⟩⟩ <;> simp at split
    obtain ⟨-, -, rfl, split⟩ := split
    cases rest with
    | nil => exact absurd (ends 'x' rfl) (by decide)
    | cons d rest => simp at split
  · exact (odd ∅ ['i'] .minusOne (Or.inr (Or.inl (by simp))) {} ['i']).trans rfl
  · refine extended (.bind ∅ ['x'] .minusOne) _ {} ['x'] .minusOne ?_ rfl
    intro name held bound
    rw [Environment.get?_bind_of_ne _ _ ?_, bound]
    rintro rfl
    rw [Environment.get?_bind_of_ne _ _ (by decide)] at bound
    cases bound

end ComplexReckoner
