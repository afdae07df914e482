import ComplexReckoner.Proofs.Precedence
import ComplexReckoner.Proofs.Statements

/-! # What faults point at

Every fault of a text has a span, and the span marks the stretch of the text that the fault is
about: the name that is not bound, the character that is not accepted, the operator that is out of
place, the group that lies too deep.

`Fault.Describes` says what the marked stretch has to be, and `Fault.PointsInto` that a fault marks
such a stretch of a part of the text. Offsets are handed down to the parts (`Holds`), so the proof
goes along what is scanned: the tokens of a scope stand in its text (`Token.Placed`), a fault of a
scope points into its text (`pointsInto_of_closeScope`), and then into every text around it. -/

namespace ComplexReckoner

/-! ## Parts of a text -/

/-- Whether a text that stands at an offset holds a part that stands at `place`. -/
def Holds (offset : Nat) (text : Text) (place : Nat) (part : Text) : Prop :=
  ∃ before after, text = before ++ (part ++ after) ∧ place = offset + before.byteSize

/-- What a part marks is marked in the text that holds it. -/
theorem Holds.marks {offset place : Nat} {text part marked : Text} {span : Span}
    (holds : Holds offset text place part) (marks : span.Marks place part marked) :
    span.Marks offset text marked := by
  obtain ⟨before, after, rfl, rfl⟩ := holds
  exact (marks.append_right after).append_left before

/-- A part of a part is a part. -/
theorem Holds.trans {offset place within : Nat} {text part inner : Text}
    (holds : Holds offset text place part) (further : Holds place part within inner) :
    Holds offset text within inner := by
  obtain ⟨before, after, rfl, rfl⟩ := holds
  obtain ⟨between, behind, rfl, rfl⟩ := further
  refine ⟨before ++ between, behind ++ after, by simp only [List.append_assoc], ?_⟩
  rw [Text.byteSize_append, Nat.add_assoc]

/-- A text holds what comes after its beginning. -/
theorem holds_behind (offset : Nat) (before text : Text) :
    Holds offset (before ++ text) (offset + before.byteSize) text :=
  ⟨before, [], by rw [List.append_nil], rfl⟩

/-- A text holds what comes after a sign. -/
theorem holds_behind_sign (offset : Nat) (sign : Sign) (text : Text) :
    Holds offset (sign.char :: text) (offset + 1) text :=
  ⟨[sign.char], [], by simp, by simp⟩

/-- A text holds what comes after a group. -/
theorem holds_behind_group (offset : Nat) (inner text : Text) :
    Holds offset ('(' :: (inner ++ ')' :: text)) (offset + inner.byteSize + 2) text := by
  refine ⟨'(' :: (inner ++ [')']), [], by simp, ?_⟩
  rw [Layout.byteSize_parenthesised, Text.byteSize_nil, Nat.add_zero, Nat.add_assoc]

/-- A text holds what is within a group. -/
theorem holds_group (offset : Nat) (inner text : Text) :
    Holds offset ('(' :: (inner ++ ')' :: text)) (offset + 1) inner :=
  ⟨['('], ')' :: text, by simp, rfl⟩

/-- The span of a group marks it with its parentheses. -/
theorem marks_group (offset : Nat) (inner text : Text) :
    Span.Marks ⟨offset, inner.byteSize + 2⟩ offset ('(' :: (inner ++ ')' :: text))
      ('(' :: (inner ++ [')'])) := by
  refine ⟨[], text, by simp, ?_⟩
  rw [Span.ofText, Layout.byteSize_parenthesised]
  rfl

/-! ## What a fault is about -/

/-- Whether a fault of the text `whole` is about its stretch `marked`. -/
def Fault.Describes (fault : Fault) (environment : Environment ComplexFloat)
    (whole marked : Text) : Prop :=
  match fault with
  | .malformedParentheses _ _ => marked = whole ∨ marked = [')']
  | .invalidSymbol symbol term _ => marked = [symbol] ∧ symbol ∈ term ∧ symbol ∉ separators
  | .invalidLiteral literal _ _ => marked = literal
  | .malformedExpression shape _ =>
      shape.blamesOperator = true → ∃ sign : Sign, marked = [sign.char]
  | .undefinedVariable name _ =>
      marked = name ∧ name ≠ [] ∧ (∀ c ∈ name, isAlphabetic c = true) ∧ (∃ c ∈ name, c ≠ 'i') ∧
        environment.get? name = none
  | .nestingTooDeep _ _ => ∃ layout : Layout, marked = '(' :: (layout.text ++ [')'])
  | .irreducible _ => False

/-- Whether a fault of the text `whole` marks what it is about, in a part of that text that stands
at an offset. Only in an empty text nothing is marked. -/
def Fault.PointsInto (fault : Fault) (environment : Environment ComplexFloat) (whole : Text)
    (offset : Nat) (text : Text) : Prop :=
  ∃ span marked, fault.span? = some span ∧ span.Marks offset text marked ∧
    (marked = [] → whole = []) ∧ fault.Describes environment whole marked

section Parts

variable {environment : Environment ComplexFloat} {whole : Text} {offset place : Nat}
  {text part : Text} {fault : Fault}

/-- A fault that points into a part points into the text that holds it. -/
theorem Fault.PointsInto.widen (holds : Holds offset text place part)
    (points : fault.PointsInto environment whole place part) :
    fault.PointsInto environment whole offset text := by
  obtain ⟨span, marked, found, marks, described⟩ := points
  exact ⟨span, marked, found, holds.marks marks, described⟩

/-! ## Where tokens stand -/

/-- Whether a token stands in a text at an offset: a term is a word of the text, and any other token
is a sign of it. -/
structure Token.Placed (token : Token) (offset : Nat) (text : Text) : Prop where
  /-- The token was read from the text. -/
  holds : Holds offset text token.offset token.literal
  /-- The token is not empty. -/
  occupied : token.literal ≠ []
  /-- No sign and no parenthesis is in a term. -/
  plain : token.kind = .term → ∀ c ∈ token.literal, c ∉ separators
  /-- Any other token is a sign. -/
  sign : token.kind ≠ .term → ∃ sign : Sign, token.literal = [sign.char]

/-- A token that stands in a part stands in the text that holds it. -/
theorem Token.Placed.widen {token : Token} (holds : Holds offset text place part)
    (placed : token.Placed place part) : token.Placed offset text :=
  { placed with holds := holds.trans placed.holds }

/-- The tokens of a sign stand where the sign does. -/
theorem placed_of_mem_tokens {sign : Sign} {token : Token} (member : token ∈ sign.tokens offset) :
    token.Placed offset (sign.char :: text) := by
  obtain ⟨kind, among, rfl⟩ := List.mem_map.1 member
  have notTerm : TokenKind.term ∉ signMarks sign.char := by
    cases sign <;> decide
  refine ⟨⟨[], text, rfl, rfl⟩, List.cons_ne_nil _ _, ?_, fun _ => ⟨sign, rfl⟩⟩
  intro isTerm
  have same : kind = .term := isTerm
  exact absurd (same ▸ among) notTerm

/-- The term of a word stands where the word does. -/
theorem placed_word (word : Word) :
    Token.Placed ⟨.term, word.text, offset⟩ offset (word.text ++ text) where
  holds := ⟨[], text, rfl, rfl⟩
  occupied := word.nonempty
  plain := fun _ => word.plain
  sign := fun other => absurd rfl other

/-- The tokens among the items of a scope stand in its text. -/
theorem placed_of_assembleGroups {tokens : Nested Span Token} (scanned : Scanned offset text tokens)
    {slots : List (Slot ComplexFloat)} {token : Token}
    (assembled : environment.interpretation.assembleGroups tokens = .ok slots)
    (member : .token token ∈ slots) : token.Placed offset text := by
  induction scanned generalizing slots with
  | nil offset =>
    cases assembled
    cases member
  | sign sign later ih =>
    obtain ⟨rest, assembledRest, rfl⟩ :=
      (Interpretation.assembleGroups_leaves_eq_ok_iff _).1 assembled
    rcases List.mem_append.1 member with here | there
    · obtain ⟨other, among, same⟩ := List.mem_map.1 here
      cases same
      exact placed_of_mem_tokens among
    · exact (ih assembledRest there).widen (holds_behind_sign _ sign _)
  | word word apart later ih =>
    obtain ⟨rest, assembledRest, rfl⟩ :=
      (Interpretation.assembleGroups_leaf_eq_ok_iff _).1 assembled
    rcases List.mem_cons.1 member with same | there
    · cases same
      exact placed_word word
    · exact (ih assembledRest there).widen (holds_behind _ word.text _)
  | emptyGroup later ih =>
    obtain ⟨_, -, _, -, rest, assembledRest, rfl⟩ :=
      (Interpretation.assembleGroups_group_eq_ok_iff _).1 assembled
    rcases List.mem_cons.1 member with same | there
    · cases same
    · exact (ih assembledRest there).widen (holds_behind_group _ [] _)
  | group nonempty within later ihInner ihRest =>
    obtain ⟨_, -, _, -, rest, assembledRest, rfl⟩ :=
      (Interpretation.assembleGroups_group_eq_ok_iff _).1 assembled
    rcases List.mem_cons.1 member with same | there
    · cases same
    · exact (ihRest assembledRest there).widen (holds_behind_group _ _ _)

/-! ## The faults of a scope -/

/-- The fault of a term points at the term, or at one of its characters. -/
theorem pointsInto_of_resolve {token : Token} (placed : token.Placed offset text)
    (isTerm : token.kind = .term)
    (fails : environment.resolve token.literal token.offset = .error fault) :
    fault.PointsInto environment whole offset text := by
  have marks : Span.Marks (.ofText token.offset token.literal) offset text token.literal :=
    placed.holds.marks (Span.marks_ofText _ _)
  have occupied : token.literal = [] → whole = [] := fun empty => absurd empty placed.occupied
  rcases Environment.resolve_eq_error fails with
    ⟨flaw, rfl⟩ | ⟨rfl, unbound, alphabetic, c, member, notNumeric⟩ |
      ⟨symbol, before, after, split, rfl⟩
  · exact ⟨_, _, rfl, marks, occupied, rfl⟩
  · refine ⟨_, _, rfl, marks, occupied, rfl, placed.occupied, alphabetic, ⟨c, member, ?_⟩, unbound⟩
    -- the imaginary unit could be part of a number
    rintro rfl
    cases notNumeric
  · have among : symbol ∈ token.literal := by
      rw [split]
      exact List.mem_append_right _ List.mem_cons_self
    refine ⟨_, [symbol], rfl, placed.holds.marks ⟨before, after, split, rfl⟩, nofun, rfl, among, ?_⟩
    exact placed.plain isTerm symbol among

/-- The fault of a scope points at one of its tokens, or at the whole of it. -/
theorem pointsInto_of_closeScope {scope : Span} {slots : List (Slot ComplexFloat)} {marked : Text}
    (placed : ∀ token, .token token ∈ slots → token.Placed offset text)
    (marks : scope.Marks offset text marked) (occupied : marked ≠ [])
    (fails : environment.interpretation.closeScope scope slots = .error fault) :
    fault.PointsInto environment whole offset text := by
  rw [Interpretation.closeScope] at fails
  cases found : shapeFault? scope slots with
  | none =>
    -- the shape is in order, so a term has no value
    rw [found] at fails
    obtain ⟨token, member, isTerm, fails⟩ :=
      Interpretation.exists_term_of_resolveSlots_eq_error fails
    exact pointsInto_of_resolve (placed token member) isTerm fails
  | some other =>
    rw [found] at fails
    cases fails
    obtain ⟨shape, span, rfl, ⟨noOperator, rfl⟩ | ⟨token, member, rfl, operator⟩⟩ :=
      blamesShape_of_shapeFault? found
    · refine ⟨_, marked, rfl, marks, fun empty => absurd empty occupied, ?_⟩
      intro blamed
      rw [noOperator] at blamed
      cases blamed
    · have here := placed token member
      refine ⟨_, token.literal, rfl, here.holds.marks (Span.marks_ofText _ _),
        fun empty => absurd empty here.occupied, ?_⟩
      intro blamed
      -- an operator is not a term, so it was read from a sign
      refine here.sign ?_
      intro isTerm
      have isOperator := operator blamed
      rw [Token.isOperator, isTerm] at isOperator
      cases isOperator

/-- The fault of a group in a text points into the text. -/
theorem pointsInto_of_assembleGroups {tokens : Nested Span Token}
    (scanned : Scanned offset text tokens)
    (fails : environment.interpretation.assembleGroups tokens = .error fault) :
    fault.PointsInto environment whole offset text := by
  induction scanned with
  | nil offset => cases fails
  | sign sign later ih =>
    have failsLater := Interpretation.assembleGroups_leaves_eq_error_iff.1 fails
    exact (ih failsLater).widen (holds_behind_sign _ sign _)
  | word word apart later ih =>
    have failsLater := Interpretation.assembleGroups_leaf_eq_error_iff.1 fails
    exact (ih failsLater).widen (holds_behind _ word.text _)
  | emptyGroup later ih =>
    rcases Interpretation.assembleGroups_group_eq_error_iff.1 fails with
      failsInner | ⟨slots, assembled, failsHere | ⟨_, -, failsLater⟩⟩
    · cases failsInner
    · -- the group is to blame, since all that is in it is an empty term
      cases assembled
      cases failsHere
      exact ⟨_, ['(', ')'], rfl, ⟨[], _, rfl, rfl⟩, nofun, nofun⟩
    · exact (ih failsLater).widen (holds_behind_group _ [] _)
  | group nonempty within later ihInner ihRest =>
    rcases Interpretation.assembleGroups_group_eq_error_iff.1 fails with
      failsInner | ⟨slots, assembled, failsHere | ⟨_, -, failsLater⟩⟩
    · exact (ihInner failsInner).widen (holds_group _ _ _)
    · -- the span of the group takes in its parentheses, and its tokens stand between them
      refine pointsInto_of_closeScope ?_ (marks_group _ _ _) (List.cons_ne_nil _ _) failsHere
      intro token member
      exact (placed_of_assembleGroups within assembled member).widen (holds_group _ _ _)
    · exact (ihRest failsLater).widen (holds_behind_group _ _ _)

/-! ## The faults of a text -/

/-- The fault of a text that is not parsed points into it. -/
theorem pointsInto_of_parse {limits : Limits}
    (fails : Expression.parse environment.interpretation limits whole = .error fault) :
    fault.PointsInto environment whole 0 whole := by
  rcases bind_eq_error_iff.1 fails with refused | ⟨segments, decomposed, failsAssembly⟩
  · -- the parentheses are to blame
    rcases decomposeWithin_eq_error refused with
      ⟨fragment, span, rfl, -, marks⟩ | ⟨fragment, span, rfl, marks⟩ |
        ⟨span, layout, rfl, marks⟩
    · exact ⟨span, whole, rfl, marks, id, Or.inl rfl⟩
    · exact ⟨span, [')'], rfl, marks, nofun, Or.inr rfl⟩
    · exact ⟨span, _, rfl, marks, nofun, layout, rfl⟩
  · rcases scanned_of_decomposeWithin decomposed with ⟨rfl, sole⟩ | ⟨nonempty, scanned⟩
    · -- nothing can be marked in an empty text
      rw [sole] at failsAssembly
      cases failsAssembly
      exact ⟨_, [], rfl, Span.marks_ofText 0 [], fun _ => rfl, nofun⟩
    · rcases bind_eq_error_iff.1 failsAssembly with failsGroups | ⟨slots, assembled, failsScope⟩
      · exact pointsInto_of_assembleGroups scanned failsGroups
      · refine pointsInto_of_closeScope ?_ (Span.marks_ofText 0 whole) nonempty failsScope
        intro token member
        exact placed_of_assembleGroups scanned assembled member

end Parts

/-- Whether a fault of a text without blanks has a span that marks what the fault is about: the text
before the marked stretch and the stretch itself have the bytes that the span tells. Nothing is
marked only where there is nothing. -/
def Fault.MarkedIn (fault : Fault) (environment : Environment ComplexFloat) (whole : Text) : Prop :=
  ∃ (span : Span) (before marked after : Text), fault.span? = some span ∧
    whole = before ++ (marked ++ after) ∧ before.byteSize = span.offset ∧
    marked.byteSize = span.length ∧ (∀ c ∈ marked, isBlank c = false) ∧
    (marked = [] → whole = []) ∧ fault.Describes environment whole marked

/-- The fault of a text that has no value is marked in the text without its blanks. -/
theorem markedIn_of_evaluate {environment : Environment ComplexFloat} {limits : Limits}
    {text : Text} {fault : Fault} (fails : evaluate environment limits text = .error fault) :
    fault.MarkedIn environment text.compact := by
  obtain ⟨span, marked, found, ⟨before, after, split, rfl⟩, occupied, described⟩ :=
    pointsInto_of_parse ((evaluate_eq_error_iff _ _ _ _).1 fails)
  refine ⟨_, before, marked, after, found, split, ?_, rfl, ?_, occupied, described⟩
  · exact (Nat.zero_add _).symm
  · intro c member
    have visible : c ∈ text.compact := by
      rw [split]
      exact List.mem_append_right _ (List.mem_append_left _ member)
    simpa using (List.mem_filter.1 visible).2

/-- Every fault points at the right text. A text that has no value, and a line of a session whose
expression has none, have a fault that is marked in the compacted expression. The expression of a
line is what stands after its one `=`, or the line itself. -/
theorem faults_are_marked :
    (∀ (environment : Environment ComplexFloat) (limits : Limits) (text : Text) (fault : Fault),
      evaluate environment limits text = .error fault →
        fault.MarkedIn environment text.compact) ∧
    ∀ (session : Session) (line whole : Text) (fault : Fault),
      (session.execute line).result = .error (.evaluation whole fault) →
        ('=' ∉ line ∧ whole = line.compact ∨
          ∃ before after : Text, line = before ++ '=' :: after ∧ '=' ∉ before ∧ '=' ∉ after ∧
            whole = after.compact) ∧
          fault.MarkedIn session.environment whole := by
  refine ⟨fun _ _ _ _ fails => markedIn_of_evaluate fails, ?_⟩
  intro session line whole fault failed
  obtain ⟨fails, asks⟩ := Session.evaluate_eq_error_of_execute failed
  have place := Statement.whole_of_read asks
  have compacted : whole.compact = whole := by
    rcases place with ⟨-, rfl⟩ | ⟨_, _, -, -, -, rfl⟩ <;> exact Text.compact_compact _
  have marked := markedIn_of_evaluate fails
  rw [compacted] at marked
  exact ⟨place, marked⟩

/-- In `i + é` the name `é` is not bound, and its two bytes are marked after the two of `i+`. -/
theorem faults_are_marked_name :
    evaluate ∅ {} ['i', ' ', '+', ' ', 'é'] = .error (.undefinedVariable ['é'] ⟨2, 2⟩) ∧
      Fault.MarkedIn (.undefinedVariable ['é'] ⟨2, 2⟩) ∅ ['i', '+', 'é'] :=
  ⟨rfl, faults_are_marked.1 ∅ {} ['i', ' ', '+', ' ', 'é'] _ rfl⟩

end ComplexReckoner
