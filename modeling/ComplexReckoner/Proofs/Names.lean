import ComplexReckoner.Proofs.Precedence
import ComplexReckoner.Proofs.Replay

/-! # Names

A name is made of alphabetic characters. None of these is blank, a sign, a parenthesis or `=`, so a
name is one word of an expression and, as a line, an expression of its own. Of the characters of
numbers only the imaginary unit `i` is alphabetic. A name with any other character is looked up, and
one of several `i` is taken for a number and refused (`resolve_name`, `resolve_units`).

A name keeps its value as long as no line assigns another one (`Session.get?_afterAll`), and is read
back when it is looked up (`Session.assigned_name_reads_back`). -/

namespace ComplexReckoner

/-! ## Alphabetic characters -/

namespace CodePointRanges

/-- A code point that is covered lies in one of the ranges. -/
theorem exists_mem_of_covers {ranges : CodePointRanges} {point : Nat}
    (covered : ranges.covers point = true) :
    ∃ range ∈ ranges, range.1 ≤ point ∧ point ≤ range.2 := by
  induction ranges with
  | nil => cases covered
  | cons range later ih =>
    obtain ⟨first, last⟩ := range
    simp only [covers_cons, Bool.and_eq_true, Bool.or_eq_true, decide_eq_true_eq] at covered
    obtain ⟨above, below | coveredLater⟩ := covered
    · exact ⟨_, List.mem_cons_self, above, below⟩
    · obtain ⟨range, member, within⟩ := ih coveredLater
      exact ⟨range, List.mem_cons_of_mem _ member, within⟩

/-- Whether no range of one list meets a range of another. -/
def apart (ranges others : CodePointRanges) : Bool :=
  ranges.all fun range => others.all fun other =>
    decide (range.2 < other.1) || decide (other.2 < range.1)

/-- No code point is covered by two lists of ranges that are apart. -/
theorem covers_eq_false_of_apart {ranges others : CodePointRanges} {point : Nat}
    (separate : ranges.apart others = true) (covered : ranges.covers point = true) :
    others.covers point = false := by
  rw [← Bool.not_eq_true]
  intro both
  obtain ⟨range, member, within⟩ := exists_mem_of_covers covered
  obtain ⟨other, otherMember, otherWithin⟩ := exists_mem_of_covers both
  have disjoint := List.all_eq_true.1 (List.all_eq_true.1 separate range member) other otherMember
  rw [Bool.or_eq_true, decide_eq_true_eq, decide_eq_true_eq] at disjoint
  omega

end CodePointRanges

section Characters

variable {c : Char} (alphabetic : isAlphabetic c = true)

include alphabetic

/-- No alphabetic character is blank. -/
theorem isBlank_of_isAlphabetic : isBlank c = false := by
  have separate : alphabeticRanges.apart blankRanges = true := by decide +kernel
  exact CodePointRanges.covers_eq_false_of_apart separate alphabetic

/-- The alphabetic characters begin with the letter `A`. -/
theorem le_toNat_of_isAlphabetic : 0x41 ≤ c.toNat := by
  have from_A : (alphabeticRanges.all fun range => decide (0x41 ≤ range.1)) = true := by
    decide +kernel
  obtain ⟨range, member, above, -⟩ := CodePointRanges.exists_mem_of_covers alphabetic
  have least := of_decide_eq_true (List.all_eq_true.1 from_A range member)
  omega

/-- No alphabetic character is a sign or a parenthesis. -/
theorem not_mem_separators_of_isAlphabetic : c ∉ separators := by
  have least := le_toNat_of_isAlphabetic alphabetic
  intro member
  simp only [separators, List.mem_cons, List.not_mem_nil, or_false] at member
  rcases member with rfl | rfl | rfl | rfl | rfl <;> revert least <;> decide

/-- The imaginary unit is the only alphabetic character of numbers. -/
theorem isNumeric_eq_true_iff_of_isAlphabetic : isNumeric c = true ↔ c = 'i' := by
  have least := le_toNat_of_isAlphabetic alphabetic
  constructor
  · intro numeric
    simp only [isNumeric, Bool.or_eq_true, beq_iff_eq] at numeric
    rcases numeric with (digit | point) | unit
    · -- the digits come before the letters
      have bounds : '0'.val ≤ c.val ∧ c.val ≤ '9'.val := by simpa [Char.isDigit] using digit
      have upper : c.toNat ≤ 0x39 := bounds.2
      omega
    · subst point
      revert least
      decide
    · exact unit
  · rintro rfl
    decide

end Characters

/-! ## Words alone -/

/-- The parentheses of a derivation that keeps the limit are in order, and its tokens are found. -/
theorem Formula.exists_segments (formula : Formula) {limit : Nat} (within : formula.depth ≤ limit) :
    ∃ segments, decomposeWithin limit formula.text = .ok segments ∧
      segments.tokens = formula.tokens 0 := by
  obtain ⟨layout, sameText, sameDepth, sameTokens⟩ := formula.exists_layout
  have nonempty : layout ≠ .nil := by
    intro empty
    exact formula.text_ne_nil (sameText ▸ layout.text_eq_nil_iff.2 empty)
  refine ⟨(layout.segments 0).orEmptyRun 0, ?_, ?_⟩
  · exact (decomposeWithin_eq_ok_iff _ _ _).2 ⟨layout, sameText, sameDepth ▸ within, rfl⟩
  · rw [← sameTokens]
    exact Layout.scopeTokens_of_ne_nil 0 nonempty

/-- The term of a word alone is in order as a scope. -/
theorem shapeFault?_word {α : Type} (scope : Span) (word : Word) (offset : Nat) :
    shapeFault? scope ([.token ⟨.term, word.text, offset⟩] : List (Slot α)) = none := by
  rw [shapeFault?_eq_none_iff]
  refine ⟨?_, rfl, rfl⟩
  intro slot member
  rw [List.mem_singleton.1 member]
  have occupied := word.nonempty
  simp [Slot.isVacant, occupied]

/-- A word alone is parsed when it has a value, and has its own fault otherwise. -/
theorem Expression.parse_word {α : Type} (interpretation : Interpretation α) (limits : Limits)
    (word : Word) :
    parse interpretation limits word.text =
      (interpretation.term word.text 0).map fun value => .leaf (.value value) .nil := by
  have within : (Formula.word word).depth ≤ limits.maxDepth := Nat.zero_le _
  obtain ⟨segments, decomposed, sameTokens⟩ := (Formula.word word).exists_segments within
  have parsed : parse interpretation limits word.text =
      interpretation.assemble (.ofText 0 word.text) segments.tokens := by
    have found : decomposeWithin limits.maxDepth word.text = .ok segments := decomposed
    rw [parse, found]
    rfl
  have closed : interpretation.assemble (.ofText 0 word.text) segments.tokens =
      interpretation.resolveSlots [.token ⟨.term, word.text, 0⟩] := by
    rw [sameTokens]
    show interpretation.closeScope (.ofText 0 word.text) [.token ⟨.term, word.text, 0⟩] = _
    rw [Interpretation.closeScope, shapeFault?_word]
  rw [parsed, closed]
  show ((interpretation.term word.text 0).map Term.value >>= fun term => _) = _
  cases interpretation.term word.text 0 <;> rfl

/-! ## Names as words -/

/-- A text without blanks stays as it is. -/
theorem Text.compact_of_forall {text : Text} (plain : ∀ c ∈ text, isBlank c = false) :
    text.compact = text := by
  rw [Text.compact, List.filter_eq_self]
  intro c member
  rw [plain c member]
  rfl

/-- What is told by a name being one. -/
theorem isName_eq_true_iff (name : Text) :
    isName name = true ↔ name ≠ [] ∧ ∀ c ∈ name, isAlphabetic c = true := by
  rw [isName, Bool.and_eq_true, List.all_eq_true]
  simp

/-- A name as a word. -/
def Word.ofName (name : Text) (valid : isName name = true) : Word where
  text := name
  nonempty := ((isName_eq_true_iff name).1 valid).1
  plain := fun c member =>
    not_mem_separators_of_isAlphabetic (((isName_eq_true_iff name).1 valid).2 c member)

section Values

variable (environment : Environment ComplexFloat) (limits : Limits) {name : Text}
  (valid : isName name = true)

include valid

/-- No character of a name is blank. -/
theorem compact_name : name.compact = name := by
  refine Text.compact_of_forall fun c member => ?_
  exact isBlank_of_isAlphabetic (((isName_eq_true_iff name).1 valid).2 c member)

/-- A name with another character than the imaginary unit could not be a number. -/
theorem exists_not_numeric (other : ∃ c ∈ name, c ≠ 'i') : ∃ c ∈ name, isNumeric c = false := by
  obtain ⟨c, member, different⟩ := other
  refine ⟨c, member, ?_⟩
  have alphabetic := ((isName_eq_true_iff name).1 valid).2 c member
  rw [← Bool.not_eq_true, isNumeric_eq_true_iff_of_isAlphabetic alphabetic]
  exact different

/-- A name with another character than the imaginary unit has the value it is bound to. -/
theorem resolve_name (other : ∃ c ∈ name, c ≠ 'i') {value : ComplexFloat}
    (bound : environment.get? name = some value) (offset : Nat) :
    environment.resolve name offset = .ok value := by
  have alphabetic := ((isName_eq_true_iff name).1 valid).2
  rw [Environment.resolve_eq_ok_iff]
  exact Or.inr ⟨exists_not_numeric valid other, alphabetic, bound⟩

/-- A name alone is evaluated to what it resolves to. -/
theorem evaluate_eq_resolve : evaluate environment limits name = environment.resolve name 0 := by
  have parsed := Expression.parse_word environment.interpretation limits (Word.ofName name valid)
  have same : (Word.ofName name valid).text = name := rfl
  rw [same] at parsed
  rw [evaluate, compact_name valid, parsed]
  show ((environment.resolve name 0).map _ >>= Expression.evaluate) = environment.resolve name 0
  cases environment.resolve name 0 <;> rfl

end Values

/-- A name of several imaginary units is taken for a number, which has a misplaced unit. -/
theorem resolve_units (environment : Environment ComplexFloat) {name : Text}
    (units : ∀ c ∈ name, c = 'i') (several : 1 < name.length) (offset : Nat) :
    environment.resolve name offset =
      .error (.invalidLiteral name .misplacedUnit (.ofText offset name)) := by
  have numeric : ∀ c ∈ name, isNumeric c = true := by
    intro c member
    rw [units c member]
    decide
  rw [Environment.resolve_of_numeric environment offset numeric]
  match name, units, several with
  | first :: second :: rest, units, several =>
    have first_unit : first = 'i' := units first List.mem_cons_self
    subst first_unit
    rfl

/-! ## Names as lines -/

/-- A name is read as an expression, unless it is the line that leaves the session. -/
theorem Statement.read_name {name : Text} (valid : isName name = true) (stays : name ≠ ['q']) :
    read name = .ok (.expression name) := by
  obtain ⟨nonempty, alphabetic⟩ := (isName_eq_true_iff name).1 valid
  have compacted : name.trim.compact = name := by rw [Text.compact_trim, compact_name valid]
  rcases read_cases name with ⟨leaves, -⟩ | ⟨empty, -⟩ | ⟨-, found⟩ | ⟨before, after, split, -⟩
  · rw [leaves] at compacted
    exact absurd compacted.symm stays
  · rw [empty] at compacted
    exact absurd compacted.symm nonempty
  · rw [found, compact_name valid]
  · -- the sign of an assignment is not alphabetic
    have member : '=' ∈ name := by
      rw [split]
      exact List.mem_append_right _ List.mem_cons_self
    exact absurd (alphabetic '=' member) (by decide)

namespace Session

variable {session : Session} {name : Text} {value : ComplexFloat}

/-- A line that is a name gives what the name resolves to. -/
theorem result_execute_name (valid : isName name = true) (stays : name ≠ ['q']) :
    (session.execute name).result =
      ((session.environment.resolve name 0).mapError (.evaluation name)).map .value := by
  rw [execute_of_read (Statement.read_name valid stays), perform, calculate,
    evaluate_eq_resolve _ _ valid]

/-- A name keeps its value in a line that does not assign to it. -/
theorem get?_execute (bound : session.environment.get? name = some value) {line : Text}
    (kept : ∀ other, ¬ (session.execute line).Assigns name other) :
    (session.execute line).after.environment.get? name = some value := by
  by_cases assigned : ∃ other held, (session.execute line).Assigns other held
  · obtain ⟨other, held, assigns⟩ := assigned
    have different : name ≠ other := by
      rintro rfl
      exact kept held assigns
    rw [(after_of_assigned assigns).1, bind, Environment.get?_bind_of_ne _ _ different]
    exact bound
  · have unassigned : ∀ other held, (session.execute line).result ≠ .ok (.assigned other held) :=
      fun other held assigns => assigned ⟨other, held, assigns⟩
    rw [after_of_not_assigned unassigned]
    exact bound

/-- A name keeps its value along lines that do not assign to it. -/
theorem get?_afterAll (bound : session.environment.get? name = some value) {lines : List Text}
    (kept : ∀ step ∈ session.trace lines, ∀ other, ¬ step.Assigns name other) :
    (session.afterAll lines).environment.get? name = some value := by
  induction lines generalizing session with
  | nil => exact bound
  | cons line rest ih =>
    rw [trace] at kept
    rw [afterAll_cons]
    refine ih (get?_execute bound (kept _ List.mem_cons_self)) ?_
    intro step member
    exact kept step (List.mem_cons_of_mem _ member)

/-- What becomes of a name that a line has assigned a value to, when it is read back right
afterwards or after further lines that do not assign to it.

Apart from `i`, which is the imaginary unit, and `q`, which leaves the session, every name with some
character other than `i` gives the value. A name of two or more `i` is assigned all the same, but
can never be read: it is taken for a number with a misplaced unit. -/
theorem assigned_name_reads_back (session : Session) (line name : Text) (value : ComplexFloat)
    (assigned : (session.execute line).result = .ok (.assigned name value)) (notUnit : name ≠ ['i'])
    (notQuit : name ≠ ['q']) (further : List Text)
    (kept : ∀ step ∈ (session.execute line).after.trace further, ∀ other,
      step.result ≠ .ok (.assigned name other)) :
    ((∃ c ∈ name, c ≠ 'i') →
        (((session.execute line).after.afterAll further).execute name).result =
          .ok (.value value)) ∧
      ((∀ c ∈ name, c = 'i') →
        (((session.execute line).after.afterAll further).execute name).result =
          .error (.evaluation name (.invalidLiteral name .misplacedUnit (.ofText 0 name)))) := by
  obtain ⟨after, valid⟩ := after_of_assigned assigned
  have bound : (session.execute line).after.environment.get? name = some value := by
    rw [after, bind, Environment.get?_bind_self]
  have boundLater := get?_afterAll bound kept
  rw [result_execute_name valid notQuit]
  constructor
  · intro other
    rw [resolve_name _ valid other boundLater]
    rfl
  · intro units
    have several : 1 < name.length := by
      have nonempty := ((isName_eq_true_iff name).1 valid).1
      rcases name with _ | ⟨c, _ | ⟨second, rest⟩⟩
      · exact absurd rfl nonempty
      · exact absurd (by rw [units c List.mem_cons_self]) notUnit
      · simp
    rw [resolve_units _ units several]
    rfl

/-- The name `ix` is read back after a line that assigns to another name and one that fails. -/
theorem assigned_name_reads_back_mixed :
    (((execute {} ['i', 'x', '=', 'i']).after.afterAll [['y', '=', 'i', 'x'], ['z']]).execute
      ['i', 'x']).result = .ok (.value (.ofImaginary 1.0)) := by
  refine (assigned_name_reads_back {} ['i', 'x', '=', 'i'] ['i', 'x'] (.ofImaginary 1.0) rfl
    (by decide) (by decide) [['y', '=', 'i', 'x'], ['z']] ?_).1 ⟨'x', by decide, by decide⟩
  intro step member other
  -- the first of the two further lines assigns to another name, and the second fails
  rcases List.mem_cons.1 member with rfl | later
  · intro same
    cases same
  · rw [List.mem_singleton.1 later]
    nofun

/-- The name `ii` is assigned, and cannot be read back: the next line finds no number in it. -/
theorem repeated_unit_not_read_back :
    (execute {} ['i', 'i', '=', 'i']).result = .ok (.assigned ['i', 'i'] (.ofImaginary 1.0)) ∧
      ((execute {} ['i', 'i', '=', 'i']).after.execute ['i', 'i']).result ≠
        .ok (.value (.ofImaginary 1.0)) := by
  refine ⟨rfl, ?_⟩
  have refused : ((execute {} ['i', 'i', '=', 'i']).after.execute ['i', 'i']).result =
      .error (.evaluation ['i', 'i'] (.invalidLiteral ['i', 'i'] .misplacedUnit ⟨0, 2⟩)) := rfl
  rw [refused]
  nofun

end Session

end ComplexReckoner
