import ComplexReckoner.Session

/-! # Lines

What a line of a session asks for, and what comes of it. Blanks at the ends of a line are dropped
before it is read, but this does not show in the compacted parts of a statement: the name and the
expression of an assignment are what stands before and after the one `=` of the line itself.

A line either assigns, and then the session has one binding more, or leaves the session as it is
(`Session.execute_cases`). -/

namespace ComplexReckoner

/-! ## Blanks at the ends of a line -/

namespace Text

/-- A text of blanks is compacted to nothing. -/
theorem compact_eq_nil {text : Text} (blank : ∀ c ∈ text, isBlank c = true) :
    text.compact = [] := by
  rw [compact, List.filter_eq_nil_iff]
  intro c member
  rw [blank c member]
  exact Bool.false_ne_true

/-- Only blanks at the ends of a text are dropped. -/
theorem exists_trim (text : Text) :
    ∃ lead trail : Text, text = lead ++ (text.trim ++ trail) ∧
      (∀ c ∈ lead, isBlank c = true) ∧ ∀ c ∈ trail, isBlank c = true := by
  -- what is kept from the first visible character on, up to the last one
  let kept := text.dropWhile isBlank
  refine ⟨text.takeWhile isBlank, (kept.reverse.takeWhile isBlank).reverse, ?_, ?_, ?_⟩
  · have ends : kept.reverse.takeWhile isBlank ++ kept.reverse.dropWhile isBlank = kept.reverse :=
      List.takeWhile_append_dropWhile
    have split : kept = text.trim ++ (kept.reverse.takeWhile isBlank).reverse := by
      rw [trim, ← List.reverse_append, ends, List.reverse_reverse]
    rw [← split]
    exact List.takeWhile_append_dropWhile.symm
  · exact List.all_eq_true.1 List.all_takeWhile
  · intro c member
    exact List.all_eq_true.1 List.all_takeWhile c (List.mem_reverse.1 member)

/-- A mark that is not blank is cut at the same place, whether the blanks at the ends are dropped or
not. -/
theorem exists_cut_of_cut?_trim {mark : Char} (visible : isBlank mark = false)
    {text before after : Text} (cut : cut? mark text.trim = some (before, after)) :
    ∃ start rest : Text, text = start ++ mark :: rest ∧ mark ∉ start ∧
      (mark ∈ rest ↔ mark ∈ after) ∧
        start.compact = before.compact ∧ rest.compact = after.compact := by
  obtain ⟨lead, trail, whole, blankLead, blankTrail⟩ := text.exists_trim
  obtain ⟨trimmed, first⟩ := (cut?_eq_some_iff _ _ _ _).1 cut
  have notBlank : ∀ {blanks : Text}, (∀ c ∈ blanks, isBlank c = true) → mark ∉ blanks := by
    intro blanks blank member
    rw [blank mark member] at visible
    cases visible
  refine ⟨lead ++ before, after ++ trail, ?_, ?_, ?_, ?_, ?_⟩
  · rw [whole, trimmed]
    simp
  · rw [List.mem_append, not_or]
    exact ⟨notBlank blankLead, first⟩
  · rw [List.mem_append, or_iff_left (notBlank blankTrail)]
  · rw [compact_append, compact_eq_nil blankLead, List.nil_append]
  · rw [compact_append, compact_eq_nil blankTrail, List.append_nil]

/-- A mark that is not blank is missing, whether the blanks at the ends are dropped or not. -/
theorem not_mem_of_cut?_trim {mark : Char} (visible : isBlank mark = false) {text : Text}
    (cut : cut? mark text.trim = none) : mark ∉ text := by
  obtain ⟨lead, trail, whole, blankLead, blankTrail⟩ := text.exists_trim
  have missing := (cut?_eq_none_iff _ _).1 cut
  intro member
  rw [whole, List.mem_append, List.mem_append] at member
  rcases member with inLead | inTrimmed | inTrail
  · rw [blankLead mark inLead] at visible
    cases visible
  · exact missing inTrimmed
  · rw [blankTrail mark inTrail] at visible
    cases visible

/-- The blanks at the ends of a text do not count when it is compacted. -/
@[simp] theorem compact_trim (text : Text) : text.trim.compact = text.compact := by
  obtain ⟨lead, trail, whole, blankLead, blankTrail⟩ := text.exists_trim
  have parts : text.compact = (lead ++ (text.trim ++ trail)).compact := congrArg compact whole
  rw [parts, compact_append, compact_append, compact_eq_nil blankLead, compact_eq_nil blankTrail,
    List.nil_append, List.append_nil]

end Text

/-! ## What a line asks for -/

namespace Statement

/-- What a line asks for, with everything told about the line itself and not about what is left of
it without the blanks at its ends. -/
theorem read_cases (line : Text) :
    line.trim = ['q'] ∧ read line = .ok .quit ∨
      line.trim = [] ∧ read line = .ok .blank ∨
      '=' ∉ line ∧ read line = .ok (.expression line.compact) ∨
      ∃ before after : Text, line = before ++ '=' :: after ∧ '=' ∉ before ∧
        ('=' ∈ after ∧ read line = .error (.chainedAssignment line.trim) ∨
          '=' ∉ after ∧ isName before.compact = false ∧
            read line = .error (.invalidName before.compact) ∨
          '=' ∉ after ∧ isName before.compact = true ∧
            read line = .ok (.assignment before.compact after.compact)) := by
  by_cases leaves : line.trim = ['q']
  · exact Or.inl ⟨leaves, by simp only [read, if_pos leaves]⟩
  by_cases empty : line.trim = []
  · exact Or.inr (Or.inl ⟨empty, by simp [read, empty]⟩)
  have occupied : ¬ line.trim.isEmpty = true := mt List.isEmpty_iff.1 empty
  refine Or.inr (Or.inr ?_)
  cases cut : Text.cut? '=' line.trim with
  | none =>
    refine Or.inl ⟨Text.not_mem_of_cut?_trim (by decide) cut, ?_⟩
    simp only [read, if_neg leaves, if_neg occupied, cut, Text.compact_trim]
  | some parts =>
    obtain ⟨before, after⟩ := parts
    obtain ⟨start, rest, split, first, same, sameName, sameRest⟩ :=
      Text.exists_cut_of_cut?_trim (by decide) cut
    refine Or.inr ⟨start, rest, split, first, ?_⟩
    rw [same, sameName, sameRest]
    simp only [read, if_neg leaves, if_neg occupied, cut]
    by_cases chained : '=' ∈ after
    · exact Or.inl ⟨chained, if_pos chained⟩
    · rw [if_neg chained]
      cases valid : isName before.compact with
      | false => exact Or.inr (Or.inl ⟨chained, rfl, rfl⟩)
      | true => exact Or.inr (Or.inr ⟨chained, rfl, rfl⟩)

/-- Where the expression of a line stands: it is the line, or what comes after its one `=`. -/
theorem whole_of_read {line whole : Text}
    (asks : read line = .ok (.expression whole) ∨
      ∃ name, read line = .ok (.assignment name whole)) :
    '=' ∉ line ∧ whole = line.compact ∨
      ∃ before after : Text, line = before ++ '=' :: after ∧ '=' ∉ before ∧ '=' ∉ after ∧
        whole = after.compact := by
  rcases read_cases line with ⟨-, found⟩ | ⟨-, found⟩ | ⟨missing, found⟩ |
    ⟨before, after, split, first, ⟨-, found⟩ | ⟨-, -, found⟩ | ⟨single, -, found⟩⟩
  · simp [found] at asks
  · simp [found] at asks
  · rw [found] at asks
    rcases asks with asks | ⟨name, asks⟩
    · cases asks
      exact Or.inl ⟨missing, rfl⟩
    · cases asks
  · simp [found] at asks
  · simp [found] at asks
  · rw [found] at asks
    rcases asks with asks | ⟨name, asks⟩
    · cases asks
    · cases asks
      exact Or.inr ⟨before, after, split, first, single, rfl⟩

/-- What is assigned has a name. -/
theorem isName_of_read {line name whole : Text}
    (asks : read line = .ok (.assignment name whole)) : isName name = true := by
  rcases read_cases line with ⟨-, found⟩ | ⟨-, found⟩ | ⟨-, found⟩ |
    ⟨before, after, -, -, ⟨-, found⟩ | ⟨-, -, found⟩ | ⟨-, valid, found⟩⟩
  all_goals
    rw [found] at asks
    cases asks
  exact valid

/-- A line is not refused for its expression before that is evaluated. -/
theorem read_ne_evaluation (line whole : Text) (fault : Fault) :
    read line ≠ .error (.evaluation whole fault) := by
  intro refused
  rcases read_cases line with ⟨-, found⟩ | ⟨-, found⟩ | ⟨-, found⟩ |
    ⟨before, after, -, -, ⟨-, found⟩ | ⟨-, -, found⟩ | ⟨-, -, found⟩⟩
  all_goals
    rw [found] at refused
    cases refused

end Statement

/-! ## What comes of a line -/

namespace Session

variable {session : Session} {whole : Text}

/-- An expression that has a value is calculated. -/
theorem calculate_of_evaluate_eq_ok {value : ComplexFloat}
    (evaluated : evaluate session.environment session.limits whole = .ok value) :
    session.calculate whole = .ok value := by
  rw [calculate, evaluated]
  rfl

/-- The fault of an expression is told with the expression. -/
theorem calculate_of_evaluate_eq_error {fault : Fault}
    (fails : evaluate session.environment session.limits whole = .error fault) :
    session.calculate whole = .error (.evaluation whole fault) := by
  rw [calculate, fails]
  rfl

/-- A line that is read is performed. -/
theorem execute_of_read {line : Text} {statement : Statement}
    (asks : Statement.read line = .ok statement) :
    session.execute line = session.perform statement := by
  rw [execute, asks]

/-- A line that is not read leaves the session as it is. -/
theorem execute_of_refused {line : Text} {fault : SessionFault}
    (refused : Statement.read line = .error fault) :
    session.execute line = ⟨.error fault, session⟩ := by
  rw [execute, refused]

variable (session)

/-- What comes of a line: it assigns the value of its expression to a name, or the evaluation of its
expression fails, or neither. In the last two cases the session stays as it is. -/
theorem execute_cases (line : Text) :
    (∃ name whole value, Statement.read line = .ok (.assignment name whole) ∧
        evaluate session.environment session.limits whole = .ok value ∧
          session.execute line = ⟨.ok (.assigned name value), session.bind name value⟩) ∨
      (∃ whole fault, (Statement.read line = .ok (.expression whole) ∨
          ∃ name, Statement.read line = .ok (.assignment name whole)) ∧
        evaluate session.environment session.limits whole = .error fault ∧
          session.execute line = ⟨.error (.evaluation whole fault), session⟩) ∨
      ∃ result, session.execute line = ⟨result, session⟩ ∧
        (∀ name value, result ≠ .ok (.assigned name value)) ∧
          ∀ whole fault, result ≠ .error (.evaluation whole fault) := by
  cases asks : Statement.read line with
  | error fault =>
    refine Or.inr (Or.inr ⟨.error fault, execute_of_refused asks, ?_, ?_⟩)
    · intro name value same
      cases same
    · intro whole other same
      cases same
      exact Statement.read_ne_evaluation line whole other asks
  | ok statement =>
    rw [execute_of_read asks]
    cases statement with
    | quit =>
      refine Or.inr (Or.inr ⟨.ok .quit, rfl, ?_, ?_⟩) <;> intro _ _ same <;> cases same
    | blank =>
      refine Or.inr (Or.inr ⟨.ok .empty, rfl, ?_, ?_⟩) <;> intro _ _ same <;> cases same
    | expression whole =>
      rw [perform]
      cases found : evaluate session.environment session.limits whole with
      | ok value =>
        rw [calculate_of_evaluate_eq_ok found]
        refine Or.inr (Or.inr ⟨.ok (.value value), rfl, ?_, ?_⟩) <;> intro _ _ same <;> cases same
      | error fault =>
        rw [calculate_of_evaluate_eq_error found]
        exact Or.inr (Or.inl ⟨whole, fault, Or.inl rfl, found, rfl⟩)
    | assignment name whole =>
      rw [perform]
      cases found : evaluate session.environment session.limits whole with
      | ok value =>
        rw [calculate_of_evaluate_eq_ok found]
        exact Or.inl ⟨name, whole, value, rfl, found, rfl⟩
      | error fault =>
        rw [calculate_of_evaluate_eq_error found]
        exact Or.inr (Or.inl ⟨whole, fault, Or.inr ⟨name, rfl⟩, found, rfl⟩)

variable {session} {line : Text}

/-- An evaluation fails in a line because the expression of the line has no value. -/
theorem evaluate_eq_error_of_execute {fault : Fault}
    (failed : (session.execute line).result = .error (.evaluation whole fault)) :
    evaluate session.environment session.limits whole = .error fault ∧
      (Statement.read line = .ok (.expression whole) ∨
        ∃ name, Statement.read line = .ok (.assignment name whole)) := by
  rcases session.execute_cases line with
    ⟨_, _, _, -, -, step⟩ | ⟨other, otherFault, asks, fails, step⟩ | ⟨result, step, -, apart⟩
  · rw [step] at failed
    cases failed
  · rw [step] at failed
    cases failed
    exact ⟨fails, asks⟩
  · rw [step] at failed
    exact absurd failed (apart whole fault)

/-- A line that assigns a value to a name adds this binding, and the name is one. -/
theorem after_of_assigned {name : Text} {value : ComplexFloat}
    (assigned : (session.execute line).result = .ok (.assigned name value)) :
    (session.execute line).after = session.bind name value ∧ isName name = true := by
  rcases session.execute_cases line with
    ⟨_, _, _, asks, -, step⟩ | ⟨_, _, -, -, step⟩ | ⟨result, step, apart, -⟩
  · rw [step] at assigned ⊢
    cases assigned
    exact ⟨rfl, Statement.isName_of_read asks⟩
  · rw [step] at assigned
    cases assigned
  · rw [step] at assigned
    exact absurd assigned (apart name value)

/-- A line that assigns nothing leaves the session as it is. -/
theorem after_of_not_assigned
    (unassigned : ∀ name value, (session.execute line).result ≠ .ok (.assigned name value)) :
    (session.execute line).after = session := by
  rcases session.execute_cases line with
    ⟨name, _, value, -, -, step⟩ | ⟨_, _, -, -, step⟩ | ⟨result, step, -, -⟩
  · refine absurd ?_ (unassigned name value)
    rw [step]
  · rw [step]
  · rw [step]

end Session

end ComplexReckoner
