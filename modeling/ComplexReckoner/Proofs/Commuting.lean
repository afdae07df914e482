import ComplexReckoner.Proofs.Lookups

/-! # Lines in either order

Two lines of a session can change places when neither assigns to a name that the other assigns to or
mentions. Each of them then has the same result in both orders, and the session after both is the
same.

A line is affected by the line before it only through the name that this one binds
(`Session.result_execute_after`), and what a line does to a session can be told from its result
(`Session.after_execute`). So all that is left is that two bindings of different names can be made
in either order (`Session.absorb_comm`). -/

namespace ComplexReckoner

/-! ## The names of a line -/

namespace Text

/-- Whether a line is read as an assignment to a name, which is what stands before its one `=`,
without blanks. -/
def AssignsTo (line name : Text) : Prop :=
  ∃ whole, Statement.read line = .ok (.assignment name whole)

/-- Whether a word is a term of the expression that a line is read as, which is what stands after
its one `=`, or the line itself. -/
def Mentions (line word : Text) : Prop :=
  ∃ whole, (Statement.read line = .ok (.expression whole) ∨
    ∃ name, Statement.read line = .ok (.assignment name whole)) ∧ whole.Writes word

end Text

/-- The expression of a line has no blanks. -/
theorem Statement.compact_whole {line whole : Text}
    (asks : read line = .ok (.expression whole) ∨
      ∃ name, read line = .ok (.assignment name whole)) : whole.compact = whole := by
  rcases whole_of_read asks with ⟨-, rfl⟩ | ⟨_, _, -, -, -, rfl⟩ <;> exact Text.compact_compact _

/-- An assignment is apart from one to another name in whose expression its own is not written. -/
theorem Text.AssignsTo.apart {line other name target whole : Text} (assigns : line.AssignsTo name)
    (asks : Statement.read other = .ok (.assignment target whole)) (different : target ≠ name)
    (unwritten : ¬ whole.Writes name) (word : Text) (assignsWord : line.AssignsTo word) :
    ¬ other.AssignsTo word ∧ ¬ other.Mentions word := by
  have sameName : word = name := by
    obtain ⟨_, asksLine⟩ := assigns
    obtain ⟨_, asksWord⟩ := assignsWord
    rw [asksLine] at asksWord
    cases asksWord
    rfl
  subst sameName
  constructor
  · rintro ⟨_, asksOther⟩
    rw [asks] at asksOther
    cases asksOther
    exact different rfl
  · rintro ⟨found, asksOther | ⟨_, asksOther⟩, writes⟩
    · rw [asks] at asksOther
      cases asksOther
    · rw [asks] at asksOther
      cases asksOther
      exact unwritten writes

namespace Session

variable (session : Session)

/-! ## What a line does to a session -/

/-- The session after a line with a given result. -/
def absorb : Except SessionFault Outcome → Session
  | .ok (.assigned name value) => session.bind name value
  | _ => session

/-- A line that assigns nothing leaves the session as it is. -/
theorem absorb_of_not_assigned {result : Except SessionFault Outcome}
    (unassigned : ∀ name value, result ≠ .ok (.assigned name value)) :
    session.absorb result = session := by
  unfold absorb
  split
  · exact absurd rfl (unassigned _ _)
  · rfl

/-- What a line does to a session is told by its result. -/
theorem after_execute (line : Text) :
    (session.execute line).after = session.absorb (session.execute line).result := by
  rcases session.execute_cases line with
    ⟨name, _, value, -, -, step⟩ | ⟨_, _, -, -, step⟩ | ⟨result, step, unassigned, -⟩
  · rw [step]
    rfl
  · rw [step]
    rfl
  · rw [step]
    exact (session.absorb_of_not_assigned unassigned).symm

/-- Only an assignment to a name can assign a value to it. -/
theorem assignsTo_of_assigned {session : Session} {line name : Text} {value : ComplexFloat}
    (assigned : (session.execute line).result = .ok (.assigned name value)) :
    line.AssignsTo name := by
  rcases session.execute_cases line with
    ⟨_, whole, _, asks, -, step⟩ | ⟨_, _, -, -, step⟩ | ⟨result, step, unassigned, -⟩
  · rw [step] at assigned
    cases assigned
    exact ⟨whole, asks⟩
  · rw [step] at assigned
    cases assigned
  · rw [step] at assigned
    exact absurd assigned (unassigned name value)

/-- Results that do not assign to the same name can be absorbed in either order. -/
theorem absorb_comm {first second : Except SessionFault Outcome}
    (apart : ∀ name value held, first = .ok (.assigned name value) →
      second ≠ .ok (.assigned name held)) :
    (session.absorb first).absorb second = (session.absorb second).absorb first := by
  by_cases assigns : ∃ name value, first = .ok (.assigned name value)
  · obtain ⟨name, value, rfl⟩ := assigns
    by_cases assignsToo : ∃ other held, second = .ok (.assigned other held)
    · obtain ⟨other, held, rfl⟩ := assignsToo
      have different : name ≠ other := by
        rintro rfl
        exact apart name value held rfl rfl
      exact congrArg (fun environment => { session with environment })
        (session.environment.bind_comm value held different)
    · have unassigned : ∀ other held, second ≠ .ok (.assigned other held) :=
        fun other held same => assignsToo ⟨other, held, same⟩
      rw [absorb_of_not_assigned _ unassigned, absorb_of_not_assigned _ unassigned]
  · have unassigned : ∀ name value, first ≠ .ok (.assigned name value) :=
      fun name value same => assigns ⟨name, value, same⟩
    rw [absorb_of_not_assigned _ unassigned, absorb_of_not_assigned _ unassigned]

/-! ## A line after another one -/

/-- A binding of a name that is not written in an expression makes no difference to it. -/
theorem calculate_bind {name whole : Text} (value : ComplexFloat)
    (compacted : whole.compact = whole) (unwritten : ¬ whole.Writes name) :
    (session.bind name value).calculate whole = session.calculate whole := by
  have unread : ¬ whole.compact.LooksUp name := by
    rw [compacted]
    intro reads
    exact unwritten reads.1
  have same : evaluate (session.environment.bind name value) session.limits whole =
      evaluate session.environment session.limits whole :=
    evaluate_congr (session.environment.agreeOn_bind value unread)
  rw [calculate, calculate]
  exact congrArg (Except.mapError _) same

/-- A binding of a name that a line does not mention makes no difference to its result. -/
theorem result_execute_bind {line name : Text} (value : ComplexFloat)
    (unmentioned : ¬ line.Mentions name) :
    ((session.bind name value).execute line).result = (session.execute line).result := by
  -- the environment is read only when the expression of the line is calculated
  have same : ∀ whole, (Statement.read line = .ok (.expression whole) ∨
      ∃ target, Statement.read line = .ok (.assignment target whole)) →
        (session.bind name value).calculate whole = session.calculate whole := by
    intro whole asks
    refine session.calculate_bind value (Statement.compact_whole asks) ?_
    intro writes
    exact unmentioned ⟨whole, asks, writes⟩
  cases asks : Statement.read line with
  | error fault => rw [execute_of_refused asks, execute_of_refused asks]
  | ok statement =>
    rw [execute_of_read asks, execute_of_read asks]
    cases statement with
    | quit => rfl
    | blank => rfl
    | expression whole => rw [perform, perform, same whole (Or.inl asks)]
    | assignment target whole =>
      rw [perform, perform, same whole (Or.inr ⟨target, asks⟩)]
      cases session.calculate whole <;> rfl

/-- A line has the same result after another one that does not assign to a name it mentions. -/
theorem result_execute_after {line other : Text}
    (apart : ∀ name, other.AssignsTo name → ¬ line.Mentions name) :
    ((session.execute other).after.execute line).result = (session.execute line).result := by
  rcases session.execute_cases other with
    ⟨name, whole, value, asks, -, step⟩ | ⟨_, _, -, -, step⟩ | ⟨_, step, -, -⟩
  · rw [step]
    exact session.result_execute_bind value (apart name ⟨whole, asks⟩)
  -- a line that fails or assigns nothing has left the session as it was
  · rw [step]
  · rw [step]

/-- Independent lines commute.

Whenever one of two lines is an assignment to a name, let the other neither assign to this name nor
have it as a term of its expression. Then each line has the same result in both orders, and the
session after both lines is the same. -/
theorem independent_lines_commute (first second : Text)
    (firstApart : ∀ name, first.AssignsTo name → ¬ second.AssignsTo name ∧ ¬ second.Mentions name)
    (secondApart : ∀ name, second.AssignsTo name → ¬ first.AssignsTo name ∧ ¬ first.Mentions name) :
    ((session.execute second).after.execute first).result = (session.execute first).result ∧
      ((session.execute first).after.execute second).result = (session.execute second).result ∧
      ((session.execute first).after.execute second).after =
        ((session.execute second).after.execute first).after := by
  have sameFirst := session.result_execute_after fun name assigns => (secondApart name assigns).2
  have sameSecond := session.result_execute_after fun name assigns => (firstApart name assigns).2
  refine ⟨sameFirst, sameSecond, ?_⟩
  have apart : ∀ name value held, (session.execute first).result = .ok (.assigned name value) →
      (session.execute second).result ≠ .ok (.assigned name held) := by
    intro name value held assigned assignedToo
    exact (firstApart name (assignsTo_of_assigned assigned)).1 (assignsTo_of_assigned assignedToo)
  -- both orders absorb the same two results
  calc ((session.execute first).after.execute second).after
      = (session.execute first).after.absorb (session.execute second).result := by
        rw [after_execute, sameSecond]
    _ = (session.absorb (session.execute first).result).absorb
          (session.execute second).result := by rw [session.after_execute first]
    _ = (session.absorb (session.execute second).result).absorb
          (session.execute first).result := session.absorb_comm apart
    _ = (session.execute second).after.absorb (session.execute first).result := by
        rw [session.after_execute second]
    _ = ((session.execute second).after.execute first).after := by
        rw [after_execute _ first, sameFirst]

/-- The lines `x = i` and `xx = i * i` assign to different names and mention neither of them. -/
theorem independent_lines_commute_names :
    ((execute {} ['x', 'x', '=', 'i', '*', 'i']).after.execute ['x', '=', 'i']).result =
        .ok (.assigned ['x'] (.ofImaginary 1.0)) ∧
      ((execute {} ['x', '=', 'i']).after.execute ['x', 'x', '=', 'i', '*', 'i']).after =
        ((execute {} ['x', 'x', '=', 'i', '*', 'i']).after.execute ['x', '=', 'i']).after := by
  have firstRead : Statement.read ['x', '=', 'i'] = .ok (.assignment ['x'] ['i']) := by rfl
  have secondRead : Statement.read ['x', 'x', '=', 'i', '*', 'i'] =
      .ok (.assignment ['x', 'x'] ['i', '*', 'i']) := by rfl
  have unwritten : ∀ {whole word : Text}, 'x' ∉ whole → 'x' ∈ word → ¬ whole.Writes word := by
    rintro whole word missing member ⟨-, -, before, after, rfl, -⟩
    exact missing (List.mem_append_right _ (List.mem_append_left _ member))
  have commute := independent_lines_commute {} ['x', '=', 'i'] ['x', 'x', '=', 'i', '*', 'i']
    (Text.AssignsTo.apart ⟨_, firstRead⟩ secondRead (by decide) (unwritten (by decide) (by decide)))
    (Text.AssignsTo.apart ⟨_, secondRead⟩ firstRead (by decide) (unwritten (by decide) (by decide)))
  exact ⟨commute.1.trans rfl, commute.2.2⟩

end Session

end ComplexReckoner
