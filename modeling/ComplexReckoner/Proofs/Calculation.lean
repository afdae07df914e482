import ComplexReckoner.Console.Program
import ComplexReckoner.Proofs.Pointing

/-! # Calculation never gets stuck

What has been parsed can be calculated. So no text and no line is ever irreducible, and the command
that writes the value of an expression fails exactly where the command that writes its tree does,
with the same failure. -/

namespace ComplexReckoner

/-! ## Texts and lines -/

/-- No text is irreducible: every fault has a span. -/
theorem evaluate_ne_irreducible (environment : Environment ComplexFloat) (limits : Limits)
    (text : Text) (remaining : Nat) :
    evaluate environment limits text ≠ .error (.irreducible remaining) := by
  intro fails
  obtain ⟨span, before, marked, after, found, -⟩ := markedIn_of_evaluate fails
  cases found

/-- No line is irreducible. -/
theorem Session.execute_ne_irreducible (session : Session) (line whole : Text) (remaining : Nat) :
    (session.execute line).result ≠ .error (.evaluation whole (.irreducible remaining)) := by
  intro failed
  have fails := (evaluate_eq_error_of_execute failed).1
  exact evaluate_ne_irreducible _ _ _ _ fails

/-! ## Commands -/

namespace Console

/-- Definitions do not change the limits. -/
theorem limits_of_define {session after : Session} {definitions : List Text}
    (defined : define session definitions = .ok after) : after.limits = session.limits := by
  induction definitions generalizing session with
  | nil =>
    cases defined
    rfl
  | cons definition rest ih =>
    rw [define] at defined
    -- only an assignment leads on to the other definitions
    split at defined
    · rw [ih defined, Session.limits_execute]
    · cases defined
    · cases defined

/-- No definition is irreducible. -/
theorem define_ne_irreducible (session : Session) (definitions : List Text) (whole : Text)
    (remaining : Nat) :
    define session definitions ≠
      .error (.rejected (.evaluation whole (.irreducible remaining))) := by
  induction definitions generalizing session with
  | nil => nofun
  | cons definition rest ih =>
    intro failed
    rw [define] at failed
    split at failed
    · exact ih _ failed
    · cases failed
    · next fault found =>
      cases failed
      exact session.execute_ne_irreducible definition whole remaining found

/-- The value of an expression is missing when its tree is, and for the same failure. -/
theorem failure?_reportValue (limits : Limits) (expression : Text) (definitions : List Text) :
    (reportValue limits expression definitions).failure? =
      (reportTree limits expression definitions).failure? := by
  rw [reportValue, reportTree]
  cases defined : define { limits } definitions with
  | error failure => rfl
  | ok session =>
    have sameLimits : session.limits = limits := limits_of_define defined
    have same : expression.compact.compact = expression.compact := Text.compact_compact expression
    dsimp only
    cases parsed : Expression.parse session.environment.interpretation limits
      expression.compact with
    | error fault =>
      have fails :
          evaluate session.environment session.limits expression.compact = .error fault := by
        rw [evaluate_eq_error_iff, same, sameLimits]
        exact parsed
      rw [Session.calculate_of_evaluate_eq_error fails]
    | ok tree =>
      -- what has a tree has a value, whatever that is
      obtain ⟨value, evaluated, -⟩ := exists_value_of_parse parsed
      have succeeds : evaluate session.environment session.limits expression.compact = .ok value :=
        bind_eq_ok_iff.2 ⟨tree, by rw [same, sameLimits]; exact parsed, evaluated⟩
      rw [Session.calculate_of_evaluate_eq_ok succeeds]
      rfl

/-- The value of an expression is never missing because something is irreducible. -/
theorem failure?_reportValue_ne_irreducible (limits : Limits) (expression : Text)
    (definitions : List Text) (whole : Text) (remaining : Nat) :
    (reportValue limits expression definitions).failure? ≠
      some (.rejected (.evaluation whole (.irreducible remaining))) := by
  intro failed
  rw [reportValue] at failed
  cases defined : define { limits } definitions with
  | error failure =>
    rw [defined] at failed
    cases failed
    exact define_ne_irreducible _ definitions whole remaining defined
  | ok session =>
    rw [defined] at failed
    dsimp only at failed
    cases found : evaluate session.environment session.limits expression.compact with
    | ok value =>
      rw [Session.calculate_of_evaluate_eq_ok found] at failed
      cases failed
    | error fault =>
      rw [Session.calculate_of_evaluate_eq_error found] at failed
      cases failed
      exact evaluate_ne_irreducible _ _ _ _ found

end Console

/-! ## What is parsed is calculated -/

/-- The evaluation of what is parsed never fails, and the value is the sum of products that the
expression means. So nothing is ever irreducible: no text, no line of a session and no expression
whose value is asked for on the command line; and the commands for the value and for the tree of an
expression fail on the same expressions and definitions, with the same failure. -/
theorem calculation_never_fails :
    (∀ (environment : Environment ComplexFloat) (limits : Limits) (whole : Text)
        (expression : Expression ComplexFloat),
      Expression.parse environment.interpretation limits whole = .ok expression →
        ∃ value, expression.evaluate = .ok value ∧ expression.meaning? = some value) ∧
    (∀ (environment : Environment ComplexFloat) (limits : Limits) (text : Text) (remaining : Nat),
      evaluate environment limits text ≠ .error (.irreducible remaining)) ∧
    (∀ (session : Session) (line whole : Text) (remaining : Nat),
      (session.execute line).result ≠ .error (.evaluation whole (.irreducible remaining))) ∧
    ∀ (limits : Limits) (expression : Text) (definitions : List Text)
        (files : Text → Option (List UInt8)) (input : List UInt8),
      let value := Console.Invocation.report ⟨.value expression definitions, limits⟩ files input
      let tree := Console.Invocation.report ⟨.tree expression definitions, limits⟩ files input
      value.failure? = tree.failure? ∧
        ∀ (whole : Text) (remaining : Nat),
          value.failure? ≠ some (.rejected (.evaluation whole (.irreducible remaining))) := by
  refine ⟨fun _ _ _ _ parsed => exists_value_of_parse parsed, evaluate_ne_irreducible,
    Session.execute_ne_irreducible, ?_⟩
  intro limits expression definitions files input
  exact ⟨Console.failure?_reportValue limits expression definitions,
    Console.failure?_reportValue_ne_irreducible limits expression definitions⟩

/-- In `i+i*i` the product comes first. -/
theorem calculation_never_fails_product :
    ∃ expression value,
      Expression.parse (Environment.interpretation ∅) {} ['i', '+', 'i', '*', 'i'] =
          .ok expression ∧
        expression.evaluate = .ok value ∧ expression.meaning? = some value ∧
          value = ComplexFloat.ofImaginary 1.0 +
            ComplexFloat.ofImaginary 1.0 * ComplexFloat.ofImaginary 1.0 := by
  obtain ⟨value, evaluated, means⟩ :=
    calculation_never_fails.1 ∅ {} ['i', '+', 'i', '*', 'i'] _ rfl
  exact ⟨_, value, rfl, evaluated, means, (Except.ok.inj evaluated).symm⟩

end ComplexReckoner
