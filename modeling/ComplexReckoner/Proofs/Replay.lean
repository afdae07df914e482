import ComplexReckoner.Proofs.Statements

/-! # Replay

The environment of a session is the replay of its assignments. After any lines a name is bound
exactly when one of them assigned a value to it, and it has the value of the last of these lines
(`Session.Replays`). A step keeps this whatever the line does (`Session.Replays.execute`), so it
holds all along a run (`Session.Replays.trace`).

Lines that assign nothing leave no trace behind. Any of them can be left out without a difference to
the steps of the other lines (`Session.trace_keepWhere`). -/

namespace ComplexReckoner

/-! ## The last assignment -/

/-- Whether a step assigned a value to a name. -/
def Step.Assigns (step : Step) (name : Text) (value : ComplexFloat) : Prop :=
  step.result = .ok (.assigned name value)

/-- Whether a value comes from the last of some steps that assigned a value to a name. -/
def LastAssigned (steps : List Step) (name : Text) (value : ComplexFloat) : Prop :=
  ∃ before step after, steps = before ++ step :: after ∧ step.Assigns name value ∧
    ∀ later ∈ after, ∀ other, ¬ later.Assigns name other

/-- The last step counts if it assigns, and otherwise the steps before it do. -/
theorem lastAssigned_concat (steps : List Step) (step : Step) (name : Text) (value : ComplexFloat) :
    LastAssigned (steps ++ [step]) name value ↔
      step.Assigns name value ∨
        (∀ other, ¬ step.Assigns name other) ∧ LastAssigned steps name value := by
  constructor
  · rintro ⟨before, found, after, split, assigns, none⟩
    rcases List.eq_nil_or_concat after with rfl | ⟨between, last, rfl⟩
    · -- the assignment is the last step
      obtain ⟨-, sameLast⟩ := List.append_inj' split rfl
      cases sameLast
      exact Or.inl assigns
    · -- the assignment is one of the steps before
      rw [List.concat_eq_append, ← List.cons_append, ← List.append_assoc] at split
      obtain ⟨rfl, sameLast⟩ := List.append_inj' split rfl
      cases sameLast
      refine Or.inr ⟨none step (by simp), before, found, between, rfl, assigns, ?_⟩
      intro later member
      exact none later (by simp [member])
  · rintro (assigns | ⟨none, before, found, after, rfl, assigns, noneLater⟩)
    · exact ⟨steps, step, [], rfl, assigns, nofun⟩
    · refine ⟨before, found, after ++ [step], by simp, assigns, ?_⟩
      intro later member
      rcases List.mem_append.1 member with among | last
      · exact noneLater later among
      · rw [List.mem_singleton.1 last]
        exact none

/-- There is a last assignment to a name as soon as there is any. -/
theorem exists_lastAssigned_iff (steps : List Step) (name : Text) :
    (∃ value, LastAssigned steps name value) ↔
      ∃ step ∈ steps, ∃ value, step.Assigns name value := by
  constructor
  · rintro ⟨value, before, step, after, rfl, assigns, -⟩
    exact ⟨step, by simp, value, assigns⟩
  · intro any
    induction steps with
    | nil =>
      obtain ⟨step, member, -⟩ := any
      cases member
    | cons step rest ih =>
      by_cases later : ∃ other ∈ rest, ∃ value, other.Assigns name value
      · -- the last assignment is still the one in the rest
        obtain ⟨value, before, found, after, rfl, assigns, none⟩ := ih later
        exact ⟨value, step :: before, found, after, rfl, assigns, none⟩
      · obtain ⟨found, member, value, assigns⟩ := any
        rcases List.mem_cons.1 member with rfl | inRest
        · refine ⟨value, [], found, rest, rfl, assigns, ?_⟩
          intro other among otherValue assignsLater
          exact later ⟨other, among, otherValue, assignsLater⟩
        · exact absurd ⟨found, inRest, value, assigns⟩ later

namespace Session

/-! ## The invariant -/

/-- Whether the environment of a session is the replay of the assignments in some steps, and only
names are bound in it. -/
structure Replays (session : Session) (steps : List Step) : Prop where
  /-- A name has the value that was last assigned to it. -/
  bound : ∀ name value,
    session.environment.get? name = some value ↔ LastAssigned steps name value
  /-- What is bound is a name. -/
  named : ∀ name value, session.environment.get? name = some value → isName name = true

/-- A new session replays no steps. -/
theorem replays_new (limits : Limits) : Replays { limits } [] := by
  refine ⟨fun name value => ⟨nofun, ?_⟩, nofun⟩
  rintro ⟨before, step, after, split, -⟩
  cases before <;> cases split

/-- A line keeps the invariant, whatever it does. -/
theorem Replays.execute {session : Session} {steps : List Step} (replays : session.Replays steps)
    (line : Text) :
    (session.execute line).after.Replays (steps ++ [session.execute line]) := by
  by_cases assigned : ∃ name value, (session.execute line).Assigns name value
  · obtain ⟨name, value, assigns⟩ := assigned
    obtain ⟨after, valid⟩ := after_of_assigned assigns
    have only : ∀ other held, (session.execute line).Assigns other held ↔
        name = other ∧ value = held := by
      intro other held
      rw [Step.Assigns, show (session.execute line).result = _ from assigns]
      simp
    rw [after]
    constructor
    · intro other held
      rw [lastAssigned_concat, only]
      by_cases same : other = name
      · -- the new value takes the place of any older one
        subst same
        rw [bind, Environment.get?_bind_self]
        simp [only]
      · -- other names keep their values
        have different : name ≠ other := Ne.symm same
        rw [bind, Environment.get?_bind_of_ne _ _ same, replays.bound]
        simp [only, different]
    · intro other held found
      by_cases same : other = name
      · rw [same]
        exact valid
      · rw [bind, Environment.get?_bind_of_ne _ _ same] at found
        exact replays.named other held found
  · -- nothing is assigned, so nothing changes
    have none : ∀ name value, ¬ (session.execute line).Assigns name value := by
      intro name value assigns
      exact assigned ⟨name, value, assigns⟩
    rw [after_of_not_assigned none]
    refine ⟨?_, replays.named⟩
    intro name value
    rw [replays.bound, lastAssigned_concat]
    simp [none]

/-- The invariant holds after every line of a run. -/
theorem Replays.trace {session : Session} {past : List Step} (replays : session.Replays past)
    {lines : List Text} {earlier later : List Step} {step : Step}
    (run : session.trace lines = earlier ++ step :: later) :
    step.after.Replays (past ++ (earlier ++ [step])) := by
  induction lines generalizing session past earlier with
  | nil => cases earlier <;> cases run
  | cons line rest ih =>
    rw [Session.trace] at run
    cases earlier with
    | nil =>
      cases run
      exact replays.execute line
    | cons first earlier =>
      obtain ⟨rfl, runRest⟩ := List.cons.inj run
      have replaysRest := ih (replays.execute line) runRest
      rw [List.append_assoc] at replaysRest
      exact replaysRest

end Session

/-! ## Lines that can be left out -/

/-- The items at the positions that are kept. -/
def keepWhere {α : Type} (keep : Nat → Bool) : List α → List α
  | [] => []
  | item :: rest =>
      let later := keepWhere (fun position => keep (position + 1)) rest
      if keep 0 then item :: later else later

/-- The first item is kept. -/
theorem keepWhere_cons_of_kept {α : Type} {keep : Nat → Bool} (kept : keep 0 = true) (item : α)
    (rest : List α) :
    keepWhere keep (item :: rest) =
      item :: keepWhere (fun position => keep (position + 1)) rest := by
  rw [keepWhere, kept]
  rfl

/-- The first item is left out. -/
theorem keepWhere_cons_of_left {α : Type} {keep : Nat → Bool} (left : keep 0 = false) (item : α)
    (rest : List α) :
    keepWhere keep (item :: rest) = keepWhere (fun position => keep (position + 1)) rest := by
  rw [keepWhere, left]
  rfl

namespace Session

/-- The session after lines. -/
def afterAll (session : Session) (lines : List Text) : Session :=
  lines.foldl (fun session line => (session.execute line).after) session

/-- The first line comes before the others. -/
theorem afterAll_cons (session : Session) (line : Text) (rest : List Text) :
    session.afterAll (line :: rest) = (session.execute line).after.afterAll rest := rfl

/-- Lines that assign nothing can be left out: the other lines have the same steps, and the session
after all of them is the same. -/
theorem trace_keepWhere (session : Session) (lines : List Text) (keep : Nat → Bool)
    (unassigned : ∀ (position : Nat) (step : Step), (session.trace lines)[position]? = some step →
      keep position = false → ∀ name value, ¬ step.Assigns name value) :
    session.trace (keepWhere keep lines) = keepWhere keep (session.trace lines) ∧
      session.afterAll (keepWhere keep lines) = session.afterAll lines := by
  induction lines generalizing session keep with
  | nil => exact ⟨rfl, rfl⟩
  | cons line rest ih =>
    have unassignedRest : ∀ (position : Nat) (step : Step),
        ((session.execute line).after.trace rest)[position]? = some step →
          keep (position + 1) = false → ∀ name value, ¬ step.Assigns name value := by
      intro position step found
      exact unassigned (position + 1) step found
    obtain ⟨sameTrace, sameAfter⟩ := ih _ (fun position => keep (position + 1)) unassignedRest
    have first : session.trace (line :: rest) =
        session.execute line :: (session.execute line).after.trace rest := rfl
    rw [first, afterAll_cons]
    cases kept : keep 0 with
    | true =>
      rw [keepWhere_cons_of_kept kept, keepWhere_cons_of_kept kept, trace, sameTrace, afterAll_cons,
        sameAfter]
      exact ⟨rfl, rfl⟩
    | false =>
      -- the line that is left out does not change the session of the lines after it
      have same : (session.execute line).after = session :=
        after_of_not_assigned (unassigned 0 _ rfl kept)
      rw [keepWhere_cons_of_left kept, keepWhere_cons_of_left kept]
      rw [same] at sameTrace sameAfter ⊢
      exact ⟨sameTrace, sameAfter⟩

/-- The environment of a session is the replay of its successful assignments.

After each line of a new session a name is bound exactly when a line so far assigned a value to it,
and to the value of the last such line; and every name that is bound has alphabetic characters only,
at least one. A line that assigns nothing leaves its session as it is. So any of these lines can be
deleted: neither the steps of the other lines nor the environment at the end change. -/
theorem environment_replays_assignments (limits : Limits) (lines : List Text) :
    (∀ (earlier later : List Step) (step : Step),
      trace { limits } lines = earlier ++ step :: later → ∀ name,
        ((∃ value, step.after.environment.get? name = some value) ↔
          ∃ past ∈ earlier ++ [step], ∃ value, past.result = .ok (.assigned name value)) ∧
        (∀ value, step.after.environment.get? name = some value ↔
          LastAssigned (earlier ++ [step]) name value) ∧
        ((∃ value, step.after.environment.get? name = some value) →
          name ≠ [] ∧ ∀ c ∈ name, isAlphabetic c = true)) ∧
    (∀ (session : Session) (line : Text),
      (∀ name value, (session.execute line).result ≠ .ok (.assigned name value)) →
        (session.execute line).after = session) ∧
    ∀ keep : Nat → Bool,
      (∀ (position : Nat) (step : Step), (trace { limits } lines)[position]? = some step →
        keep position = false → ∀ name value, step.result ≠ .ok (.assigned name value)) →
      trace { limits } (keepWhere keep lines) = keepWhere keep (trace { limits } lines) ∧
        (afterAll { limits } (keepWhere keep lines)).environment =
          (afterAll { limits } lines).environment := by
  refine ⟨?_, fun session line => after_of_not_assigned, ?_⟩
  · intro earlier later step run name
    have replays : step.after.Replays (earlier ++ [step]) := (replays_new limits).trace run
    refine ⟨?_, replays.bound name, ?_⟩
    · rw [exists_congr (replays.bound name)]
      exact exists_lastAssigned_iff _ name
    · rintro ⟨value, found⟩
      have valid := replays.named name value found
      rw [isName, Bool.and_eq_true, List.all_eq_true] at valid
      refine ⟨?_, valid.2⟩
      rintro rfl
      cases valid.1
  · intro keep unassigned
    obtain ⟨sameTrace, sameAfter⟩ := trace_keepWhere { limits } lines keep unassigned
    exact ⟨sameTrace, congrArg Session.environment sameAfter⟩

/-- The line `y` fails between `x=i` and `x`, and could as well be left out. -/
theorem environment_replays_assignments_failure :
    trace {} [['x', '=', 'i'], ['x']] =
      keepWhere (fun position => position != 1) (trace {} [['x', '=', 'i'], ['y'], ['x']]) := by
  refine ((environment_replays_assignments {} [['x', '=', 'i'], ['y'], ['x']]).2.2
    (fun position => position != 1) ?_).1
  intro position step found left name value
  have second : position = 1 := by simpa using left
  subst second
  cases found
  nofun

end Session

end ComplexReckoner
