import ComplexReckoner.Resolution

/-! # Terms and their values

Which terms have a value, and what the fault of any other term is about. Whether a term has a value
depends on its characters and on the environment, and not on the place where it stands. -/

namespace ComplexReckoner

/-! ## The first character with a property -/

/-- No character is found exactly when none has the property. -/
theorem Text.first?_eq_none_iff (property : Char → Bool) (offset : Nat) (text : Text) :
    Text.first? property offset text = none ↔ ∀ c ∈ text, property c = false := by
  induction text generalizing offset with
  | nil => exact ⟨fun _ _ => nofun, fun _ => rfl⟩
  | cons c rest ih =>
    rw [Text.first?]
    by_cases found : property c = true
    · simp [found]
    · rw [if_neg found, ih]
      simp [found]

/-- The character that is found has the property, and stands where it is found. -/
theorem Text.first?_eq_some {property : Char → Bool} {offset place : Nat} {text : Text} {c : Char}
    (found : Text.first? property offset text = some (c, place)) :
    property c = true ∧ ∃ before after : Text,
      text = before ++ c :: after ∧ place = offset + before.byteSize := by
  induction text generalizing offset with
  | nil => cases found
  | cons d rest ih =>
    rw [Text.first?] at found
    by_cases here : property d = true
    · rw [if_pos here] at found
      cases found
      exact ⟨here, [], rest, rfl, rfl⟩
    · rw [if_neg here] at found
      obtain ⟨holds, before, after, rfl, rfl⟩ := ih found
      refine ⟨holds, d :: before, after, rfl, ?_⟩
      rw [Text.byteSize_cons, Nat.add_assoc]

namespace Environment

/-! ## Terms with a value -/

/-- A name that is looked up has the value it is bound to. -/
theorem lookUp_eq_ok_iff {α : Type} (environment : Environment α) (name : Text) (offset : Nat)
    (value : α) :
    environment.lookUp name offset = .ok value ↔ environment.get? name = some value := by
  rw [lookUp]
  cases environment.get? name with
  | none => exact ⟨nofun, nofun⟩
  | some held => exact ⟨fun same => congrArg some (Except.ok.inj same), fun same =>
      congrArg Except.ok (Option.some.inj same)⟩

/-- A name that is looked up without success is not bound. -/
theorem lookUp_eq_error {α : Type} {environment : Environment α} {name : Text} {offset : Nat}
    {fault : Fault} (fails : environment.lookUp name offset = .error fault) :
    environment.get? name = none ∧ fault = .undefinedVariable name (.ofText offset name) := by
  rw [lookUp] at fails
  cases held : environment.get? name with
  | none =>
    rw [held] at fails
    exact ⟨rfl, (Except.error.inj fails).symm⟩
  | some value =>
    rw [held] at fails
    cases fails

/-- A term of numeric characters is read as a number. -/
theorem resolve_of_numeric (environment : Environment ComplexFloat) {term : Text} (offset : Nat)
    (numeric : ∀ c ∈ term, isNumeric c = true) :
    environment.resolve term offset =
      (readNumber term).mapError fun flaw => .invalidLiteral term flaw (.ofText offset term) := by
  have breaking : Text.first? (fun c => !isNumeric c) offset term = none := by
    rw [Text.first?_eq_none_iff]
    intro c member
    rw [numeric c member]
    rfl
  rw [resolve, breaking]

/-- A term that could not be a number has a first character that breaks it. -/
theorem exists_first?_of_breaks {term : Text} (offset : Nat)
    (breaks : ∃ c ∈ term, isNumeric c = false) :
    ∃ found, Text.first? (fun c => !isNumeric c) offset term = some found := by
  cases breaking : Text.first? (fun c => !isNumeric c) offset term with
  | some found => exact ⟨found, rfl⟩
  | none =>
    obtain ⟨c, member, other⟩ := breaks
    have numeric := (Text.first?_eq_none_iff _ offset term).1 breaking c member
    rw [other] at numeric
    cases numeric

/-- A term of alphabetic characters that could not be a number is looked up. -/
theorem resolve_of_alphabetic (environment : Environment ComplexFloat) {term : Text} (offset : Nat)
    (breaks : ∃ c ∈ term, isNumeric c = false) (alphabetic : ∀ c ∈ term, isAlphabetic c = true) :
    environment.resolve term offset = environment.lookUp term offset := by
  have foreign : Text.first? (fun c => !isNumeric c && !isAlphabetic c) offset term = none := by
    rw [Text.first?_eq_none_iff]
    intro c member
    rw [alphabetic c member]
    simp
  obtain ⟨found, breaking⟩ := exists_first?_of_breaks offset breaks
  rw [resolve, breaking]
  simp only [foreign, if_pos (List.all_eq_true.2 alphabetic)]

/-- Any other term is blamed on one of its characters. -/
theorem resolve_of_neither (environment : Environment ComplexFloat) {term : Text} (offset : Nat)
    (breaks : ∃ c ∈ term, isNumeric c = false) (other : ¬ ∀ c ∈ term, isAlphabetic c = true) :
    ∃ (symbol : Char) (before after : Text), term = before ++ symbol :: after ∧
      environment.resolve term offset =
        .error (symbolFault term symbol (offset + before.byteSize)) := by
  obtain ⟨⟨c, place⟩, breaking⟩ := exists_first?_of_breaks offset breaks
  rw [resolve, breaking]
  cases foreign : Text.first? (fun c => !isNumeric c && !isAlphabetic c) offset term with
  | some found =>
    -- a character that no term can hold comes first
    obtain ⟨d, foreignPlace⟩ := found
    obtain ⟨-, before, after, split, rfl⟩ := Text.first?_eq_some foreign
    exact ⟨d, before, after, split, rfl⟩
  | none =>
    -- otherwise letters and digits are mixed, and the first letter is to blame
    obtain ⟨-, before, after, split, rfl⟩ := Text.first?_eq_some breaking
    refine ⟨c, before, after, split, ?_⟩
    rw [← List.all_eq_true] at other
    simp only [if_neg other]

/-- A term is of numeric characters, or not and of alphabetic ones, or neither. -/
theorem term_cases (term : Text) : (∀ c ∈ term, isNumeric c = true) ∨
    (∃ c ∈ term, isNumeric c = false) ∧
      ((∀ c ∈ term, isAlphabetic c = true) ∨ ¬ ∀ c ∈ term, isAlphabetic c = true) := by
  by_cases numeric : ∀ c ∈ term, isNumeric c = true
  · exact Or.inl numeric
  · refine Or.inr ⟨?_, Classical.em _⟩
    rw [← List.all_eq_true, Bool.not_eq_true, List.all_eq_false] at numeric
    simpa using numeric

/-- A term has a value when it is a number, or a name that is bound and could not be a number. -/
theorem resolve_eq_ok_iff (environment : Environment ComplexFloat) (term : Text) (offset : Nat)
    (value : ComplexFloat) :
    environment.resolve term offset = .ok value ↔
      (∀ c ∈ term, isNumeric c = true) ∧ readNumber term = .ok value ∨
        (∃ c ∈ term, isNumeric c = false) ∧ (∀ c ∈ term, isAlphabetic c = true) ∧
          environment.get? term = some value := by
  have apart : (∃ c ∈ term, isNumeric c = false) → ¬ ∀ c ∈ term, isNumeric c = true := by
    rintro ⟨c, member, other⟩ numeric
    rw [numeric c member] at other
    cases other
  rcases term_cases term with numeric | ⟨breaks, alphabetic | neither⟩
  · rw [resolve_of_numeric environment offset numeric]
    constructor
    · intro read
      cases number : readNumber term with
      | error flaw =>
        rw [number] at read
        cases read
      | ok found =>
        rw [number] at read
        exact Or.inl ⟨numeric, congrArg Except.ok (Except.ok.inj read)⟩
    · rintro (⟨-, number⟩ | ⟨breaks, -⟩)
      · rw [number]
        rfl
      · exact absurd numeric (apart breaks)
  · rw [resolve_of_alphabetic environment offset breaks alphabetic, lookUp_eq_ok_iff]
    constructor
    · intro bound
      exact Or.inr ⟨breaks, alphabetic, bound⟩
    · rintro (⟨numeric, -⟩ | ⟨-, -, bound⟩)
      · exact absurd numeric (apart breaks)
      · exact bound
  · obtain ⟨symbol, before, after, -, fails⟩ := resolve_of_neither environment offset breaks neither
    rw [fails]
    constructor
    · nofun
    · rintro (⟨numeric, -⟩ | ⟨-, alphabetic, -⟩)
      · exact absurd numeric (apart breaks)
      · exact absurd alphabetic neither

/-- The value of a term does not depend on where it stands. -/
theorem resolve_eq_ok_of_resolve_eq_ok {environment : Environment ComplexFloat} {term : Text}
    {offset : Nat} {value : ComplexFloat} (resolved : environment.resolve term offset = .ok value)
    (other : Nat) : environment.resolve term other = .ok value := by
  rw [resolve_eq_ok_iff] at resolved ⊢
  exact resolved

/-! ## Terms without a value -/

/-- What the fault of a term is about: a number that is miswritten, a name that is not bound, or one
of its characters. -/
theorem resolve_eq_error {environment : Environment ComplexFloat} {term : Text} {offset : Nat}
    {fault : Fault} (fails : environment.resolve term offset = .error fault) :
    (∃ flaw, fault = .invalidLiteral term flaw (.ofText offset term)) ∨
      (fault = .undefinedVariable term (.ofText offset term) ∧ environment.get? term = none ∧
        (∀ c ∈ term, isAlphabetic c = true) ∧ ∃ c ∈ term, isNumeric c = false) ∨
      ∃ (symbol : Char) (before after : Text), term = before ++ symbol :: after ∧
        fault = symbolFault term symbol (offset + before.byteSize) := by
  rcases term_cases term with numeric | ⟨breaks, alphabetic | neither⟩
  · rw [resolve_of_numeric environment offset numeric] at fails
    cases number : readNumber term with
    | ok value =>
      rw [number] at fails
      cases fails
    | error flaw =>
      rw [number] at fails
      exact Or.inl ⟨flaw, (Except.error.inj fails).symm⟩
  · rw [resolve_of_alphabetic environment offset breaks alphabetic] at fails
    obtain ⟨unbound, told⟩ := lookUp_eq_error fails
    exact Or.inr (Or.inl ⟨told, unbound, alphabetic, breaks⟩)
  · obtain ⟨symbol, before, after, split, blamed⟩ :=
      resolve_of_neither environment offset breaks neither
    rw [blamed] at fails
    exact Or.inr (Or.inr ⟨symbol, before, after, split, (Except.error.inj fails).symm⟩)

end Environment

end ComplexReckoner
