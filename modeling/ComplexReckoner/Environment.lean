import ComplexReckoner.Text.Utf8

/-! # Environments

An environment binds names to values. The last binding of a name counts, nothing is ever unbound,
and the bindings are listed in ascending order of their names, which compare by their UTF-8
bytes. -/

namespace ComplexReckoner

/-- Named values, in strictly ascending order of their names. -/
structure Environment (α : Type) where
  /-- The names and their values. -/
  entries : List (Text × α)
  /-- No name occurs twice, and the names ascend. -/
  ascending : entries.Pairwise fun earlier later => earlier.1.precedes later.1

namespace Environment

variable {α : Type}

/-! ## Entries in order -/

/-- Puts a binding into entries in order, in the place of an older one for the same name. -/
def bindEntry (name : Text) (value : α) : List (Text × α) → List (Text × α)
  | [] => [(name, value)]
  | (key, held) :: rest =>
      if name.precedes key then (name, value) :: (key, held) :: rest
      else if name = key then (name, value) :: rest
      else (key, held) :: bindEntry name value rest

/-- Every entry after a binding is the new one or an old one. -/
theorem mem_bindEntry {name : Text} {value : α} {entry : Text × α} {entries : List (Text × α)}
    (member : entry ∈ bindEntry name value entries) : entry = (name, value) ∨ entry ∈ entries := by
  induction entries with
  | nil => simpa [bindEntry] using member
  | cons head rest ih =>
    obtain ⟨key, held⟩ := head
    simp only [bindEntry] at member
    split at member
    · simpa using member
    · split at member
      · simp only [List.mem_cons] at member ⊢
        exact member.imp_right Or.inr
      · simp only [List.mem_cons] at member ⊢
        rcases member with same | later
        · exact Or.inr (Or.inl same)
        · exact (ih later).imp_right Or.inr

/-- A binding keeps entries in order. -/
theorem pairwise_bindEntry (name : Text) (value : α) {entries : List (Text × α)}
    (ascending : entries.Pairwise fun earlier later => earlier.1.precedes later.1) :
    (bindEntry name value entries).Pairwise fun earlier later => earlier.1.precedes later.1 := by
  induction entries with
  | nil => simp [bindEntry]
  | cons head rest ih =>
    obtain ⟨key, held⟩ := head
    obtain ⟨above, ascendingRest⟩ := List.pairwise_cons.1 ascending
    simp only [bindEntry]
    split
    · next below =>
      refine List.pairwise_cons.2 ⟨fun entry member => ?_, ascending⟩
      rcases List.mem_cons.1 member with rfl | later
      · exact below
      · exact Text.precedes_trans below (above entry later)
    · next notBelow =>
      split
      · next same => exact List.pairwise_cons.2 ⟨fun entry member => same ▸ above entry member,
          ascendingRest⟩
      · next different =>
        refine List.pairwise_cons.2 ⟨fun entry member => ?_, ih ascendingRest⟩
        rcases mem_bindEntry member with rfl | later
        · exact (Text.precedes_or_of_ne different).resolve_left notBelow
        · exact above entry later

/-! ## Operations -/

/-- The environment without bindings. -/
def empty : Environment α := ⟨[], .nil⟩

instance : EmptyCollection (Environment α) := ⟨empty⟩

/-- The value of a name, if it is bound. -/
def get? (environment : Environment α) (name : Text) : Option α := environment.entries.lookup name

/-- Binds a name, whatever its characters are. -/
def bind (environment : Environment α) (name : Text) (value : α) : Environment α :=
  ⟨bindEntry name value environment.entries, pairwise_bindEntry name value environment.ascending⟩

/-- The number of names that are bound. -/
def size (environment : Environment α) : Nat := environment.entries.length

/-- Whether no name is bound. -/
def isEmpty (environment : Environment α) : Bool := environment.entries.isEmpty

/-- A name has the value it was last bound to. -/
@[simp] theorem get?_bind_self (environment : Environment α) (name : Text) (value : α) :
    (environment.bind name value).get? name = some value := by
  simp only [get?, bind]
  induction environment.entries with
  | nil => simp [bindEntry]
  | cons head rest ih =>
    obtain ⟨key, held⟩ := head
    simp only [bindEntry]
    split
    · simp
    · split
      · simp
      · next different => simp [List.lookup_cons, beq_eq_false_iff_ne.2 different, ih]

/-- A binding does not change the value of any other name. -/
theorem get?_bind_of_ne (environment : Environment α) {name other : Text} (value : α)
    (different : other ≠ name) :
    (environment.bind name value).get? other = environment.get? other := by
  simp only [get?, bind]
  induction environment.entries with
  | nil => simp [bindEntry, List.lookup_cons, beq_eq_false_iff_ne.2 different]
  | cons head rest ih =>
    obtain ⟨key, held⟩ := head
    simp only [bindEntry]
    split
    · simp [List.lookup_cons, beq_eq_false_iff_ne.2 different]
    · split
      · next same => subst same; simp [List.lookup_cons, beq_eq_false_iff_ne.2 different]
      · simp [List.lookup_cons, ih]

/-! ## Environments by their bindings -/

/-- A name is listed with a value exactly when it has this value. -/
theorem mem_entries_iff (environment : Environment α) (name : Text) (value : α) :
    (name, value) ∈ environment.entries ↔ environment.get? name = some value := by
  rw [get?, List.lookup_eq_some_iff]
  constructor
  · intro member
    obtain ⟨before, after, split⟩ := List.append_of_mem member
    refine ⟨before, after, split, fun entry among => ?_⟩
    -- the entries before it have names that come before its own
    have ascending := environment.ascending
    rw [split, List.pairwise_append] at ascending
    have below : entry.1.precedes name := ascending.2.2 entry among _ List.mem_cons_self
    rw [bne_iff_ne]
    exact (Text.ne_of_precedes below).symm
  · rintro ⟨before, after, split, -⟩
    rw [split]
    exact List.mem_append_right before List.mem_cons_self

/-- No entry is listed twice. -/
theorem nodup_entries (environment : Environment α) : environment.entries.Nodup := by
  refine environment.ascending.imp ?_
  rintro earlier later below rfl
  exact Text.ne_of_precedes below rfl

/-- An environment is determined by the values of names in it. -/
theorem ext_get? {first second : Environment α}
    (same : ∀ name, first.get? name = second.get? name) : first = second := by
  have listed : first.entries.Perm second.entries := by
    rw [List.perm_ext_iff_of_nodup first.nodup_entries second.nodup_entries]
    rintro ⟨name, value⟩
    rw [mem_entries_iff, mem_entries_iff, same]
  have entries : first.entries = second.entries := by
    refine List.Perm.eq_of_pairwise ?_ first.ascending second.ascending listed
    -- no two names come before each other
    intro entry other _ _ below above
    exact absurd rfl (Text.ne_of_precedes (Text.precedes_trans below above))
  cases first
  cases second
  cases entries
  rfl

/-- Bindings of different names can be made in either order. -/
theorem bind_comm (environment : Environment α) {name other : Text} (value held : α)
    (different : name ≠ other) :
    (environment.bind name value).bind other held =
      (environment.bind other held).bind name value := by
  refine ext_get? fun key => ?_
  by_cases isName : key = name
  · subst isName
    rw [get?_bind_of_ne _ _ different, get?_bind_self, get?_bind_self]
  · rw [get?_bind_of_ne _ value isName]
    by_cases isOther : key = other
    · subst isOther
      rw [get?_bind_self, get?_bind_self]
    · rw [get?_bind_of_ne _ _ isOther, get?_bind_of_ne _ _ isOther, get?_bind_of_ne _ _ isName]

end Environment

end ComplexReckoner
