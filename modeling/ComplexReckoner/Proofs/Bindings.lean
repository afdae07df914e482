import Mathlib.Data.List.Dedup
import Mathlib.Data.List.Induction
import ComplexReckoner.Environment

/-! # Bindings one after another

An environment that is made by bindings forgets their history. It keeps the last value of every name
and nothing else, so the order of its names is the order of their bytes, whatever the order of the
bindings was.

* `LastBound` tells the last value of a name from the bindings alone,
* `Environment.get?_ofBindings` says that this is the value that is found,
* `Environment.mem_names_ofBindings` says that nothing else is listed,
* `Environment.mergeSort_of_perm` says that the listing is in order of names, in whatever order the
  bindings are met. -/

namespace ComplexReckoner

variable {α : Type}

/-! ## The order of names -/

namespace Text

/-- A text does not come after another one when it is the same or comes before it. -/
theorem not_precedes_iff (first second : Text) :
    (!second.precedes first) = true ↔ first = second ∨ first.precedes second = true := by
  rw [Bool.not_eq_true']
  constructor
  · intro notAbove
    by_cases same : first = second
    · exact Or.inl same
    · rcases precedes_or_of_ne same with below | above
      · exact Or.inr below
      · rw [notAbove] at above
        cases above
  · rintro (rfl | below)
    · exact precedes_self first
    · rw [Bool.eq_false_iff]
      intro above
      exact ne_of_precedes (precedes_trans below above) rfl

/-- Not to come after is transitive. -/
theorem not_precedes_trans {first second third : Text} (below : (!second.precedes first) = true)
    (above : (!third.precedes second) = true) : (!third.precedes first) = true := by
  rw [not_precedes_iff] at below above ⊢
  rcases below with rfl | below
  · exact above
  · rcases above with rfl | above
    · exact Or.inr below
    · exact Or.inr (precedes_trans below above)

/-- Of two texts one does not come after the other. -/
theorem not_precedes_total (first second : Text) :
    (!second.precedes first || !first.precedes second) = true := by
  rw [Bool.or_eq_true, not_precedes_iff, not_precedes_iff]
  by_cases same : first = second
  · exact Or.inl (Or.inl same)
  · exact (precedes_or_of_ne same).imp Or.inr Or.inr

/-- Only one text comes neither before nor after a text. -/
theorem not_precedes_antisymm {first second : Text} (below : (!second.precedes first) = true)
    (above : (!first.precedes second) = true) : first = second := by
  rcases (not_precedes_iff first second).1 below with same | before
  · exact same
  · rw [before] at above
    cases above

end Text

/-! ## The last value of a name -/

/-- Whether a value comes from the last of some bindings that is a binding of a name. -/
def LastBound (bindings : List (Text × α)) (name : Text) (value : α) : Prop :=
  ∃ before after, bindings = before ++ (name, value) :: after ∧
    ∀ binding ∈ after, binding.1 ≠ name

/-- The last value of a name is the first one that is met from the end. -/
theorem lookup_reverse_eq_some_iff (bindings : List (Text × α)) (name : Text) (value : α) :
    bindings.reverse.lookup name = some value ↔ LastBound bindings name value := by
  rw [List.lookup_eq_some_iff]
  constructor
  · rintro ⟨after, before, split, apart⟩
    refine ⟨before.reverse, after.reverse, ?_, ?_⟩
    · simpa using congrArg List.reverse split
    · intro binding member same
      have different := apart binding (List.mem_reverse.1 member)
      rw [bne_iff_ne] at different
      exact different same.symm
  · rintro ⟨before, after, rfl, apart⟩
    refine ⟨after.reverse, before.reverse, by simp, ?_⟩
    intro binding member
    rw [bne_iff_ne]
    exact (apart binding (List.mem_reverse.1 member)).symm

/-- A name has no last value when it is not among the names that are bound. -/
theorem lookup_reverse_eq_none_iff (bindings : List (Text × α)) (name : Text) :
    bindings.reverse.lookup name = none ↔ name ∉ bindings.map Prod.fst := by
  rw [List.lookup_eq_none_iff, List.mem_map]
  constructor
  · rintro apart ⟨binding, member, rfl⟩
    have different := apart binding (List.mem_reverse.2 member)
    rw [bne_iff_ne] at different
    exact different rfl
  · intro missing binding member
    rw [bne_iff_ne]
    rintro rfl
    exact missing ⟨binding, List.mem_reverse.1 member, rfl⟩

namespace Environment

/-! ## The listing of an environment -/

/-- The names of an environment, as they are listed. -/
def names (environment : Environment α) : List Text := environment.entries.map Prod.fst

/-- The names ascend in the order of their bytes. -/
theorem pairwise_names (environment : Environment α) :
    environment.names.Pairwise fun earlier later =>
      List.Lex (fun lower upper => lower.toNat < upper.toNat) earlier.utf8 later.utf8 := by
  rw [names, List.pairwise_map]
  refine environment.ascending.imp ?_
  intro earlier later below
  exact (Text.precedes_iff_lex _ _).1 below

/-- No name is listed twice. -/
theorem nodup_names (environment : Environment α) : environment.names.Nodup := by
  rw [names, List.Nodup, List.pairwise_map]
  exact environment.ascending.imp fun below => Text.ne_of_precedes below

/-- The names that are listed are those that have a value. -/
theorem mem_names_iff (environment : Environment α) (name : Text) :
    name ∈ environment.names ↔ environment.get? name ≠ none := by
  rw [names, List.mem_map, Option.ne_none_iff_exists']
  constructor
  · rintro ⟨⟨key, value⟩, member, rfl⟩
    exact ⟨value, (environment.mem_entries_iff key value).1 member⟩
  · rintro ⟨value, found⟩
    exact ⟨(name, value), (environment.mem_entries_iff name value).2 found, rfl⟩

/-- The entries of an environment, met in any order, are its listing when they are sorted by
name. -/
theorem mergeSort_of_perm (environment : Environment α) {met : List (Text × α)}
    (perm : met.Perm environment.entries) :
    met.mergeSort (fun first second => !second.1.precedes first.1) = environment.entries := by
  have listed := (List.mergeSort_perm met fun first second => !second.1.precedes first.1).trans perm
  have sorted : (met.mergeSort fun first second => !second.1.precedes first.1).Pairwise
      fun first second => (!second.1.precedes first.1) = true := by
    apply List.pairwise_mergeSort
    · intro first second third below above
      exact Text.not_precedes_trans below above
    · intro first second
      exact Text.not_precedes_total first.1 second.1
  refine List.Perm.eq_of_pairwise ?_ sorted ?_ listed
  · -- entries that come neither before nor after each other have the same name, so the same value
    rintro ⟨name, value⟩ ⟨other, held⟩ member memberToo below above
    have same : name = other := Text.not_precedes_antisymm below above
    subst same
    have found := (environment.mem_entries_iff name value).1 (listed.mem_iff.1 member)
    have foundToo := (environment.mem_entries_iff name held).1 memberToo
    rw [found] at foundToo
    rw [Option.some.inj foundToo]
  · refine environment.ascending.imp ?_
    intro earlier later below
    exact (Text.not_precedes_iff _ _).2 (Or.inr below)

/-! ## Bindings in a row -/

/-- The environment after bindings, which are made from left to right. -/
def ofBindings (bindings : List (Text × α)) : Environment α :=
  bindings.foldl (fun environment binding => environment.bind binding.1 binding.2) ∅

/-- The last binding is made after the others. -/
theorem ofBindings_concat (bindings : List (Text × α)) (binding : Text × α) :
    ofBindings (bindings ++ [binding]) = (ofBindings bindings).bind binding.1 binding.2 := by
  rw [ofBindings, List.foldl_concat]
  rfl

/-- A name has the value that is met first from the end of the bindings. -/
theorem get?_ofBindings (bindings : List (Text × α)) (name : Text) :
    (ofBindings bindings).get? name = bindings.reverse.lookup name := by
  induction bindings using List.reverseRecOn with
  | nil => rfl
  | append_singleton bindings binding ih =>
    obtain ⟨key, value⟩ := binding
    rw [ofBindings_concat, List.reverse_concat, List.lookup_cons]
    by_cases same : name = key
    · -- this binding takes the place of any older one
      subst same
      rw [get?_bind_self, beq_self_eq_true]
    · rw [get?_bind_of_ne _ _ same, beq_eq_false_iff_ne.2 same, ih]

/-- A name has the value that it was last bound to. -/
theorem get?_ofBindings_eq_some_iff (bindings : List (Text × α)) (name : Text) (value : α) :
    (ofBindings bindings).get? name = some value ↔ LastBound bindings name value := by
  rw [get?_ofBindings, lookup_reverse_eq_some_iff]

/-- A name has no value when it was not bound. -/
theorem get?_ofBindings_eq_none_iff (bindings : List (Text × α)) (name : Text) :
    (ofBindings bindings).get? name = none ↔ name ∉ bindings.map Prod.fst := by
  rw [get?_ofBindings, lookup_reverse_eq_none_iff]

/-- The names that are listed are those that were bound. -/
theorem mem_names_ofBindings (bindings : List (Text × α)) (name : Text) :
    name ∈ (ofBindings bindings).names ↔ name ∈ bindings.map Prod.fst := by
  rw [mem_names_iff, Ne, get?_ofBindings_eq_none_iff, not_not]

/-- The size counts the different names that were bound. -/
theorem size_ofBindings (bindings : List (Text × α)) :
    (ofBindings bindings).size = (bindings.map Prod.fst).dedup.length := by
  have sameNames : (ofBindings bindings).names.Perm (bindings.map Prod.fst).dedup := by
    rw [List.perm_ext_iff_of_nodup (nodup_names _) (List.nodup_dedup _)]
    intro name
    rw [mem_names_ofBindings, List.mem_dedup]
  calc (ofBindings bindings).size
      = (ofBindings bindings).names.length := by rw [names, List.length_map, size]
    _ = (bindings.map Prod.fst).dedup.length := sameNames.length_eq

/-- Nothing is bound only when no binding was made. -/
theorem isEmpty_ofBindings_iff (bindings : List (Text × α)) :
    (ofBindings bindings).isEmpty = true ↔ bindings = [] := by
  rw [isEmpty, List.isEmpty_iff]
  constructor
  · intro nothing
    rw [List.eq_nil_iff_forall_not_mem]
    intro binding member
    have listed := (mem_names_ofBindings bindings binding.1).2 (List.mem_map_of_mem member)
    rw [names, nothing] at listed
    cases listed
  · rintro rfl
    rfl

/-- Bindings are listed the same when they agree on the last value of every name, and only then. -/
theorem entries_ofBindings_eq_iff (bindings others : List (Text × α)) :
    (ofBindings bindings).entries = (ofBindings others).entries ↔
      ∀ name value, LastBound bindings name value ↔ LastBound others name value := by
  constructor
  · intro same name value
    rw [← get?_ofBindings_eq_some_iff, ← get?_ofBindings_eq_some_iff, get?, get?, same]
  · intro agree
    have same : ofBindings bindings = ofBindings others := by
      refine ext_get? fun name => Option.ext fun value => ?_
      rw [get?_ofBindings_eq_some_iff, get?_ofBindings_eq_some_iff]
      exact agree name value
    rw [same]

/-- An environment is a map in which the last binding of a name counts, and is listed in order.

After any bindings, of any names, a name has the value that it was last bound to, and no value if it
was not bound. The listing has each name that was bound exactly once, with that value, and the bytes
of the names strictly ascend; and the entries become the listing when they are sorted by name, in
whatever order they are met. The size is the number of different names that were bound and the
length of the listing, and the environment is empty exactly when nothing was bound. Two sequences of
bindings have the same listing exactly when they agree on the last value of every name. -/
theorem environment_is_last_write_map (bindings : List (Text × α)) :
    let environment := ofBindings bindings
    let bound := bindings.map Prod.fst
    (∀ name, (∀ value, environment.get? name = some value ↔ LastBound bindings name value) ∧
      (environment.get? name = none ↔ name ∉ bound)) ∧
    ((∀ name value, (name, value) ∈ environment.entries ↔ LastBound bindings name value) ∧
      (∀ name, environment.names.count name = if name ∈ bound then 1 else 0) ∧
      environment.names.Pairwise (fun earlier later =>
        List.Lex (fun lower upper => lower.toNat < upper.toNat) earlier.utf8 later.utf8) ∧
      ∀ met : List (Text × α), met.Perm environment.entries →
        met.mergeSort (fun first second => !second.1.precedes first.1) = environment.entries) ∧
    (environment.size = bound.dedup.length ∧ environment.size = environment.entries.length) ∧
    (environment.isEmpty = true ↔ bindings = []) ∧
    ∀ others : List (Text × α), (ofBindings others).entries = environment.entries ↔
      ∀ name value, LastBound others name value ↔ LastBound bindings name value := by
  intro environment bound
  refine ⟨fun name => ⟨get?_ofBindings_eq_some_iff bindings name,
    get?_ofBindings_eq_none_iff bindings name⟩, ⟨?_, ?_, environment.pairwise_names,
    fun met => environment.mergeSort_of_perm⟩, ⟨size_ofBindings bindings, rfl⟩,
    isEmpty_ofBindings_iff bindings, fun others => entries_ofBindings_eq_iff others bindings⟩
  · intro name value
    rw [mem_entries_iff]
    exact get?_ofBindings_eq_some_iff bindings name value
  · intro name
    rw [environment.nodup_names.count]
    exact if_congr (mem_names_ofBindings bindings name) rfl rfl

/-- A character of four bytes is bound twice, and the empty name and a character of three bytes once
each. The listing has the longer name last, though it was bound first, and the value it was bound to
last. -/
theorem environment_is_last_write_map_repeated :
    let short : Text := [Char.ofNat 0xFB00]
    let long : Text := [Char.ofNat 0x1D400]
    let environment := ofBindings [(long, 1), (short, 2), ([], 3), (long, 4)]
    environment.entries = [([], 3), (short, 2), (long, 4)] ∧
      environment.get? long = some 4 ∧ environment.size = 3 ∧
      environment.names.Pairwise (fun earlier later =>
        List.Lex (fun lower upper => lower.toNat < upper.toNat) earlier.utf8 later.utf8) ∧
      [(long, 4), ([], 3), (short, 2)].mergeSort (fun first second =>
        !second.1.precedes first.1) = environment.entries := by
  intro short long environment
  have listed : environment.entries = [([], 3), (short, 2), (long, 4)] := by decide
  obtain ⟨values, ⟨-, -, ascends, sorted⟩, ⟨size, -⟩, -, -⟩ :=
    environment_is_last_write_map [(long, 1), (short, 2), ([], 3), (long, 4)]
  refine ⟨listed, ?_, size, ascends, ?_⟩
  · exact ((values long).1 4).2 ⟨[(long, 1), (short, 2), ([], 3)], [], rfl, nofun⟩
  · refine sorted _ ?_
    rw [listed]
    decide

end Environment

end ComplexReckoner
