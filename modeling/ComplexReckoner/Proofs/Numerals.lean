import Mathlib.Data.List.Induction
import Mathlib.Data.List.TakeWhile
import Mathlib.Data.Nat.Digits.Defs
import ComplexReckoner.Proofs.Terms

/-! # The lexical grammar of terms

A term of digits, points and imaginary units is a number or a miswritten one, and the environment
has no say in it. Any other term is a name if all its characters are alphabetic, and is blamed on
one of its characters if not.

* `Numeral.Written` and `Numeral.value` say what a numeral is and which number it stands for,
* `SpellsNumber` lists the three forms of a number,
* `readNumber_eq_ok_iff` says that exactly these are read, and `readNumber_of_not_spellsNumber`
  what is told of everything else,
* `resolve_of_foreign` and `resolve_of_mixed` find the character that is to blame. -/

namespace ComplexReckoner

/-! ## What stands behind a mark -/

namespace Text

/-- The text behind the first occurrence of a mark, and none if there is no occurrence. -/
def behind (mark : Char) (text : Text) : Text := (text.dropWhile (· != mark)).drop 1

/-- All characters of a text in which a mark does not occur are other ones. -/
theorem bne_of_not_mem {mark : Char} {text : Text} (absent : mark ∉ text) :
    ∀ c ∈ text, (c != mark) = true := by
  intro c member
  simpa using fun same : c = mark => absent (same ▸ member)

/-- A cut leaves the text behind the mark. -/
theorem behind_append_cons {mark : Char} {before : Text} (first : mark ∉ before) (after : Text) :
    behind mark (before ++ mark :: after) = after := by
  rw [behind, List.dropWhile_append_of_pos (bne_of_not_mem first),
    List.dropWhile_cons_of_neg (by simp)]
  rfl

/-- Nothing stands behind a mark that does not occur. -/
theorem behind_of_not_mem {mark : Char} {text : Text} (absent : mark ∉ text) :
    behind mark text = [] := by
  rw [behind, List.dropWhile_eq_nil_iff.2 (bne_of_not_mem absent)]
  rfl

end Text

/-! ## Numerals -/

namespace Numeral

/-- Numerals are made of decimal digits, at least one, and at most one point. -/
structure Written (text : Text) : Prop where
  characters : ∀ c ∈ text, c.isDigit = true ∨ c = '.'
  oneDigit : ∃ c ∈ text, c.isDigit = true
  onePoint : text.count '.' ≤ 1

/-- Whether a text is a numeral is told by going through its characters. -/
theorem written_iff_all_any (text : Text) :
    ((text.all fun c => c.isDigit || c == '.') = true ∧ text.any Char.isDigit = true ∧
      text.count '.' ≤ 1) ↔ Written text := by
  rw [List.all_eq_true, List.any_eq_true]
  simp only [Bool.or_eq_true, beq_iff_eq]
  exact ⟨fun ⟨characters, oneDigit, onePoint⟩ => ⟨characters, oneDigit, onePoint⟩,
    fun written => ⟨written.characters, written.oneDigit, written.onePoint⟩⟩

instance (text : Text) : Decidable (Written text) :=
  decidable_of_iff _ (written_iff_all_any text)

/-- The digits of a numeral as numbers, the last one first. -/
def digits (text : Text) : List Nat :=
  ((text.filter Char.isDigit).map fun digit => digit.toNat - '0'.toNat).reverse

/-- The binary64 number of a numeral: all its digits as one decimal number, divided by ten for each
digit behind the point. -/
def value (text : Text) : Float :=
  Float.ofScientific (Nat.ofDigits 10 (digits text)) true (Text.behind '.' text).length

/-- Digits that are read from the first to the last add up to the number they denote in base ten. -/
theorem digitsValue_eq_ofDigits (text : Text) :
    digitsValue text =
      Nat.ofDigits 10 (text.map fun digit => digit.toNat - '0'.toNat).reverse := by
  induction text using List.reverseRecOn with
  | nil => rfl
  | append_singleton text digit ih =>
    unfold digitsValue at ih ⊢
    rw [List.foldl_append, List.foldl_cons, List.foldl_nil, ih, List.map_append,
      List.reverse_append, List.map_singleton, List.reverse_singleton, List.singleton_append,
      Nat.ofDigits_cons, Nat.add_comm]

/-- With at most one point, the parts of a text are what is left without it. -/
theorem exists_parts_of_onePoint {text : Text} (onePoint : text.count '.' ≤ 1) :
    ∃ whole, parts text = (whole, Text.behind '.' text) ∧
      whole ++ Text.behind '.' text = text.filter (· != '.') := by
  unfold parts
  cases cut : Text.cut? '.' text with
  | none =>
    have absent := (Text.cut?_eq_none_iff _ _).1 cut
    rw [Text.behind_of_not_mem absent, List.filter_eq_self.2 (Text.bne_of_not_mem absent)]
    exact ⟨text, rfl, List.append_nil text⟩
  | some halves =>
    obtain ⟨whole, fraction⟩ := halves
    obtain ⟨rfl, first⟩ := (Text.cut?_eq_some_iff _ _ _ _).1 cut
    have later : '.' ∉ fraction := by
      intro member
      have another := List.count_pos_iff.2 member
      rw [List.count_append, List.count_cons_self] at onePoint
      omega
    rw [Text.behind_append_cons first, List.filter_append, List.filter_cons_of_neg (by simp),
      List.filter_eq_self.2 (Text.bne_of_not_mem first),
      List.filter_eq_self.2 (Text.bne_of_not_mem later)]
    exact ⟨whole, rfl, rfl⟩

/-- A point is not a digit. -/
theorem ne_point_of_isDigit {c : Char} (digit : c.isDigit = true) : c ≠ '.' := by
  rintro rfl
  exact absurd digit (by decide)

/-- A text with at most one point is a numeral if the rest of it is digits, at least one. -/
theorem written_iff_of_onePoint {text : Text} (onePoint : text.count '.' ≤ 1) :
    Written text ↔ text.filter (· != '.') ≠ [] ∧
      ∀ c ∈ text.filter (· != '.'), c.isDigit = true := by
  constructor
  · intro written
    obtain ⟨digit, member, isDigit⟩ := written.oneDigit
    have kept : digit ∈ text.filter (· != '.') :=
      List.mem_filter.2 ⟨member, by simpa using ne_point_of_isDigit isDigit⟩
    refine ⟨List.ne_nil_of_mem kept, ?_⟩
    intro c among
    obtain ⟨inText, noPoint⟩ := List.mem_filter.1 among
    exact (written.characters c inText).resolve_right (by simpa using noPoint)
  · rintro ⟨nonempty, allDigits⟩
    obtain ⟨digit, among⟩ := List.exists_mem_of_ne_nil _ nonempty
    refine ⟨?_, ⟨digit, (List.mem_filter.1 among).1, allDigits digit among⟩, onePoint⟩
    intro c member
    by_cases point : c = '.'
    · exact Or.inr point
    · exact Or.inl (allDigits c (List.mem_filter.2 ⟨member, by simpa using point⟩))

/-- The digits of a numeral are all its characters other than the point. -/
theorem Written.filter_isDigit {text : Text} (written : Written text) :
    text.filter Char.isDigit = text.filter (· != '.') := by
  apply List.filter_congr
  intro c member
  rcases written.characters c member with digit | rfl
  · rw [digit]
    simpa using ne_point_of_isDigit digit
  · decide

/-- Numerals are read as the numbers they stand for, and no other texts are read. -/
theorem read_eq (text : Text) :
    read text = if Written text then .ok (value text)
      else .error (if 1 < text.count '.' then .repeatedPoint else .notANumber) := by
  unfold read
  by_cases many : 1 < text.count '.'
  · have unwritten : ¬ Written text := fun written => absurd written.onePoint (by omega)
    rw [if_pos many, if_neg unwritten, if_pos many]
  · have onePoint : text.count '.' ≤ 1 := by omega
    obtain ⟨whole, split, stripped⟩ := exists_parts_of_onePoint onePoint
    simp only [if_neg many, split, stripped]
    by_cases written : Written text
    · obtain ⟨nonempty, allDigits⟩ := (written_iff_of_onePoint onePoint).1 written
      have good : ((text.filter (· != '.')).isEmpty ||
          !(text.filter (· != '.')).all Char.isDigit) = false := by
        rw [List.isEmpty_eq_false_iff.2 nonempty, List.all_eq_true.2 allDigits]
        rfl
      rw [good, if_neg Bool.false_ne_true, if_pos written, value, digits, written.filter_isDigit,
        digitsValue_eq_ofDigits]
    · rw [if_neg written, if_pos]
      rw [written_iff_of_onePoint onePoint, ← List.all_eq_true] at written
      grind

end Numeral

/-! ## Numbers -/

/-- The three ways to write a number: the imaginary unit, a numeral, or a numeral with the imaginary
unit behind it. -/
inductive SpellsNumber : Text → ComplexFloat → Prop where
  | unit : SpellsNumber ['i'] ⟨0.0, 1.0⟩
  | real {numeral : Text} (written : Numeral.Written numeral) :
      SpellsNumber numeral ⟨Numeral.value numeral, 0.0⟩
  | imaginary {numeral : Text} (written : Numeral.Written numeral) :
      SpellsNumber (numeral ++ ['i']) ⟨0.0, Numeral.value numeral⟩

/-- There is no imaginary unit in a numeral. -/
theorem Numeral.Written.unit_not_mem {numeral : Text} (written : Written numeral) :
    'i' ∉ numeral := by
  intro member
  exact absurd (written.characters 'i' member) (by decide)

/-- A numeral is not empty. -/
theorem Numeral.Written.ne_nil {numeral : Text} (written : Written numeral) : numeral ≠ [] := by
  obtain ⟨digit, member, -⟩ := written.oneDigit
  exact List.ne_nil_of_mem member

/-- A literal without an imaginary unit is read like a numeral. -/
theorem readNumber_of_unit_not_mem {literal : Text} (absent : 'i' ∉ literal) :
    readNumber literal = (Numeral.read literal).map .ofReal := by
  rw [readNumber, (Text.cut?_eq_none_iff _ _).2 absent]

/-- A literal that ends with its only imaginary unit is read like the numeral before it. -/
theorem readNumber_append_unit {magnitude : Text} (first : 'i' ∉ magnitude)
    (nonempty : magnitude ≠ []) :
    readNumber (magnitude ++ ['i']) = (Numeral.read magnitude).map .ofImaginary := by
  rw [readNumber, (Text.cut?_eq_some_iff _ _ _ _).2 ⟨rfl, first⟩]
  split <;> grind

/-- A literal that goes on behind its first imaginary unit is not read. -/
theorem readNumber_of_goes_on {before : Text} (first : 'i' ∉ before) (c : Char) (after : Text) :
    readNumber (before ++ 'i' :: c :: after) = .error .misplacedUnit := by
  rw [readNumber, (Text.cut?_eq_some_iff _ _ _ _).2 ⟨rfl, first⟩]
  cases before <;> rfl

/-- A literal has no imaginary unit, or is one, or ends with the first one, or goes on behind it. -/
theorem literal_cases (literal : Text) : 'i' ∉ literal ∨ literal = ['i'] ∨
    (∃ magnitude, 'i' ∉ magnitude ∧ magnitude ≠ [] ∧ literal = magnitude ++ ['i']) ∨
    ∃ before c after, 'i' ∉ before ∧ literal = before ++ 'i' :: c :: after := by
  cases cut : Text.cut? 'i' literal with
  | none => exact Or.inl ((Text.cut?_eq_none_iff _ _).1 cut)
  | some halves =>
    obtain ⟨before, after⟩ := halves
    obtain ⟨rfl, first⟩ := (Text.cut?_eq_some_iff _ _ _ _).1 cut
    match before, after with
    | [], [] => exact Or.inr (Or.inl rfl)
    | c :: rest, [] => exact Or.inr (Or.inr (Or.inl ⟨c :: rest, first, nofun, rfl⟩))
    | before, c :: after => exact Or.inr (Or.inr (Or.inr ⟨before, c, after, first, rfl⟩))

/-- A number is read as what its spelling says. -/
theorem SpellsNumber.readNumber {literal : Text} {value : ComplexFloat}
    (spelled : SpellsNumber literal value) : readNumber literal = .ok value := by
  cases spelled with
  | unit => rfl
  | real written =>
    rw [readNumber_of_unit_not_mem written.unit_not_mem, Numeral.read_eq, if_pos written]
    rfl
  | imaginary written =>
    rw [readNumber_append_unit written.unit_not_mem written.ne_nil, Numeral.read_eq,
      if_pos written]
    rfl

/-- A literal that spells no number goes on behind its first imaginary unit, or else has more than
one point, or else has no digit, and this is told. -/
theorem readNumber_of_not_spellsNumber {literal : Text}
    (unspelled : ∀ value, ¬ SpellsNumber literal value) :
    readNumber literal = .error (if Text.behind 'i' literal ≠ [] then .misplacedUnit
      else if 2 ≤ literal.count '.' then .repeatedPoint else .notANumber) := by
  rcases literal_cases literal with absent | rfl | ⟨magnitude, first, nonempty, rfl⟩ |
    ⟨before, c, after, first, rfl⟩
  · have unwritten : ¬ Numeral.Written literal := fun written => unspelled _ (.real written)
    rw [readNumber_of_unit_not_mem absent, Numeral.read_eq, if_neg unwritten,
      Text.behind_of_not_mem absent, if_neg (not_not_intro rfl)]
    rfl
  · exact absurd .unit (unspelled _)
  · have unwritten : ¬ Numeral.Written magnitude := fun written => unspelled _ (.imaginary written)
    have samePoints : (magnitude ++ ['i']).count '.' = magnitude.count '.' := by
      rw [List.count_append]
      rfl
    rw [readNumber_append_unit first nonempty, Numeral.read_eq, if_neg unwritten,
      Text.behind_append_cons first, if_neg (not_not_intro rfl), samePoints]
    rfl
  · rw [readNumber_of_goes_on first, Text.behind_append_cons first, if_pos nofun]

/-- The literals that are read are the spellings of numbers. -/
theorem readNumber_eq_ok_iff (literal : Text) (value : ComplexFloat) :
    readNumber literal = .ok value ↔ SpellsNumber literal value := by
  refine ⟨fun read => ?_, SpellsNumber.readNumber⟩
  by_cases spelled : ∃ other, SpellsNumber literal other
  · obtain ⟨other, spelled⟩ := spelled
    rw [spelled.readNumber] at read
    rwa [← Except.ok.inj read]
  · rw [readNumber_of_not_spellsNumber (not_exists.1 spelled)] at read
    cases read

/-! ## The character that is to blame -/

/-- Whether a number can hold a character. -/
def IsNumberChar (c : Char) : Prop := c.isDigit = true ∨ c = '.' ∨ c = 'i'

instance (c : Char) : Decidable (IsNumberChar c) := inferInstanceAs (Decidable (_ ∨ _))

/-- Whether no term can hold a character: it is neither for numbers nor for names. -/
def IsForeign (c : Char) : Prop := ¬ IsNumberChar c ∧ ¬ isAlphabetic c = true

instance (c : Char) : Decidable (IsForeign c) := inferInstanceAs (Decidable (_ ∧ _))

/-- The numeric characters are those that a number can hold. -/
theorem isNumeric_eq_true_iff (c : Char) : isNumeric c = true ↔ IsNumberChar c := by
  simp [isNumeric, IsNumberChar, or_assoc]

/-- The characters that are neither numeric nor alphabetic are those that no term can hold. -/
theorem isForeign_iff (c : Char) : (!isNumeric c && !isAlphabetic c) = true ↔ IsForeign c := by
  simp [IsForeign, ← isNumeric_eq_true_iff]

/-- The first character with a property is found behind characters without it. -/
theorem Text.first?_append_cons {property : Char → Bool} {before : Text} {c : Char}
    (without : ∀ d ∈ before, ¬ property d = true) (here : property c = true) (offset : Nat)
    (after : Text) :
    Text.first? property offset (before ++ c :: after) =
      some (c, offset + Text.byteSize before) := by
  induction before generalizing offset with
  | nil => exact if_pos here
  | cons d before ih =>
    rw [List.forall_mem_cons] at without
    rw [List.cons_append, Text.first?, if_neg without.1, ih without.2, Text.byteSize_cons,
      Nat.add_assoc]

/-- A text in which a property holds somewhere has a first place for it. -/
theorem Text.exists_first {property : Char → Bool} {text : Text}
    (somewhere : ∃ c ∈ text, property c = true) :
    ∃ before c after, text = before ++ c :: after ∧ property c = true ∧
      ∀ d ∈ before, ¬ property d = true := by
  rw [← List.find?_isSome, Option.isSome_iff_exists] at somewhere
  obtain ⟨c, found⟩ := somewhere
  obtain ⟨here, before, after, split, without⟩ := List.find?_eq_some_iff_append.1 found
  exact ⟨before, c, after, split, here, fun d member => by simpa using without d member⟩

namespace Environment

variable (environment : Environment ComplexFloat) (offset : Nat)

/-- A term that holds a character which no term can hold is blamed on the first one. -/
theorem resolve_of_foreign {term : Text} (somewhere : ∃ c ∈ term, IsForeign c) :
    ∃ before symbol after, term = before ++ symbol :: after ∧
      environment.resolve term offset =
        .error (symbolFault term symbol (offset + Text.byteSize before)) ∧
      IsForeign symbol ∧ ∀ c ∈ before, ¬ IsForeign c := by
  simp only [← isForeign_iff] at somewhere ⊢
  obtain ⟨before, symbol, after, rfl, foreign, without⟩ := Text.exists_first somewhere
  refine ⟨before, symbol, after, rfl, ?_, foreign, without⟩
  have breaks : ∃ c ∈ before ++ symbol :: after, isNumeric c = false := by
    rw [Bool.and_eq_true, Bool.not_eq_true'] at foreign
    exact ⟨symbol, List.mem_append_right _ List.mem_cons_self, foreign.1⟩
  obtain ⟨found, breaking⟩ := exists_first?_of_breaks offset breaks
  rw [resolve, breaking]
  simp only [Text.first?_append_cons without foreign offset after]

/-- A term that mixes characters for numbers and for names is blamed on the first one that is not
for numbers. -/
theorem resolve_of_mixed {term : Text} (native : ∀ c ∈ term, ¬ IsForeign c)
    (breaks : ∃ c ∈ term, ¬ IsNumberChar c) (mixed : ∃ c ∈ term, ¬ isAlphabetic c = true) :
    ∃ before symbol after, term = before ++ symbol :: after ∧
      environment.resolve term offset =
        .error (symbolFault term symbol (offset + Text.byteSize before)) ∧
      ¬ IsNumberChar symbol ∧ ∀ c ∈ before, IsNumberChar c := by
  have notNumeric : ∀ c, (!isNumeric c) = true ↔ ¬ IsNumberChar c := by
    intro c
    simp [← isNumeric_eq_true_iff]
  simp only [← notNumeric] at breaks
  obtain ⟨before, symbol, after, rfl, breaking, numeric⟩ := Text.exists_first breaks
  refine ⟨before, symbol, after, rfl, ?_, (notNumeric symbol).1 breaking, ?_⟩
  · simp only [← isForeign_iff, Bool.not_eq_true] at native
    have notAll : ¬ (before ++ symbol :: after).all isAlphabetic = true := by
      simpa only [List.all_eq_true, not_forall, exists_prop] using mixed
    rw [resolve, Text.first?_append_cons numeric breaking offset after]
    simp only [(Text.first?_eq_none_iff _ offset _).2 native, if_neg notAll]
  · intro c member
    by_contra other
    exact numeric c member ((notNumeric c).2 other)

end Environment

/-! ## Terms -/

/-- Terms follow their lexical grammar. A term of digits, points and imaginary units has the value
of the number that it spells, whatever the environment, or else is told to be miswritten, with the
first reason that applies. Any other term has the value that is bound to it if its characters are
all alphabetic. If they are not, its first character that is neither for numbers nor for names is
blamed, and if there is none, its first character that is not for numbers. -/
theorem resolve_follows_the_grammar (environment : Environment ComplexFloat) (term : Text)
    (offset : Nat) :
    ((∀ c ∈ term, IsNumberChar c) →
      (∀ other : Environment ComplexFloat,
        other.resolve term offset = environment.resolve term offset) ∧
      (∀ value, environment.resolve term offset = .ok value ↔ SpellsNumber term value) ∧
      ((∀ value, ¬ SpellsNumber term value) → ∃ flaw,
        environment.resolve term offset =
          .error (.invalidLiteral term flaw (.ofText offset term)) ∧
        flaw.message =
          if Text.behind 'i' term ≠ [] then "an imaginary literal takes one trailing `i`".toList
          else if 2 ≤ term.count '.' then "more than one decimal point".toList
          else "not a number".toList)) ∧
    ((∃ c ∈ term, ¬ IsNumberChar c) → (∀ c ∈ term, isAlphabetic c = true) →
      environment.resolve term offset =
        match environment.get? term with
        | some value => .ok value
        | none => .error (.undefinedVariable term (.ofText offset term))) ∧
    ((∃ c ∈ term, ¬ IsNumberChar c) → (∃ c ∈ term, ¬ isAlphabetic c = true) →
      ∃ before symbol after, term = before ++ symbol :: after ∧
        environment.resolve term offset =
          .error (.invalidSymbol symbol term
            (.ofText (offset + Text.byteSize before) [symbol])) ∧
        (IsForeign symbol ∧ (∀ c ∈ before, ¬ IsForeign c) ∨
          (∀ c ∈ term, ¬ IsForeign c) ∧ ¬ IsNumberChar symbol ∧
            ∀ c ∈ before, IsNumberChar c)) := by
  refine ⟨fun numeric => ?_, fun breaks alphabetic => ?_, fun breaks other => ?_⟩
  · simp only [← isNumeric_eq_true_iff] at numeric
    have asNumber := fun other : Environment ComplexFloat =>
      other.resolve_of_numeric offset numeric
    refine ⟨fun other => by rw [asNumber, asNumber], fun value => ?_, fun unspelled => ?_⟩
    · rw [← readNumber_eq_ok_iff, asNumber]
      cases readNumber term <;> simp [Except.mapError]
    · rw [asNumber, readNumber_of_not_spellsNumber unspelled]
      refine ⟨_, rfl, ?_⟩
      rw [apply_ite LiteralFlaw.message, apply_ite LiteralFlaw.message]
      rfl
  · simp only [← isNumeric_eq_true_iff, Bool.not_eq_true] at breaks
    rw [environment.resolve_of_alphabetic offset breaks alphabetic, Environment.lookUp]
    cases environment.get? term <;> rfl
  · by_cases foreign : ∃ c ∈ term, IsForeign c
    · obtain ⟨before, symbol, after, split, blamed, first⟩ :=
        environment.resolve_of_foreign offset foreign
      exact ⟨before, symbol, after, split, blamed, Or.inl first⟩
    · have native : ∀ c ∈ term, ¬ IsForeign c := fun c member isForeign =>
        foreign ⟨c, member, isForeign⟩
      obtain ⟨before, symbol, after, split, blamed, first⟩ :=
        environment.resolve_of_mixed offset native breaks other
      exact ⟨before, symbol, after, split, blamed, Or.inr ⟨native, first⟩⟩

/-- At offset 3, `.5i` has the value of `.5` times the imaginary unit, `1..i` has too many points,
`x` is not bound, and in `2x?y` it is the `?` that is blamed. -/
theorem resolve_follows_the_grammar_cases :
    (.empty : Environment ComplexFloat).resolve ['.', '5', 'i'] 3 =
      .ok ⟨0.0, Numeral.value ['.', '5']⟩ ∧
    (∃ flaw : LiteralFlaw, (.empty : Environment ComplexFloat).resolve ['1', '.', '.', 'i'] 3 =
        .error (.invalidLiteral ['1', '.', '.', 'i'] flaw ⟨3, 4⟩) ∧
      flaw.message = "more than one decimal point".toList) ∧
    (.empty : Environment ComplexFloat).resolve ['x'] 3 = .error (.undefinedVariable ['x'] ⟨3, 1⟩) ∧
    ∃ before symbol after, ['2', 'x', '?', 'y'] = before ++ symbol :: after ∧ IsForeign symbol ∧
      (.empty : Environment ComplexFloat).resolve ['2', 'x', '?', 'y'] 3 =
        .error (.invalidSymbol symbol ['2', 'x', '?', 'y']
          (.ofText (3 + Text.byteSize before) [symbol])) := by
  refine ⟨?_, ?_, ?_, ?_⟩
  · obtain ⟨-, spelled, -⟩ :=
      (resolve_follows_the_grammar .empty ['.', '5', 'i'] 3).1 (by simp [IsNumberChar])
    have written : Numeral.Written ['.', '5'] := by decide
    exact (spelled _).2 (.imaginary written)
  · obtain ⟨-, -, told⟩ :=
      (resolve_follows_the_grammar .empty ['1', '.', '.', 'i'] 3).1 (by simp [IsNumberChar])
    refine told fun value spelled => ?_
    cases spelled.readNumber
  · refine (resolve_follows_the_grammar .empty ['x'] 3).2.1 ⟨'x', by simp, by decide⟩ ?_
    rintro c (_ | ⟨_, ⟨⟩⟩)
    decide
  · obtain ⟨before, symbol, after, split, blamed, first⟩ :=
      (resolve_follows_the_grammar .empty ['2', 'x', '?', 'y'] 3).2.2 ⟨'x', by simp, by decide⟩
        ⟨'2', by simp, by decide⟩
    refine ⟨before, symbol, after, split, ?_, blamed⟩
    rcases first with ⟨foreign, -⟩ | ⟨native, -⟩
    · exact foreign
    · exact absurd (native '?' (by simp)) (by decide)

end ComplexReckoner
