import ComplexReckoner.Text.Basic

/-! # UTF-8

Texts as sequences of bytes. Inputs and files arrive as bytes, and names are sorted by their bytes.

* `Text.utf8` encodes a text, and different texts have different encodings,
* `Text.ofUtf8?` decodes bytes,
* `Text.precedes` is the order of texts by their bytes, a strict total order. -/

namespace ComplexReckoner

namespace Text

/-! ## Encoding -/

/-- The bytes of a text. -/
def utf8 (text : Text) : List UInt8 := text.flatMap String.utf8EncodeChar

/-- Different texts have different bytes. -/
theorem utf8_injective {first second : Text} (same : utf8 first = utf8 second) :
    first = second := by
  have encoded : first.utf8Encode = second.utf8Encode := by
    simpa [List.utf8Encode, utf8] using congrArg List.toByteArray same
  rw [← String.toByteArray_ofList, ← String.toByteArray_ofList, String.toByteArray_inj] at encoded
  simpa using congrArg String.toList encoded

/-- The text that bytes encode, when they are valid UTF-8. -/
def ofUtf8? (bytes : List UInt8) : Option Text :=
  (String.fromUTF8? bytes.toByteArray).map String.toList

/-- Decoding gives back the text that was encoded. -/
@[simp] theorem ofUtf8?_utf8 (text : Text) : ofUtf8? (utf8 text) = some text := by
  have encoded : (utf8 text).toByteArray = (String.ofList text).toByteArray := by
    rw [String.toByteArray_ofList]
    rfl
  rw [ofUtf8?, encoded, String.fromUTF8?, dif_pos (String.ofList text).isValidUTF8, Option.map_some]
  exact congrArg some String.toList_ofList

/-! ## The order of texts -/

/-- Whether the bytes of a text come before those of another: they have the smaller byte where the
two first differ, or they are a proper beginning of the others. -/
def precedes (first second : Text) : Bool :=
  first.utf8.lex second.utf8 fun lower upper => decide (lower.toNat < upper.toNat)

/-- The order of texts is the lexicographic order of their bytes. -/
theorem precedes_iff_lex (first second : Text) :
    precedes first second = true ↔
      List.Lex (fun lower upper => lower.toNat < upper.toNat) first.utf8 second.utf8 := by
  rw [precedes, List.lex_eq_true_iff_lex]
  simp only [decide_eq_true_eq]

/-- No text comes before itself. -/
@[simp] theorem precedes_self (text : Text) : precedes text text = false := by
  rw [← Bool.not_eq_true, precedes_iff_lex]
  exact List.lex_irrefl (fun byte => Nat.lt_irrefl byte.toNat) text.utf8

/-- A text that comes before another one differs from it. -/
theorem ne_of_precedes {first second : Text} (below : precedes first second = true) :
    first ≠ second := by
  rintro rfl
  rw [precedes_self] at below
  cases below

/-- The order of texts is transitive. -/
theorem precedes_trans {first second third : Text} (below : precedes first second = true)
    (above : precedes second third = true) : precedes first third = true := by
  rw [precedes_iff_lex] at below above ⊢
  exact List.lex_trans Nat.lt_trans below above

/-- Of two different texts one comes before the other. -/
theorem precedes_or_of_ne {first second : Text} (different : first ≠ second) :
    precedes first second = true ∨ precedes second first = true := by
  refine Decidable.or_iff_not_imp_left.2 fun notBelow => ?_
  refine Decidable.byContradiction fun notAbove => ?_
  rw [precedes_iff_lex] at notBelow notAbove
  have apart : ∀ lower upper : UInt8, ¬ lower.toNat < upper.toNat → ¬ upper.toNat < lower.toNat →
      lower = upper := fun lower upper notLess notMore => UInt8.toNat_inj.1 (by omega)
  exact different (utf8_injective (List.lex_trichotomous apart notAbove notBelow))

end Text

end ComplexReckoner
