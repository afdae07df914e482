import ComplexReckoner.Text.Basic

/-! # Spans

A span marks a stretch of a text by its first byte and its number of bytes. -/

namespace ComplexReckoner

/-- A stretch of text, in UTF-8 bytes. -/
structure Span where
  /-- The number of bytes before the stretch. -/
  offset : Nat
  /-- The number of bytes in the stretch. -/
  length : Nat
  deriving DecidableEq, Repr

namespace Span

/-- The span of a text that begins at an offset. -/
def ofText (offset : Nat) (text : Text) : Span := ⟨offset, text.byteSize⟩

/-! ## The text that a span marks -/

/-- Whether a span marks the stretch `marked` of a text that stands at an offset. -/
def Marks (span : Span) (offset : Nat) (text marked : Text) : Prop :=
  ∃ before after,
    text = before ++ (marked ++ after) ∧ span = ofText (offset + before.byteSize) marked

/-- The span of a text marks all of it. -/
theorem marks_ofText (offset : Nat) (text : Text) : (ofText offset text).Marks offset text text :=
  ⟨[], [], by simp, rfl⟩

/-- A span marks the same in a text with more text before it. -/
theorem Marks.append_left {span : Span} {offset : Nat} {text marked : Text} (before : Text)
    (marks : span.Marks (offset + before.byteSize) text marked) :
    span.Marks offset (before ++ text) marked := by
  obtain ⟨between, after, rfl, rfl⟩ := marks
  refine ⟨before ++ between, after, by rw [List.append_assoc], ?_⟩
  rw [Text.byteSize_append, Nat.add_assoc]

/-- A span marks the same in a text with more text after it. -/
theorem Marks.append_right {span : Span} {offset : Nat} {text marked : Text} (after : Text)
    (marks : span.Marks offset text marked) : span.Marks offset (text ++ after) marked := by
  obtain ⟨before, between, rfl, rfl⟩ := marks
  exact ⟨before, between ++ after, by simp only [List.append_assoc], rfl⟩

end Span

end ComplexReckoner
