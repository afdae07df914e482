import ComplexReckoner.Proofs.Blanks
import ComplexReckoner.Text.Lines

/-! # Lines of an input

An input is cut into lines in two ways: its bytes are read up to each line feed, and its text is cut
into lines without their endings. Neither way matters to a session.

* No byte of another character is a line feed (`Text.newline_mem_utf8EncodeChar_iff`), so reading
  bytes gives the lines of the text, one by one (`Text.readingsOfBytes_utf8`).
* The endings of lines are blank, so lines with and without them take the same steps
  (`Session.trace_lines`), and so do all texts that spell the same lines
  (`Text.Spells.trace_readings`). -/

namespace ComplexReckoner

/-! ## Pieces -/

/-- What does not end a piece joins the piece that begins after it. -/
def joinFirst {α : Type} (front : List α) : List (List α) → List (List α)
  | [] => [front]
  | piece :: later => (front ++ piece) :: later

/-- A list without an end, in front of another one, joins its first piece. -/
theorem piecesThrough_append {α : Type} {ends : α → Bool} {front : List α} (nonempty : front ≠ [])
    (inside : ∀ a ∈ front, ends a = false) (rest : List α) :
    piecesThrough ends (front ++ rest) = joinFirst front (piecesThrough ends rest) := by
  induction front with
  | nil => exact absurd rfl nonempty
  | cons a front ih =>
    obtain ⟨goesOn, insideFront⟩ := List.forall_mem_cons.1 inside
    have step : piecesThrough ends (a :: (front ++ rest)) =
        joinFirst [a] (piecesThrough ends (front ++ rest)) := by
      rw [piecesThrough, if_neg (by simp [goesOn])]
      cases piecesThrough ends (front ++ rest) <;> rfl
    rw [List.cons_append, step]
    by_cases last : front = []
    · rw [last, List.nil_append]
    · rw [ih last insideFront]
      cases piecesThrough ends rest <;> rfl

/-- A piece goes through the first end. -/
theorem piecesThrough_append_end {α : Type} {ends : α → Bool} {front : List α} {a : α}
    (inside : ∀ b ∈ front, ends b = false) (stop : ends a = true) (rest : List α) :
    piecesThrough ends (front ++ a :: rest) = (front ++ [a]) :: piecesThrough ends rest := by
  have first : piecesThrough ends (a :: rest) = [a] :: piecesThrough ends rest := by
    rw [piecesThrough, if_pos stop]
  by_cases empty : front = []
  · rw [empty, List.nil_append, first, List.nil_append]
  · rw [piecesThrough_append empty inside, first, joinFirst]

/-- A list without an end is one piece. -/
theorem piecesThrough_of_inside {α : Type} {ends : α → Bool} {list : List α} (nonempty : list ≠ [])
    (inside : ∀ a ∈ list, ends a = false) : piecesThrough ends list = [list] := by
  have alone := piecesThrough_append nonempty inside []
  rw [List.append_nil] at alone
  rw [alone, piecesThrough, joinFirst]

namespace Text

/-! ## Lines as bytes -/

/-- The byte of a line feed occurs in the bytes of a line feed only. -/
theorem newline_mem_utf8EncodeChar_iff (c : Char) :
    0x0A ∈ String.utf8EncodeChar c ↔ c = '\n' := by
  constructor
  · intro member
    -- the bytes of characters beyond the first 128 are large
    have small : ∀ n : Nat, (0x0A : UInt8) = .ofNat n → n < 256 → n = 10 := by
      intro n same bound
      have value := congrArg UInt8.toNat same
      rw [UInt8.toNat_ofNat_of_lt' bound] at value
      exact value.symm
    have code : c.val.toNat = 10 := by
      simp only [String.utf8EncodeChar] at member
      split at member
      · exact small _ (List.mem_singleton.1 member) (by omega)
      · exfalso
        split at member
        · simp only [List.mem_cons, List.not_mem_nil, or_false] at member
          rcases member with same | same <;> have := small _ same (by omega) <;> omega
        · split at member
          · simp only [List.mem_cons, List.not_mem_nil, or_false] at member
            rcases member with same | same | same <;> have := small _ same (by omega) <;> omega
          · simp only [List.mem_cons, List.not_mem_nil, or_false] at member
            rcases member with same | same | same | same <;>
              have := small _ same (by omega) <;> omega
    exact Char.ext (UInt32.toNat_inj.1 code)
  · rintro rfl
    decide

/-- The bytes of a text, read up to each line feed, are the bytes of its lines. -/
theorem piecesThrough_utf8 (text : Text) :
    piecesThrough (· == 0x0A) text.utf8 = text.readings.map utf8 := by
  induction text with
  | nil => rfl
  | cons c rest ih =>
    have bytes : utf8 (c :: rest) = String.utf8EncodeChar c ++ utf8 rest := by simp [utf8]
    rw [bytes]
    by_cases newline : c = '\n'
    · subst newline
      have one : String.utf8EncodeChar '\n' = [0x0A] := by decide
      rw [one, List.singleton_append, piecesThrough, if_pos (by decide), ih, readings, readings,
        piecesThrough, if_pos (by decide)]
      rfl
    · have nonempty : String.utf8EncodeChar c ≠ [] := by
        intro empty
        have size := String.length_utf8EncodeChar c
        rw [empty, List.length_nil] at size
        exact absurd c.utf8Size_pos (by omega)
      have inside : ∀ byte ∈ String.utf8EncodeChar c, (byte == 0x0A) = false := by
        intro byte member
        rw [beq_eq_false_iff_ne]
        rintro rfl
        exact newline ((newline_mem_utf8EncodeChar_iff c).1 member)
      have goesOn : ∀ d ∈ [c], (d == '\n') = false := by simpa using newline
      have front : readings (c :: rest) = joinFirst [c] (readings rest) :=
        piecesThrough_append (List.cons_ne_nil _ _) goesOn rest
      rw [piecesThrough_append nonempty inside, ih, front]
      cases readings rest with
      | nil => simp [joinFirst, utf8]
      | cons piece later => simp [joinFirst, utf8]

/-- Reading the bytes of a text gives its lines. -/
theorem readingsOfBytes_utf8 (text : Text) :
    readingsOfBytes text.utf8 = text.readings.map some := by
  rw [readingsOfBytes, piecesThrough_utf8, List.map_map]
  exact List.map_congr_left fun line _ => ofUtf8?_utf8 line

/-! ## Endings -/

/-- The blanks after a text are dropped at its end. -/
theorem trim_append_blank (text : Text) {trail : Text} (blank : ∀ c ∈ trail, isBlank c = true) :
    trim (text ++ trail) = text.trim := by
  by_cases empty : text.compact = []
  · have whole : (text ++ trail).compact = [] := by
      rw [compact_append, empty, compact_eq_nil blank, List.append_nil]
    rw [(trim_eq_nil_iff _).2 whole, (trim_eq_nil_iff _).2 empty]
  · -- something is left of the text at its beginning, and the blanks are dropped from behind
    have kept : (text.dropWhile isBlank).isEmpty = false := by
      rw [List.isEmpty_eq_false_iff]
      intro none
      refine empty ((trim_eq_nil_iff text).1 ?_)
      rw [trim, none]
      rfl
    have blankBehind : ∀ c ∈ trail.reverse, isBlank c = true := fun c member =>
      blank c (List.mem_reverse.1 member)
    rw [trim, trim, List.dropWhile_append, if_neg (by simp [kept]), List.reverse_append,
      List.dropWhile_append_of_pos blankBehind]

/-- Line endings are blank. -/
theorem isBlank_of_mem_ending {ending : Text} (isEnding : ending = ['\n'] ∨ ending = ['\r', '\n']) :
    ∀ c ∈ ending, isBlank c = true := by
  have newline : ∀ c ∈ ['\n'], isBlank c = true := List.forall_mem_singleton.2 (by decide)
  rcases isEnding with rfl | rfl
  · exact newline
  · exact List.forall_mem_cons.2 ⟨by decide, newline⟩

/-- The ending of a line does not matter once its blanks are dropped. -/
theorem trim_withoutEnding (line : Text) : line.withoutEnding.trim = line.trim := by
  rw [withoutEnding]
  split
  · next rest ends =>
    have split : line = rest.reverse ++ ['\r', '\n'] := by
      rw [← List.reverse_reverse line, ends]
      simp
    rw [split, trim_append_blank _ (isBlank_of_mem_ending (Or.inr rfl))]
  · next rest _ ends =>
    have split : line = rest.reverse ++ ['\n'] := by
      rw [← List.reverse_reverse line, ends]
      simp
    rw [split, trim_append_blank _ (isBlank_of_mem_ending (Or.inl rfl))]
  · rfl

/-- `Spells text lines` says that a text is made of lines with an ending each, and perhaps a last
line without one. -/
inductive Spells : Text → List Text → Prop where
  /-- There is no line. -/
  | nil : Spells [] []
  /-- The last line has no ending. It is not empty. -/
  | last {line : Text} (nonempty : line ≠ []) (single : '\n' ∉ line) : Spells line [line]
  /-- A line has an ending, and others follow. -/
  | cons {line ending rest : Text} {lines : List Text} (single : '\n' ∉ line)
      (isEnding : ending = ['\n'] ∨ ending = ['\r', '\n']) (later : Spells rest lines) :
      Spells (line ++ (ending ++ rest)) (line :: lines)

/-- The lines that a text spells are those that are read, up to blanks at their ends. -/
theorem Spells.map_trim_readings {text : Text} {lines : List Text} (spells : text.Spells lines) :
    text.readings.map trim = lines.map trim := by
  have goesOn : ∀ {line : Text}, '\n' ∉ line → ∀ c ∈ line, (c == '\n') = false := by
    intro line single c member
    rw [beq_eq_false_iff_ne]
    rintro rfl
    exact single member
  induction spells with
  | nil => rfl
  | last nonempty single =>
    rw [readings, piecesThrough_of_inside nonempty (goesOn single)]
  | @cons line ending rest lines single isEnding later ih =>
    have first : readings (line ++ (ending ++ rest)) = (line ++ ending) :: readings rest := by
      rcases isEnding with rfl | rfl
      · exact piecesThrough_append_end (goesOn single) (by decide) rest
      · have split : line ++ (['\r', '\n'] ++ rest) = (line ++ ['\r']) ++ '\n' :: rest := by simp
        have within : '\n' ∉ line ++ ['\r'] := by simpa using single
        rw [split, readings, piecesThrough_append_end (goesOn within) (by decide) rest]
        simp [readings]
    rw [first, List.map_cons, List.map_cons, ih,
      trim_append_blank _ (isBlank_of_mem_ending isEnding)]

end Text

/-! ## The steps of lines -/

namespace Session

/-- Lines that are the same without blanks at their ends take the same steps. -/
theorem trace_congr (session : Session) {lines others : List Text}
    (same : lines.map Text.trim = others.map Text.trim) :
    session.trace lines = session.trace others := by
  induction lines generalizing session others with
  | nil =>
    cases others with
    | nil => rfl
    | cons other others => cases same
  | cons line lines ih =>
    cases others with
    | nil => cases same
    | cons other others =>
      obtain ⟨sameLine, sameRest⟩ := List.cons.inj same
      have step : session.execute line = session.execute other := by
        simp only [execute, Statement.read, sameLine]
      rw [trace, trace, step, ih _ sameRest]

/-- The lines of a text take the same steps with and without their endings. -/
theorem trace_lines (session : Session) (text : Text) :
    session.trace text.lines = session.trace text.readings := by
  refine session.trace_congr ?_
  rw [Text.lines, List.map_map]
  exact List.map_congr_left fun line _ => line.trim_withoutEnding

end Session

/-- The lines that are read take the same steps as the lines that a text spells. -/
theorem Text.Spells.trace_readings {text : Text} {lines : List Text} (spells : text.Spells lines)
    (session : Session) : session.trace text.readings = session.trace lines :=
  session.trace_congr spells.map_trim_readings

end ComplexReckoner
