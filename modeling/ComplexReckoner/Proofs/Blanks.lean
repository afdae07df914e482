import ComplexReckoner.Proofs.Statements

/-! # Blanks never matter

A line is trimmed, compared, cut at its first `=` and searched for a second one before any of its
parts is compacted. All of this can as well be done on the compacted line: what is left of a line
without the blanks at its ends is a given character exactly when the compacted line is
(`Text.trim_eq_singleton_iff`), and a cut at a visible character commutes with compaction
(`Text.cut?_compact`). So a line is read off its compaction (`Statement.read_eq_readCompacted`),
except that the fault of several `=` tells the trimmed line. -/

namespace ComplexReckoner

/-! ## Compaction of parts -/

namespace Text

/-- A blank in front does not count. -/
theorem compact_cons_of_blank {c : Char} (blank : isBlank c = true) (rest : Text) :
    compact (c :: rest) = rest.compact := by
  have dropped : ¬ (!isBlank c) = true := by simp [blank]
  exact List.filter_cons_of_neg dropped

/-- A visible character in front is kept. -/
theorem compact_cons_of_visible {c : Char} (visible : isBlank c = false) (rest : Text) :
    compact (c :: rest) = c :: rest.compact := by
  have kept : (!isBlank c) = true := by simp [visible]
  exact List.filter_cons_of_pos kept

/-- A visible character occurs in a text as often as in its compaction. -/
theorem count_compact {c : Char} (visible : isBlank c = false) (text : Text) :
    text.compact.count c = text.count c := by
  have kept : (!isBlank c) = true := by simp [visible]
  exact List.count_filter kept

/-- A cut at a visible character commutes with compaction. -/
theorem cut?_compact {mark : Char} (visible : isBlank mark = false) (text : Text) :
    cut? mark text.compact =
      (cut? mark text).map fun parts => (parts.1.compact, parts.2.compact) := by
  induction text with
  | nil => rfl
  | cons c rest ih =>
    cases blank : isBlank c with
    | true =>
      have other : c ≠ mark := by
        rintro rfl
        rw [blank] at visible
        cases visible
      rw [compact_cons_of_blank blank, ih, cut?, if_neg other, Option.map_map]
      congr 1
      funext parts
      exact congrArg (·, parts.2.compact) (compact_cons_of_blank blank parts.1).symm
    | false =>
      rw [compact_cons_of_visible blank, cut?, cut?]
      by_cases hit : c = mark
      · rw [if_pos hit, if_pos hit]
        rfl
      · rw [if_neg hit, if_neg hit, ih, Option.map_map, Option.map_map]
        congr 1
        funext parts
        exact congrArg (·, parts.2.compact) (compact_cons_of_visible blank parts.1).symm

/-! ## Trimmed lines -/

/-- The blanks before a text are dropped at its beginning. -/
theorem trim_append_of_blank {lead : Text} (blank : ∀ c ∈ lead, isBlank c = true) (text : Text) :
    trim (lead ++ text) = text.trim := by
  rw [trim, trim, List.dropWhile_append_of_pos blank]

/-- Nothing is left of a text exactly when its compaction is empty. -/
theorem trim_eq_nil_iff (text : Text) : text.trim = [] ↔ text.compact = [] := by
  constructor
  · intro empty
    rw [← compact_trim, empty, compact_nil]
  · intro empty
    have blank : ∀ c ∈ text, isBlank c = true := by
      intro c member
      simpa using List.filter_eq_nil_iff.1 empty c member
    -- all of the text is dropped at its beginning
    have dropped := trim_append_of_blank blank []
    rw [List.append_nil] at dropped
    exact dropped

/-- One visible character is left of a text exactly when its compaction is that character. -/
theorem trim_eq_singleton_iff {c : Char} (visible : isBlank c = false) (text : Text) :
    text.trim = [c] ↔ text.compact = [c] := by
  constructor
  · intro single
    rw [← compact_trim, single, compact_cons_of_visible visible, compact_nil]
  · intro single
    -- the character stands between blanks
    obtain ⟨lead, trail, rfl, blankLead, -, emptyTrail⟩ := List.filter_eq_cons_iff.1 single
    have blankBefore : ∀ d ∈ lead, isBlank d = true := by
      intro d member
      simpa using blankLead d member
    have blankAfter : ∀ d ∈ trail.reverse, isBlank d = true := by
      intro d member
      simpa using List.filter_eq_nil_iff.1 emptyTrail d (List.mem_reverse.1 member)
    have shown : ¬ isBlank c = true := by simp [visible]
    -- trimming stops at the character from both sides
    rw [trim_append_of_blank blankBefore, trim, List.dropWhile_cons_of_neg shown, List.reverse_cons,
      List.dropWhile_append_of_pos blankAfter, List.dropWhile_cons_of_neg shown]
    rfl

end Text

/-! ## Reading a compacted line -/

namespace Statement

/-- Reads a line of which the compaction is `whole`. What is told of a line with several `=` is
`shown`. -/
def readCompacted (shown whole : Text) : Except SessionFault Statement :=
  if whole = ['q'] then .ok .quit
  else if whole = [] then .ok .blank
  else
    match Text.cut? '=' whole with
    | none => .ok (.expression whole)
    | some (before, after) =>
        if '=' ∈ after then .error (.chainedAssignment shown)
        else if isName before then .ok (.assignment before after)
        else .error (.invalidName before)

/-- A line is read off its compaction, and shown without the blanks at its ends. -/
theorem read_eq_readCompacted (line : Text) :
    read line = readCompacted line.trim line.compact := by
  have leaves : line.trim = ['q'] ↔ line.compact = ['q'] :=
    Text.trim_eq_singleton_iff (by decide) line
  have empty : line.trim.isEmpty = true ↔ line.compact = [] :=
    List.isEmpty_iff.trans (Text.trim_eq_nil_iff line)
  have cut : Text.cut? '=' line.compact = (Text.cut? '=' line.trim).map
      fun parts => (parts.1.compact, parts.2.compact) := by
    rw [← Text.cut?_compact (by decide), Text.compact_trim]
  have found : ∀ text : Text, '=' ∈ text.compact ↔ '=' ∈ text := by
    intro text
    rw [← List.count_pos_iff, ← List.count_pos_iff, Text.count_compact (by decide)]
  -- both readings now ask the same questions in the same order
  simp only [read, readCompacted, leaves, empty, cut]
  cases Text.cut? '=' line.trim with
  | none => simp only [Option.map_none, Text.compact_trim]
  | some parts => simp only [Option.map_some, found]

/-- The parts of a cut line tell how often `=` occurs in it. -/
theorem count_of_cut? {whole before after : Text}
    (cut : Text.cut? '=' whole = some (before, after)) :
    whole.count '=' = after.count '=' + 1 := by
  obtain ⟨rfl, missing⟩ := (Text.cut?_eq_some_iff _ _ _ _).1 cut
  rw [List.count_append, List.count_eq_zero.2 missing, List.count_cons_self, Nat.zero_add]

/-- Nothing is shown of a line with at most one `=`. -/
theorem readCompacted_of_single {whole : Text} (single : whole.count '=' ≤ 1)
    (shown other : Text) : readCompacted shown whole = readCompacted other whole := by
  unfold readCompacted
  cases cut : Text.cut? '=' whole with
  | none => rfl
  | some parts =>
    obtain ⟨before, after⟩ := parts
    have counted := count_of_cut? cut
    have missing : '=' ∉ after := List.count_eq_zero.1 (by omega)
    simp only [if_neg missing]

/-- A line with several `=` is refused for them. -/
theorem readCompacted_of_several {whole : Text} (several : 1 < whole.count '=') (shown : Text) :
    readCompacted shown whole = .error (.chainedAssignment shown) := by
  have stays : whole ≠ ['q'] := by
    rintro rfl
    cases several
  have occupied : whole ≠ [] := by
    rintro rfl
    cases several
  rw [readCompacted, if_neg stays, if_neg occupied]
  cases cut : Text.cut? '=' whole with
  | none =>
    have missing : whole.count '=' = 0 := List.count_eq_zero.2 ((Text.cut?_eq_none_iff _ _).1 cut)
    omega
  | some parts =>
    obtain ⟨before, after⟩ := parts
    have counted := count_of_cut? cut
    have chained : '=' ∈ after := List.count_pos_iff.1 (by omega)
    simp only [if_pos chained]

end Statement

namespace Session

/-- Blanks never matter to a session.

Lines with the same compaction have the same result and leave the same session behind. The fault of
several `=` is the one exception: each line is then told as it is, without the blanks at its
ends. -/
theorem blanks_never_matter (session : Session) (line other : Text)
    (same : line.compact = other.compact) :
    (line.count '=' ≤ 1 → session.execute line = session.execute other) ∧
      (1 < line.count '=' →
        session.execute line = ⟨.error (.chainedAssignment line.trim), session⟩ ∧
          session.execute other = ⟨.error (.chainedAssignment other.trim), session⟩) := by
  have counted : line.compact.count '=' = line.count '=' := Text.count_compact (by decide) line
  rw [← counted]
  constructor
  · intro single
    have sameRead : Statement.read line = Statement.read other := by
      rw [Statement.read_eq_readCompacted, Statement.read_eq_readCompacted, ← same]
      exact Statement.readCompacted_of_single single line.trim other.trim
    rw [execute, execute, sameRead]
  · intro several
    have chained := Statement.readCompacted_of_several several
    refine ⟨execute_of_refused ?_, execute_of_refused ?_⟩
    · rw [Statement.read_eq_readCompacted]
      exact chained line.trim
    · rw [Statement.read_eq_readCompacted, ← same]
      exact chained other.trim

/-- The line ` x y = i ` is `xy=i` with blanks, one of them within the name, and `x = = i ` is
refused like `x==i`. -/
theorem blanks_never_matter_within_names :
    execute {} [' ', 'x', '\u00a0', 'y', ' ', '=', '\t', 'i', ' '] =
        execute {} ['x', 'y', '=', 'i'] ∧
      (execute {} ['x', ' ', '=', ' ', '=', 'i', ' ']).result =
        .error (.chainedAssignment ['x', ' ', '=', ' ', '=', 'i']) ∧
      (execute {} ['x', '=', '=', 'i']).result =
        .error (.chainedAssignment ['x', '=', '=', 'i']) := by
  have spread := (blanks_never_matter {} [' ', 'x', '\u00a0', 'y', ' ', '=', '\t', 'i', ' ']
    ['x', 'y', '=', 'i'] (by decide)).1 (by decide)
  have chained := (blanks_never_matter {} ['x', ' ', '=', ' ', '=', 'i', ' '] ['x', '=', '=', 'i']
    (by decide)).2 (by decide)
  refine ⟨spread, ?_, ?_⟩
  · rw [chained.1]
    rfl
  · rw [chained.2]
    rfl

end Session

end ComplexReckoner
