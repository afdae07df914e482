import ComplexReckoner.Proofs.Parentheses

/-! # Decomposition by descent

Decomposition as a recursion on groups: a text is checked for equal numbers of parentheses, cut at
its first group, and the text within the group is decomposed in the same way before the text behind
it. `decomposeWithin` comes to the same by one search for a fault and one pass that gathers the
segments (`decomposeWithin_eq_descend`).

* The search and the gathering can be cut into the rounds of the descent: a rest without groups, a
  parenthesis that closes nothing, and a run before a group (`searchThenGather_of_plain`,
  `searchThenGather_of_stray`, `searchThenGather_of_group`).
* Two checks of the descent never fail: once the numbers of parentheses agree at the top, every
  group that is come to is closed, and the numbers agree within it (`exists_matchingClose?`). -/

namespace ComplexReckoner

/-! ## The descent -/

/-- The text up to the parenthesis that closes the current group, and the text behind it, while
`opened` further groups are open within. -/
def matchingClose? (opened : Nat) : Text → Option (Text × Text)
  | [] => none
  | c :: rest =>
      let within (opened : Nat) : Option (Text × Text) :=
        (matchingClose? opened rest).map (Prod.map (c :: ·) id)
      if c = '(' then within (opened + 1)
      else if c = ')' then
        match opened with
        | 0 => some ([], rest)
        | opened + 1 => within opened
      else within opened

/-- What is found closes the group. -/
theorem eq_of_matchingClose? {opened : Nat} {text inner after : Text}
    (found : matchingClose? opened text = some (inner, after)) : text = inner ++ ')' :: after := by
  induction text generalizing opened inner with
  | nil => cases found
  | cons c rest ih =>
    have within : ∀ {opened : Nat},
        (matchingClose? opened rest).map (Prod.map (c :: ·) id) = some (inner, after) →
          c :: rest = inner ++ ')' :: after := by
      intro opened later
      obtain ⟨⟨innerRest, afterRest⟩, foundRest, same⟩ := Option.map_eq_some_iff.1 later
      cases same
      rw [ih foundRest, List.cons_append]
    simp only [matchingClose?] at found
    split at found
    · exact within found
    · split at found
      · next closes =>
        cases opened with
        | zero =>
          cases found
          rw [closes, List.nil_append]
        | succ opened => exact within found
      · exact within found

mutual

/-- The runs and groups of a text that stands at an offset, `depth` groups deep. -/
def descend (limit depth offset : Nat) (text : Text) : Except Fault Segments :=
  if text.count '(' = text.count ')' then descendFrom limit depth offset true text
  else .error (.malformedParentheses text (.ofText offset text))
termination_by (text.length, 1)

/-- The runs and groups of the rest of a text. At first nothing comes before the rest, and then an
empty rest is an empty run. -/
def descendFrom (limit depth offset : Nat) (first : Bool) (rest : Text) : Except Fault Segments :=
  match _cut : rest.cut? '(' with
  | none => .ok (if rest.isEmpty && !first then .nil else .leaf ⟨rest, offset⟩ .nil)
  | some (before, behind) =>
      match before.cut? ')' with
      | some (stray, _) => .error (.malformedParentheses rest ⟨offset + stray.byteSize, 1⟩)
      | none =>
          let start := offset + before.byteSize
          match closed : matchingClose? 0 behind with
          | none => .error (.malformedParentheses rest ⟨start, 1⟩)
          | some (inner, after) =>
              let span : Span := ⟨start, inner.byteSize + 2⟩
              if limit < depth + 1 then .error (.nestingTooDeep limit span)
              else do
                let children ← descend limit (depth + 1) (start + 1) inner
                let later ← descendFrom limit depth (start + inner.byteSize + 2) false after
                let group := Nested.group span children later
                return if before.isEmpty then group else .leaf ⟨before, offset⟩ group
termination_by (rest.length, 0)
decreasing_by
  all_goals
    have split := ((Text.cut?_eq_some_iff '(' rest before behind).1 _cut).1
    have close := eq_of_matchingClose? closed
    subst split close
    simp only [List.length_append, List.length_cons]
    exact Prod.Lex.left _ _ (by omega)

end

/-! ## One round of the descent -/

section Rounds

variable (limit depth offset : Nat) (first : Bool)

/-- A rest without groups is a run, unless it is empty and not the first. -/
theorem descendFrom_of_not_mem {rest : Text} (plain : '(' ∉ rest) :
    descendFrom limit depth offset first rest =
      .ok (if rest.isEmpty && !first then .nil else .leaf ⟨rest, offset⟩ .nil) := by
  have nothing := (Text.cut?_eq_none_iff '(' rest).2 plain
  rw [descendFrom]
  split
  · rfl
  · next cut => cases nothing.symm.trans cut

/-- A parenthesis that closes before any opens is refused. -/
theorem descendFrom_of_stray {stray beyond behind : Text} (noOpening : '(' ∉ stray ++ ')' :: beyond)
    (noClosing : ')' ∉ stray) :
    let rest := stray ++ ')' :: beyond ++ '(' :: behind
    descendFrom limit depth offset first rest =
      .error (.malformedParentheses rest ⟨offset + stray.byteSize, 1⟩) := by
  intro rest
  have cutOpening : rest.cut? '(' = some (stray ++ ')' :: beyond, behind) :=
    (Text.cut?_eq_some_iff ..).2 ⟨rfl, noOpening⟩
  have cutClosing : (stray ++ ')' :: beyond).cut? ')' = some (stray, beyond) :=
    (Text.cut?_eq_some_iff ..).2 ⟨rfl, noClosing⟩
  rw [descendFrom]
  split
  · next cut => cases cutOpening.symm.trans cut
  · next cut =>
    cases cutOpening.symm.trans cut
    rw [cutClosing]

/-- A group is refused beyond the limit, and otherwise it is decomposed before what follows it. -/
theorem descendFrom_of_group {before behind inner after : Text} (noOpening : '(' ∉ before)
    (noClosing : ')' ∉ before) (closed : matchingClose? 0 behind = some (inner, after)) :
    let start := offset + before.byteSize
    let span : Span := ⟨start, inner.byteSize + 2⟩
    descendFrom limit depth offset first (before ++ '(' :: behind) =
      if limit < depth + 1 then .error (.nestingTooDeep limit span)
      else do
        let children ← descend limit (depth + 1) (start + 1) inner
        let later ← descendFrom limit depth (start + inner.byteSize + 2) false after
        let group := Nested.group span children later
        return if before.isEmpty then group else .leaf ⟨before, offset⟩ group := by
  intro start span
  have cutOpening : (before ++ '(' :: behind).cut? '(' = some (before, behind) :=
    (Text.cut?_eq_some_iff ..).2 ⟨rfl, noOpening⟩
  have cutClosing : before.cut? ')' = none := (Text.cut?_eq_none_iff ..).2 noClosing
  rw [descendFrom]
  split
  · next cut => cases cutOpening.symm.trans cut
  · next cut =>
    cases cutOpening.symm.trans cut
    rw [cutClosing]
    dsimp only
    split
    · next unclosed => cases closed.symm.trans unclosed
    · next closing =>
      cases closed.symm.trans closing
      rfl

end Rounds

/-! ## The parenthesis that closes a group -/

/-- The search for the parenthesis that closes a group passes a layout. -/
theorem matchingClose?_text_append (layout : Layout) (opened : Nat) (after : Text) :
    matchingClose? opened (layout.text ++ after) =
      (matchingClose? opened after).map (Prod.map (layout.text ++ ·) id) := by
  induction layout generalizing opened after with
  | nil =>
    rw [Layout.text_nil, List.nil_append]
    exact Option.map_id'.symm
  | leaf c rest ih =>
    have passing : ∀ text, matchingClose? opened (c.val :: text) =
        (matchingClose? opened text).map (Prod.map (c.val :: ·) id) := by
      intro text
      simp only [matchingClose?, if_neg c.property.1, if_neg c.property.2]
    rw [Layout.text_leaf, List.cons_append, passing, ih, Option.map_map]
    rfl
  | group mark inner rest ihInner ihRest =>
    have opening : ∀ text, matchingClose? opened ('(' :: text) =
        (matchingClose? (opened + 1) text).map (Prod.map ('(' :: ·) id) := fun _ => rfl
    have closing : ∀ text, matchingClose? (opened + 1) (')' :: text) =
        (matchingClose? opened text).map (Prod.map (')' :: ·) id) := fun _ => rfl
    rw [Layout.text_group, List.cons_append, List.append_assoc, List.cons_append, opening, ihInner,
      closing, ihRest, Option.map_map, Option.map_map, Option.map_map]
    congr 1
    funext parts
    exact Prod.ext (by simp) rfl

/-- When as many parentheses open as close, and none closes before the first that opens, this one is
closed behind the text of a layout. -/
theorem exists_matchingClose? {before behind : Text}
    (counts : (before ++ '(' :: behind).count '(' = (before ++ '(' :: behind).count ')')
    (noClosing : ')' ∉ before) :
    ∃ (inner : Layout) (after : Text), behind = inner.text ++ ')' :: after ∧
      matchingClose? 0 behind = some (inner.text, after) := by
  rw [List.count_append, List.count_append, List.count_cons_self,
    List.count_cons_of_ne (by decide), List.count_eq_zero.2 noClosing] at counts
  have more : behind.count '(' < behind.count ')' := by omega
  obtain ⟨inner, after, rfl⟩ := Layout.exists_text_close more
  refine ⟨inner, after, rfl, ?_⟩
  have here : matchingClose? 0 (')' :: after) = some ([], after) := rfl
  rw [matchingClose?_text_append, here, Option.map_some, Prod.map, List.append_nil, id]

/-! ## Gathering behind a run -/

namespace Segments

/-- A character in front of no run begins one. -/
theorem consChar_of_no_run {segments : Segments} (noRun : ∀ run rest, segments ≠ .leaf run rest)
    (c : Char) (offset : Nat) : consChar c offset segments = .leaf ⟨[c], offset⟩ segments := by
  cases segments with
  | nil => rfl
  | leaf run rest => exact absurd rfl (noRun run rest)
  | group span inner rest => rfl

/-- A run is gathered as a whole, in front of the end of its scope or a group. -/
theorem here_gather_append {plain : Text} (noOpening : '(' ∉ plain) (noClosing : ')' ∉ plain)
    (offset : Nat) (after : Text)
    (noRun : ∀ run rest, (gather (offset + plain.byteSize) after).here ≠ .leaf run rest) :
    (gather offset (plain ++ after)).here =
      if plain.isEmpty then (gather (offset + plain.byteSize) after).here
      else .leaf ⟨plain, offset⟩ (gather (offset + plain.byteSize) after).here := by
  induction plain generalizing offset with
  | nil => rfl
  | cons c rest ih =>
    rw [List.mem_cons, not_or] at noOpening noClosing
    have isPlain : c ≠ '(' ∧ c ≠ ')' := ⟨Ne.symm noOpening.1, Ne.symm noClosing.1⟩
    rw [Text.byteSize_cons, ← Nat.add_assoc] at noRun ⊢
    rw [List.cons_append, gather_plain offset ⟨c, isPlain⟩, ih noOpening.2 noClosing.2 _ noRun]
    cases rest with
    | nil =>
      rw [Text.byteSize_nil, Nat.add_zero] at noRun ⊢
      exact consChar_of_no_run noRun c offset
    | cons d rest => rfl

/-- The segments that are gathered from the rest of a scope. At first an empty rest is an empty
run. -/
def ofRest (first : Bool) (offset : Nat) (rest : Text) : Segments :=
  if first then (gather offset rest).here.orEmptyRun offset else (gather offset rest).here

/-- What is gathered from a rest without groups. -/
theorem ofRest_of_plain {rest : Text} (noOpening : '(' ∉ rest) (noClosing : ')' ∉ rest)
    (first : Bool) (offset : Nat) :
    ofRest first offset rest =
      if rest.isEmpty && !first then .nil else .leaf ⟨rest, offset⟩ .nil := by
  have gathered := here_gather_append noOpening noClosing offset [] nofun
  rw [List.append_nil] at gathered
  rw [ofRest, gathered]
  cases rest <;> cases first <;> rfl

/-- What is gathered from a run, a group and what follows the group. -/
theorem ofRest_group {before : Text} (noOpening : '(' ∉ before) (noClosing : ')' ∉ before)
    (first : Bool) (offset : Nat) (inner : Layout) (after : Text) :
    let start := offset + before.byteSize
    let group := Nested.group ⟨start, inner.text.byteSize + 2⟩
      (ofRest true (start + 1) inner.text) (ofRest false (start + inner.text.byteSize + 2) after)
    ofRest first offset (before ++ '(' :: (inner.text ++ ')' :: after)) =
      if before.isEmpty then group else .leaf ⟨before, offset⟩ group := by
  intro start group
  have alone := gather_text_append inner (start + 1) [] rfl
  rw [List.append_nil] at alone
  have within := gather_text_append inner (start + 1) (')' :: after) rfl
  rw [gather_close] at within
  have opened := gather_open within
  have position : start + 1 + inner.text.byteSize + 1 = start + inner.text.byteSize + 2 := by omega
  have length : start + inner.text.byteSize + 2 - start = inner.text.byteSize + 2 := by omega
  have here : (gather start ('(' :: (inner.text ++ ')' :: after))).here = group := by
    rw [opened, position, length]
    simp only [group, ofRest, alone, if_true, Bool.false_eq_true, if_false]
  have whole := here_gather_append noOpening noClosing offset _ (by rw [here]; nofun)
  rw [ofRest, whole, here]
  cases before <;> cases first <;> rfl

end Segments

/-! ## The same rounds in the search -/

/-- What comes of the rest of a scope by a search for faults and by gathering. -/
def searchThenGather (limit depth offset : Nat) (first : Bool) (fragment rest : Text) :
    Except Fault Segments :=
  match parenthesisFault? limit depth offset fragment rest with
  | some fault => .error fault
  | none => .ok (.ofRest first offset rest)

section Rounds

variable (limit depth offset : Nat) (first : Bool) (fragment : Text)

/-- A rest without groups is a run, unless it is empty and not the first. -/
theorem searchThenGather_of_plain {rest : Text} (noOpening : '(' ∉ rest) (noClosing : ')' ∉ rest) :
    searchThenGather limit depth offset first fragment rest =
      .ok (if rest.isEmpty && !first then .nil else .leaf ⟨rest, offset⟩ .nil) := by
  have passed := parenthesisFault?_append_of_plain noOpening noClosing limit depth offset
    fragment []
  rw [List.append_nil, parenthesisFault?] at passed
  rw [searchThenGather, passed, Segments.ofRest_of_plain noOpening noClosing]

/-- At the top a parenthesis that closes before any opens is refused. -/
theorem searchThenGather_of_stray {stray : Text} (noOpening : '(' ∉ stray) (noClosing : ')' ∉ stray)
    (after : Text) :
    searchThenGather limit 0 offset first fragment (stray ++ ')' :: after) =
      .error (.malformedParentheses fragment ⟨offset + stray.byteSize, 1⟩) := by
  rw [searchThenGather, parenthesisFault?_append_of_plain noOpening noClosing]
  rfl

/-- A group is refused beyond the limit, and otherwise it is searched before what follows it. At the
top the fragment is then what follows it. -/
theorem searchThenGather_of_group {before : Text} (noOpening : '(' ∉ before)
    (noClosing : ')' ∉ before) (inner : Layout) (after : Text) :
    let start := offset + before.byteSize
    let span : Span := ⟨start, inner.text.byteSize + 2⟩
    ∃ outer, (depth = 0 → outer = after) ∧
      searchThenGather limit depth offset first fragment
          (before ++ '(' :: (inner.text ++ ')' :: after)) =
        if limit < depth + 1 then .error (.nestingTooDeep limit span)
        else do
          let children ← searchThenGather limit (depth + 1) (start + 1) true fragment inner.text
          let later ←
            searchThenGather limit depth (start + inner.text.byteSize + 2) false outer after
          let group := Nested.group span children later
          return if before.isEmpty then group else .leaf ⟨before, offset⟩ group := by
  intro start span
  obtain ⟨later, passed⟩ := parenthesisFault?_text_append_eq inner limit (depth + 1) (start + 1)
    fragment (')' :: after)
  have position : start + 1 + inner.text.byteSize + 1 = start + inner.text.byteSize + 2 := by omega
  obtain ⟨outer, top, closes⟩ : ∃ outer, (depth = 0 → outer = after) ∧
      parenthesisFault? limit (depth + 1) (start + 1 + inner.text.byteSize) later (')' :: after) =
        parenthesisFault? limit depth (start + inner.text.byteSize + 2) outer after := by
    rw [← position]
    cases depth with
    | zero => exact ⟨after, fun _ => rfl, rfl⟩
    | succ depth => exact ⟨later, nofun, rfl⟩
  refine ⟨outer, top, ?_⟩
  rw [searchThenGather, parenthesisFault?_append_of_plain noOpening noClosing]
  by_cases below : depth < limit
  · rw [if_neg (by omega), parenthesisFault?_open below, passed, closes,
      Segments.ofRest_group noOpening noClosing, searchThenGather, parenthesisFault?_text,
      searchThenGather]
    cases inner.deepFault? limit (depth + 1) (start + 1) with
    | some fault => rfl
    | none =>
      cases parenthesisFault? limit depth (start + inner.text.byteSize + 2) outer after with
      | some fault => rfl
      | none => rfl
  · have ends : enclosed 0 (')' :: after) = [] := rfl
    rw [if_pos (by omega), parenthesisFault?_open_limit below, enclosed_text_append, ends,
      List.append_nil]

end Rounds

/-! ## The descent is the search -/

/-- The parentheses of a run, a group and what follows the group. -/
theorem count_run_group {before : Text} (noOpening : '(' ∉ before) (noClosing : ')' ∉ before)
    (inner after : Text) :
    (before ++ '(' :: (inner ++ ')' :: after)).count '(' = inner.count '(' + after.count '(' + 1 ∧
      (before ++ '(' :: (inner ++ ')' :: after)).count ')' =
        inner.count ')' + after.count ')' + 1 := by
  obtain ⟨opening, closing⟩ := Layout.count_parenthesised inner after
  rw [List.count_append, List.count_append, List.count_eq_zero.2 noOpening,
    List.count_eq_zero.2 noClosing, opening, closing, Nat.zero_add, Nat.zero_add]
  exact ⟨rfl, rfl⟩

namespace Text.Balanced

/-- A parenthesis opens before one that closes. -/
theorem opening_mem_of_close {stray after : Text} (balanced : Balanced (stray ++ ')' :: after)) :
    '(' ∈ stray := by
  have opened := balanced.opened (stray ++ [')']) (by simp)
  by_contra noOpening
  rw [List.count_append, List.count_append, List.count_eq_zero.2 noOpening] at opened
  simp at opened

/-- What follows a run and a group in a balanced text is balanced. -/
theorem behind_group {before : Text} (noOpening : '(' ∉ before) (noClosing : ')' ∉ before)
    {inner : Layout} {after : Text}
    (balanced : Balanced (before ++ '(' :: (inner.text ++ ')' :: after))) : after.Balanced := by
  have even := inner.count_text
  constructor
  · have counts := balanced.counts
    obtain ⟨opening, closing⟩ := count_run_group noOpening noClosing inner.text after
    omega
  · rintro start ⟨beyond, rfl⟩
    have opened := balanced.opened (before ++ '(' :: (inner.text ++ ')' :: start)) ⟨beyond, by simp⟩
    obtain ⟨opening, closing⟩ := count_run_group noOpening noClosing inner.text start
    omega

end Text.Balanced

/-- The descent comes to the same as the search. The fragment matters at the top only, where the
text need not be balanced. -/
theorem descendFrom_eq (limit depth offset : Nat) (first : Bool) {fragment rest : Text}
    (counts : rest.count '(' = rest.count ')')
    (told : depth = 0 ∧ fragment = rest ∨ rest.Balanced) :
    descendFrom limit depth offset first rest =
      searchThenGather limit depth offset first fragment rest := by
  induction size : rest.length using Nat.strongRecOn
    generalizing depth offset first fragment rest with
  | ind n ih =>
    cases cut : rest.cut? '(' with
    | none =>
      have noOpening := (Text.cut?_eq_none_iff ..).1 cut
      have noClosing : ')' ∉ rest := by
        rwa [← List.count_eq_zero, ← counts, List.count_eq_zero]
      rw [descendFrom_of_not_mem limit depth offset first noOpening,
        searchThenGather_of_plain limit depth offset first fragment noOpening noClosing]
    | some parts =>
      obtain ⟨before, behind⟩ := parts
      obtain ⟨rfl, noOpening⟩ := (Text.cut?_eq_some_iff ..).1 cut
      by_cases noClosing : ')' ∈ before
      · obtain ⟨stray, beyond, rfl, noneBefore⟩ := List.eq_append_cons_of_mem noClosing
        have noOpeningBefore : '(' ∉ stray := fun member =>
          noOpening (List.mem_append_left _ member)
        rw [descendFrom_of_stray limit depth offset first noOpening noneBefore]
        rw [List.append_assoc, List.cons_append] at told ⊢
        rcases told with ⟨rfl, rfl⟩ | balanced
        · rw [searchThenGather_of_stray limit offset first _ noOpeningBefore noneBefore]
        · exact absurd balanced.opening_mem_of_close noOpeningBefore
      · obtain ⟨inner, after, rfl, closed⟩ := exists_matchingClose? counts noClosing
        have shorter : inner.text.length < n ∧ after.length < n := by
          rw [← size]
          simp only [List.length_append, List.length_cons]
          omega
        have even := inner.count_text
        obtain ⟨opening, closing⟩ := count_run_group noOpening noClosing inner.text after
        have evenAfter : after.count '(' = after.count ')' := by omega
        obtain ⟨outer, top, searched⟩ := searchThenGather_of_group limit depth offset first fragment
          noOpening noClosing inner after
        have toldAfter : depth = 0 ∧ outer = after ∨ after.Balanced := by
          rcases told with ⟨atTop, -⟩ | balanced
          · exact .inl ⟨atTop, top atTop⟩
          · exact .inr (balanced.behind_group noOpening noClosing)
        rw [descendFrom_of_group limit depth offset first noOpening noClosing closed, searched,
          descend, if_pos even, ih _ shorter.1 _ _ _ even (.inr inner.balanced_text) rfl,
          ih _ shorter.2 _ _ _ evenAfter toldAfter rfl]

/-- The decomposition of a text is that of the descent. -/
theorem decomposeWithin_eq_descend (limit : Nat) (text : Text) :
    decomposeWithin limit text = descend limit 0 0 text := by
  rw [decomposeWithin, descend]
  split
  · next counts =>
    rw [descendFrom_eq limit 0 0 true counts (.inl ⟨rfl, rfl⟩)]
    rfl
  · rfl

end ComplexReckoner
