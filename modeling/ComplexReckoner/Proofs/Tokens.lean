import Mathlib.Data.List.Chain
import Mathlib.Data.List.TakeWhile
import ComplexReckoner.Proofs.Scan

/-! # The tokens of a run

A run of text is cut in two passes, at each `-` and then at each `+` and `*`. The tokens are those
of one scan from left to right (`scan`), which takes a sign, or all characters up to the next sign.

* `scanMarks_eq_scan` says that the scan finds what the two passes find,
* `Token.InPlace` says that tokens stand one after the other in a text, where the three tokens of a
  `-` share its character,
* `Token.Flanked` says that each factor `-1` stands between the operators it comes with. -/

namespace ComplexReckoner

/-! ## A scan from left to right -/

/-- The sign that a character is, if it is one. -/
def Sign.ofChar? (c : Char) : Option Sign :=
  if c = '+' then some .plus
  else if c = '-' then some .minus
  else if c = '*' then some .times
  else none

/-- What is scanned at a sign: an operator, or for a `-` two operators and the factor between. -/
def Sign.scanned (offset : Nat) : Sign → List Token
  | .plus => [⟨.plus, ['+'], offset⟩]
  | .times => [⟨.star, ['*'], offset⟩]
  | .minus => [⟨.plus, ['-'], offset⟩, ⟨.negativeOne, ['-'], offset⟩, ⟨.star, ['-'], offset⟩]

/-- Whether a character can stand in a term: it is not a sign. -/
def isTermChar (c : Char) : Bool := (Sign.ofChar? c).isNone

/-- Scans a text that stands at an offset from left to right. A sign gives its tokens, and the
longest stretch of other characters gives one term. -/
def scan (offset : Nat) : Text → List Token
  | [] => []
  | c :: rest =>
      match Sign.ofChar? c with
      | some sign => sign.scanned offset ++ scan (offset + 1) rest
      | none =>
          let stretch := c :: rest.takeWhile isTermChar
          ⟨.term, stretch, offset⟩ ::
            scan (offset + Text.byteSize stretch) (rest.dropWhile isTermChar)
termination_by text => text.length
decreasing_by
  · simp
  · have shorter := (List.dropWhile_suffix isTermChar (l := rest)).length_le
    simp only [List.length_cons]
    omega

/-- A character that is a sign is the character of this sign. -/
theorem Sign.eq_char_of_ofChar? {c : Char} {sign : Sign} (found : Sign.ofChar? c = some sign) :
    c = sign.char := by
  unfold Sign.ofChar? at found
  split_ifs at found with plus minus times <;> cases found <;> assumption

/-- The characters of terms are those other than signs. -/
theorem isTermChar_eq_true_iff (c : Char) : isTermChar c = true ↔ c ≠ '+' ∧ c ≠ '-' ∧ c ≠ '*' := by
  unfold isTermChar Sign.ofChar?
  split_ifs <;> simp_all

/-- The characters of terms have no marks. -/
theorem signMarks_of_isTermChar {c : Char} (inTerm : isTermChar c = true) : signMarks c = [] := by
  obtain ⟨plus, minus, times⟩ := (isTermChar_eq_true_iff c).1 inTerm
  rw [signMarks, subtractionMarks, operatorMarks, if_neg minus, if_neg plus, if_neg times]
  rfl

/-- The first characters of a text up to the next sign can stand in a term. -/
theorem isTermChar_of_mem_stretch {c d : Char} {rest : Text} (none : Sign.ofChar? c = none)
    (member : d ∈ c :: rest.takeWhile isTermChar) : isTermChar d = true := by
  rcases List.mem_cons.1 member with rfl | later
  · rw [isTermChar, none]
    rfl
  · exact List.mem_takeWhile_imp later

/-- What is left behind a stretch does not begin with a character of a term. -/
theorem isTermChar_of_head?_dropWhile {rest : Text} {d : Char}
    (first : d ∈ (rest.dropWhile isTermChar).head?) : isTermChar d = false := by
  have ends := List.head?_dropWhile_not isTermChar rest
  rw [first] at ends
  simpa using ends

/-- A text is a stretch and what is left behind it. -/
theorem stretch_append_dropWhile (c : Char) (rest : Text) :
    c :: rest = (c :: rest.takeWhile isTermChar) ++ rest.dropWhile isTermChar := by
  rw [List.cons_append, List.takeWhile_append_dropWhile]

/-- The tokens of a sign are not terms. -/
theorem Sign.kind_of_mem_scanned {sign : Sign} {offset : Nat} {token : Token}
    (member : token ∈ sign.scanned offset) : token.kind ≠ .term := by
  revert token
  cases sign <;> simp [Sign.scanned]

/-! ## The two passes find what the scan finds -/

/-- A text that does not begin with a character of a term is not cut into a term first. -/
theorem head?_scanMarks_ne_term {text : Text} (apart : ∀ c ∈ text.head?, isTermChar c = false)
    (offset : Nat) : ∀ token ∈ (scanMarks signMarks offset text).head?, token.kind ≠ .term := by
  cases text with
  | nil => nofun
  | cons c rest =>
    have isSign : isTermChar c = false := apart c rfl
    rw [isTermChar, Option.isNone_eq_false_iff, Option.isSome_iff_exists] at isSign
    obtain ⟨sign, found⟩ := isSign
    rw [Sign.eq_char_of_ofChar? found, scanMarks_cons]
    cases sign <;> rintro token ⟨rfl⟩ <;> simp

/-- A stretch of characters of a term is cut into one term, up to where another character comes. -/
theorem scanMarks_stretch_append {stretch : Text} (nonempty : stretch ≠ [])
    (inTerm : ∀ c ∈ stretch, isTermChar c = true) {after : Text}
    (apart : ∀ c ∈ after.head?, isTermChar c = false) (offset : Nat) :
    scanMarks signMarks offset (stretch ++ after) =
      ⟨.term, stretch, offset⟩ :: scanMarks signMarks (offset + stretch.byteSize) after := by
  induction stretch generalizing offset with
  | nil => exact absurd rfl nonempty
  | cons c later ih =>
    obtain ⟨here, inTermLater⟩ := List.forall_mem_cons.1 inTerm
    rw [List.cons_append, scanMarks_cons, putMarked_of_nil (signMarks_of_isTermChar here)]
    by_cases last : later = []
    · -- the last character of the stretch begins the term
      subst last
      have single : Text.byteSize [c] = c.utf8Size := by simp
      rw [List.nil_append, ← putMarked_of_nil (signMarks_of_isTermChar here),
        putMarked_of_not_term _ _ _ (head?_scanMarks_ne_term apart _),
        putMarked_of_nil (signMarks_of_isTermChar here), single]
      rfl
    · -- any other one joins it
      rw [ih last inTermLater, Text.byteSize_cons, ← Nat.add_assoc]
      rfl

/-- The scan finds what the two passes find. -/
theorem scanMarks_eq_scan (offset : Nat) (text : Text) :
    scanMarks signMarks offset text = scan offset text := by
  fun_induction scan offset text with
  | case1 => rfl
  | case2 offset c rest sign found ih =>
    rw [Sign.eq_char_of_ofChar? found, scanMarks_cons, Sign.utf8Size_char, ih]
    cases sign <;> rfl
  | case3 offset c rest none stretch ih =>
    rw [stretch_append_dropWhile, scanMarks_stretch_append (List.cons_ne_nil _ _)
      (fun d member => isTermChar_of_mem_stretch none member)
      (fun d first => isTermChar_of_head?_dropWhile first), ih]

/-- The tokens of a run with characters are those of the scan. -/
theorem tokenize_eq_scan {text : Text} (nonempty : text ≠ []) (offset : Nat) :
    tokenize text offset = scan offset text := by
  rw [tokenize_eq_scanMarks, orEmptyTerm_of_ne_nil _ (scanMarks_ne_nil _ _ nonempty),
    scanMarks_eq_scan]

/-! ## Where tokens stand -/

namespace Token

/-- What a token adds to a text: its characters. The three tokens of a `-` add it once, with the
last of them. -/
def share (token : Token) : Text :=
  if token.literal = ['-'] ∧ token.kind ≠ .star then [] else token.literal

/-- Whether tokens stand one after the other in a text that stands at an offset, and leave nothing
out of it. -/
def InPlace (offset : Nat) (text : Text) : List Token → Prop
  | [] => text = []
  | token :: later =>
      token.offset = offset ∧ token.literal <+: text ∧
        ∃ rest, text = token.share ++ rest ∧
          InPlace (offset + token.share.byteSize) rest later

/-- A token that adds its characters can stand in front. -/
theorem InPlace.cons (token : Token) {rest : Text} {later : List Token}
    (whole : token.share = token.literal)
    (inPlace : InPlace (token.offset + token.literal.byteSize) rest later) :
    InPlace token.offset (token.literal ++ rest) (token :: later) := by
  refine ⟨rfl, List.prefix_append _ _, rest, ?_, ?_⟩
  · rw [whole]
  · rw [whole]
    exact inPlace

/-- The tokens of a sign can stand in front. -/
theorem InPlace.sign {offset : Nat} {rest : Text} {later : List Token} (sign : Sign)
    (inPlace : InPlace (offset + 1) rest later) :
    InPlace offset (sign.char :: rest) (sign.scanned offset ++ later) := by
  cases sign with
  | plus => exact InPlace.cons ⟨.plus, ['+'], offset⟩ rfl inPlace
  | times => exact InPlace.cons ⟨.star, ['*'], offset⟩ rfl inPlace
  | minus =>
    -- the first two tokens add nothing, so that all three stand at the same place
    have star := InPlace.cons ⟨.star, ['-'], offset⟩ rfl inPlace
    have stands : ['-'] <+: '-' :: rest := ⟨rest, rfl⟩
    exact ⟨rfl, stands, _, rfl, rfl, stands, _, rfl, star⟩

/-- Tokens in place add up to the text. -/
theorem InPlace.flatMap_share {offset : Nat} {text : Text} {tokens : List Token}
    (inPlace : InPlace offset text tokens) : tokens.flatMap share = text := by
  induction tokens generalizing offset text with
  | nil => exact inPlace.symm
  | cons token later ih =>
    obtain ⟨-, -, rest, rfl, following⟩ := inPlace
    rw [List.flatMap_cons, ih following]

/-- A token in place stands behind what the earlier ones add. -/
theorem InPlace.stands {offset : Nat} {text : Text} {earlier later : List Token} {token : Token}
    (inPlace : InPlace offset text (earlier ++ token :: later)) :
    token.offset = offset + Text.byteSize (earlier.flatMap share) ∧
      ∃ rest, text = earlier.flatMap share ++ (token.literal ++ rest) := by
  induction earlier generalizing offset text with
  | nil =>
    obtain ⟨place, ⟨rest, split⟩, -⟩ := inPlace
    exact ⟨place, rest, split.symm⟩
  | cons first earlier ih =>
    obtain ⟨-, -, behind, rfl, following⟩ := inPlace
    obtain ⟨place, rest, rfl⟩ := ih following
    refine ⟨?_, rest, ?_⟩
    · rw [place, List.flatMap_cons, Text.byteSize_append, Nat.add_assoc]
    · rw [List.flatMap_cons, List.append_assoc]

/-! ## What stands beside a token -/

/-- Whether two tokens may stand side by side: they are not both terms. -/
def Apart (first second : Token) : Prop := ¬ (first.kind = .term ∧ second.kind = .term)

/-- Tokens that are not terms can stand before any others. -/
theorem isChain_append_of_ne_term {tokens later : List Token}
    (others : ∀ token ∈ tokens, token.kind ≠ .term) (chain : later.IsChain Apart) :
    (tokens ++ later).IsChain Apart := by
  induction tokens with
  | nil => exact chain
  | cons token tokens ih =>
    obtain ⟨here, behind⟩ := List.forall_mem_cons.1 others
    exact List.isChain_cons.2 ⟨fun _ _ both => here both.1, ih behind⟩

/-- Whether each factor `-1` among tokens stands between the operators it comes with, which have the
same characters at the same place. -/
def Flanked (tokens : List Token) : Prop :=
  ∀ earlier token later, tokens = earlier ++ token :: later → token.kind = .negativeOne →
    (∃ start, earlier = start ++ [⟨.plus, token.literal, token.offset⟩]) ∧
      ∃ rest, later = ⟨.star, token.literal, token.offset⟩ :: rest

/-- Tokens of any other kind are flanked. -/
theorem flanked_of_forall_ne {tokens : List Token}
    (other : ∀ token ∈ tokens, token.kind ≠ .negativeOne) : Flanked tokens := by
  rintro earlier token later rfl isFactor
  exact absurd isFactor (other token (by simp))

/-- The tokens of a sign are flanked. -/
theorem flanked_scanned (sign : Sign) (offset : Nat) : Flanked (sign.scanned offset) := by
  cases sign with
  | plus => exact flanked_of_forall_ne (by simp [Sign.scanned])
  | times => exact flanked_of_forall_ne (by simp [Sign.scanned])
  | minus =>
    intro earlier token later split isFactor
    -- only the second of the three tokens is a factor
    match earlier, split with
    | [], split =>
      cases split
      cases isFactor
    | [first], split =>
      cases split
      exact ⟨⟨[], rfl⟩, ⟨[], rfl⟩⟩
    | [first, second], split =>
      cases split
      cases isFactor
    | first :: second :: third :: earlier, split => simp [Sign.scanned] at split

/-- Tokens that are flanked stay so with other such tokens behind them. -/
theorem Flanked.append {tokens others : List Token} (first : Flanked tokens)
    (second : Flanked others) : Flanked (tokens ++ others) := by
  intro earlier token later split isFactor
  rcases List.append_eq_append_iff.1 split with ⟨between, rfl, same⟩ | ⟨between, rfl, same⟩
  · obtain ⟨⟨start, rfl⟩, rest⟩ := second between token later same isFactor
    exact ⟨⟨tokens ++ start, by rw [List.append_assoc]⟩, rest⟩
  · cases between with
    | nil =>
      obtain ⟨⟨start, same⟩, rest⟩ := second [] token later same.symm isFactor
      simp at same
    | cons head between =>
      obtain ⟨rfl, rfl⟩ := List.cons.inj same
      obtain ⟨start, rest, rfl⟩ := first earlier token between rfl isFactor
      exact ⟨start, rest ++ others, rfl⟩

end Token

/-! ## What is scanned -/

section Scan

variable (offset : Nat) (text : Text)

/-- The tokens that are scanned stand one after the other in the text. -/
theorem inPlace_scan : Token.InPlace offset text (scan offset text) := by
  fun_induction scan offset text with
  | case1 => rfl
  | case2 offset c rest sign found ih =>
    rw [Sign.eq_char_of_ofChar? found]
    exact .sign sign ih
  | case3 offset c rest none stretch ih =>
    have notMinus : stretch ≠ ['-'] := by
      intro same
      rw [(List.cons.inj same).1] at none
      cases none
    rw [stretch_append_dropWhile]
    exact .cons ⟨.term, stretch, offset⟩ (if_neg fun both => notMinus both.1) ih

/-- The terms that are scanned have no sign in them. -/
theorem isTermChar_of_mem_scan {token : Token} (member : token ∈ scan offset text)
    (isTerm : token.kind = .term) : ∀ c ∈ token.literal, isTermChar c = true := by
  fun_induction scan offset text with
  | case1 => cases member
  | case2 offset c rest sign found ih =>
    rcases List.mem_append.1 member with ofSign | later
    · exact absurd isTerm (Sign.kind_of_mem_scanned ofSign)
    · exact ih later
  | case3 offset c rest none stretch ih =>
    rcases List.mem_cons.1 member with rfl | later
    · exact fun d among => isTermChar_of_mem_stretch none among
    · exact ih later

/-- A factor that is scanned stands between the operators it comes with. -/
theorem flanked_scan : Token.Flanked (scan offset text) := by
  fun_induction scan offset text with
  | case1 => exact Token.flanked_of_forall_ne (by simp)
  | case2 offset c rest sign found ih => exact (Token.flanked_scanned sign offset).append ih
  | case3 offset c rest none stretch ih =>
    have term : Token.Flanked [⟨.term, stretch, offset⟩] := Token.flanked_of_forall_ne (by simp)
    exact term.append ih

/-- No two terms that are scanned stand side by side. -/
theorem isChain_scan : (scan offset text).IsChain Token.Apart := by
  fun_induction scan offset text with
  | case1 => exact .nil
  | case2 offset c rest sign found ih =>
    exact Token.isChain_append_of_ne_term (fun token member => Sign.kind_of_mem_scanned member) ih
  | case3 offset c rest none stretch ih =>
    refine List.isChain_cons.2 ⟨fun token first both => ?_, ih⟩
    rw [← scanMarks_eq_scan] at first
    exact head?_scanMarks_ne_term (fun d next => isTermChar_of_head?_dropWhile next) _ token first
      both.2

end Scan

/-- The two passes over a run are one scan from left to right, and nothing is lost.

The tokens of a text are those that are scanned, and an empty term for a text without characters.
What they add up to is the text, when the three tokens of a `-` are counted once. Each stands where
the text that the earlier ones add up to ends. No term has a sign in it, no two terms stand side by
side, and each factor `-1` stands between the operators it comes with. -/
theorem tokenize_is_one_scan (text : Text) (offset : Nat) :
    tokenize text offset = (if text = [] then [⟨.term, [], offset⟩] else scan offset text) ∧
    (tokenize text offset).flatMap Token.share = text ∧
    (∀ earlier token later, tokenize text offset = earlier ++ token :: later →
      token.offset = offset + Text.byteSize (earlier.flatMap Token.share) ∧
        ∃ rest, text = earlier.flatMap Token.share ++ (token.literal ++ rest)) ∧
    (∀ token ∈ tokenize text offset, token.kind = .term →
      ∀ c ∈ token.literal, c ≠ '+' ∧ c ≠ '-' ∧ c ≠ '*') ∧
    (tokenize text offset).IsChain Token.Apart ∧
    Token.Flanked (tokenize text offset) := by
  by_cases empty : text = []
  · -- the empty term stands alone
    subst empty
    have sole : tokenize [] offset = [⟨.term, [], offset⟩] := rfl
    have inPlace : Token.InPlace offset [] (tokenize [] offset) :=
      ⟨rfl, List.nil_prefix, [], rfl, rfl⟩
    refine ⟨rfl, rfl, ?_, ?_, ?_, ?_⟩
    · intro earlier token later split
      rw [split] at inPlace
      exact inPlace.stands
    · rw [sole]
      simp
    · rw [sole]
      exact List.isChain_singleton _
    · rw [sole]
      exact Token.flanked_of_forall_ne (by simp)
  · have same := tokenize_eq_scan empty offset
    rw [same, if_neg empty]
    refine ⟨rfl, (inPlace_scan offset text).flatMap_share, ?_, ?_, isChain_scan offset text,
      flanked_scan offset text⟩
    · intro earlier token later split
      have inPlace := inPlace_scan offset text
      rw [split] at inPlace
      exact inPlace.stands
    · intro token member isTerm c among
      exact (isTermChar_eq_true_iff c).1 (isTermChar_of_mem_scan offset text member isTerm c among)

/-- The text `é--` is scanned as a term of two bytes and two triples, and the second `-1` stands
between its operators at the offset 3. -/
theorem tokenize_is_one_scan_repeated :
    (tokenize ['é', '-', '-'] 0).flatMap Token.share = ['é', '-', '-'] ∧
      ∃ earlier token later, tokenize ['é', '-', '-'] 0 = earlier ++ token :: later ∧
        token.kind = .negativeOne ∧ token.offset = 3 ∧ ∃ start rest,
          earlier = start ++ [⟨.plus, ['-'], 3⟩] ∧ later = ⟨.star, ['-'], 3⟩ :: rest := by
  obtain ⟨-, added, -, -, -, flanked⟩ := tokenize_is_one_scan ['é', '-', '-'] 0
  have split : tokenize ['é', '-', '-'] 0 =
      [⟨.term, ['é'], 0⟩, ⟨.plus, ['-'], 2⟩, ⟨.negativeOne, ['-'], 2⟩, ⟨.star, ['-'], 2⟩,
        ⟨.plus, ['-'], 3⟩] ++ ⟨.negativeOne, ['-'], 3⟩ :: [⟨.star, ['-'], 3⟩] := by decide
  obtain ⟨⟨start, before⟩, ⟨rest, behind⟩⟩ := flanked _ _ _ split rfl
  exact ⟨added, _, _, _, split, rfl, rfl, start, rest, before, behind⟩

end ComplexReckoner
