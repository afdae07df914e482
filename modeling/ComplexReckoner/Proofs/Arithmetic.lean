import Mathlib.Algebra.Ring.Defs
import Mathlib.Algebra.Ring.Int.Defs
import ComplexReckoner.Proofs.Precedence
import ComplexReckoner.Proofs.Reading

/-! # Arithmetic in a ring

The grammar of expressions says nothing about precedence, and the evaluation knows no difference. In
a ring both give what is usually meant. An `Arithmetic` expression is built the usual way: a product
takes one atom at a time to its right, and a sum or a difference one product at a time. Every
derived text can be built so (`Formula.text_arithmetic`).

A difference is carried out as the sum with a multiple of `-1`, and the factor `-1` joins whatever
product comes next. So the value of a formula is followed with a factor in front of it
(`Formula.scaled`), which is what the reduction of its terms gives (`Formula.evaluate_expression`)
and what the usual reading gives (`Arithmetic.scaled_formula`). -/

namespace ComplexReckoner

/-! ## The usual reading -/

/-- How far an arithmetic expression reaches. -/
inductive Rank where
  /-- A word, or an expression in parentheses. -/
  | atom
  /-- A product of atoms. -/
  | product
  /-- A sum or difference of products. -/
  | sum

/-- Arithmetic expressions as they are usually read: products bind tighter than sums and
differences, and all of them go from left to right. -/
inductive Arithmetic : Rank → Type where
  /-- A word. -/
  | ofWord (content : Word) : Arithmetic .atom
  /-- An expression in parentheses. -/
  | enclosed (inner : Arithmetic .sum) : Arithmetic .atom
  /-- An atom alone. -/
  | ofAtom (alone : Arithmetic .atom) : Arithmetic .product
  /-- A product. -/
  | times (left : Arithmetic .product) (right : Arithmetic .atom) : Arithmetic .product
  /-- A product alone. -/
  | ofProduct (alone : Arithmetic .product) : Arithmetic .sum
  /-- A sum. -/
  | plus (left : Arithmetic .sum) (right : Arithmetic .product) : Arithmetic .sum
  /-- A difference. -/
  | minus (left : Arithmetic .sum) (right : Arithmetic .product) : Arithmetic .sum

namespace Arithmetic

variable {rank : Rank} {R : Type} [Ring R] (value : Text → R)

/-- Writes an arithmetic expression. -/
def text {rank : Rank} : Arithmetic rank → Text
  | ofWord content => content.text
  | enclosed inner => '(' :: (inner.text ++ [')'])
  | ofAtom alone => alone.text
  | times left right => left.text ++ '*' :: right.text
  | ofProduct alone => alone.text
  | plus left right => left.text ++ '+' :: right.text
  | minus left right => left.text ++ '-' :: right.text

/-- The value of an arithmetic expression, given the values of words. -/
def eval {rank : Rank} : Arithmetic rank → R
  | ofWord content => value content.text
  | enclosed inner => inner.eval
  | ofAtom alone => alone.eval
  | times left right => left.eval * right.eval
  | ofProduct alone => alone.eval
  | plus left right => left.eval + right.eval
  | minus left right => left.eval - right.eval

/-- The formula that an arithmetic expression begins, with the rest of its scope behind it. -/
def formula {rank : Rank} : Arithmetic rank → Tail → Formula
  | ofWord content, tail => tail.behindWord content
  | enclosed inner, tail => tail.behindGroup (inner.formula none)
  | ofAtom alone, tail => alone.formula tail
  | times left right, tail => left.formula (some (.times, right.formula tail))
  | ofProduct alone, tail => alone.formula tail
  | plus left right, tail => left.formula (some (.plus, right.formula tail))
  | minus left right, tail => left.formula (some (.minus, right.formula tail))

/-- The formula is written as the expression and the rest. -/
@[simp] theorem text_formula (arithmetic : Arithmetic rank) (tail : Tail) :
    (arithmetic.formula tail).text = arithmetic.text ++ tail.text := by
  induction arithmetic generalizing tail with
  | ofWord content => exact Tail.text_behindWord content tail
  | enclosed inner ih => simp [formula, text, ih, Tail.text]
  | ofAtom alone ih => exact ih tail
  | times left right ihLeft ihRight => simp [formula, text, ihLeft, ihRight, Tail.text, Sign.char]
  | ofProduct alone ih => exact ih tail
  | plus left right ihLeft ihRight => simp [formula, text, ihLeft, ihRight, Tail.text, Sign.char]
  | minus left right ihLeft ihRight => simp [formula, text, ihLeft, ihRight, Tail.text, Sign.char]

end Arithmetic

/-- What precedes an atom in its scope: nothing, or an expression and a sign. -/
abbrev Head := Option (Arithmetic .sum × Sign)

namespace Head

/-- Writes what precedes an atom. -/
def text : Head → Text
  | none => []
  | some (left, sign) => left.text ++ [sign.char]

/-- Takes one more atom to the right. A factor joins the product at the end. -/
def take (right : Arithmetic .atom) : Head → Arithmetic .sum
  | none => .ofProduct (.ofAtom right)
  | some (left, .plus) => .plus left (.ofAtom right)
  | some (left, .minus) => .minus left (.ofAtom right)
  | some (.ofProduct last, .times) => .ofProduct (.times last right)
  | some (.plus left last, .times) => .plus left (.times last right)
  | some (.minus left last, .times) => .minus left (.times last right)

/-- The atom is written to the right. -/
@[simp] theorem text_take (right : Arithmetic .atom) (head : Head) :
    (head.take right).text = head.text ++ right.text := by
  unfold take
  split <;> simp [text, Arithmetic.text, Sign.char]

end Head

namespace Formula

/-- Reads a formula the usual way, from left to right. -/
def arithmetic : Head → Formula → Arithmetic .sum
  | head, .word content => head.take (.ofWord content)
  | head, .group inner => head.take (.enclosed (inner.arithmetic none))
  | head, .wordThen content sign rest => rest.arithmetic (some (head.take (.ofWord content), sign))
  | head, .groupThen inner sign rest =>
      rest.arithmetic (some (head.take (.enclosed (inner.arithmetic none)), sign))

/-- The usual reading of a formula has its text. -/
@[simp] theorem text_arithmetic (head : Head) (formula : Formula) :
    (formula.arithmetic head).text = head.text ++ formula.text := by
  induction formula generalizing head with
  | word content => simp [arithmetic, text, Arithmetic.text]
  | group inner ih => simp [arithmetic, text, Arithmetic.text, ih, Head.text]
  | wordThen content sign rest ih => simp [arithmetic, text, Arithmetic.text, ih, Head.text]
  | groupThen inner sign rest ihInner ihRest =>
    simp [arithmetic, text, Arithmetic.text, ihInner, ihRest, Head.text]

end Formula

/-! ## Values with a factor in front -/

variable {R : Type} [Ring R] (value : Text → R)

/-- What a sign makes of the value to its left and of what follows it, when the value of what
follows is known with any factor in front. -/
def Sign.join (left : R) (later : R → R) : Sign → R
  | plus => left + later 1
  | minus => left + later (-1)
  | times => later left

/-- The value of a formula with a factor in front of it, which belongs to its first product. -/
def Formula.scaled : Formula → R → R
  | .word content, factor => factor * value content.text
  | .group inner, factor => factor * inner.scaled 1
  | .wordThen content sign rest, factor => sign.join (factor * value content.text) rest.scaled
  | .groupThen inner sign rest, factor => sign.join (factor * inner.scaled 1) rest.scaled

namespace Tail

/-- The value of a product and the rest of its scope. -/
def scaled (left : R) : Tail → R
  | none => left
  | some (sign, rest) => sign.join left (rest.scaled value)

/-- A word is one more factor of the product it ends. -/
theorem scaled_behindWord (content : Word) (tail : Tail) (factor : R) :
    (tail.behindWord content).scaled value factor =
      tail.scaled value (factor * value content.text) := by
  match tail with
  | none => rfl
  | some (sign, rest) => rfl

/-- A formula in parentheses is one more factor of the product it ends. -/
theorem scaled_behindGroup (inner : Formula) (tail : Tail) (factor : R) :
    (tail.behindGroup inner).scaled value factor =
      tail.scaled value (factor * inner.scaled value 1) := by
  match tail with
  | none => rfl
  | some (sign, rest) => rfl

/-- Whether a product ends before the rest of a scope. -/
def EndsProduct (tail : Tail) : Prop := ∀ rest, tail ≠ some (.times, rest)

/-- A product ends at the end of its scope. -/
theorem endsProduct_none : EndsProduct none := nofun

/-- A product ends before any other sign. -/
theorem endsProduct_some {sign : Sign} (other : sign ≠ .times) (rest : Formula) :
    EndsProduct (some (sign, rest)) := by
  rintro later ⟨⟩
  exact other rfl

/-- What stands to the left of a product can be added before the rest of the scope is. -/
theorem add_scaled {tail : Tail} (ends : tail.EndsProduct) (left right : R) :
    left + tail.scaled value right = tail.scaled value (left + right) := by
  match tail with
  | none => rfl
  | some (.plus, rest) => exact (add_assoc left right _).symm
  | some (.minus, rest) => exact (add_assoc left right _).symm
  | some (.times, rest) => exact absurd rfl (ends rest)

end Tail

/-- An arithmetic expression has its value in front of the rest of its scope. In front of an atom or
a product any factor can stand, but before the rest of a sum no product goes on. -/
theorem Arithmetic.scaled_formula {rank : Rank} (arithmetic : Arithmetic rank) (tail : Tail)
    (factor : R) (whole : rank = .sum → factor = 1 ∧ tail.EndsProduct) :
    (arithmetic.formula tail).scaled value factor =
      tail.scaled value (factor * arithmetic.eval value) := by
  induction arithmetic generalizing tail factor with
  | ofWord content => exact tail.scaled_behindWord value content factor
  | enclosed inner ih =>
    have within : (inner.formula none).scaled value 1 = 1 * inner.eval value :=
      ih none 1 fun _ => ⟨rfl, Tail.endsProduct_none⟩
    rw [formula, Tail.scaled_behindGroup, within, one_mul, eval]
  | ofAtom alone ih => exact ih tail factor nofun
  | times left right ihLeft ihRight =>
    rw [formula, ihLeft _ _ nofun]
    show (right.formula tail).scaled value (factor * left.eval value) = _
    rw [ihRight _ _ nofun, eval, mul_assoc]
  | ofProduct alone ih => exact ih tail factor nofun
  | plus left right ihLeft ihRight =>
    obtain ⟨rfl, ends⟩ := whole rfl
    have before := ihLeft (some (.plus, right.formula tail)) 1 fun _ =>
      ⟨rfl, Tail.endsProduct_some (by decide) _⟩
    rw [one_mul] at before
    calc
      _ = left.eval value + (right.formula tail).scaled value 1 := before
      _ = left.eval value + tail.scaled value (1 * right.eval value) := by rw [ihRight _ _ nofun]
      _ = tail.scaled value (left.eval value + 1 * right.eval value) :=
        Tail.add_scaled value ends _ _
      _ = tail.scaled value (1 * (left.eval value + right.eval value)) := by rw [one_mul, one_mul]
  | minus left right ihLeft ihRight =>
    obtain ⟨rfl, ends⟩ := whole rfl
    have before := ihLeft (some (.minus, right.formula tail)) 1 fun _ =>
      ⟨rfl, Tail.endsProduct_some (by decide) _⟩
    rw [one_mul] at before
    -- the factor `-1` goes to the product that is subtracted, and to nothing behind it
    calc
      _ = left.eval value + (right.formula tail).scaled value (-1) := before
      _ = left.eval value + tail.scaled value (-1 * right.eval value) := by rw [ihRight _ _ nofun]
      _ = tail.scaled value (left.eval value + -1 * right.eval value) :=
        Tail.add_scaled value ends _ _
      _ = tail.scaled value (1 * (left.eval value - right.eval value)) := by
        rw [neg_one_mul, ← sub_eq_add_neg, one_mul]

/-! ## The reduction of terms -/

namespace Chain

/-- The value of a chain: each sum is taken to the right. -/
def total (first : R) : List (Operator × R) → R
  | [] => first
  | (.plus, next) :: rest => first + total next rest
  | (.star, next) :: rest => total (first * next) rest

/-- Whether sums of products are taken to the left or to the right does not matter. -/
theorem foldl_contract_eq_total (first : R) (links : List (Operator × R)) :
    ((contract .star (· * ·) first links).links.map Prod.snd).foldl (· + ·)
        (contract .star (· * ·) first links).first = total first links := by
  induction links generalizing first with
  | nil => rfl
  | cons link rest ih =>
    obtain ⟨operator, next⟩ := link
    cases operator with
    | plus =>
      show (_ : List R).foldl (· + ·) (first + (contract .star (· * ·) next rest).first) = _
      rw [List.foldl_assoc, total, ih next]
    | star => exact ih (first * next)

/-- The terms of a chain are reduced to its value. -/
theorem settle_terms_eq_total (chain : Chain R) :
    Expression.settle chain.terms = .ok (total chain.first chain.links) := by
  obtain ⟨result, settled, means⟩ := chain.settle_terms
  have found : sumOfProducts? chain.terms = some (total chain.first chain.links) := by
    rw [sumOfProducts?, mapM_product?_splitOnP, ← foldl_contract_eq_total]
    rfl
  rw [settled, Option.some.inj (means.symm.trans found)]

/-- The terms of a chain are reduced to what its value is with the factor `1` in front. -/
theorem settle_terms_of_scales {chain : Chain R} {scaled : R → R}
    (scales : ∀ factor, total (factor * chain.first) chain.links = scaled factor) :
    Expression.settle chain.terms = .ok (scaled 1) := by
  rw [settle_terms_eq_total, ← scales 1, one_mul]

end Chain

namespace Formula

/-- The terms of a sign come before those of a chain, and join its value to what stands to the
left. -/
theorem exists_links_of_sign (sign : Sign) {rest : Expression R} {chain : Chain R}
    (settled : rest.settleGroups = .ok chain.terms) :
    ∃ links,
      Expression.settleGroups (.leaves (sign.terms (-1)) rest) = .ok (Chain.linkTerms links) ∧
      ∀ left, Chain.total left links =
        sign.join left fun factor => Chain.total (factor * chain.first) chain.links := by
  obtain ⟨first, links⟩ := chain
  cases sign with
  | plus =>
    refine ⟨(.plus, first) :: links, bind_eq_ok_iff.2 ⟨_, settled, rfl⟩, fun left => ?_⟩
    rw [Chain.total, Sign.join, one_mul]
  | minus =>
    refine ⟨(.plus, -1) :: (.star, first) :: links, ?_, fun left => rfl⟩
    exact bind_eq_ok_iff.2 ⟨_, bind_eq_ok_iff.2 ⟨_, bind_eq_ok_iff.2 ⟨_, settled, rfl⟩, rfl⟩, rfl⟩
  | times =>
    exact ⟨(.star, first) :: links, bind_eq_ok_iff.2 ⟨_, settled, rfl⟩, fun left => rfl⟩

/-- The terms of a formula are a chain, and its value is that of the formula with any factor in
front. -/
theorem exists_chain_scaled (formula : Formula) :
    ∃ chain : Chain R, (formula.expression (-1) value).settleGroups = .ok chain.terms ∧
      ∀ factor, Chain.total (factor * chain.first) chain.links = formula.scaled value factor := by
  induction formula with
  | word content => exact ⟨⟨value content.text, []⟩, rfl, fun factor => rfl⟩
  | group inner ih =>
    obtain ⟨chain, settled, scales⟩ := ih
    have within := Chain.settle_terms_of_scales scales
    refine ⟨⟨inner.scaled value 1, []⟩, ?_, fun factor => rfl⟩
    exact bind_eq_ok_iff.2 ⟨_, settled, bind_eq_ok_iff.2 ⟨_, within, rfl⟩⟩
  | wordThen content sign rest ih =>
    obtain ⟨chain, settled, scales⟩ := ih
    obtain ⟨links, settledLater, joins⟩ := exists_links_of_sign sign settled
    refine ⟨⟨value content.text, links⟩, bind_eq_ok_iff.2 ⟨_, settledLater, rfl⟩, fun factor => ?_⟩
    rw [joins, funext scales, scaled]
  | groupThen inner sign rest ihInner ihRest =>
    obtain ⟨innerChain, settledInner, scalesInner⟩ := ihInner
    obtain ⟨chain, settled, scales⟩ := ihRest
    obtain ⟨links, settledLater, joins⟩ := exists_links_of_sign sign settled
    have within := Chain.settle_terms_of_scales scalesInner
    refine ⟨⟨inner.scaled value 1, links⟩, ?_, fun factor => ?_⟩
    · exact bind_eq_ok_iff.2 ⟨_, settledInner, bind_eq_ok_iff.2 ⟨_, within,
        bind_eq_ok_iff.2 ⟨_, settledLater, rfl⟩⟩⟩
    · rw [joins, funext scales, scaled]

/-- The expression of a formula is evaluated to the value of the formula. -/
theorem evaluate_expression (formula : Formula) :
    (formula.expression (-1) value).evaluate = .ok (formula.scaled value 1) := by
  obtain ⟨chain, settled, scales⟩ := formula.exists_chain_scaled value
  rw [Expression.evaluate, settled]
  exact Chain.settle_terms_of_scales scales

end Formula

/-! ## The values of texts -/

/-- The meaning of tokens in a ring where every word has a value. -/
def Interpretation.exact : Interpretation R where
  minusOne := -1
  term := fun word _ => .ok (value word)

/-- Terms have their values in a ring wherever they stand. -/
theorem Interpretation.uniform_exact : (exact value).Uniform := by
  intro word offset held resolved other
  exact resolved

/-- Every formula denotes an expression in a ring. -/
theorem Interpretation.denotes_exact_iff (formula : Formula) (expression : Expression R) :
    (exact value).Denotes formula expression ↔ expression = formula.expression (-1) value :=
  ⟨And.right, fun same => ⟨fun _ _ _ => rfl, same⟩⟩

namespace Expression

/-- A derived text has a value exactly when it keeps the limit, and then the value is that of its
derivation. -/
theorem parse_evaluate_eq_ok_iff (limits : Limits) (formula : Formula) (result : R) :
    (parse (.exact value) limits formula.text >>= evaluate) = .ok result ↔
      formula.depth ≤ limits.maxDepth ∧ result = formula.scaled value 1 := by
  have uniform : (Interpretation.exact value).Uniform := Interpretation.uniform_exact value
  rw [bind_eq_ok_iff]
  constructor
  · rintro ⟨expression, parsed, evaluated⟩
    obtain ⟨other, sameText, within, denotes⟩ := (parse_eq_ok_iff uniform _ _ _).1 parsed
    rw [Formula.text_injective sameText] at within denotes
    rw [(Interpretation.denotes_exact_iff value _ _).1 denotes, Formula.evaluate_expression]
      at evaluated
    exact ⟨within, (Except.ok.inj evaluated).symm⟩
  · rintro ⟨within, rfl⟩
    refine ⟨formula.expression (-1) value, ?_, formula.evaluate_expression value⟩
    exact (parse_eq_ok_iff uniform _ _ _).2
      ⟨formula, rfl, within, (Interpretation.denotes_exact_iff value _ _).2 rfl⟩

/-- The value of a text in a ring is what is usually meant.

Every derived text has a usual reading, in which products bind tighter than sums and differences and
all go from left to right. Whatever values the words have, the text has a value as long as it keeps
the limit, and it is the value of the usual reading. In particular what stands behind the last `-`
of a sum, be it a word, a group or a product of any length, is subtracted as a whole. -/
theorem subtraction_keeps_arithmetic (limits : Limits) (formula : Formula) :
    (∃ sum : Arithmetic .sum, sum.text = formula.text) ∧
    (∀ sum : Arithmetic .sum, sum.text = formula.text → ∀ result : R,
      (parse (.exact value) limits formula.text >>= evaluate) = .ok result ↔
        formula.depth ≤ limits.maxDepth ∧ result = sum.eval value) ∧
    ∀ (left : Arithmetic .sum) (right : Arithmetic .product),
      left.text ++ '-' :: right.text = formula.text → ∀ result : R,
        (parse (.exact value) limits formula.text >>= evaluate) = .ok result ↔
          formula.depth ≤ limits.maxDepth ∧ result = left.eval value - right.eval value := by
  have usual : ∀ sum : Arithmetic .sum, sum.text = formula.text →
      formula.scaled value 1 = sum.eval value := by
    intro sum sameText
    have sameFormula : sum.formula none = formula := by
      refine Formula.text_injective ?_
      rw [Arithmetic.text_formula, sameText]
      exact List.append_nil _
    have scales := sum.scaled_formula value none 1 fun _ => ⟨rfl, Tail.endsProduct_none⟩
    rw [one_mul, sameFormula] at scales
    exact scales
  refine ⟨⟨formula.arithmetic none, formula.text_arithmetic none⟩, ?_, ?_⟩
  · intro sum sameText result
    rw [parse_evaluate_eq_ok_iff, usual sum sameText]
  · intro left right sameText result
    rw [parse_evaluate_eq_ok_iff, usual (.minus left right) sameText]
    rfl

/-- With the lengths of words as their values, `a-bb*(ccc-a)-bb` is `1 - 2 * (3 - 1) - 2`. -/
theorem subtraction_keeps_arithmetic_lengths :
    (parse (.exact fun word => (word.length : Int)) {}
      ['a', '-', 'b', 'b', '*', '(', 'c', 'c', 'c', '-', 'a', ')', '-', 'b', 'b'] >>= evaluate) =
        .ok (-5) := by
  let a : Word := .single 'a' (by decide)
  let b : Word := .cons 'b' (by decide) (.single 'b' (by decide))
  let c : Word := .cons 'c' (by decide) (.cons 'c' (by decide) (.single 'c' (by decide)))
  let formula : Formula := .wordThen a .minus (.wordThen b .times
    (.groupThen (.wordThen c .minus (.word a)) .minus (.word b)))
  let inner : Arithmetic .sum := .minus (.ofProduct (.ofAtom (.ofWord c))) (.ofAtom (.ofWord a))
  let first : Arithmetic .sum := .minus (.ofProduct (.ofAtom (.ofWord a)))
    (.times (.ofAtom (.ofWord b)) (.enclosed inner))
  refine ((subtraction_keeps_arithmetic (fun word => (word.length : Int)) {} formula).2.2
    first (.ofAtom (.ofWord b)) rfl (-5)).2 ⟨by decide, rfl⟩

end Expression

end ComplexReckoner
