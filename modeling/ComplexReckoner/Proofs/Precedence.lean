import ComplexReckoner.Proofs.Parsing

/-! # Precedence

The meaning of an expression is a sum of products. Every group is replaced by its own meaning; the
terms are split at every sum; each part is the product of its values from left to right; and the
meaning is the sum of the parts from left to right (`Expression.meaning?`). No law of the two
operations is used, so the order in which they are applied is settled too.

Evaluation goes another way: it runs along the terms twice, with a stack. On a `Chain`, a value and
further values with an operator before each, a run carries out one operation and leaves a chain
(`Chain.contract_terms`). So an expression that alternates has a value, and it is its meaning
(`Expression.Alternates.evaluate_eq_meaning`). -/

namespace ComplexReckoner

variable {α : Type}

/-! ## The meaning of an expression -/

namespace Term

/-- Whether a term is the operator of sums. -/
def isSum : Term α → Bool
  | .operator .plus => true
  | _ => false

/-- The value of a term that is no operator. -/
def value? : Term α → Option α
  | .value number => some number
  | .operator _ => none

end Term

/-- Combines values from left to right. There is no value for no values. -/
def foldValues? (combine : α → α → α) : List α → Option α
  | [] => none
  | first :: rest => some (rest.foldl combine first)

/-- The product of the values among terms. -/
def product? [Mul α] (terms : List (Term α)) : Option α :=
  foldValues? (· * ·) (terms.filterMap Term.value?)

/-- The sum of the products between the sums. -/
def sumOfProducts? [Add α] [Mul α] (terms : List (Term α)) : Option α := do
  let products ← (terms.splitOnP Term.isSum).mapM product?
  foldValues? (· + ·) products

namespace Expression

variable [Add α] [Mul α]

/-- The terms of a scope with every group replaced by its meaning. -/
def withoutGroups? : Expression α → Option (List (Term α))
  | .nil => some []
  | .leaf term rest => do
      let later ← withoutGroups? rest
      return term :: later
  | .group _ inner rest => do
      let value ← sumOfProducts? (← withoutGroups? inner)
      let later ← withoutGroups? rest
      return .value value :: later

/-- The meaning of an expression. -/
def meaning? (expression : Expression α) : Option α := expression.withoutGroups?.bind sumOfProducts?

end Expression

/-! ## Chains -/

/-- A value, and further values with an operator before each. -/
structure Chain (α : Type) where
  /-- The first value. -/
  first : α
  /-- The operators and the values after them. -/
  links : List (Operator × α)

namespace Chain

/-- The terms of the links of a chain. -/
def linkTerms : List (Operator × α) → List (Term α)
  | [] => []
  | (operator, value) :: rest => .operator operator :: .value value :: linkTerms rest

/-- The terms of a chain. -/
def terms (chain : Chain α) : List (Term α) := .value chain.first :: linkTerms chain.links

/-- Carries out one operation along a chain, from left to right. -/
def contract (target : Operator) (combine : α → α → α) (first : α) :
    List (Operator × α) → Chain α
  | [] => ⟨first, []⟩
  | (operator, value) :: rest =>
      if operator = target then contract target combine (combine first value) rest
      else
        let later := contract target combine value rest
        ⟨first, (operator, later.first) :: later.links⟩

/-- The run with a stack carries out the operation: the stack holds the value that comes next and
what has been passed before it. -/
theorem contractFrom_linkTerms (target : Operator) (combine : α → α → α) (remaining : Nat)
    (first : α) (passed : List (Term α)) (links : List (Operator × α)) :
    contractFrom target combine remaining (.value first :: passed) (linkTerms links) =
      .ok (passed.reverse ++ (contract target combine first links).terms) := by
  induction links generalizing first passed with
  | nil =>
    rw [linkTerms, contractFrom, List.reverse_cons]
    rfl
  | cons link rest ih =>
    obtain ⟨operator, value⟩ := link
    by_cases hit : operator = target
    · -- the value on top and the next one are combined
      rw [linkTerms, contractFrom, if_pos hit, ih, contract, if_pos hit]
    · -- the operator and the next value go on top
      rw [linkTerms, contractFrom, if_neg hit, contractFrom, ih, contract, if_neg hit]
      simp [terms, linkTerms]

/-- The operation can always be carried out along a chain, and leaves a chain. -/
theorem contract_terms (target : Operator) (combine : α → α → α) (chain : Chain α) :
    ComplexReckoner.contract target combine chain.terms =
      .ok (contract target combine chain.first chain.links).terms := by
  rw [ComplexReckoner.contract, terms, contractFrom]
  exact contractFrom_linkTerms target combine _ chain.first [] chain.links

/-- The operation does not occur in what is left. -/
theorem ne_of_mem_links_contract {target : Operator} {combine : α → α → α} {first : α}
    {links : List (Operator × α)} {link : Operator × α}
    (member : link ∈ (contract target combine first links).links) : link.1 ≠ target := by
  induction links generalizing first with
  | nil => cases member
  | cons head rest ih =>
    obtain ⟨operator, value⟩ := head
    by_cases hit : operator = target
    · rw [contract, if_pos hit] at member
      exact ih member
    · rw [contract, if_neg hit] at member
      rcases List.mem_cons.1 member with rfl | inRest
      · exact hit
      · exact ih inRest

/-- When every link has the operation, one value is left: all values combined from left to right. -/
theorem contract_of_forall_eq {target : Operator} (combine : α → α → α) (first : α)
    {links : List (Operator × α)} (all : ∀ link ∈ links, link.1 = target) :
    contract target combine first links = ⟨(links.map Prod.snd).foldl combine first, []⟩ := by
  induction links generalizing first with
  | nil => rfl
  | cons link rest ih =>
    obtain ⟨operator, value⟩ := link
    have hit : operator = target := all _ List.mem_cons_self
    rw [contract, if_pos hit, ih _ fun other member => all other (List.mem_cons_of_mem _ member)]
    rfl

/-! ## The value of a chain -/

/-- A value joins the part that begins there. -/
theorem splitOnP_value (value : α) (rest : List (Term α)) :
    (Term.value value :: rest).splitOnP Term.isSum =
      (rest.splitOnP Term.isSum).modifyHead (.value value :: ·) := by
  rw [List.splitOnP_cons_eq_if_modifyHead]
  rfl

/-- The products between the sums of a chain are the values that are left when the products have
been carried out. -/
theorem mapM_product?_splitOnP [Mul α] (first : α) (links : List (Operator × α)) :
    ((terms ⟨first, links⟩).splitOnP Term.isSum).mapM product? =
      some ((contract .star (· * ·) first links).first ::
        (contract .star (· * ·) first links).links.map Prod.snd) := by
  induction links generalizing first with
  | nil =>
    have split : (terms ⟨first, []⟩).splitOnP Term.isSum = [[.value first]] := rfl
    rw [split, List.mapM_cons, List.mapM_nil]
    rfl
  | cons link rest ih =>
    obtain ⟨operator, value⟩ := link
    cases operator with
    | plus =>
      -- the first value is a part of its own
      have split : (terms ⟨first, (.plus, value) :: rest⟩).splitOnP Term.isSum =
          [.value first] :: (terms ⟨value, rest⟩).splitOnP Term.isSum := by
        rw [terms, splitOnP_value, linkTerms, List.splitOnP_cons_eq_if_modifyHead]
        rfl
      rw [split, List.mapM_cons, ih value]
      rfl
    | star =>
      -- the first two values are in one part, where their product can stand instead
      obtain ⟨part, later, split⟩ := List.exists_cons_of_ne_nil
        (List.splitOnP_ne_nil Term.isSum (linkTerms rest))
      have before : (terms ⟨first, (.star, value) :: rest⟩).splitOnP Term.isSum =
          (.value first :: .operator .star :: .value value :: part) :: later := by
        rw [terms, splitOnP_value, linkTerms, List.splitOnP_cons_eq_if_modifyHead, splitOnP_value,
          split]
        rfl
      have after : (terms ⟨first * value, rest⟩).splitOnP Term.isSum =
          (.value (first * value) :: part) :: later := by
        rw [terms, splitOnP_value, split]
        rfl
      have same : product? (.value first :: .operator .star :: .value value :: part) =
          product? (.value (first * value) :: part) := rfl
      rw [before, List.mapM_cons, same, ← List.mapM_cons, ← after, ih (first * value)]
      rfl

/-- A chain is reduced to the sum of its products. -/
theorem settle_terms [Add α] [Mul α] (chain : Chain α) :
    ∃ value, Expression.settle chain.terms = .ok value ∧
      sumOfProducts? chain.terms = some value := by
  let products := contract .star (· * ·) chain.first chain.links
  -- only sums are left between the products
  have sums : ∀ link ∈ products.links, link.1 = .plus := by
    intro link member
    have other : link.1 ≠ .star := ne_of_mem_links_contract member
    cases operator : link.1 with
    | plus => rfl
    | star => exact absurd operator other
  refine ⟨(products.links.map Prod.snd).foldl (· + ·) products.first, ?_, ?_⟩
  · have multiplied : ComplexReckoner.contract .star (· * ·) chain.terms = .ok products.terms :=
      contract_terms _ _ _
    have added : ComplexReckoner.contract .plus (· + ·) products.terms =
        .ok [.value ((products.links.map Prod.snd).foldl (· + ·) products.first)] := by
      rw [contract_terms, contract_of_forall_eq _ _ sums]
      rfl
    exact bind_eq_ok_iff.2 ⟨_, multiplied, bind_eq_ok_iff.2 ⟨_, added, rfl⟩⟩
  · rw [sumOfProducts?, mapM_product?_splitOnP]
    rfl

end Chain

/-! ## The value of an expression -/

namespace Expression

variable [Add α] [Mul α]

/-- The terms of an expression that alternates are a chain once its groups have values. -/
theorem Alternates.exists_chain {expression : Expression α} (alternates : expression.Alternates) :
    ∃ chain : Chain α, expression.settleGroups = .ok chain.terms ∧
      expression.withoutGroups? = some chain.terms := by
  induction alternates with
  | value value => exact ⟨⟨value, []⟩, rfl, rfl⟩
  | group within ih =>
    obtain ⟨chain, settled, replaced⟩ := ih
    obtain ⟨value, evaluated, means⟩ := chain.settle_terms
    refine ⟨⟨value, []⟩, ?_, ?_⟩
    · exact bind_eq_ok_iff.2 ⟨_, settled, bind_eq_ok_iff.2 ⟨_, evaluated, rfl⟩⟩
    · exact Option.bind_eq_some_iff.2 ⟨_, replaced, Option.bind_eq_some_iff.2 ⟨_, means, rfl⟩⟩
  | valueThen value operator later ih =>
    obtain ⟨⟨first, links⟩, settled, replaced⟩ := ih
    refine ⟨⟨value, (operator, first) :: links⟩, ?_, ?_⟩
    · rw [settleGroups, settleGroups, settled]
      rfl
    · rw [withoutGroups?, withoutGroups?, replaced]
      rfl
  | groupThen within operator later ihInner ihRest =>
    obtain ⟨chain, settledInner, replacedInner⟩ := ihInner
    obtain ⟨value, evaluated, means⟩ := chain.settle_terms
    obtain ⟨⟨first, links⟩, settled, replaced⟩ := ihRest
    refine ⟨⟨value, (operator, first) :: links⟩, ?_, ?_⟩
    · refine bind_eq_ok_iff.2 ⟨_, settledInner, bind_eq_ok_iff.2 ⟨_, evaluated, ?_⟩⟩
      rw [settleGroups, settled]
      rfl
    · refine Option.bind_eq_some_iff.2 ⟨_, replacedInner, Option.bind_eq_some_iff.2 ⟨_, means, ?_⟩⟩
      rw [withoutGroups?, replaced]
      rfl

/-- An expression that alternates has a value, and it is its meaning. -/
theorem Alternates.evaluate_eq_meaning {expression : Expression α}
    (alternates : expression.Alternates) :
    ∃ value, expression.evaluate = .ok value ∧ expression.meaning? = some value := by
  obtain ⟨chain, settled, replaced⟩ := alternates.exists_chain
  obtain ⟨value, evaluated, means⟩ := chain.settle_terms
  refine ⟨value, ?_, ?_⟩
  · rw [evaluate, settled]
    exact evaluated
  · rw [meaning?, replaced]
    exact means

end Expression

/-! ## The value of a text -/

section Texts

variable {environment : Environment ComplexFloat} {limits : Limits}

/-- What is parsed has a value, and it is its meaning. -/
theorem exists_value_of_parse {whole : Text} {expression : Expression ComplexFloat}
    (parsed : Expression.parse environment.interpretation limits whole = .ok expression) :
    ∃ value, expression.evaluate = .ok value ∧ expression.meaning? = some value := by
  have alternates := Expression.alternates_of_parse environment.uniform_interpretation parsed
  exact alternates.evaluate_eq_meaning

variable (environment limits)

/-- A text has no value exactly when it is not parsed, and for the same fault. -/
theorem evaluate_eq_error_iff (text : Text) (fault : Fault) :
    evaluate environment limits text = .error fault ↔
      Expression.parse environment.interpretation limits text.compact = .error fault := by
  rw [evaluate, bind_eq_error_iff]
  constructor
  · rintro (refused | ⟨expression, parsed, irreducible⟩)
    · exact refused
    · -- what is parsed is not refused afterwards
      obtain ⟨value, evaluated, -⟩ := exists_value_of_parse parsed
      rw [evaluated] at irreducible
      cases irreducible
  · intro refused
    exact Or.inl refused

end Texts

end ComplexReckoner
