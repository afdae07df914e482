/-! # Nested sequences

A parenthesised text, its tokens and the expression it denotes all have the same build: a sequence
of leaves and groups, where a group holds a sequence of its own. `Nested` is that build, with the
next item of a sequence as a field of the item before it, so that ordinary structural recursion
reaches every leaf. -/

namespace ComplexReckoner

/-- A sequence of leaves of type `α` and of groups that carry a mark of type `γ`. -/
inductive Nested (γ α : Type) where
  /-- The empty sequence. -/
  | nil
  /-- A leaf and what follows it. -/
  | leaf (content : α) (rest : Nested γ α)
  /-- A group, what it holds and what follows it. -/
  | group (mark : γ) (inner rest : Nested γ α)
  deriving DecidableEq, Repr

namespace Nested

variable {γ α β : Type}

/-- Puts leaves in front of a sequence. -/
def leaves (contents : List α) (rest : Nested γ α) : Nested γ α := contents.foldr leaf rest

@[simp] theorem leaves_nil (rest : Nested γ α) : leaves [] rest = rest := rfl

@[simp] theorem leaves_cons (content : α) (contents : List α) (rest : Nested γ α) :
    leaves (content :: contents) rest = leaf content (leaves contents rest) := rfl

/-- Replaces every leaf by leaves of its own, and keeps the groups. -/
def expand (f : α → List β) : Nested γ α → Nested γ β
  | nil => nil
  | leaf content rest => leaves (f content) (expand f rest)
  | group mark inner rest => group mark (expand f inner) (expand f rest)

/-- Lists the leaves and groups in reading order with the number of groups around each; a group
comes before what it holds. -/
def outline (depth : Nat) : Nested γ α → List (Nat × (α ⊕ γ))
  | nil => []
  | leaf content rest => (depth, .inl content) :: outline depth rest
  | group mark inner rest =>
      (depth, .inr mark) :: (outline (depth + 1) inner ++ outline depth rest)

end Nested

end ComplexReckoner
