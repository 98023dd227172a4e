import SearchQuery.Proofs.Matching
import SearchQuery.Proofs.Order.Oriented
import SearchQuery.Proofs.Simplify.Basic

-- What a condition says, given what its leaves say, and when its simplest form says the
-- same. An operand that is left out has to say what a kept one says. That is so if the two
-- hold the same operands at every depth, but not if they are only level on the tie-break,
-- which looks at nothing but first operands.

namespace SearchQuery.Condition

section Eval

mutual

-- The truth of a condition: negation, all operands, or some operand.
def eval (ρ : String → Value → Bool) : Condition → Bool
  | not c => !eval ρ c
  | and cs => evalAll ρ cs
  | or cs => evalAny ρ cs
  | leaf kind value => ρ kind value

def evalAll (ρ : String → Value → Bool) : List Condition → Bool
  | [] => true
  | c :: cs => eval ρ c && evalAll ρ cs

def evalAny (ρ : String → Value → Bool) : List Condition → Bool
  | [] => false
  | c :: cs => eval ρ c || evalAny ρ cs

end

variable {ρ : String → Value → Bool} {cs ds : List Condition}

end Eval

section Alike

mutual

-- Whether two conditions hold the same operands at every depth, without regard to their
-- order, down to leaves that are equal. This is equality without the tie-break.
def alike (v : Vocabulary) : Condition → Condition → Bool
  | not a, not b => alike v a b
  | and as, and bs => as.length == bs.length && takeEach (alikes v as) bs
  | or as, or bs => as.length == bs.length && takeEach (alikes v as) bs
  | leaf k x, leaf l y => equal v (leaf k x) (leaf l y)
  | _, _ => false

def alikes (v : Vocabulary) : List Condition → List (Condition → Bool)
  | [] => []
  | a :: as => alike v a :: alikes v as

end

variable {v : Vocabulary} {ρ : String → Value → Bool} {ls : List (String × Value)}
  {a b : Condition} {as bs : List Condition} {node : List Condition → Condition}

end Alike

section Simplify

variable {v : Vocabulary} {ρ : String → Value → Bool} {ls : List (String × Value)}
  {c c' : Condition} {cs ks : List Condition} {node : List Condition → Condition}

-- The exception cannot be done without: of two conditions that equal each other and say
-- different things, one gets lost beside the other.
theorem eval_ne_of_equal {a b : Condition} (ha : simplify v a = some a)
    (hb : simplify v b = some b) (heq : equal v b a = true) (hne : eval ρ a ≠ eval ρ b) :
    (simplify v (and [a, b]) = some a ∧ eval ρ a ≠ eval ρ (and [a, b])) ∨
      (simplify v (or [a, b]) = some a ∧ eval ρ a ≠ eval ρ (or [a, b])) := by
  have hkept : distinct v (simplifyAll v [a, b]) = [a] := by
    simp [simplifyAll, ha, hb, distinct, addDistinct, heq]
  have hcombine : ∀ node, combine node (distinct v (simplifyAll v [a, b])) = some a := by
    intro node
    rw [hkept]
    rfl
  cases hra : eval ρ a with
  | true =>
      have hrb : eval ρ b = false := by simpa [hra] using hne.symm
      exact .inl ⟨hcombine and, by simp [eval, evalAll, hrb]⟩
  | false =>
      have hrb : eval ρ b = true := by simpa [hra] using hne.symm
      exact .inr ⟨hcombine or, by simp [eval, evalAny, hrb]⟩

end Simplify

end SearchQuery.Condition
