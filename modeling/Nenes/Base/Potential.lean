import Nenes.Base.Runs

set_option autoImplicit false

namespace Runs

variable {S A : Type}

-- How many actions of the run count in the state they find.
def countAlong (step : S → A → S) (counts : S → A → Bool) : S → List A → Nat
  | _, [] => 0
  | s, action :: rest => (if counts s action then 1 else 0) + countAlong step counts (step s action) rest

-- Every counted action spends of what is left, and no other adds to it.
theorem count_le_left (step : S → A → S) (counts : S → A → Bool) (left : S → Nat → Prop)
    (spends : ∀ s action k, left s k → counts s action = true → ∃ j, j < k ∧ left (step s action) j)
    (keeps : ∀ s action k, left s k → counts s action = false → left (step s action) k) (s : S) (actions : List A) (k : Nat)
    (initial : left s k) : countAlong step counts s actions ≤ k := by
  induction actions generalizing s k with
  | nil => exact Nat.zero_le k
  | cons action rest ih =>
      rw [countAlong]
      cases choice : counts s action with
      | true =>
          obtain ⟨j, less, next⟩ := spends s action k initial choice
          have later := ih _ j next
          simp only [if_true]
          omega
      | false =>
          have later := ih _ k (keeps s action k initial choice)
          simpa using later

end Runs
