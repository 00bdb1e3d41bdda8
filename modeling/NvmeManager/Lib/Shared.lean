import Mathlib.Data.List.Count
import Mathlib.Data.List.Perm.Basic
import Mathlib.Logic.Function.Basic

/-!
# Reference counts

An object that is shared has a count of its references, and is destroyed with the last of them.

* `RefCount use holders` : each count is the number of the references that are held;
* `RefCount.copy`, `RefCount.fresh`, `RefCount.release` : a reference is copied, is that of a new object, or ends;
* `RefCount.pos_iff`, `RefCount.last_iff` : an object is in use, or is destroyed with the reference that ends.
-/

section
variable {α : Type} [DecidableEq α]

/-- The counts are those of the references that are held. -/
def RefCount (use : α → Nat) (holders : List α) : Prop := ∀ a, use a = holders.count a

namespace RefCount
variable {use : α → Nat} {holders holders' : List α} {a : α}

theorem perm (h : RefCount use holders) (hperm : holders.Perm holders') : RefCount use holders' :=
  fun a => (h a).trans (hperm.count_eq a)

theorem copy (h : RefCount use holders) (a : α) : RefCount (Function.update use a (use a + 1)) (a :: holders) := by
  intro b
  rw [Function.update_apply, List.count_cons, h a, h b]
  by_cases hb : b = a
  · subst hb
    simp
  · rw [if_neg hb, if_neg (by simpa using Ne.symm hb), Nat.add_zero]

theorem fresh (h : RefCount use holders) (hnot : a ∉ holders) : RefCount (Function.update use a 1) (a :: holders) := by
  have hcopy := h.copy a
  rw [h a, List.count_eq_zero.mpr hnot] at hcopy
  exact hcopy

theorem release (h : RefCount use (a :: holders)) : RefCount (Function.update use a (use a - 1)) holders := by
  intro b
  have hb' := h b
  rw [Function.update_apply, h a, List.count_cons_self]
  by_cases hb : b = a
  · subst hb
    rw [if_pos rfl, Nat.add_sub_cancel]
  · rw [if_neg hb, hb', List.count_cons_of_ne (Ne.symm hb)]

theorem pos_iff (h : RefCount use holders) : 0 < use a ↔ a ∈ holders := by
  rw [h a, List.count_pos_iff]

theorem last_iff (h : RefCount use (a :: holders)) : use a - 1 = 0 ↔ a ∉ holders := by
  rw [h a, List.count_cons_self, Nat.add_sub_cancel, List.count_eq_zero]

end RefCount
end
