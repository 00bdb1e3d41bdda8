import Mathlib.Data.List.Basic

/-!
# Queues with several owners

The items of a shared queue are tagged with their owner, and each owner has a queue of its own in it.

* `tagged i l` : the items `l`, all of the owner `i`;
* `ofTag i l` : the items of the owner `i`, in their order; `ofTag_tagged_self`, `ofTag_tagged_ne` : what the owners see of them;
* `mem_ofTag`, `ofTag_eq_nil` : the items of an owner are the items with its tag.
-/

section
variable {ι α : Type}

def tagged (i : ι) (l : List α) : List (ι × α) := l.map (Prod.mk i)

@[simp] theorem tagged_nil {i : ι} : tagged i ([] : List α) = [] := rfl

variable [DecidableEq ι] {i j : ι} {a : α} {l l' : List (ι × α)}

def ofTag (i : ι) (l : List (ι × α)) : List α := (l.filter (·.1 = i)).map Prod.snd

@[simp] theorem ofTag_append : ofTag i (l ++ l') = ofTag i l ++ ofTag i l' := by simp [ofTag]

theorem ofTag_cons_self : ofTag i ((i, a) :: l) = a :: ofTag i l := by simp [ofTag]

theorem ofTag_cons_ne (h : j ≠ i) : ofTag i ((j, a) :: l) = ofTag i l := by simp [ofTag, h]

@[simp] theorem ofTag_tagged_self (items : List α) : ofTag i (tagged i items) = items := by
  simp [ofTag, tagged, List.filter_map, Function.comp_def]

theorem ofTag_tagged_ne (h : j ≠ i) (items : List α) : ofTag i (tagged j items) = [] := by
  simp [ofTag, tagged, List.filter_map, Function.comp_def, h]

theorem mem_ofTag : a ∈ ofTag i l ↔ (i, a) ∈ l := by
  constructor
  · intro ha
    obtain ⟨⟨j, b⟩, hkept, rfl⟩ := List.mem_map.mp ha
    obtain ⟨hmem, htag⟩ := List.mem_filter.mp hkept
    rwa [show j = i by simpa using htag] at hmem
  · intro ha
    exact List.mem_map.mpr ⟨(i, a), List.mem_filter.mpr ⟨ha, by simp⟩, rfl⟩

theorem ofTag_eq_nil (h : ∀ item ∈ l, item.1 ≠ i) : ofTag i l = [] := by
  rw [List.eq_nil_iff_forall_not_mem]
  intro a ha
  exact h _ (mem_ofTag.mp ha) rfl

theorem perm_ofTag (h : l.Perm l') : (ofTag i l).Perm (ofTag i l') := (h.filter _).map _

end
