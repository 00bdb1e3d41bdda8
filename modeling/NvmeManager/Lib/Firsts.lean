import Mathlib.Data.List.Nodup

/-!
# The first item of each key

Items come one after the other, and each is kept unless one with its key has been kept before.

* `keep key seen a` : the item `a` is kept behind the items `seen`, or not;
* `find?_foldl_keep`, `mem_keys_foldl_keep` : the item that is kept for a key is the first, and each key has one;
* `nodup_foldl_keep`, `prefix_foldl_keep` : no key has two, and what has been kept stays;
* `foldl_keep_of_known` : items with known keys change nothing.
-/

section
variable {α κ : Type} [DecidableEq κ] (key : α → κ)

/-- One more item: it is kept if its key is new. -/
def keep (seen : List α) (a : α) : List α := if ∃ b ∈ seen, key b = key a then seen else seen ++ [a]

variable {key} {seen items : List α} {a : α}

theorem find?_keep (k : κ) : (keep key seen a).find? (key · = k) =
    (seen.find? (key · = k)).or ([a].find? (key · = k)) := by
  unfold keep
  by_cases hknown : ∃ b ∈ seen, key b = key a
  · rw [if_pos hknown]
    by_cases hk : key a = k
    · -- the key has been kept before
      obtain ⟨b, hb, hkey⟩ := hknown
      have hfound : (seen.find? (key · = k)).isSome := List.find?_isSome.mpr ⟨b, hb, by simp [hkey, hk]⟩
      rw [Option.or_of_isSome hfound]
    · rw [List.find?_singleton, if_neg (by simpa using hk), Option.or_none]
  · rw [if_neg hknown, List.find?_append]

theorem find?_foldl_keep (k : κ) : (items.foldl (keep key) seen).find? (key · = k) =
    (seen.find? (key · = k)).or (items.find? (key · = k)) := by
  induction items generalizing seen with
  | nil => rw [List.foldl_nil, List.find?_nil, Option.or_none]
  | cons a items ih => rw [List.foldl_cons, ih, find?_keep, Option.or_assoc, ← List.find?_append, List.singleton_append]

theorem mem_keys_iff {k : κ} : k ∈ items.map key ↔ (items.find? (key · = k)).isSome := by
  simp [List.find?_isSome]

theorem find?_of_mem (hnodup : (items.map key).Nodup) (ha : a ∈ items) : items.find? (key · = key a) = some a := by
  induction items with
  | nil => cases ha
  | cons b items ih =>
      obtain ⟨hnot, hnodup⟩ := List.nodup_cons.mp hnodup
      rcases List.mem_cons.mp ha with rfl | ha
      · rw [List.find?_cons_of_pos (by simp)]
      · have hne : key b ≠ key a := fun heq => hnot (heq ▸ List.mem_map_of_mem ha)
        rw [List.find?_cons_of_neg (by simpa using hne)]
        exact ih hnodup ha

theorem mem_keys_foldl_keep {k : κ} :
    k ∈ (items.foldl (keep key) seen).map key ↔ k ∈ seen.map key ∨ k ∈ items.map key := by
  simp only [mem_keys_iff, find?_foldl_keep, Option.isSome_or, Bool.or_eq_true]

theorem nodup_keep (h : (seen.map key).Nodup) : ((keep key seen a).map key).Nodup := by
  unfold keep
  by_cases hknown : ∃ b ∈ seen, key b = key a
  · rw [if_pos hknown]
    exact h
  · rw [if_neg hknown, List.map_append, List.map_singleton]
    refine List.nodup_append.mpr ⟨h, List.nodup_singleton _, fun k hk k' hk' => ?_⟩
    obtain ⟨b, hb, rfl⟩ := List.mem_map.mp hk
    rw [List.mem_singleton.mp hk']
    exact fun heq => hknown ⟨b, hb, heq⟩

theorem nodup_foldl_keep (h : (seen.map key).Nodup) : ((items.foldl (keep key) seen).map key).Nodup := by
  induction items generalizing seen with
  | nil => exact h
  | cons a items ih => exact ih (nodup_keep h)

theorem prefix_keep : seen <+: keep key seen a := by
  unfold keep
  split
  · exact List.prefix_refl _
  · exact List.prefix_append _ _

theorem prefix_foldl_keep : seen <+: items.foldl (keep key) seen := by
  induction items generalizing seen with
  | nil => exact List.prefix_refl _
  | cons a items ih => exact prefix_keep.trans ih

theorem foldl_keep_of_known (h : ∀ a ∈ items, key a ∈ seen.map key) : items.foldl (keep key) seen = seen := by
  induction items with
  | nil => rfl
  | cons a items ih =>
      have hknown : ∃ b ∈ seen, key b = key a := List.mem_map.mp (h a List.mem_cons_self)
      have hkeep : keep key seen a = seen := if_pos hknown
      rw [List.foldl_cons, hkeep]
      exact ih fun b hb => h b (List.mem_cons_of_mem _ hb)

end
