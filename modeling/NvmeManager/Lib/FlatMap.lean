import Mathlib.Order.Defs.LinearOrder
import Mathlib.Data.List.Sort

/-!
# Maps kept in a sorted vector

* `FlatMap κ α` : entries in the order of their keys, each key once; a loop over the map goes through `entries`;
* `FlatMap.find?`, `FlatMap.insert`, `FlatMap.filter`, `FlatMap.take` : the operations; `insert` overwrites;
* `FlatMap.find?_insert`, `FlatMap.mem_entries` : what is found after an insertion, and that `find?` finds the entries;
* `FlatMap.ext_find?` : a map is determined by what is found in it;
* `FlatMap.entries_insert_of_lt` : a key behind all the others is put at the end.
-/

/-- A map from `κ` to `α` with its entries sorted by key. -/
structure FlatMap (κ α : Type) [LinearOrder κ] where
  entries : List (κ × α)
  sorted : entries.Pairwise fun e e' => e.1 < e'.1

namespace FlatMap
variable {κ α : Type} [LinearOrder κ]

instance [DecidableEq α] : DecidableEq (FlatMap κ α) := fun m m' =>
  decidable_of_iff (m.entries = m'.entries) (by cases m; cases m'; simp)

def empty : FlatMap κ α := ⟨[], .nil⟩

variable (m m' : FlatMap κ α)

def find? (k : κ) : Option α := m.entries.lookup k

def filter (p : κ × α → Bool) : FlatMap κ α := ⟨m.entries.filter p, m.sorted.filter p⟩

def take (n : Nat) : FlatMap κ α := ⟨m.entries.take n, m.sorted.sublist (List.take_sublist n m.entries)⟩

/-! ## Insertion -/

/-- The entry of `k` is put in its place, or overwritten. -/
def insertEntries (k : κ) (a : α) : List (κ × α) → List (κ × α)
  | [] => [(k, a)]
  | e :: es => if k < e.1 then (k, a) :: e :: es else if k = e.1 then (k, a) :: es else e :: insertEntries k a es

theorem mem_insertEntries {k : κ} {a : α} {es : List (κ × α)} {e : κ × α} (he : e ∈ insertEntries k a es) :
    e = (k, a) ∨ e ∈ es := by
  induction es with
  | nil => exact .inl (List.mem_singleton.mp he)
  | cons e' es ih =>
      unfold insertEntries at he
      split at he
      · exact List.mem_cons.mp he
      · split at he
        · rcases List.mem_cons.mp he with rfl | he
          · exact .inl rfl
          · exact .inr (List.mem_cons_of_mem _ he)
        · rcases List.mem_cons.mp he with rfl | he
          · exact .inr List.mem_cons_self
          · exact (ih he).imp id (List.mem_cons_of_mem _)

theorem sorted_insertEntries (k : κ) (a : α) {es : List (κ × α)} (h : es.Pairwise fun e e' => e.1 < e'.1) :
    (insertEntries k a es).Pairwise fun e e' => e.1 < e'.1 := by
  induction es with
  | nil => exact List.pairwise_singleton _ _
  | cons e es ih =>
      obtain ⟨hhead, htail⟩ := List.pairwise_cons.mp h
      unfold insertEntries
      split
      · next hlt =>
          refine List.pairwise_cons.mpr ⟨fun e' he' => ?_, h⟩
          rcases List.mem_cons.mp he' with rfl | he'
          · exact hlt
          · exact lt_trans hlt (hhead e' he')
      · next hlt =>
          split
          · next heq =>
              refine List.pairwise_cons.mpr ⟨fun e' he' => ?_, htail⟩
              rw [heq]
              exact hhead e' he'
          · next heq =>
              refine List.pairwise_cons.mpr ⟨fun e' he' => ?_, ih htail⟩
              rcases mem_insertEntries he' with rfl | he'
              · exact lt_of_le_of_ne (not_lt.mp hlt) (Ne.symm heq)
              · exact hhead e' he'

/-- `m[k] = a` -/
def insert (k : κ) (a : α) : FlatMap κ α := ⟨insertEntries k a m.entries, sorted_insertEntries k a m.sorted⟩

variable {m m'}

@[simp] theorem find?_empty (k : κ) : (empty : FlatMap κ α).find? k = none := rfl

theorem lookup_cons_ite (k : κ) (e : κ × α) (es : List (κ × α)) :
    (e :: es).lookup k = if k = e.1 then some e.2 else es.lookup k := by
  obtain ⟨k', a⟩ := e
  by_cases h : k = k'
  · simp [h]
  · rw [List.lookup_cons, beq_false_of_ne h, if_neg h]

theorem find?_insert (k k' : κ) (a : α) : (m.insert k a).find? k' = if k' = k then some a else m.find? k' := by
  obtain ⟨es, hsorted⟩ := m
  change (insertEntries k a es).lookup k' = if k' = k then some a else es.lookup k'
  clear hsorted
  induction es with
  | nil => exact lookup_cons_ite k' (k, a) []
  | cons e es ih =>
      unfold insertEntries
      split
      · rw [lookup_cons_ite]
      · split
        · next heq =>
            rw [lookup_cons_ite, lookup_cons_ite, ← heq]
            by_cases h : k' = k
            · simp [h]
            · simp [h]
        · next heq =>
            rw [lookup_cons_ite, lookup_cons_ite, ih]
            by_cases h : k' = k
            · simp [h, heq]
            · simp [h]

@[simp] theorem find?_insert_self (k : κ) (a : α) : (m.insert k a).find? k = some a := by
  rw [find?_insert, if_pos rfl]

/-! ## Entries -/

theorem lookup_eq_some_iff {es : List (κ × α)} (hsorted : es.Pairwise fun e e' => e.1 < e'.1) {k : κ} {a : α} :
    es.lookup k = some a ↔ (k, a) ∈ es := by
  induction es with
  | nil => simp
  | cons e es ih =>
      obtain ⟨hhead, htail⟩ := List.pairwise_cons.mp hsorted
      rw [lookup_cons_ite, List.mem_cons]
      by_cases h : k = e.1
      · have hnot : (k, a) ∉ es := fun hmem => lt_irrefl k (lt_of_eq_of_lt h (hhead _ hmem))
        rw [if_pos h, Option.some_inj, or_iff_left hnot, h]
        exact ⟨fun heq => by rw [← heq], fun heq => by rw [← heq]⟩
      · have hne : (k, a) ≠ e := fun heq => h (congrArg Prod.fst heq)
        rw [if_neg h, ih htail, or_iff_right hne]

theorem mem_entries {k : κ} {a : α} : (k, a) ∈ m.entries ↔ m.find? k = some a := (lookup_eq_some_iff m.sorted).symm

theorem ext_find? (h : ∀ k, m.find? k = m'.find? k) : m = m' := by
  have hmem : ∀ e, e ∈ m.entries ↔ e ∈ m'.entries := by
    rintro ⟨k, a⟩
    rw [mem_entries, mem_entries, h]
  have hnodup : ∀ n : FlatMap κ α, n.entries.Nodup := by
    intro n
    refine n.sorted.imp ?_
    rintro e e' hlt rfl
    exact lt_irrefl _ hlt
  have hperm : m.entries.Perm m'.entries := (List.perm_ext_iff_of_nodup (hnodup m) (hnodup m')).mpr hmem
  have heq : m.entries = m'.entries :=
    hperm.eq_of_pairwise (fun e e' _ _ hlt hlt' => absurd (lt_trans hlt hlt') (lt_irrefl _)) m.sorted m'.sorted
  cases m
  cases m'
  cases heq
  rfl

theorem entries_insert_of_lt {k : κ} (h : ∀ e ∈ m.entries, e.1 < k) (a : α) :
    (m.insert k a).entries = m.entries ++ [(k, a)] := by
  obtain ⟨es, hsorted⟩ := m
  change insertEntries k a es = es ++ [(k, a)]
  change ∀ e ∈ es, e.1 < k at h
  clear hsorted
  induction es with
  | nil => rfl
  | cons e es ih =>
      have hlt : e.1 < k := h e List.mem_cons_self
      unfold insertEntries
      rw [if_neg (not_lt_of_gt hlt), if_neg (ne_of_gt hlt), ih fun e' he' => h e' (List.mem_cons_of_mem _ he')]
      rfl

end FlatMap
