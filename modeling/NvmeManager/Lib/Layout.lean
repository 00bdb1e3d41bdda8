import Mathlib.Algebra.Ring.Nat
import Mathlib.Data.List.Basic

/-!
# Records with fields at fixed places

* `bytesLE`, `valueLE` : a number as little-endian bytes, and back; `valueLE_bytesLE`, `take_bytesLE`, `valueLE_append`;
* `Layout` : fields with an offset and a size, no two of which overlap;
* `Layout.write` : a record with the fields, and anything else between them; `getElem?_write` : what is where;
  `read_write` : a field that is read back is the one that was written.
-/

/-! ## Numbers -/

/-- The `n` low bytes of a number, the lowest first. -/
def bytesLE : Nat → Nat → List UInt8
  | 0, _ => []
  | n + 1, x => .ofNat x :: bytesLE n (x / 256)

/-- The number that bytes stand for, the lowest first. -/
def valueLE : List UInt8 → Nat
  | [] => 0
  | b :: bytes => b.toNat + 256 * valueLE bytes

@[simp] theorem length_bytesLE (n x : Nat) : (bytesLE n x).length = n := by
  induction n generalizing x with
  | zero => rfl
  | succ n ih => rw [bytesLE, List.length_cons, ih]

theorem valueLE_bytesLE (n x : Nat) : valueLE (bytesLE n x) = x % 256 ^ n := by
  induction n generalizing x with
  | zero => rw [Nat.pow_zero, Nat.mod_one]; rfl
  | succ n ih =>
      have hbyte : (UInt8.ofNat x).toNat = x % 256 := UInt8.toNat_ofNat
      rw [bytesLE, valueLE, ih, hbyte, Nat.pow_succ, Nat.mul_comm (256 ^ n), Nat.mod_mul]

theorem take_bytesLE (m n x : Nat) : (bytesLE (m + n) x).take m = bytesLE m x := by
  induction m generalizing x with
  | zero => rfl
  | succ m ih => rw [Nat.succ_add, bytesLE, bytesLE, List.take_succ_cons, ih]

theorem valueLE_append (low high : List UInt8) :
    valueLE (low ++ high) = valueLE low + 256 ^ low.length * valueLE high := by
  induction low with
  | nil => rw [List.nil_append, valueLE, List.length_nil, Nat.pow_zero, Nat.one_mul, Nat.zero_add]
  | cons b low ih =>
      rw [List.cons_append, valueLE, valueLE, ih, List.length_cons, Nat.pow_succ, Nat.mul_add, Nat.mul_comm (256 ^ _) 256,
        Nat.mul_assoc 256, Nat.add_assoc]

/-! ## Layouts -/

/-- Fields at fixed places of a record. -/
structure Layout (ι : Type) where
  fields : List ι
  offset : ι → Nat
  size : ι → Nat
  complete : ∀ f, f ∈ fields
  disjoint : ∀ f g i, offset f ≤ i → i < offset f + size f → offset g ≤ i → i < offset g + size g → f = g

namespace Layout
variable {ι α : Type} (L : Layout ι)

/-- The field that a place belongs to. -/
def field? (i : Nat) : Option ι := L.fields.find? fun f => L.offset f ≤ i ∧ i < L.offset f + L.size f

/-- A record of `n` places: each field is where it belongs, and the rest is as the filler has it. -/
def write (n : Nat) (content : ι → List α) (filler : Nat → α) : List α :=
  (List.range n).map fun i => (L.field? i).elim (filler i) fun f => (content f).getD (i - L.offset f) (filler i)

variable {L} {content : ι → List α} {filler : Nat → α} {f : ι} {n : Nat}

@[simp] theorem length_write : (L.write n content filler).length = n := by simp [write]

theorem field?_eq {i : Nat} (hle : L.offset f ≤ i) (hlt : i < L.offset f + L.size f) : L.field? i = some f := by
  unfold field?
  cases hfind : L.fields.find? fun f => L.offset f ≤ i ∧ i < L.offset f + L.size f with
  | none =>
      have hnot := List.find?_eq_none.mp hfind f (L.complete f)
      exact absurd (decide_eq_true ⟨hle, hlt⟩) hnot
  | some g =>
      have hcovers : L.offset g ≤ i ∧ i < L.offset g + L.size g := by simpa using List.find?_some hfind
      rw [L.disjoint g f i hcovers.1 hcovers.2 hle hlt]

theorem getElem?_write {j : Nat} (hj : j < L.size f) (hfit : L.offset f + L.size f ≤ n)
    (hsize : (content f).length = L.size f) : (L.write n content filler)[L.offset f + j]? = (content f)[j]? := by
  have hfield : L.field? (L.offset f + j) = some f := field?_eq (Nat.le_add_right _ _) (by omega)
  unfold write
  rw [List.getElem?_map, List.getElem?_range (by omega), Option.map_some, hfield, Option.elim_some,
    Nat.add_sub_cancel_left, List.getD_eq_getElem?_getD]
  have hsome : (content f)[j]? = some (content f)[j] := List.getElem?_eq_getElem (hsize ▸ hj)
  rw [hsome, Option.getD_some]

theorem read_write (hfit : L.offset f + L.size f ≤ n) (hsize : (content f).length = L.size f) :
    ((L.write n content filler).drop (L.offset f)).take (L.size f) = content f := by
  apply List.ext_getElem?
  intro j
  by_cases hj : j < L.size f
  · rw [List.getElem?_take_of_lt hj, List.getElem?_drop, getElem?_write hj hfit hsize]
  · rw [List.getElem?_take_eq_none (Nat.le_of_not_lt hj),
      List.getElem?_eq_none (hsize ▸ Nat.le_of_not_lt hj)]

end Layout
