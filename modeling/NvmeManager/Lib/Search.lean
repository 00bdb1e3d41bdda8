/-!
# Linear search

* `Probe` : what a look at a place says; `linearSearch probe left i` : the places `i`, `i + 1`, … are looked at in turn,
  `left + 1` of them, up to the first that fails or is a hit;
* `SearchResult.Valid`, `linearSearch_valid` : what the result says of all the places.
-/

/-- What a look at a place says. -/
inductive Probe
  | failure
  | hit
  | miss
  deriving DecidableEq

inductive SearchResult
  | failed (k : Nat)
  | found (k : Nat)
  | exhausted

/-- The places from `i` on, of which `left + 1` are left. -/
def linearSearch (probe : Nat → Probe) (left i : Nat) : SearchResult :=
  match probe i with
  | .failure => .failed i
  | .hit => .found i
  | .miss =>
    match left with
    | 0 => .exhausted
    | left + 1 => linearSearch probe left (i + 1)

/-- The place of a result is the first from `i` on that is not a miss; without one there is none up to `n`. -/
def SearchResult.Valid (probe : Nat → Probe) (i n : Nat) : SearchResult → Prop
  | failed k => i ≤ k ∧ k ≤ n ∧ probe k = .failure ∧ ∀ j, i ≤ j → j < k → probe j = .miss
  | found k => i ≤ k ∧ k ≤ n ∧ probe k = .hit ∧ ∀ j, i ≤ j → j < k → probe j = .miss
  | exhausted => ∀ j, i ≤ j → j ≤ n → probe j = .miss

section
variable {probe : Nat → Probe} {i n : Nat} {result : SearchResult}

theorem misses_nil : ∀ j, i ≤ j → j < i → probe j = .miss := fun _ hle hlt => absurd hle (Nat.not_le_of_lt hlt)

theorem misses_cons {p : Nat → Prop} (hmiss : probe i = .miss) (h : ∀ j, i + 1 ≤ j → p j → probe j = .miss) :
    ∀ j, i ≤ j → p j → probe j = .miss := by
  intro j hle hj
  by_cases hnext : i + 1 ≤ j
  · exact h j hnext hj
  · obtain rfl : i = j := by omega
    exact hmiss

theorem SearchResult.Valid.cons (hmiss : probe i = .miss) (h : result.Valid probe (i + 1) n) : result.Valid probe i n := by
  cases result with
  | failed k | found k =>
      obtain ⟨hle, hn, hk, hbefore⟩ := h
      exact ⟨Nat.le_of_succ_le hle, hn, hk, misses_cons hmiss hbefore⟩
  | exhausted => exact misses_cons hmiss h

theorem linearSearch_valid (probe : Nat → Probe) (left i : Nat) : (linearSearch probe left i).Valid probe i (i + left) := by
  induction left generalizing i with
  | zero =>
      unfold linearSearch
      cases hprobe : probe i with
      | failure | hit => exact ⟨Nat.le_refl i, Nat.le_refl i, hprobe, misses_nil⟩
      | miss =>
          refine misses_cons hprobe fun j hle hlt => ?_
          exact absurd hle (Nat.not_le_of_lt (Nat.lt_succ_of_le hlt))
  | succ left ih =>
      unfold linearSearch
      cases hprobe : probe i with
      | failure | hit => exact ⟨Nat.le_refl i, Nat.le_add_right i _, hprobe, misses_nil⟩
      | miss =>
          have h := (ih (i + 1)).cons hprobe
          rwa [Nat.add_assoc, Nat.add_comm 1] at h

end
