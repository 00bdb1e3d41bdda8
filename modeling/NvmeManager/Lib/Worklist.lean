import NvmeManager.Lib.Run
import Mathlib.Algebra.BigOperators.Group.List.Basic
import Mathlib.Algebra.Ring.Nat

/-!
# Worklists

The items of work that are outstanding. An event deals with one of them, and other items may follow from it.

* `Worklist.next work follow` : the event `e` deals with `work e`, and `follow e` comes in its place;
* `Worklist.account` : the potential method: where each item is charged for what its event costs and for the items that
  follow, the costs of a run are covered by the items that it started with and by what its events bring in.
-/

namespace Worklist

section
variable {ω ε : Type} [DecidableEq ω] (work : ε → ω) (follow : ε → List ω)

/-- The event deals with its item, if that is outstanding. -/
def next (out : List ω) (e : ε) : Option (List ω) :=
  if work e ∈ out then some (out.erase (work e) ++ follow e) else none

variable {work follow} {out out' : List ω} {e : ε}

theorem next_eq_some_iff : next work follow out e = some out' ↔
    work e ∈ out ∧ out.erase (work e) ++ follow e = out' := by
  unfold next
  split
  · next hmem => exact ⟨fun h => ⟨hmem, Option.some.inj h⟩, fun h => congrArg some h.2⟩
  · next hmem => exact ⟨nofun, fun h => absurd h.1 hmem⟩

/-- **Potential method.** -/
theorem account {es : List ε} {potential : ω → Nat} {cost gain : ε → Nat}
    (hpaid : ∀ e, cost e + ((follow e).map potential).sum ≤ potential (work e) + gain e)
    (hrun : Run (fun out e out' => next work follow out e = some out') out es out') :
    (es.map cost).sum + (out'.map potential).sum ≤ (out.map potential).sum + (es.map gain).sum := by
  refine hrun.history_invariant (fun es out' =>
    (es.map cost).sum + (out'.map potential).sum ≤ (out.map potential).sum + (es.map gain).sum) (by simp) ?_
  intro es s e s' ih hnext
  obtain ⟨hmem, rfl⟩ := next_eq_some_iff.mp hnext
  have herase : potential (work e) + ((s.erase (work e)).map potential).sum = (s.map potential).sum :=
    List.sum_map_erase potential hmem
  have he := hpaid e
  simp only [List.map_append, List.sum_append, List.map_cons, List.map_nil, List.sum_cons, List.sum_nil]
  omega

end
end Worklist
