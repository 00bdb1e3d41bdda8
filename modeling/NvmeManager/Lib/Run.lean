import Mathlib.Data.List.Induction

/-!
# Runs of an event-driven system

A system is a relation `step s e s'` : in state `s` the event `e` can lead to `s'`.

* `Run step s₀ es s` : the events `es`, oldest first, lead from `s₀` to `s`;
* `Run.invariant` : a property of the start that every step preserves holds in every state of a run;
* `Run.history_invariant` : the same for a property of the state and the events that led to it;
* `Run.map` : a projection that takes steps to steps takes runs to runs; `Run.lockstep` : a relation that the steps of
  two systems keep, event by event, relates their runs;
* `Run.established` : the same for a property that one event establishes;
* `Run.length_add_le` : no run has more steps than a potential of its start allows, if each step uses some of it;
* `Run.of_foldlM` : the run of a system that is given by a partial function;
* `guarded ok step` : the steps whose event meets the condition `ok` in the state before it; `Run.guarded_invariant` is
  the invariant rule that may use `ok`;
* `Run.guarded_of_foldlM` : the run of a guarded system that is given by a partial function.
-/

section
variable {σ ε : Type}

/-- The events `es`, oldest first, lead from `s₀` to a state. -/
inductive Run (step : σ → ε → σ → Prop) (s₀ : σ) : List ε → σ → Prop
  | nil : Run step s₀ [] s₀
  | snoc {es : List ε} {s s' : σ} {e : ε} : Run step s₀ es s → step s e s' → Run step s₀ (es ++ [e]) s'

/-- The steps whose event meets `ok` in the state before it. -/
def guarded (ok : σ → ε → Prop) (step : σ → ε → σ → Prop) : σ → ε → σ → Prop :=
  fun s e s' => ok s e ∧ step s e s'

namespace Run
variable {step : σ → ε → σ → Prop} {ok : σ → ε → Prop} {s₀ s : σ} {es : List ε}

/-- **Invariant rule.** -/
theorem invariant (I : σ → Prop) (h₀ : I s₀) (hstep : ∀ s e s', I s → step s e s' → I s')
    (hrun : Run step s₀ es s) : I s := by
  induction hrun with
  | nil => exact h₀
  | snoc _ h ih => exact hstep _ _ _ ih h

/-- The invariant rule for a property of the state and of the events so far. -/
theorem history_invariant (I : List ε → σ → Prop) (h₀ : I [] s₀)
    (hstep : ∀ es s e s', I es s → step s e s' → I (es ++ [e]) s') (hrun : Run step s₀ es s) : I es s := by
  induction hrun with
  | nil => exact h₀
  | snoc _ h ih => exact hstep _ _ _ _ ih h

theorem map {τ : Type} {step' : τ → ε → τ → Prop} (f : σ → τ) (h : ∀ s e s', step s e s' → step' (f s) e (f s'))
    (hrun : Run step s₀ es s) : Run step' (f s₀) es (f s) := by
  induction hrun with
  | nil => exact .nil
  | snoc _ hstep ih => exact ih.snoc (h _ _ _ hstep)

/-- **Lockstep rule.** Two systems that take a step for each event in turn. -/
theorem lockstep {τ : Type} {step' : τ → ε → τ → Prop} {t₀ : τ} (R : σ → τ → Prop) (h₀ : R s₀ t₀)
    (h : ∀ s e s' t, R s t → step s e s' → ∃ t', step' t e t' ∧ R s' t') (hrun : Run step s₀ es s) :
    ∃ t, Run step' t₀ es t ∧ R s t := by
  induction hrun with
  | nil => exact ⟨t₀, .nil, h₀⟩
  | snoc _ hstep ih =>
      obtain ⟨t, hrun', hR⟩ := ih
      obtain ⟨t', hstep', hR'⟩ := h _ _ _ _ hR hstep
      exact ⟨t', hrun'.snoc hstep', hR'⟩

/-- A run of a system whose steps are a partial function of the event. -/
theorem of_foldlM {next : σ → ε → Option σ} (h : es.foldlM next s₀ = some s) :
    Run (fun s e s' => next s e = some s') s₀ es s := by
  induction es using List.reverseRecOn generalizing s with
  | nil =>
      obtain rfl : s₀ = s := Option.some.inj h
      exact .nil
  | append_singleton es e ih =>
      rw [List.foldlM_append] at h
      obtain ⟨mid, hmid, h⟩ := Option.bind_eq_some_iff.mp h
      refine .snoc (ih hmid) ?_
      simpa using h

theorem append {s' : σ} {es' : List ε} (h : Run step s₀ es s) (h' : Run step s es' s') :
    Run step s₀ (es ++ es') s' := by
  induction h' with
  | nil =>
      rw [List.append_nil]
      exact h
  | snoc _ hstep ih =>
      rw [← List.append_assoc]
      exact ih.snoc hstep

/-- A property that one event establishes and every step preserves holds once the event has happened. -/
theorem established (I : σ → Prop) {e₀ : ε} (hset : ∀ s s', step s e₀ s' → I s')
    (hstep : ∀ s e s', I s → step s e s' → I s') (hrun : Run step s₀ es s) (he : e₀ ∈ es) : I s := by
  induction hrun with
  | nil => cases he
  | snoc _ h ih =>
      rcases List.mem_append.mp he with he | he
      · exact hstep _ _ _ (ih he) h
      · obtain rfl := List.mem_singleton.mp he
        exact hset _ _ h

/-- **Potential rule.** Steps that use up a potential: a run has no more of them than it had at the start. -/
theorem length_add_le (Φ : σ → Nat) (h : ∀ s e s', step s e s' → Φ s' < Φ s) (hrun : Run step s₀ es s) :
    es.length + Φ s ≤ Φ s₀ := by
  induction hrun with
  | nil => simp
  | snoc _ hstep ih =>
      have hless := h _ _ _ hstep
      rw [List.length_append, List.length_singleton]
      omega

theorem of_guarded (hrun : Run (guarded ok step) s₀ es s) : Run step s₀ es s :=
  hrun.map id fun _ _ _ h => h.2

theorem guarded_of_forall (h : ∀ s, ∀ e ∈ es, ok s e) (hrun : Run step s₀ es s) : Run (guarded ok step) s₀ es s := by
  induction hrun with
  | nil => exact .nil
  | snoc _ hstep ih =>
      refine (ih fun s e he => h s e (List.mem_append_left _ he)).snoc ⟨h _ _ ?_, hstep⟩
      exact List.mem_append_right _ (List.mem_singleton_self _)

theorem guarded_of_foldlM {next : σ → ε → Option σ} [∀ s e, Decidable (ok s e)]
    (h : es.foldlM (fun s e => if ok s e then next s e else none) s₀ = some s) :
    Run (guarded ok fun s e s' => next s e = some s') s₀ es s := by
  have hrun := of_foldlM h
  clear h
  induction hrun with
  | nil => exact .nil
  | snoc _ h ih =>
      split at h
      · next hok => exact ih.snoc ⟨hok, h⟩
      · cases h

/-- The invariant rule of a guarded system: a step may use that its event meets the condition. -/
theorem guarded_invariant (I : σ → Prop) (h₀ : I s₀) (hstep : ∀ s e s', I s → ok s e → step s e s' → I s')
    (hrun : Run (guarded ok step) s₀ es s) : I s :=
  invariant I h₀ (fun s e s' hs h => hstep s e s' hs h.1 h.2) hrun

end Run
end
