import Mathlib.Logic.Basic

/-!
# Programs over a signature of operations

* `Prog Ans α` : a program that performs operations `o`, continues with an answer in `Ans o`, and returns an `α`;
  it is a monad, so a routine is written with `do`;
* `Prog.run h` : execution under a handler `h`, which answers an operation and updates a state;
* `Prog.Uses P` : every operation the program can perform satisfies `P`, whatever the answers;
* `Prog.Meets P` : a program performs an operation that satisfies `P` before it ends, whatever the answers;
* `Prog.run_invariant` : what the operations of a program preserve, its execution preserves;
* `Prog.run_project` : a handler that notes more than another one executes a program in the same way.
-/

/-- A program that performs operations `Op`, each answered by an element of `Ans o`. -/
inductive Prog {Op : Type} (Ans : Op → Type) (α : Type) : Type
  | ret (a : α)
  | op (o : Op) (k : Ans o → Prog Ans α)

namespace Prog
variable {Op : Type} {Ans : Op → Type} {α β σ : Type}

protected def bind : Prog Ans α → (α → Prog Ans β) → Prog Ans β
  | .ret a, f => f a
  | .op o k, f => .op o fun r => (k r).bind f

instance : Monad (Prog Ans) where
  pure := .ret
  bind := Prog.bind

def perform (o : Op) : Prog Ans (Ans o) := .op o .ret

/-! ## Execution -/

def run (h : (o : Op) → σ → Ans o × σ) : Prog Ans α → σ → α × σ
  | .ret a, s => (a, s)
  | .op o k, s => (k (h o s).1).run h (h o s).2

section Run
variable (h : (o : Op) → σ → Ans o × σ)

@[simp] theorem run_bind (p : Prog Ans α) (f : α → Prog Ans β) (s : σ) :
    (p >>= f).run h s = (f (p.run h s).1).run h (p.run h s).2 := by
  change (p.bind f).run h s = _
  induction p generalizing s with
  | ret a => rfl
  | op o k ih => exact ih (h o s).1 (h o s).2

end Run

/-! ## The operations of a program -/

/-- Every operation the program can perform satisfies `P`. -/
def Uses (P : Op → Prop) : Prog Ans α → Prop
  | .ret _ => True
  | .op o k => P o ∧ ∀ r, (k r).Uses P

@[simp] theorem uses_pure (P : Op → Prop) (a : α) : (pure a : Prog Ans α).Uses P := trivial

@[simp] theorem uses_perform (P : Op → Prop) (o : Op) : (perform o : Prog Ans (Ans o)).Uses P ↔ P o :=
  ⟨fun h => h.1, fun h => ⟨h, fun _ => trivial⟩⟩

theorem Uses.bind {P : Op → Prop} {p : Prog Ans α} {f : α → Prog Ans β} (hp : p.Uses P)
    (hf : ∀ a, (f a).Uses P) : (p >>= f).Uses P := by
  change (p.bind f).Uses P
  induction p with
  | ret a => exact hf a
  | op o k ih => exact ⟨hp.1, fun r => ih r (hp.2 r)⟩

theorem Uses.ite {P : Op → Prop} {c : Prop} [Decidable c] {p q : Prog Ans α} (hp : p.Uses P)
    (hq : q.Uses P) : (if c then p else q).Uses P := by
  split
  · exact hp
  · exact hq

theorem Uses.mono {P Q : Op → Prop} {p : Prog Ans α} (h : p.Uses P) (hle : ∀ o, P o → Q o) : p.Uses Q := by
  induction p with
  | ret a => trivial
  | op o k ih => exact ⟨hle o h.1, fun r => ih r (h.2 r)⟩

/-- The program performs an operation that satisfies `P`, whatever the answers. -/
def Meets (P : Op → Prop) : Prog Ans α → Prop
  | .ret _ => False
  | .op o k => P o ∨ ∀ r, (k r).Meets P

theorem meets_perform {P : Op → Prop} {o : Op} (ho : P o) : (perform o : Prog Ans (Ans o)).Meets P := .inl ho

theorem Meets.bind {P : Op → Prop} {p : Prog Ans α} (hp : p.Meets P) (f : α → Prog Ans β) : (p >>= f).Meets P := by
  change (p.bind f).Meets P
  induction p with
  | ret a => exact hp.elim
  | op o k ih => exact hp.imp_right fun h r => ih r (h r)

theorem meets_bind {P : Op → Prop} (p : Prog Ans α) {f : α → Prog Ans β} (hf : ∀ a, (f a).Meets P) :
    (p >>= f).Meets P := by
  change (p.bind f).Meets P
  induction p with
  | ret a => exact hf a
  | op o k ih => exact .inr ih

theorem Meets.ite {P : Op → Prop} {c : Prop} [Decidable c] {p q : Prog Ans α} (hp : p.Meets P) (hq : q.Meets P) :
    (if c then p else q).Meets P := by
  split
  · exact hp
  · exact hq

/-- **Invariant rule**: what every operation of a program preserves, the program's execution preserves. -/
theorem run_invariant (h : (o : Op) → σ → Ans o × σ) {P : Op → Prop} (I : σ → Prop)
    (hop : ∀ o s, P o → I s → I (h o s).2) {p : Prog Ans α} (hp : p.Uses P) {s : σ} (hs : I s) :
    I (p.run h s).2 := by
  induction p generalizing s with
  | ret a => exact hs
  | op o k ih => exact ih (h o s).1 (hp.2 _) (hop o s hp.1 hs)

/-- What every operation does under two handlers alike, up to what the first of them notes, the execution does. -/
theorem run_project {τ : Type} (h : (o : Op) → σ → Ans o × σ) (h' : (o : Op) → τ → Ans o × τ) (f : τ → σ)
    (hop : ∀ o t, ((h' o t).1, f (h' o t).2) = h o (f t)) (p : Prog Ans α) (t : τ) :
    ((p.run h' t).1, f (p.run h' t).2) = p.run h (f t) := by
  induction p generalizing t with
  | ret a => rfl
  | op o k ih =>
      change (((k (h' o t).1).run h' (h' o t).2).1, f ((k (h' o t).1).run h' (h' o t).2).2) =
        (k (h o (f t)).1).run h (h o (f t)).2
      rw [← hop o t]
      exact ih (h' o t).1 (h' o t).2

end Prog
