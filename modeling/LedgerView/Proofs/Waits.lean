import Mathlib
import LedgerView.Proofs.Evaluation
/-!
# How often a query waits

`Script.waits` counts the store calls that a script makes one after the other. As long as so many
calls come back in time and without a failure, a run comes to what the store holds
(`run_of_permits`), and a run that ends well has had its calls come back (`permits_of_run`).
-/

namespace LedgerView

namespace Script

variable {α β : Type}

/-- The store calls that a script waits for, one after the other. -/
def waits (store : Store) : Script α → Option Block → Nat
  | done _, _ => 0
  | wait _ next, genesis? => (next store).waits store genesis? + 1
  | count _ next, genesis? => next.waits store genesis?
  | consult next, genesis? => (next genesis?).waits store genesis?
  | memoize genesis next, _ => next.waits store (some genesis)

theorem waits_bind_of_eq {store : Store} {script : Script α} {f : α → Script β}
    {g g' : Option Block} {a : α} (h : script.eval store g = (.ok a, g')) :
    (script.bind f).waits store g = script.waits store g + (f a).waits store g' := by
  induction script generalizing g with
  | done answer =>
    cases h
    exact (Nat.zero_add _).symm
  | wait operation next ih =>
    have hnext := ih store h
    simp only [bind, waits, hnext]
    omega
  | count metric next ih => exact ih h
  | consult next ih => exact ih g h
  | memoize genesis next ih => exact ih h

theorem waits_bind_of_zero {store : Store} {script : Script α} {f : α → Script β}
    {g : Option Block} (h : ∀ a g', (f a).waits store g' = 0) :
    (script.bind f).waits store g = script.waits store g := by
  induction script generalizing g with
  | done answer =>
    cases answer with
    | error e => rfl
    | ok a => exact h a g
  | wait operation next ih =>
    have hnext := ih store (g := g)
    simp only [bind, waits, hnext]
  | count metric next ih => exact ih
  | consult next ih => exact ih g
  | memoize genesis next ih => exact ih

/-- So many store calls, one after the other from this time on, come back before the deadline and
without a failure. -/
def Surroundings.Permits (around : Surroundings) (clock calls : Nat) : Prop :=
  calls = 0 ∨ around.failure? = none ∧
    (around.latency = 0 ∨ clock + calls * min around.latency farFutureMs ≤ around.deadline)

instance (around : Surroundings) (clock calls : Nat) : Decidable (around.Permits clock calls) :=
  inferInstanceAs (Decidable (_ ∨ _))

section Permits

variable {around : Surroundings} {script : Script α} {clock calls : Nat} {p : Progress}

theorem permits_of_le {fewer : Nat} (hle : fewer ≤ calls) (h : around.Permits clock calls) :
    around.Permits clock fewer := by
  have hmul := Nat.mul_le_mul_right (min around.latency farFutureMs) hle
  rcases h with hzero | ⟨hfailure, hlatency | htime⟩
  · exact .inl (by omega)
  · exact .inr ⟨hfailure, .inl hlatency⟩
  · exact .inr ⟨hfailure, .inr (by omega)⟩

theorem completion?_eq_some {deadline now waiting clock : Nat} :
    completion? deadline now waiting = some clock ↔
      (waiting = 0 ∨ endOfWait now waiting ≤ deadline) ∧ endOfWait now waiting = clock := by
  rw [completion?, Option.ite_none_right_eq_some, Option.some.injEq]

theorem permits_succ :
    around.Permits clock (calls + 1) ↔
      around.failure? = none ∧
        completion? around.deadline clock around.latency =
          some (endOfWait clock around.latency) ∧
        around.Permits (endOfWait clock around.latency) calls := by
  have hsucc := Nat.succ_mul calls (min around.latency farFutureMs)
  rw [Nat.succ_eq_add_one] at hsucc
  simp only [completion?_eq_some, Surroundings.Permits, endOfWait, Nat.succ_ne_zero, false_or]
  constructor
  · rintro ⟨hfailure, hlatency | htime⟩
    · exact ⟨hfailure, ⟨.inl hlatency, trivial⟩, .inr ⟨hfailure, .inl hlatency⟩⟩
    · exact ⟨hfailure, ⟨.inr (by omega), trivial⟩, .inr ⟨hfailure, .inr (by omega)⟩⟩
  · rintro ⟨hfailure, ⟨hlatency | hfirst, -⟩, hrest⟩
    · exact ⟨hfailure, .inl hlatency⟩
    · rcases hrest with rfl | ⟨-, hlatency | hothers⟩
      · exact ⟨hfailure, .inr (by omega)⟩
      · exact ⟨hfailure, .inl hlatency⟩
      · exact ⟨hfailure, .inr (by omega)⟩

/-- A run whose calls all come back has the answer that the store holds, and memoizes the same. -/
theorem run_of_permits (h : around.Permits p.clock (script.waits around.store p.genesis?)) :
    (script.run around p).1 = (script.eval around.store p.genesis?).1 ∧
      (script.run around p).2.genesis? = (script.eval around.store p.genesis?).2 := by
  induction script generalizing p with
  | done answer => exact ⟨rfl, rfl⟩
  | wait operation next ih =>
    obtain ⟨hfailure, hcompletion, hrest⟩ := permits_succ.1 h
    simp only [run, hcompletion, hfailure]
    exact ih around.store (p := { p with clock := endOfWait p.clock around.latency }) hrest
  | count metric next ih => exact ih (p := { p with metrics := p.metrics.bump metric }) h
  | consult next ih => exact ih p.genesis? h
  | memoize genesis next ih => exact ih (p := { p with genesis? := some genesis }) h

theorem permits_of_run {a : α} (h : (script.run around p).1 = .ok a) :
    around.Permits p.clock (script.waits around.store p.genesis?) := by
  induction script generalizing p with
  | done answer => exact .inl rfl
  | wait operation next ih =>
    unfold run at h
    split at h
    · cases h
    · next clock hcompletion =>
      split at h
      · cases h
      · next hfailure =>
        obtain rfl := (completion?_eq_some.1 hcompletion).2
        exact permits_succ.2 ⟨hfailure, hcompletion, ih around.store h⟩
  | count metric next ih => exact ih (p := { p with metrics := p.metrics.bump metric }) h
  | consult next ih => exact ih p.genesis? h
  | memoize genesis next ih => exact ih (p := { p with genesis? := some genesis }) h

end Permits

end Script

/-! ## Nodes -/

namespace Node

variable {n : Node} {context : RequestContext} {query : Query} {answer : Answer}

/-- The node's store calls neither wait nor fail. -/
def Quiet (n : Node) : Prop :=
  n.failure? = none ∧ n.latency = 0

instance (n : Node) : Decidable n.Quiet :=
  inferInstanceAs (Decidable (_ ∧ _))

theorem Quiet.permits (h : n.Quiet) (calls : Nat) :
    (n.surroundings context).Permits n.clock calls :=
  .inr ⟨h.1, .inl h.2⟩

theorem ask_of_permits (h : (n.surroundings context).Permits n.clock
      ((n.settings.script query).waits n.store n.genesis?)) :
    (n.ask context query).1 = ((n.settings.script query).eval n.store n.genesis?).1 ∧
      (n.ask context query).2.genesis? =
        ((n.settings.script query).eval n.store n.genesis?).2 :=
  Script.run_of_permits (p := n.progress) h

theorem eval_of_ask (h : (n.ask context query).1 = .ok answer) :
    ((n.settings.script query).eval n.store n.genesis?).1 = .ok answer :=
  Script.eval_of_run (p := n.progress) h

theorem permits_of_ask (h : (n.ask context query).1 = .ok answer) :
    (n.surroundings context).Permits n.clock
      ((n.settings.script query).waits n.store n.genesis?) :=
  Script.permits_of_run (p := n.progress) h

end Node

end LedgerView
