import Mathlib
import LedgerView.Node
import LedgerView.Proofs.EntityId
/-!
# What a query comes to

`Script.eval` is the meaning of a script over a store, without time and failures. A run that meets
neither ends with exactly that (`run_of_quiet`), and so does every run that does not end with the
failure of a store call, whatever the calls took (`eval_of_run_eq`).
-/

namespace LedgerView

namespace Script

variable {α β : Type}

/-- The answer of a script over a store, and the genesis block that is memoized afterwards. -/
def eval (store : Store) : Script α → Option Block → Outcome LedgerError α × Option Block
  | done answer, genesis? => (answer, genesis?)
  | wait _ next, genesis? => (next store).eval store genesis?
  | count _ next, genesis? => next.eval store genesis?
  | consult next, genesis? => (next genesis?).eval store genesis?
  | memoize genesis next, _ => next.eval store (some genesis)

theorem run_of_quiet {around : Surroundings} (hfailure : around.failure? = none)
    (hlatency : around.latency = 0) (script : Script α) (p : Progress) :
    (script.run around p).1 = (script.eval around.store p.genesis?).1 := by
  induction script generalizing p with
  | done answer => rfl
  | wait operation next ih =>
    simp only [run, eval, hfailure, hlatency, completion?, true_or, if_true]
    exact ih around.store { p with clock := endOfWait p.clock 0 }
  | count metric next ih => exact ih _
  | consult next ih => exact ih _ _
  | memoize genesis next ih => exact ih _

/-- A run that does not end with the failure of a store call has the answer that the store
holds. -/
theorem eval_of_run_eq {around : Surroundings} {script : Script α} {p : Progress}
    {answer : Outcome LedgerError α} (h : (script.run around p).1 = answer)
    (hown : ∀ e, answer ≠ Outcome.fail (LedgerError.ofStore e)) :
    (script.eval around.store p.genesis?).1 = answer := by
  induction script generalizing p with
  | done answer => exact h
  | wait operation next ih =>
    unfold run at h
    split at h
    · exact absurd h.symm (hown (.unavailable (.timeout operation)))
    · split at h
      · next e _ => exact absurd h.symm (hown e)
      · have heval := ih around.store h
        exact heval
  | count metric next ih =>
    have heval := ih h
    exact heval
  | consult next ih => exact ih _ h
  | memoize genesis next ih => exact ih h

theorem eval_of_run {around : Surroundings} {script : Script α} {p : Progress} {a : α}
    (h : (script.run around p).1 = .ok a) :
    (script.eval around.store p.genesis?).1 = .ok a :=
  eval_of_run_eq h fun _ hfail => by cases hfail

theorem eval_bind (store : Store) (script : Script α) (f : α → Script β) (g : Option Block) :
    (script.bind f).eval store g =
      match script.eval store g with
      | (.ok a, g') => (f a).eval store g'
      | (.error e, g') => (.error e, g') := by
  induction script generalizing g with
  | done answer => cases answer <;> rfl
  | wait operation next ih => exact ih store g
  | count metric next ih => exact ih g
  | consult next ih => exact ih g g
  | memoize genesis next ih => exact ih (some genesis)

theorem eval_bind_of_eq {store : Store} {script : Script α} {f : α → Script β}
    {g g' : Option Block} {a : α} (h : script.eval store g = (.ok a, g')) :
    (script.bind f).eval store g = (f a).eval store g' := by
  rw [eval_bind, h]

theorem eval_bind_congr {store store' : Store} {script : Script α} {f : α → Script β}
    {g : Option Block} (hscript : script.eval store' g = script.eval store g)
    (hf : ∀ a g', script.eval store g = (.ok a, g') →
      (f a).eval store' g' = (f a).eval store g') :
    (script.bind f).eval store' g = (script.bind f).eval store g := by
  rw [eval_bind, eval_bind, hscript]
  rcases heval : script.eval store g with ⟨e | a, g'⟩
  · rfl
  · exact hf a g' heval

theorem eval_bind_eq_ok {store : Store} {script : Script α} {f : α → Script β}
    {g : Option Block} {b : β} :
    ((script.bind f).eval store g).1 = .ok b ↔
      ∃ a g', script.eval store g = (.ok a, g') ∧ ((f a).eval store g').1 = .ok b := by
  rw [eval_bind]
  rcases script.eval store g with ⟨e | a, g'⟩
  · simp
  · constructor
    · intro h
      exact ⟨a, g', rfl, h⟩
    · rintro ⟨_, _, heq, h⟩
      cases heq
      exact h

theorem eval_bind_eq_error {store : Store} {script : Script α} {f : α → Script β}
    {g : Option Block} {e : Failure LedgerError} :
    ((script.bind f).eval store g).1 = .error e ↔
      (script.eval store g).1 = .error e ∨
        ∃ a g', script.eval store g = (.ok a, g') ∧ ((f a).eval store g').1 = .error e := by
  rw [eval_bind]
  rcases script.eval store g with ⟨e' | a, g'⟩
  · simp
  · constructor
    · intro h
      exact .inr ⟨a, g', rfl, h⟩
    · rintro (h | ⟨_, _, heq, h⟩)
      · cases h
      · cases heq
        exact h

theorem eval_bind_eq {store : Store} {script : Script α} {f : α → Script β}
    {g g'' : Option Block} {b : β} :
    (script.bind f).eval store g = (.ok b, g'') ↔
      ∃ a g', script.eval store g = (.ok a, g') ∧ (f a).eval store g' = (.ok b, g'') := by
  rw [eval_bind]
  rcases script.eval store g with ⟨e | a, g'⟩
  · simp
  · constructor
    · intro h
      exact ⟨a, g', rfl, h⟩
    · rintro ⟨_, _, heq, h⟩
      cases heq
      exact h

@[simp] theorem eval_done (store : Store) (answer : Outcome LedgerError α) (g : Option Block) :
    (done answer).eval store g = (answer, g) := rfl

@[simp] theorem eval_ask (store : Store) (operation : String) (look : Store → α)
    (g : Option Block) : (ask operation look).eval store g = (.ok (look store), g) := rfl

@[simp] theorem eval_askChecked (store : Store) (operation : String)
    (look : Store → Except StoreError α) (g : Option Block) :
    (askChecked operation look).eval store g =
      (Outcome.ofExcept LedgerError.ofStore (look store), g) := rfl

@[simp] theorem eval_find (store : Store) (operation : String) (missing : LedgerError)
    (look : Store → Option α) (g : Option Block) :
    (find operation missing look).eval store g = (Outcome.ofOption missing (look store), g) := rfl

end Script

/-- Some node over the store, at whatever time and however slow its calls are, gives this
answer. -/
def Store.Answers (s : Store) (settings : Settings) (query : Query) (answer : Answer) : Prop :=
  ∃ (n : Node) (context : RequestContext),
    n.store = s ∧ n.settings = settings ∧ (n.ask context query).1 = .ok answer

theorem Store.Answers.eval {s : Store} {settings : Settings} {query : Query} {answer : Answer}
    (h : s.Answers settings query answer) :
    ∃ g, ((settings.script query).eval s g).1 = .ok answer := by
  obtain ⟨n, context, rfl, rfl, hanswer⟩ := h
  exact ⟨n.genesis?, Script.eval_of_run hanswer⟩

/-- What a query may be answered with is what it comes to after some genesis block or none. -/
theorem Store.answers_iff {s : Store} {settings : Settings} {query : Query} {answer : Answer} :
    s.Answers settings query answer ↔ ∃ g, ((settings.script query).eval s g).1 = .ok answer := by
  constructor
  · exact Store.Answers.eval
  · rintro ⟨g, h⟩
    refine ⟨{ store := s, settings, genesis? := g }, .background, rfl, rfl, ?_⟩
    rw [← h]
    exact Script.run_of_quiet rfl rfl _ _

end LedgerView
