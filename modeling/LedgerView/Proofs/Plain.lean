import Mathlib
import LedgerView.Proofs.Scan
/-!
# Scripts that leave the memo alone

Only resolving the genesis block looks at the memoized block or memoizes one. Every other part of
a query is plain: it reads the store and counts, and the memo is after it what it was before.
-/

namespace LedgerView

namespace Script

variable {α β : Type}

/-- The script neither looks at the memoized genesis block nor memoizes one. -/
def Plain : Script α → Prop
  | done _ => True
  | wait _ next => ∀ store, (next store).Plain
  | count _ next => next.Plain
  | consult _ => False
  | memoize _ _ => False

theorem run_of_plain {around : Surroundings} {script : Script α} (h : script.Plain)
    (p : Progress) : (script.run around p).2.genesis? = p.genesis? := by
  induction script generalizing p with
  | done answer => rfl
  | wait operation next ih =>
    unfold run
    split
    · rfl
    · next clock hcompletion =>
      split
      · rfl
      · exact ih around.store (h around.store) { p with clock }
  | count metric next ih => exact ih h { p with metrics := p.metrics.bump metric }
  | consult next => exact h.elim
  | memoize genesis next => exact h.elim

theorem eval_of_plain {store : Store} {script : Script α} (h : script.Plain) (g : Option Block) :
    (script.eval store g).2 = g := by
  induction script with
  | done answer => rfl
  | wait operation next ih => exact ih store (h store)
  | count metric next ih => exact ih h
  | consult next => exact h.elim
  | memoize genesis next => exact h.elim

theorem answer_of_plain {store : Store} {script : Script α} (h : script.Plain)
    (g g' : Option Block) : (script.eval store g).1 = (script.eval store g').1 := by
  induction script with
  | done answer => rfl
  | wait operation next ih => exact ih store (h store)
  | count metric next ih => exact ih h
  | consult next => exact h.elim
  | memoize genesis next => exact h.elim

theorem run_bind_of_plain {around : Surroundings} {script : Script α} {f : α → Script β}
    (hf : ∀ a, (f a).Plain) (p : Progress) :
    ((script.bind f).run around p).2.genesis? = (script.run around p).2.genesis? := by
  rw [run_bind]
  rcases script.run around p with ⟨e | a, q⟩
  · rfl
  · exact run_of_plain (hf a) q

theorem plain_bind {script : Script α} {f : α → Script β} (h : script.Plain)
    (hf : ∀ a, (f a).Plain) : (script.bind f).Plain := by
  induction script with
  | done answer =>
    cases answer with
    | error e => trivial
    | ok a => exact hf a
  | wait operation next ih => exact fun store => ih store (h store)
  | count metric next ih => exact ih h
  | consult next => exact h.elim
  | memoize genesis next => exact h.elim

theorem plain_done (answer : Outcome LedgerError α) : (done answer).Plain := trivial

theorem plain_wait {operation : String} {look : Store → Outcome LedgerError α} :
    (wait operation fun store => done (look store)).Plain := fun _ => trivial

/-! ## The parts of queries -/

theorem plain_account (selector : AccountSelector) : (account selector).Plain := by
  cases selector with
  | byId id => exact plain_bind plain_wait fun _ => plain_bind plain_wait fun _ => trivial
  | byAlias bytes =>
    refine plain_bind plain_wait fun id? => ?_
    cases id? with
    | none => trivial
    | some id => exact plain_bind plain_wait fun _ => trivial

theorem plain_balance (selector : AccountSelector) (stop : Int64) :
    (balance selector stop).Plain := by
  refine plain_bind (plain_account selector) fun (account, entity?) => ?_
  dsimp only
  split
  · trivial
  · refine plain_bind ?_ fun _ => trivial
    exact plain_bind (plain_done _) fun _ =>
      plain_bind plain_wait fun _ => plain_bind plain_wait fun _ => plain_done _

theorem plain_correct (rows : List TransactionRow) : (correct rows).Plain := by
  unfold correct
  dsimp only
  split
  · trivial
  · exact plain_bind plain_wait fun _ => trivial

theorem plain_scan (batch : Nat) (stop cursor : Int64) (gathered : List TransactionRow) :
    (scan batch stop cursor gathered).Plain := by
  rw [scan_eq]
  intro store
  refine plain_bind (plain_correct _) fun corrected => ?_
  cases hend : pageEnd? (store.transactionsInRange cursor stop batch) batch stop with
  | none => trivial
  | some last =>
    cases hnext : (addChecked last 1 : Outcome LedgerError Int64) with
    | error e =>
      simp only [hnext]
      trivial
    | ok next =>
      simp only [hnext]
      exact plain_scan batch stop next _
termination_by (stop.toInt - cursor.toInt).toNat
decreasing_by exact remaining_lt hend hnext

theorem plain_transactions (a : Assembler) (batch : Nat) (start stop : Int64) :
    (transactions a batch start stop).Plain :=
  plain_bind (plain_done _) fun _ => plain_bind (plain_scan ..) fun _ => plain_done _

theorem plain_transactionByHash (a : Assembler) (text : String) (start stop : Int64) :
    (transactionByHash a text start stop).Plain := by
  refine plain_bind (plain_done _) fun _ => plain_bind (plain_done _) fun _ =>
    plain_bind plain_wait fun rows => ?_
  split
  · trivial
  · exact plain_bind (plain_correct rows) fun _ => plain_bind (plain_done _) fun _ => plain_done _

theorem plain_addressBook (file fallback : EntityId) : (addressBook file fallback).Plain := by
  refine plain_bind plain_wait fun rows => ?_
  dsimp only
  split
  · exact plain_bind plain_wait fun _ => plain_done _
  · exact plain_done _

end Script

end LedgerView
