import LedgerView.Block
import LedgerView.Deadline
import LedgerView.Metric
import LedgerView.Store
/-!
# Scripts

A query is a script: it waits for one store call after the other, and in between it may look at
the memoized genesis block, memoize it, and count events. `Script.run` plays a script against a
store under a deadline, with the latency and the failure that every call meets. What the script
learns from the store is what the tables hold; time and failures it never sees.
-/

namespace LedgerView

inductive Script (α : Type) where
  /-- The end. -/
  | done (answer : Outcome LedgerError α)
  /-- Wait for one store call, then go on with what the tables hold. -/
  | wait (operation : String) (next : Store → Script α)
  /-- Count an event. -/
  | count (metric : Metric) (next : Script α)
  /-- Look at the memoized genesis block. -/
  | consult (next : Option Block → Script α)
  /-- Memoize the genesis block. -/
  | memoize (genesis : Block) (next : Script α)

namespace Script

variable {α β : Type}

/-- Go on with the answer, unless it is a failure. -/
def bind (script : Script α) (f : α → Script β) : Script β :=
  match script with
  | done (.ok a) => f a
  | done (.error e) => done (.error e)
  | wait operation next => wait operation fun store => (next store).bind f
  | count metric next => count metric (next.bind f)
  | consult next => consult fun genesis? => (next genesis?).bind f
  | memoize genesis next => memoize genesis (next.bind f)

instance : Monad Script where
  pure a := done (.ok a)
  bind := bind

/-- One store call that reads something. -/
def ask (operation : String) (look : Store → α) : Script α :=
  wait operation fun store => done (.ok (look store))

/-- One store call that may find its data corrupt. -/
def askChecked (operation : String) (look : Store → Except StoreError α) : Script α :=
  wait operation fun store => done (Outcome.ofExcept LedgerError.ofStore (look store))

/-- One store call that reads something or finds nothing, which is the given error. -/
def find (operation : String) (missing : LedgerError) (look : Store → Option α) : Script α :=
  wait operation fun store => done (Outcome.ofOption missing (look store))

/-- End with an error. -/
def refuse (error : LedgerError) : Script α :=
  done (Outcome.fail error)

/-- What a script is played against. -/
structure Surroundings where
  store : Store
  failure? : Option StoreError
  /-- The milliseconds that every store call takes. -/
  latency : Nat
  deadline : Nat

/-- What changes while scripts are played. -/
structure Progress where
  clock : Nat := 0
  genesis? : Option Block := none
  metrics : Metrics := []
  deriving DecidableEq, Repr

def run (around : Surroundings) : Script α → Progress → Outcome LedgerError α × Progress
  | done answer, p => (answer, p)
  | wait operation next, p =>
    match completion? around.deadline p.clock around.latency with
    | none =>
      (Outcome.fail (.unavailable (.timeout operation)),
        { p with
          clock := cutOff around.deadline p.clock
          metrics := p.metrics.bump .storeTimeouts })
    | some clock =>
      match around.failure? with
      | some e => (Outcome.fail (LedgerError.ofStore e), { p with clock })
      | none => (next around.store).run around { p with clock }
  | count metric next, p => next.run around { p with metrics := p.metrics.bump metric }
  | consult next, p => (next p.genesis?).run around p
  | memoize genesis next, p => next.run around { p with genesis? := some genesis }

@[simp] theorem bind_eq (script : Script α) (f : α → Script β) : script >>= f = script.bind f :=
  rfl

@[simp] theorem pure_eq (a : α) : (pure a : Script α) = done (.ok a) := rfl

theorem run_bind (around : Surroundings) (script : Script α) (f : α → Script β) (p : Progress) :
    (script.bind f).run around p =
      match script.run around p with
      | (.ok a, q) => (f a).run around q
      | (.error e, q) => (.error e, q) := by
  induction script generalizing p with
  | done answer => cases answer <;> rfl
  | wait operation next ih =>
    simp only [bind, run]
    cases completion? around.deadline p.clock around.latency with
    | none => rfl
    | some clock =>
      cases around.failure? with
      | some e => rfl
      | none => exact ih around.store { p with clock }
  | count metric next ih => exact ih _
  | consult next ih => exact ih _ _
  | memoize genesis next ih => exact ih _

end Script

end LedgerView
