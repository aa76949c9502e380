import LedgerView.Query
/-!
# Nodes

A node is a store together with a service over it and what they remember: the latency and the
failure that store calls meet, the memoized genesis block, the clock and the counts. `Node.step`
takes in one event; whatever happens to a query, the node goes on.
-/

namespace LedgerView

structure Node where
  store : Store := {}
  failure? : Option StoreError := none
  latency : Nat := 0
  settings : Settings := ⟨.standard, .standard⟩
  genesis? : Option Block := none
  clock : Nat := 0
  metrics : Metrics := []

namespace Node

variable {α : Type}

def ingest (n : Node) (record : Ingestion) : Node :=
  { n with store := n.store.ingest record }

/-- Start a service over the same store. It has resolved no genesis block yet. -/
def restart (n : Node) (settings : Settings) : Except ConfigError Node := do
  settings.config.validate
  return { n with settings, genesis? := none }

/-- The surroundings of a request that starts now. -/
def surroundings (n : Node) (context : RequestContext) : Script.Surroundings where
  store := n.store
  failure? := n.failure?
  latency := n.latency
  deadline :=
    requestDeadline n.clock (context.deadline? n.clock) (some n.settings.config.statementTimeoutMs)

def progress (n : Node) : Script.Progress where
  clock := n.clock
  genesis? := n.genesis?
  metrics := n.metrics

/-- Count a query and how it ended. An overflow ends it before the outcome is counted. -/
def observe (query : QueryName) (answer : Outcome LedgerError α) (metrics : Metrics) : Metrics :=
  let metrics := metrics.bump (.durations query)
  match answer with
  | .ok _ => metrics.bump (.answered query)
  | .error (.cause e) => (metrics.bump (.refused query)).bump (.errors query e.kind)
  | .error (.overflow _) => metrics

/-- Answer a query. -/
def ask (n : Node) (context : RequestContext) (query : Query) :
    Outcome LedgerError Answer × Node :=
  let (answer, p) := (n.settings.script query).run (n.surroundings context) n.progress
  (answer,
    { n with
      clock := p.clock
      genesis? := p.genesis?
      metrics := observe query.name answer p.metrics })

/-- Read the store without a deadline. -/
def read (n : Node) (look : Store → Except StoreError α) : Except StoreError α × Node :=
  let answer :=
    match n.failure? with
    | some e => .error e
    | none => look n.store
  (answer, { n with clock := endOfWait n.clock n.latency })

/-- What can happen to a node. -/
inductive Event where
  | ingest (record : Ingestion)
  /-- From now on every store call fails, or none does. -/
  | fail (failure? : Option StoreError)
  /-- From now on every store call takes so many milliseconds. -/
  | delay (latency : Nat)
  | ask (context : RequestContext) (query : Query)
  deriving DecidableEq, Repr

def step (n : Node) : Event → Node
  | .ingest record => n.ingest record
  | .fail failure? => { n with failure? }
  | .delay latency => { n with latency }
  | .ask context query => (n.ask context query).2

def run (n : Node) (events : List Event) : Node :=
  events.foldl step n

theorem run_append (n : Node) (events more : List Event) :
    n.run (events ++ more) = (n.run events).run more :=
  List.foldl_append

theorem run_map_ingest (n : Node) (records : List Ingestion) :
    n.run (records.map .ingest) = { n with store := n.store.ingestAll records } := by
  induction records generalizing n with
  | nil => rfl
  | cons record records ih => exact ih (n.ingest record)

theorem settings_run (n : Node) (events : List Event) :
    (n.run events).settings = n.settings := by
  induction events generalizing n with
  | nil => rfl
  | cons event events ih =>
    have hstep : (n.step event).settings = n.settings := by
      cases event <;> rfl
    exact (ih (n.step event)).trans hstep

end Node

end LedgerView
