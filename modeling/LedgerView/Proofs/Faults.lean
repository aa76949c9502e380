import Mathlib
import LedgerView.Proofs.Genesis
/-!
# Slow and failing stores

A query waits for some number of store calls, one after the other. If these come back by the
deadline, a slow store costs time and nothing else; if not, the query is cut off at the deadline.
A failing store ends every query that waits for it at all, and leaves the memoized genesis block
alone (`ask_slow_or_failing`). The settings of a service are validated before it starts, which
bounds the budget of a request.
-/

namespace LedgerView

namespace Script

variable {α : Type} {around : Surroundings} {script : Script α} {p : Progress}

theorem clock_of_permits (h : around.Permits p.clock (script.waits around.store p.genesis?)) :
    (script.run around p).2.clock =
      p.clock + script.waits around.store p.genesis? * min around.latency farFutureMs := by
  induction script generalizing p with
  | done answer => simp [run, waits]
  | wait operation next ih =>
    obtain ⟨hfailure, hcompletion, hrest⟩ := permits_succ.1 h
    have hnext := ih around.store (p := { p with clock := endOfWait p.clock around.latency }) hrest
    simp only [run, hcompletion, hfailure, waits]
    rw [hnext, Nat.succ_mul]
    dsimp only [endOfWait]
    omega
  | count metric next ih => exact ih (p := { p with metrics := p.metrics.bump metric }) h
  | consult next ih => exact ih p.genesis? h
  | memoize genesis next ih => exact ih (p := { p with genesis? := some genesis }) h

/-- If they do not all come back, the first that is late ends the run at the deadline. The calls
before it ended no later than that. -/
theorem timeout_of_not_permits (hfailure : around.failure? = none)
    (h : ¬around.Permits p.clock (script.waits around.store p.genesis?)) :
    (∃ operation, (script.run around p).1 =
        Outcome.fail (.unavailable (.timeout operation))) ∧
      (script.run around p).2.clock = max p.clock around.deadline := by
  induction script generalizing p with
  | done answer => exact absurd (.inl rfl) h
  | wait operation next ih =>
    unfold run
    cases hcompletion : completion? around.deadline p.clock around.latency with
    | none => exact ⟨⟨operation, rfl⟩, rfl⟩
    | some clock =>
      obtain ⟨hintime, rfl⟩ := completion?_eq_some.1 hcompletion
      have hlate : ¬around.Permits (endOfWait p.clock around.latency)
          ((next around.store).waits around.store p.genesis?) := fun hrest =>
        h (permits_succ.2 ⟨hfailure, hcompletion, hrest⟩)
      have hslow : around.latency ≠ 0 := fun hzero => h (.inr ⟨hfailure, .inl hzero⟩)
      have hends : endOfWait p.clock around.latency ≤ around.deadline :=
        hintime.resolve_left hslow
      have hstarts : p.clock ≤ endOfWait p.clock around.latency := Nat.le_add_right ..
      obtain ⟨htimeout, hclock⟩ := ih around.store
        (p := { p with clock := endOfWait p.clock around.latency }) hlate
      simp only [hfailure]
      refine ⟨htimeout, ?_⟩
      rw [hclock]
      dsimp only
      omega
  | count metric next ih => exact ih (p := { p with metrics := p.metrics.bump metric }) h
  | consult next ih => exact ih p.genesis? h
  | memoize genesis next ih => exact ih (p := { p with genesis? := some genesis }) h

theorem fail_of_failing {e : StoreError} (hfailure : around.failure? = some e)
    (hlatency : around.latency = 0) (h : script.waits around.store p.genesis? ≠ 0) :
    (script.run around p).1 = Outcome.fail (LedgerError.ofStore e) := by
  induction script generalizing p with
  | done answer => exact absurd rfl h
  | wait operation next ih => simp only [run, completion?, hlatency, hfailure, true_or, if_true]
  | count metric next ih => exact ih (p := { p with metrics := p.metrics.bump metric }) h
  | consult next ih => exact ih p.genesis? h
  | memoize genesis next ih => exact ih (p := { p with genesis? := some genesis }) h

end Script

/-! ## Queries -/

theorem statementTimeoutMs_le {c : LedgerConfig} (h : c.validate = .ok ()) :
    c.statementTimeoutMs ≤ 86400 * 1000 := by
  unfold LedgerConfig.validate at h
  split at h
  · cases h
  split at h
  · cases h
  split at h
  · cases h
  next hbound =>
    have hsecs := UInt64.le_iff_toNat_le.1 (UInt64.not_lt.1 hbound)
    have hmax : LedgerConfig.maxStatementTimeoutSecs.toNat = 86400 := rfl
    unfold LedgerConfig.statementTimeoutMs
    omega

namespace Node

variable {n : Node} {context : RequestContext} {query : Query}

theorem deadline_lt (hvalid : n.settings.config.validate = .ok ()) (context : RequestContext) :
    (n.surroundings context).deadline < n.clock + farFutureMs := by
  have hbudget := statementTimeoutMs_le hvalid
  have hfar : 86400 * 1000 < farFutureMs := by decide
  simp only [surroundings, requestDeadline]
  split <;> simp_all <;> omega

/-- A wait that is cut short for its length would have been too long for the budget. -/
theorem min_latency_of_le {now deadline latency calls : Nat}
    (hdeadline : deadline < now + farFutureMs) (hcalls : calls ≠ 0)
    (h : now + calls * min latency farFutureMs ≤ deadline) :
    min latency farFutureMs = latency := by
  apply Nat.min_eq_left
  by_contra hlong
  have hcut := Nat.mul_le_mul (Nat.pos_of_ne_zero hcalls) (Nat.le_refl farFutureMs)
  rw [Nat.min_eq_right (Nat.le_of_not_le hlong)] at h
  omega

theorem permits_iff_of_latency (hvalid : n.settings.config.validate = .ok ())
    (hquiet : n.Quiet) {latency : Nat} (hlatency : 0 < latency) (calls : Nat) :
    ({ n with latency }.surroundings context).Permits n.clock calls ↔
      calls = 0 ∨ n.clock + calls * latency ≤ (n.surroundings context).deadline := by
  have hpermits : ({ n with latency }.surroundings context).Permits n.clock calls ↔
      calls = 0 ∨ n.failure? = none ∧ (latency = 0 ∨
        n.clock + calls * min latency farFutureMs ≤ (n.surroundings context).deadline) := Iff.rfl
  rw [hpermits, and_iff_right hquiet.1, or_iff_right (Nat.ne_of_gt hlatency)]
  refine or_congr_right' fun hcalls => ⟨fun h => ?_, fun h => ?_⟩
  · rwa [min_latency_of_le (deadline_lt hvalid context) hcalls h] at h
  · have hcut := Nat.mul_le_mul_left calls (Nat.min_le_left latency farFutureMs)
    omega

theorem clock_ask_of_permits (h : (n.surroundings context).Permits n.clock
      ((n.settings.script query).waits n.store n.genesis?)) :
    (n.ask context query).2.clock = n.clock +
      (n.settings.script query).waits n.store n.genesis? * min n.latency farFutureMs :=
  Script.clock_of_permits (p := n.progress) h

theorem timeout_ask_of_not_permits (hfailure : n.failure? = none)
    (h : ¬(n.surroundings context).Permits n.clock
      ((n.settings.script query).waits n.store n.genesis?)) :
    (∃ operation, (n.ask context query).1 = Outcome.fail (.unavailable (.timeout operation))) ∧
      (n.ask context query).2.clock = max n.clock (n.surroundings context).deadline :=
  Script.timeout_of_not_permits (p := n.progress) hfailure h

theorem ask_of_intime (hvalid : n.settings.config.validate = .ok ()) (hquiet : n.Quiet)
    {latency calls : Nat} (hlatency : 0 < latency)
    (hcalls : (n.settings.script query).waits n.store n.genesis? = calls)
    (hintime : calls = 0 ∨ n.clock + calls * latency ≤ (n.surroundings context).deadline) :
    ({ n with latency }.ask context query).1 = (n.ask context query).1 ∧
      ({ n with latency }.ask context query).2.genesis? = (n.ask context query).2.genesis? ∧
      ({ n with latency }.ask context query).2.clock = n.clock + calls * latency := by
  subst hcalls
  have hpermits := (permits_iff_of_latency hvalid hquiet hlatency _).2 hintime
  have hquick : (n.surroundings context).Permits n.clock
      ((n.settings.script query).waits n.store n.genesis?) := hquiet.permits _
  obtain ⟨hanswer, hmemo⟩ := ask_of_permits hquick
  obtain ⟨hslow, hslowMemo⟩ := ask_of_permits hpermits
  refine ⟨hslow.trans hanswer.symm, hslowMemo.trans hmemo.symm, ?_⟩
  rw [clock_ask_of_permits hpermits]
  by_cases hnone : (n.settings.script query).waits n.store n.genesis? = 0
  · simp only [hnone, Nat.zero_mul]
  · obtain ⟨-, hzero | htime⟩ := hpermits.resolve_left hnone
    · exact absurd hzero (Nat.ne_of_gt hlatency)
    · exact congrArg (fun wait => n.clock + _ * wait)
        (min_latency_of_le (deadline_lt hvalid context) hnone htime)

theorem ask_of_late (context : RequestContext) (hvalid : n.settings.config.validate = .ok ())
    (hquiet : n.Quiet) {latency calls : Nat} (hlatency : 0 < latency)
    (hcalls : (n.settings.script query).waits n.store n.genesis? = calls)
    (hlate : ¬(calls = 0 ∨ n.clock + calls * latency ≤ (n.surroundings context).deadline)) :
    (∃ operation, ({ n with latency }.ask context query).1 =
        Outcome.fail (.unavailable (.timeout operation))) ∧
      ({ n with latency }.ask context query).2.clock =
        max n.clock (n.surroundings context).deadline := by
  subst hcalls
  rw [← permits_iff_of_latency hvalid hquiet hlatency] at hlate
  exact timeout_ask_of_not_permits hquiet.1 hlate

theorem genesis_ask_of_failing {e : StoreError} (h : n.failure? = some e) :
    (n.ask context query).2.genesis? = n.genesis? := by
  cases hmemo : n.genesis? with
  | some g => exact genesis_ask_of_some hmemo
  | none =>
    cases hafter : (n.ask context query).2.genesis? with
    | none => rfl
    | some g =>
      obtain ⟨-, hpermits, -⟩ := (genesis_ask_of_none hmemo).1 hafter
      rcases hpermits with hzero | ⟨hfailure, -⟩
      · cases hzero
      · cases h.symm.trans hfailure

theorem ask_of_failing {e : StoreError} (hfailure : n.failure? = some e) (hlatency : n.latency = 0)
    (hcalls : (n.settings.script query).waits n.store n.genesis? ≠ 0) :
    (n.ask context query).1 = Outcome.fail (LedgerError.ofStore e) :=
  Script.fail_of_failing (p := n.progress) hfailure hlatency hcalls

/-- A query over a quiet store waits for a number of calls and has a deadline. If the store is slow,
the query answers the same, later by its calls, as long as there is time for all of them, and is cut
off at its deadline otherwise. If the store fails, a query that waits at all reports the failure. -/
theorem ask_slow_or_failing (hvalid : n.settings.config.validate = .ok ()) (hquiet : n.Quiet)
    (context : RequestContext) (query : Query) :
    let calls := (n.settings.script query).waits n.store n.genesis?
    let deadline := requestDeadline n.clock (context.deadline? n.clock)
      (some n.settings.config.statementTimeoutMs)
    (∀ latency, 0 < latency →
      let slow := { n with latency }.ask context query
      (calls = 0 ∨ n.clock + calls * latency ≤ deadline →
        slow.1 = (n.ask context query).1 ∧
          slow.2.genesis? = (n.ask context query).2.genesis? ∧
          slow.2.clock = n.clock + calls * latency) ∧
      (¬(calls = 0 ∨ n.clock + calls * latency ≤ deadline) →
        (∃ e, slow.1 = Outcome.fail e ∧ e.kind = .databaseError) ∧
          slow.2.clock = max n.clock deadline)) ∧
    ∀ e, let failing := { n with failure? := some e }.ask context query
      (calls = 0 → failing.1 = (n.ask context query).1) ∧
      (calls ≠ 0 → failing.1 = Outcome.fail (LedgerError.ofStore e)) ∧
      ((LedgerError.ofStore e).kind =
        match e with
        | .unavailable _ => .databaseError
        | .corrupt _ => .internalServerError) ∧
      failing.2.genesis? = n.genesis? := by
  intro calls deadline
  refine ⟨fun latency hlatency => ⟨ask_of_intime hvalid hquiet hlatency rfl, fun hlate => ?_⟩,
    fun e => ⟨fun hnone => ?_, fun hsome => ?_, ?_, genesis_ask_of_failing rfl⟩⟩
  · obtain ⟨⟨operation, htimeout⟩, hclock⟩ :=
      ask_of_late context hvalid hquiet hlatency rfl hlate
    exact ⟨⟨_, htimeout, rfl⟩, hclock⟩
  · have hfailing : ({ n with failure? := some e }.surroundings context).Permits n.clock calls :=
      .inl hnone
    rw [(ask_of_permits hfailing).1, (ask_of_permits (hquiet.permits calls)).1]
  · have hfailing : { n with failure? := some e }.failure? = some e := rfl
    exact ask_of_failing hfailing hquiet.2 hsome
  · cases e <;> rfl

end Node

/-- The block transactions of a ledger that has not resolved its genesis block take four calls: two
for that block, one for the latest record file, and one page. -/
private def timedNode : Node where
  store := Store.ingestAll {} [
    .recordFile ⟨5, "ab12", "00", 10, 90⟩,
    .recordFile ⟨6, "cd34", "ab12", 91, 190⟩,
    .snapshot 50]
  clock := 1000

private def timedAsk (latency : Nat) (failure? : Option StoreError) :
    Outcome LedgerError Answer × Node :=
  { timedNode with latency, failure? }.ask (.timeout (some 160)) (.blockTransactions .latest)

theorem ask_slow_or_failing_timed :
    ((timedAsk 40 none).1 = .ok (.blockTransactions ⟨6, "0xcd34", 5, "0xab12", 91, 190⟩ []) ∧
      (timedAsk 40 none).2.clock = 1160) ∧
    ((∃ e, (timedAsk 41 none).1 = Outcome.fail e ∧ e.kind = .databaseError) ∧
      (timedAsk 41 none).2.clock = 1160) ∧
    (timedAsk 0 (some (.corrupt .emptyTransaction))).1 =
        Outcome.fail (.corrupt .emptyTransaction) ∧
      (timedAsk 0 (some (.corrupt .emptyTransaction))).2.genesis? = none := by
  have hcalls : (timedNode.settings.script (.blockTransactions .latest)).waits timedNode.store
      timedNode.genesis? = 4 := by decide +kernel
  have hanswer : (timedNode.ask (.timeout (some 160)) (.blockTransactions .latest)).1 =
      .ok (.blockTransactions ⟨6, "0xcd34", 5, "0xab12", 91, 190⟩ []) := by decide +kernel
  obtain ⟨hslow, hfailing⟩ := Node.ask_slow_or_failing (n := timedNode) (by decide) (by decide)
    (.timeout (some 160)) (.blockTransactions .latest)
  rw [hcalls] at hslow hfailing
  obtain ⟨hsame, -, hclock⟩ := (hslow 40 (by decide)).1 (by decide +kernel)
  obtain ⟨hlate, hcutOff⟩ := (hslow 41 (by decide)).2 (by decide +kernel)
  obtain ⟨-, hfails, -, hmemo⟩ := hfailing (.corrupt .emptyTransaction)
  exact ⟨⟨hsame.trans hanswer, hclock⟩, ⟨hlate, hcutOff.trans (by decide +kernel)⟩,
    hfails (by decide), hmemo⟩

end LedgerView
