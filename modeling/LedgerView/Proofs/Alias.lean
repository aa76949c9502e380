import Mathlib
import LedgerView.Proofs.Append
import LedgerView.Proofs.Waits
/-!
# Accounts by alias

An alias stands for the entity that has it. Where no two entities share one, the balance of an
alias is the balance of the entity under its id, with the same label (`balance_by_alias`), and an
alias that no entity has stands for an account that never held anything.
-/

namespace LedgerView

/-- No alias belongs to two entities. -/
def Store.DistinctAliases (s : Store) : Prop :=
  (s.entities.values.filterMap Entity.alias?).Nodup

instance (s : Store) : Decidable s.DistinctAliases :=
  inferInstanceAs (Decidable (List.Nodup _))

/-! ## Aliases in the store -/

section Aliases

variable {s : Store} {bytes : Bytes} {id : EntityId} {row : Entity}

theorem unshared_of_distinctAliases (hdistinct : s.DistinctAliases) : s.Unshared bytes := by
  have hpairwise : s.entities.entries.Pairwise fun a b =>
      ∀ bytes, a.2.alias? = some bytes → ∀ bytes', b.2.alias? = some bytes' → bytes ≠ bytes' :=
    List.pairwise_map.1 (List.pairwise_filterMap.1 hdistinct)
  have : Std.Symm fun a b : Int64 × Entity =>
      ∀ bytes, a.2.alias? = some bytes → ∀ bytes', b.2.alias? = some bytes' → bytes ≠ bytes' :=
    ⟨fun _ _ h bytes hbytes bytes' hbytes' => (h bytes' hbytes' bytes hbytes).symm⟩
  -- two entries with one alias are one entry, since no two of the entries share it
  intro e he e' he' hbytes hbytes'
  by_contra hne
  exact hpairwise.forall he he' (fun heq => hne (congrArg Prod.fst heq)) bytes hbytes bytes hbytes'
    rfl

theorem resolveAlias_of_distinct (hdistinct : s.DistinctAliases)
    (hknown : s.entity? id.encode = some row) (hid : row.id = id.encode)
    (hbytes : row.alias? = some bytes) : s.resolveAlias bytes = .ok (some id) := by
  refine resolveAlias_eq_ok_some_iff.2 ⟨row, ?_, by rw [hid, EntityId.decode_encode]⟩
  exact entityOfAlias?_of_unshared (unshared_of_distinctAliases hdistinct) hknown hbytes

theorem resolveAlias_of_unknown (h : ∀ row ∈ s.entities.values, row.alias? ≠ some bytes) :
    s.resolveAlias bytes = .ok none := by
  have hnone : s.entityOfAlias? bytes = none := by
    rw [Store.entityOfAlias?, List.find?_eq_none]
    intro row hrow
    simpa using h row ((s.order.perm s.entities).mem_iff.1 hrow)
  rw [Store.resolveAlias, hnone]

end Aliases

/-! ## Scripts that meet -/

/-- After so many calls over the store, however they are named, both scripts go on as one. -/
inductive Script.MeetAfter {α : Type} (store : Store) : Nat → Script α → Script α → Prop where
  | same (x : Script α) : MeetAfter store 0 x x
  | wait {calls : Nat} (operation operation' : String) {next next' : Store → Script α}
    (meet : MeetAfter store calls (next store) (next' store)) :
    MeetAfter store (calls + 1) (.wait operation next) (.wait operation' next')

namespace Script

variable {α β : Type} {store : Store} {around : Surroundings} {calls : Nat} {x y : Script α}

theorem meetAfter_bind (h : MeetAfter store calls x y) (f : α → Script β) :
    MeetAfter store calls (x.bind f) (y.bind f) := by
  induction h with
  | same x => exact .same _
  | wait operation operation' _ ih => exact .wait operation operation' ih

/-- Scripts that meet come to the same, unless not all calls up to there come back: then a call of
each may be cut off at the same time. -/
theorem run_of_meetAfter (h : MeetAfter around.store calls x y) (p : Progress) :
    x.run around p = y.run around p ∨
      ¬around.Permits p.clock calls ∧ ∃ operation operation' q,
        x.run around p = (Outcome.fail (.unavailable (.timeout operation)), q) ∧
          y.run around p = (Outcome.fail (.unavailable (.timeout operation')), q) := by
  induction h generalizing p with
  | same x => exact .inl rfl
  | wait operation operation' _ ih =>
    unfold run
    cases hcompletion : completion? around.deadline p.clock around.latency with
    | none =>
      refine .inr ⟨fun hpermits => ?_, operation, operation', _, rfl, rfl⟩
      cases hcompletion.symm.trans (permits_succ.1 hpermits).2.1
    | some clock =>
      cases hfailure : around.failure? with
      | some e => exact .inl rfl
      | none =>
        rcases ih { p with clock } with hsame | ⟨hcut, htimeouts⟩
        · exact .inl hsame
        · -- this call has come back, so it is a later one that does not
          refine .inr ⟨fun hpermits => hcut ?_, htimeouts⟩
          obtain ⟨-, hback, hrest⟩ := permits_succ.1 hpermits
          cases hcompletion.symm.trans hback
          exact hrest

end Script

theorem Node.ask_of_meetAfter {n : Node} {query query' : Query} {calls : Nat}
    (h : Script.MeetAfter n.store calls (n.settings.script query) (n.settings.script query'))
    (hname : query.name = query'.name) (context : RequestContext) :
    n.ask context query = n.ask context query' ∨
      ¬(n.surroundings context).Permits n.clock calls ∧ ∃ operation operation' later,
        n.ask context query = (Outcome.fail (.unavailable (.timeout operation)), later) ∧
          n.ask context query' = (Outcome.fail (.unavailable (.timeout operation')), later) := by
  have hmeet : Script.MeetAfter (n.surroundings context).store calls (n.settings.script query)
      (n.settings.script query') := h
  unfold Node.ask
  rw [← hname]
  rcases Script.run_of_meetAfter hmeet n.progress with
    hsame | ⟨hcut, operation, operation', q, hx, hy⟩
  · rw [hsame]
    exact .inl rfl
  · rw [hx, hy]
    exact .inr ⟨hcut, operation, operation', _, rfl, rfl⟩

/-! ## Balances -/

section Balances

variable {s : Store} {bytes : Bytes} {id : EntityId} {row : Entity}

theorem account_by_alias (hresolve : s.resolveAlias bytes = .ok (some id))
    (hknown : s.entity? id.encode = some row) (hbytes : row.alias? = some bytes) :
    Script.MeetAfter s 2 (Script.account (.byAlias bytes)) (Script.account (.byId id)) := by
  have halias : s.aliasOf? id = some bytes := by
    rw [← hbytes]
    exact congrArg (·.bind Entity.alias?) hknown
  refine .wait "resolve_alias" "entity" ?_
  dsimp only
  rw [hresolve, hknown]
  refine .wait "entity" "resolve_entity" ?_
  dsimp only
  rw [halias, hknown]
  exact .same _

theorem script_by_alias (settings : Settings) (stop : Int64)
    (hresolve : s.resolveAlias bytes = .ok (some id)) (hknown : s.entity? id.encode = some row)
    (hbytes : row.alias? = some bytes) :
    Script.MeetAfter s 2 (settings.script (.balance (.byAlias bytes) stop))
      (settings.script (.balance (.byId id) stop)) :=
  Script.meetAfter_bind (Script.meetAfter_bind (account_by_alias hresolve hknown hbytes) _) _

end Balances

/-- Where no two entities share an alias, the balance of an alias is the balance of its entity
under the id: the same answer or the same error, and the same node afterwards. Only if one of the
two calls that lead to the account does not come back in time, which ends both queries at that
time, does the timeout name another call. The balance of an alias without an entity is zero. -/
theorem balance_by_alias (n : Node) (context : RequestContext) (stop : Int64) :
    (n.store.DistinctAliases → ∀ row id bytes, n.store.entity? row.id = some row →
      EntityId.decode row.id = .ok id → row.alias? = some bytes →
        n.ask context (.balance (.byAlias bytes) stop) =
            n.ask context (.balance (.byId id) stop) ∨
          ¬(n.surroundings context).Permits n.clock 2 ∧ ∃ operation operation' later,
            n.ask context (.balance (.byAlias bytes) stop) =
                (.error (.cause (.unavailable (.timeout operation))), later) ∧
              n.ask context (.balance (.byId id) stop) =
                (.error (.cause (.unavailable (.timeout operation'))), later)) ∧
    ∀ bytes, (∀ row ∈ n.store.entities.values, row.alias? ≠ some bytes) →
      (n.surroundings context).Permits n.clock 1 →
        (n.ask context (.balance (.byAlias bytes) stop)).1 =
          .ok (.balance ⟨Text.prefixedHex bytes, some (Text.prefixedHex bytes), [.hbar 0]⟩) := by
  constructor
  · intro hdistinct row id bytes hknown hdecode hbytes
    have hid : row.id = id.encode := EntityId.decode_eq_ok_iff.1 hdecode
    rw [hid] at hknown
    have hresolve := resolveAlias_of_distinct hdistinct hknown hid hbytes
    exact Node.ask_of_meetAfter (script_by_alias n.settings stop hresolve hknown hbytes) rfl context
  · intro bytes hunknown hpermits
    have hresolve := resolveAlias_of_unknown hunknown
    have hwaits : (n.settings.script (.balance (.byAlias bytes) stop)).waits n.store n.genesis? =
        1 := by
      simp only [Settings.script, Script.balance, Script.account, Script.bind_eq,
        Script.askChecked, Script.bind, Script.waits, hresolve, Outcome.ofExcept_ok,
        Script.pure_eq]
    rw [(Node.ask_of_permits (hwaits ▸ hpermits)).1]
    simp only [Settings.script, Script.balance, Script.account, Script.bind_eq, Script.eval_bind,
      Script.eval_askChecked, hresolve, Outcome.ofExcept_ok, Script.pure_eq, Script.eval_done]
    rfl

/-- A deleted account and one that is not in any snapshot, each under an alias. -/
private def aliasedNode : Node where
  store := Store.ingestAll {} [
    .entity ⟨1001, some [0xa1], some 50⟩,
    .entity ⟨1002, some [0xb2], none⟩,
    .entity ⟨1003, none, none⟩,
    .hbarBalance 10 (.numbered 1001) 100,
    .hbarBalance 60 (.numbered 1001) 999]

theorem balance_by_alias_known :
    (aliasedNode.ask .background (.balance (.byAlias [0xa1]) 70)).1 =
        .ok (.balance ⟨"0.0.1001", some "0xa1", [.hbar 100]⟩) ∧
      (aliasedNode.ask .background (.balance (.byAlias [0xb2]) 5)).1 =
        .error (.cause .nodeIsStarting) ∧
      (aliasedNode.ask .background (.balance (.byAlias [0xc3]) 5)).1 =
        .ok (.balance ⟨"0xc3", some "0xc3", [.hbar 0]⟩) := by
  have hdistinct : aliasedNode.store.DistinctAliases := by decide
  have hquiet : aliasedNode.Quiet := by decide
  have hknown := fun stop => (balance_by_alias aliasedNode .background stop).1 hdistinct
  refine ⟨?_, ?_, ?_⟩
  · rw [(hknown 70 ⟨1001, some [0xa1], some 50⟩ (.numbered 1001) [0xa1] (by decide) (by decide)
      rfl).resolve_right fun hcut => hcut.1 (hquiet.permits 2)]
    decide +kernel
  · rw [(hknown 5 ⟨1002, some [0xb2], none⟩ (.numbered 1002) [0xb2] (by decide) (by decide)
      rfl).resolve_right fun hcut => hcut.1 (hquiet.permits 2)]
    decide +kernel
  · exact (balance_by_alias aliasedNode .background 5).2 [0xc3] (by decide) (hquiet.permits 1)

end LedgerView
