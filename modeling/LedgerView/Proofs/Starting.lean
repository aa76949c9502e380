import Mathlib
import LedgerView.Proofs.Balance.Window
import LedgerView.Proofs.Chain
import LedgerView.Proofs.Stability
/-!
# Ledgers that are starting

A block that is found ends after some snapshot, so that a balance at the block has a snapshot to
start from. The exception is an account that was deleted no later than the first snapshot: its
balance starts from a snapshot before the deletion, and there is none. As long as the genesis block
is one that the store holds, that alone makes the balance of a known account at a block that is
found report a ledger that is starting (`starting_iff_deleted`).
-/

namespace LedgerView

/-- The record files end later and later. -/
def Store.EndsRise (s : Store) : Prop :=
  ∀ a ∈ s.recordFiles.values, ∀ b ∈ s.recordFiles.values, a.index < b.index →
    a.consensusEnd < b.consensusEnd

instance (s : Store) : Decidable s.EndsRise :=
  inferInstanceAs (Decidable (∀ a ∈ s.recordFiles.values, _))

/-- The entity was deleted, at the first snapshot or before it. At the least timestamp of all there
would be no bound for the snapshot. -/
def Entity.GoneBy (e : Entity) (first : Int64) : Prop :=
  ∃ deletedAt, e.deletedAt? = some deletedAt ∧ deletedAt ≤ first ∧ deletedAt ≠ Int64.minValue

/-! ## Snapshots before a bound -/

section Snapshots

variable {s : Store} {first bound : Int64}

theorem latestSnapshot?_eq_none_iff :
    s.latestSnapshot? bound = none ↔ ∀ snapshot ∈ s.snapshots.keys, bound < snapshot := by
  rw [Store.latestSnapshot?, Table.latestKey?, List.getLast?_eq_none_iff, List.filter_eq_nil_iff]
  simp only [decide_eq_true_eq, Int64.not_le]

theorem latestSnapshot?_eq_none_iff_lt (hfirst : s.earliestSnapshot? = some first) :
    s.latestSnapshot? bound = none ↔ bound < first := by
  obtain ⟨hmem, hleast⟩ := Table.head?_keys_eq_some_iff.1 hfirst
  rw [latestSnapshot?_eq_none_iff]
  constructor
  · intro h
    exact h first hmem
  · intro hlt snapshot hsnapshot
    exact Int64.lt_of_lt_of_le hlt (hleast snapshot hsnapshot)

theorem lt_consensusEnd {g b : Block} {selector : BlockSelector} (hkeyed : s.Keyed)
    (hrise : s.EndsRise) (hg : s.HoldsOrigin g) (hfirst : s.earliestSnapshot? = some first)
    (h : s.Selects g selector b) : first < b.consensusEnd := by
  obtain ⟨snapshot, hsnapshot, genesisFile, hgenesisFile, hend, hopens⟩ := exists_opens hg
  obtain ⟨file, hshows⟩ := exists_shows_of_selects hkeyed (startsAt_of_holdsOrigin hkeyed hg) h
  have hfile := mem_of_shows hkeyed hshows
  have hle : genesisFile.index ≤ file.index := hopens.index ▸ hshows.built.1
  have hlast : genesisFile.consensusEnd ≤ file.consensusEnd := by
    by_cases hsame : genesisFile.index = file.index
    · rw [eq_of_index_eq hkeyed hgenesisFile hfile hsame]
      exact Int64.le_refl _
    · exact Int64.le_of_lt
        (hrise genesisFile hgenesisFile file hfile (Int64.lt_of_le_of_ne hle hsame))
  have hleast := (Table.head?_keys_eq_some_iff.1 hfirst).2 snapshot hsnapshot
  rw [(from_iff.1 hshows.built).2, consensusEnd_over hkeyed hgenesisFile hopens hfile]
  exact Int64.lt_of_le_of_lt hleast (Int64.lt_of_lt_of_le hend hlast)

end Snapshots

/-! ## What a balance may report -/

section Balance

variable {s : Store} {id : EntityId} {e : Entity} {stop first : Int64}

theorem cause_of_amounts {inputs : BalanceInputs} {cause : LedgerError}
    (h : inputs.amounts = .error (.cause cause)) : ∃ what, cause = corruptRow what := by
  rcases bind_eq_error.1 h with hsum | ⟨deltas, -, h⟩
  · exact absurd hsum sumChecked_ne_cause
  rcases bind_eq_error.1 h with hadd | ⟨hbar, -, h⟩
  · exact absurd hadd fit_ne_cause
  rcases bind_eq_error.1 h with htokens | ⟨tokens, -, h⟩
  · obtain ⟨what, -, hwhat⟩ := Outcome.mapCause_eq_cause.1 htokens
    exact ⟨what, hwhat.symm⟩
  · cases h

theorem eval_entityBalance_eq_starting_iff {entity? : Option Entity} {g : Option Block} :
    ((Script.entityBalance id entity? stop).eval s g).1 = Outcome.fail .nodeIsStarting ↔
      ∃ window, (BalanceWindow.of entity? stop : Outcome LedgerError _) = .ok window ∧
        s.latestSnapshot? window.snapshotEnd = none := by
  simp only [Outcome.fail, Script.entityBalance, Script.bind_eq, Script.eval_bind_eq_error,
    Script.eval_done, Script.eval_find, Script.eval_askChecked, Prod.mk.injEq,
    Outcome.ofOption_eq_ok, Outcome.ofExcept_eq_ok]
  constructor
  · rintro (hwindow | ⟨window, _, ⟨hwindow, rfl⟩, hnone | ⟨snapshot, _, -, hinputs |
      ⟨inputs, _, -, hamounts⟩⟩⟩)
    · exact absurd hwindow window_ne_cause
    · refine ⟨window, hwindow, ?_⟩
      cases hsnapshot : s.latestSnapshot? window.snapshotEnd with
      | none => rfl
      | some snapshot =>
        rw [hsnapshot] at hnone
        cases hnone
    · rcases hread : s.balanceInputs id.encode snapshot window.changeEnd with e | inputs
      · rw [hread] at hinputs
        cases e <;> cases hinputs
      · rw [hread] at hinputs
        cases hinputs
    · obtain ⟨what, hwhat⟩ := cause_of_amounts hamounts
      cases hwhat
  · rintro ⟨window, hwindow, hnone⟩
    refine .inr ⟨window, g, ⟨hwindow, rfl⟩, .inl ?_⟩
    rw [hnone]
    rfl

/-- At the end of a block the window of an entity asks for a snapshot before the first one just if
the entity was gone by then. -/
theorem window_before_iff (hstop : first < stop) :
    (∃ window, (BalanceWindow.of (some e) stop : Outcome LedgerError _) = .ok window ∧
      window.snapshotEnd < first) ↔ e.GoneBy first := by
  simp only [window_eq_ok_iff]
  constructor
  · rintro ⟨window, ⟨-, rfl⟩ | ⟨_, ⟨⟩, deletedAt, hdeleted, -, -, hbound⟩, hbefore⟩
    · exact absurd (Int64.lt_trans hstop hbefore) Int64.lt_irrefl
    · rw [Int64.lt_iff_toInt_lt] at hbefore
      refine ⟨deletedAt, hdeleted, Int64.le_iff_toInt_le.2 (by omega), ?_⟩
      intro hleast
      have hmin : -2 ^ 63 ≤ window.snapshotEnd.toInt := Int64.le_toInt window.snapshotEnd
      have hvalue : Int64.minValue.toInt = -2 ^ 63 := rfl
      rw [hleast] at hbound
      omega
  · rintro ⟨deletedAt, hdeleted, hle, hne⟩
    have hleast : Int64.minValue < deletedAt :=
      Int64.lt_of_le_of_ne (Int64.minValue_le deletedAt) (Ne.symm hne)
    have hbound : (deletedAt - 1).toInt = deletedAt.toInt - 1 := toInt_sub_one hleast
    have hpast : deletedAt ≤ stop := Int64.le_of_lt (Int64.lt_of_le_of_lt hle hstop)
    refine ⟨⟨deletedAt, deletedAt - 1⟩, .inr ⟨e, rfl, deletedAt, hdeleted, hpast, rfl, hbound⟩, ?_⟩
    rw [Int64.le_iff_toInt_le] at hle
    rw [Int64.lt_iff_toInt_lt]
    dsimp only
    omega

theorem eval_balance_eq_starting_iff {account : AccountSelector} {g : Option Block}
    (hfirst : s.earliestSnapshot? = some first) (hstop : first < stop)
    (hnames : s.Names account id) (hknown : s.entity? id.encode = some e) :
    ((Script.balance account stop).eval s g).1 = Outcome.fail .nodeIsStarting ↔
      e.GoneBy first := by
  have hid : (account.label id e).entityId? = some id := by
    cases account <;> rfl
  have hentity : ((Script.entityBalance id (some e) stop).eval s g).1 =
      Outcome.fail .nodeIsStarting ↔ e.GoneBy first := by
    rw [eval_entityBalance_eq_starting_iff, ← window_before_iff hstop]
    simp only [latestSnapshot?_eq_none_iff_lt hfirst]
  rw [← hentity]
  simp only [Script.balance, Script.bind_eq]
  rw [Script.eval_bind_of_eq (eval_account_of_entity hnames hknown g)]
  simp only [hid, Outcome.fail, Script.eval_bind_eq_error]
  refine or_iff_left ?_
  rintro ⟨amounts, g', -, hdone⟩
  cases hdone

end Balance

/-! ## Balances at blocks -/

section Query

variable {n : Node} {context : RequestContext} {account : AccountSelector}
  {selector : BlockSelector} {b : Block} {id : EntityId} {e : Entity} {first : Int64}

/-- The balance of a known account at a block that is found reports a ledger that is starting only
if the account was deleted no later than the first snapshot, and then, unless a store call fails,
it does so. -/
theorem starting_iff_deleted (hkeyed : n.store.Keyed) (hrise : n.store.EndsRise)
    (hkept : n.KeepsOrigin) (hfirst : n.store.earliestSnapshot? = some first)
    (hnames : n.store.Names account id) (hknown : n.store.entity? id.encode = some e)
    (hfinds : n.Finds context selector b) :
    (∀ context', (n.ask context' (.balanceAtBlock account selector)).1 =
        Outcome.fail .nodeIsStarting → e.GoneBy first) ∧
      (n.Quiet → e.GoneBy first → ∀ context',
        (n.ask context' (.balanceAtBlock account selector)).1 = Outcome.fail .nodeIsStarting) := by
  obtain ⟨-, g, hg, hb⟩ := Node.finds_iff.1 hfinds
  have hend := lt_consensusEnd hkeyed hrise (holdsOrigin_of_resolves hkept hg) hfirst hb
  have heval : ((n.settings.script (.balanceAtBlock account selector)).eval n.store n.genesis?).1 =
      Outcome.fail .nodeIsStarting ↔ e.GoneBy first := by
    rw [← eval_balance_eq_starting_iff (g := some g) hfirst hend hnames hknown]
    simp only [Settings.script, Script.bind_eq]
    rw [Script.eval_bind_of_eq (Script.eval_block_eq_ok.2 ⟨g, hg, rfl, hb⟩)]
    simp only [Outcome.fail, Script.eval_bind_eq_error]
    refine or_iff_left ?_
    rintro ⟨balance, g', -, hdone⟩
    cases hdone
  constructor
  · intro context' hanswer
    have hown : ∀ e, (Outcome.fail .nodeIsStarting : Outcome LedgerError Answer) ≠
        Outcome.fail (LedgerError.ofStore e) := by
      intro e
      cases e <;> simp [Outcome.fail, LedgerError.ofStore]
    exact heval.1 (Script.eval_of_run_eq (p := n.progress) hanswer hown)
  · intro hquiet hgone context'
    rw [(Node.ask_of_permits (hquiet.permits _)).1]
    exact heval.2 hgone

end Query

/-- Account 1001 was deleted before the first snapshot, account 1002 after it. -/
private def deletedStore : Store :=
  Store.ingestAll {} [
    .recordFile ⟨5, "ab12", "00", 10, 90⟩,
    .recordFile ⟨6, "cd34", "ab12", 91, 190⟩,
    .snapshot 100,
    .entity ⟨1001, none, some 50⟩,
    .entity ⟨1002, none, some 150⟩]

private def deletedNode : Node :=
  { store := deletedStore }

private def deletedBlock : Block :=
  ⟨6, "0xcd34", 6, "0xcd34", 101, 190⟩

/-- The genesis block is resolved, and then its record file is replaced by one that ends before the
first snapshot. -/
private def displacedNode : Node :=
  ({} : Node).run [
    .ingest (.recordFile ⟨6, "cd34", "ab12", 91, 190⟩),
    .ingest (.snapshot 100),
    .ingest (.entity ⟨1002, none, none⟩),
    .ask .background (.resolveBlock .genesis),
    .ingest (.recordFile ⟨6, "cd34", "ab12", 10, 50⟩),
    .ingest (.recordFile ⟨7, "ef56", "cd34", 51, 60⟩)]

/-- A ledger with a snapshot and a block reports that it is starting, for an account that was deleted
before the snapshot, and at a block that lies before it for an account that never was. -/
theorem starting_with_snapshot :
    (deletedNode.store.EndsRise ∧ deletedNode.store.earliestSnapshot? = some 100 ∧
      deletedNode.store.entity? (EntityId.numbered 1001).encode = some ⟨1001, none, some 50⟩ ∧
      deletedNode.Finds .background .latest deletedBlock ∧
      (deletedNode.ask .background (.balanceAtBlock (.byId (.numbered 1001)) .latest)).1 =
        Outcome.fail .nodeIsStarting) ∧
    displacedNode.store.EndsRise ∧ displacedNode.store.earliestSnapshot? = some 100 ∧
      displacedNode.store.entity? (EntityId.numbered 1002).encode = some ⟨1002, none, none⟩ ∧
      displacedNode.Finds .background .latest ⟨7, "0xef56", 6, "0xcd34", 51, 60⟩ ∧
      (displacedNode.ask .background (.balanceAtBlock (.byId (.numbered 1002)) .latest)).1 =
        Outcome.fail .nodeIsStarting :=
  ⟨⟨by decide, by decide, by decide, by decide +kernel, by decide +kernel⟩,
    by decide, by decide, by decide, by decide +kernel, by decide +kernel⟩

theorem starting_iff_deleted_before :
    (∀ context, (deletedNode.ask context
        (.balanceAtBlock (.byId (.numbered 1001)) .latest)).1 = Outcome.fail .nodeIsStarting) ∧
      ∀ context, (deletedNode.ask context
        (.balanceAtBlock (.byId (.numbered 1002)) .latest)).1 ≠ Outcome.fail .nodeIsStarting := by
  have hkeyed : deletedNode.store.Keyed := keyed_ingestAll (fun e he => by cases he) _
  have hrise : deletedNode.store.EndsRise := by decide
  have hkept : deletedNode.KeepsOrigin := fun g hg => by cases hg
  have hfirst : deletedNode.store.earliestSnapshot? = some 100 := by decide
  have hfinds : deletedNode.Finds .background .latest deletedBlock := by decide +kernel
  have hnames : ∀ id, deletedNode.store.Names (.byId id) id := fun _ => rfl
  constructor
  · have hknown : deletedNode.store.entity? (EntityId.numbered 1001).encode =
        some ⟨1001, none, some 50⟩ := by decide
    exact (starting_iff_deleted hkeyed hrise hkept hfirst (hnames (.numbered 1001)) hknown
      hfinds).2 (by decide) ⟨50, rfl, by decide, by decide⟩
  · intro context hanswer
    have hknown : deletedNode.store.entity? (EntityId.numbered 1002).encode =
        some ⟨1002, none, some 150⟩ := by decide
    obtain ⟨deletedAt, hdeleted, hle, -⟩ := (starting_iff_deleted hkeyed hrise hkept hfirst
      (hnames (.numbered 1002)) hknown hfinds).1 context hanswer
    cases hdeleted
    exact absurd hle (by decide)

end LedgerView
