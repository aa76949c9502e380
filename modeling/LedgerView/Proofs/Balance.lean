import Mathlib
import LedgerView.Proofs.Evaluation
import LedgerView.Proofs.Movement
/-!
# What a balance is made of

A balance that is reported comes from one snapshot and from what moved between it and the end of
the account's window. For hbar that is the snapshot's balance and every effective transfer after
it (`hbar_of_balance`).
-/

namespace LedgerView

/-- The selector leads to the entity. -/
def Store.Names (s : Store) : AccountSelector → EntityId → Prop
  | .byId entity, id => entity = id
  | .byAlias bytes, id => s.resolveAlias bytes = .ok (some id)

/-- The hbar that a balance reports. -/
def AccountBalance.hbar? (b : AccountBalance) : Option Int64 :=
  b.amounts.findSome? fun amount =>
    match amount with
    | .hbar value => some value
    | .token _ => none

/-- What a row moves of an account's hbar: its effective transfers, fees included. -/
def TransactionRow.hbarMoved (account : Int64) (row : TransactionRow) : Int :=
  ((row.effectiveTransfers.filter fun t => t.account = account).map fun t => t.amount.toInt).sum

/-- What a snapshot holds of an account's hbar; an account that is not in it has none. -/
def Store.snapshotHbar (s : Store) (account snapshot : Int64) : Int :=
  ((s.snapshotHbarBalance? account snapshot).getD 0).toInt

section Balance

variable {s : Store} {selector : AccountSelector} {id : EntityId}

theorem eval_account {account : AccountId} {entity? : Option Entity} {g g' : Option Block}
    (hnames : s.Names selector id)
    (h : (Script.account selector).eval s g = (.ok (account, entity?), g')) :
    account.entityId? = some id ∧ entity? = s.entity? id.encode := by
  cases selector with
  | byId entity =>
    obtain rfl : entity = id := hnames
    simp only [Script.account, Script.bind_eq, Script.eval_bind, Script.eval_find] at h
    cases hentity : s.entity? entity.encode with
    | none =>
      rw [hentity] at h
      cases h
    | some row =>
      rw [hentity] at h
      cases h
      exact ⟨rfl, rfl⟩
  | byAlias bytes =>
    have hresolve : s.resolveAlias bytes = .ok (some id) := hnames
    simp only [Script.account, Script.bind_eq, Script.eval_bind, Script.eval_askChecked,
      hresolve, Outcome.ofExcept_ok] at h
    cases h
    exact ⟨rfl, rfl⟩

theorem eval_entityBalance_eq_ok_iff {entity? : Option Entity} {stop : Int64}
    {amounts : List Amount} {g : Option Block} :
    ((Script.entityBalance id entity? stop).eval s g).1 = .ok amounts ↔
      ∃ window snapshot inputs,
        (BalanceWindow.of entity? stop : Outcome LedgerError _) = .ok window ∧
        s.latestSnapshot? window.snapshotEnd = some snapshot ∧
        s.balanceInputs id.encode snapshot window.changeEnd = .ok inputs ∧
        inputs.amounts = .ok amounts := by
  simp only [Script.entityBalance, Script.bind_eq, Script.eval_bind_eq_ok, Script.eval_done,
    Script.eval_find, Script.eval_askChecked, Prod.mk.injEq, Outcome.ofOption_eq_ok,
    Outcome.ofExcept_eq_ok]
  constructor
  · rintro ⟨window, _, ⟨hwindow, rfl⟩, snapshot, _, ⟨hsnapshot, rfl⟩, inputs, _, ⟨hinputs, rfl⟩,
      hamounts⟩
    exact ⟨window, snapshot, inputs, hwindow, hsnapshot, hinputs, hamounts⟩
  · rintro ⟨window, snapshot, inputs, hwindow, hsnapshot, hinputs, hamounts⟩
    exact ⟨window, _, ⟨hwindow, rfl⟩, snapshot, _, ⟨hsnapshot, rfl⟩, inputs, _, ⟨hinputs, rfl⟩,
      hamounts⟩

theorem amounts_of_balance {settings : Settings} {stop : Int64} {b : AccountBalance}
    (hnames : s.Names selector id)
    (h : s.Answers settings (.balance selector stop) (.balance b)) :
    ∃ window snapshot inputs,
      (BalanceWindow.of (s.entity? id.encode) stop : Outcome LedgerError _) = .ok window ∧
      s.latestSnapshot? window.snapshotEnd = some snapshot ∧
      s.balanceInputs id.encode snapshot window.changeEnd = .ok inputs ∧
      inputs.amounts = .ok b.amounts := by
  obtain ⟨g, hanswer⟩ := h.eval
  simp only [Settings.script, Script.bind_eq, Script.eval_bind_eq_ok] at hanswer
  obtain ⟨reported, g₁, hbalance, hreported⟩ := hanswer
  cases hreported
  replace hbalance := congrArg Prod.fst hbalance
  simp only [Script.balance, Script.bind_eq, Script.eval_bind_eq_ok] at hbalance
  obtain ⟨⟨account, entity?⟩, g₂, haccount, hamounts⟩ := hbalance
  obtain ⟨hid, rfl⟩ := eval_account hnames haccount
  simp only [hid, Script.eval_bind_eq_ok] at hamounts
  obtain ⟨amounts, g₃, hamounts, hlabel⟩ := hamounts
  cases hlabel
  exact eval_entityBalance_eq_ok_iff.1 (congrArg Prod.fst hamounts)

theorem mem_keys_of_latestSnapshot {bound snapshot : Int64}
    (h : s.latestSnapshot? bound = some snapshot) :
    snapshot ∈ s.snapshots.keys ∧ snapshot ≤ bound := by
  have hmem := List.mem_of_getLast? h
  rw [List.mem_filter, decide_eq_true_iff] at hmem
  exact hmem

/-! ## Hbar -/

theorem sum_cryptoTransfers (account : Int64) (rows : List TransactionRow) :
    (((((rows.flatMap TransactionRow.cryptoTransfers).filter fun t => t.account = account).filter
      CryptoTransfer.isEffective).map CryptoTransfer.amount).map Int64.toInt).sum =
      (rows.map (TransactionRow.hbarMoved account)).sum := by
  induction rows with
  | nil => rfl
  | cons row rows ih =>
    have hrow : (row.cryptoTransfers.filter fun t => t.account = account).filter
        CryptoTransfer.isEffective =
          row.effectiveTransfers.filter fun t => t.account = account :=
      List.filter_comm ..
    rw [List.flatMap_cons, List.filter_append, List.filter_append, List.map_append,
      List.map_append, List.sum_append, ih, hrow, List.map_map, List.map_cons, List.sum_cons]
    rfl

/-- The hbar that is reported is the snapshot's and what moved after it. -/
theorem hbar_of_balance {settings : Settings} {stop : Int64} {b : AccountBalance}
    (hnames : s.Names selector id)
    (h : s.Answers settings (.balance selector stop) (.balance b)) :
    ∃ window snapshot value,
      (BalanceWindow.of (s.entity? id.encode) stop : Outcome LedgerError _) = .ok window ∧
      s.latestSnapshot? window.snapshotEnd = some snapshot ∧
      b.hbar? = some value ∧
      value.toInt = s.snapshotHbar id.encode snapshot +
        s.moved (TransactionRow.hbarMoved id.encode) snapshot window.changeEnd := by
  obtain ⟨window, snapshot, inputs, hwindow, hsnapshot, hinputs, hamounts⟩ :=
    amounts_of_balance hnames h
  simp only [Store.balanceInputs, bind_eq_ok, pure_eq_ok] at hinputs
  obtain ⟨associations, -, rfl⟩ := hinputs
  simp only [BalanceInputs.amounts, bind_eq_ok, pure_eq_ok] at hamounts
  obtain ⟨deltas, hdeltas, value, hvalue, tokens, -, hb⟩ := hamounts
  refine ⟨window, snapshot, value, hwindow, hsnapshot, ?_, ?_⟩
  · rw [AccountBalance.hbar?, ← hb]
    rfl
  · rw [addChecked_eq_ok_iff.1 hvalue, toInt_of_sumChecked hdeltas, Store.cryptoTransfers,
      sum_cryptoTransfers]
    rfl

end Balance

end LedgerView
