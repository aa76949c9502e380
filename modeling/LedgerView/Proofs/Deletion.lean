import Mathlib
import LedgerView.Proofs.Alike
import LedgerView.Proofs.Append
import LedgerView.Proofs.Balance
import LedgerView.Proofs.Balance.Window
/-!
# Deleted accounts

The balance of an account that was deleted at `d` stays what it was at `d`, and no balance of it
changes by what is recorded of the time after `d` or by a snapshot of `d` (`balance_frozen`).
-/

namespace LedgerView

/-- The entity row that a selector leads to, whether or not its id can be presented. -/
def Store.LeadsTo (s : Store) (e : Entity) : AccountSelector → Prop
  | .byId id => s.entity? id.encode = some e
  | .byAlias bytes => s.entity? e.id = some e ∧ s.entityOfAlias? bytes = some e

/-- The record tells of no snapshot before `d` and of no movement or association up to `d`, nor of
an entity or a token. -/
def Ingestion.ComesAfter (d : Int64) : Ingestion → Prop
  | .snapshot timestamp => d ≤ timestamp
  | .hbarBalance timestamp _ _ => d ≤ timestamp
  | .tokenBalance timestamp _ _ _ => d ≤ timestamp
  | .association _ _ _ timestamp => d < timestamp
  | .transaction row => d < row.consensusTimestamp
  | .recordFile _ | .addressBook .. => True
  | .entity _ | .token _ | .deleteToken _ => False

instance (d : Int64) : DecidablePred (Ingestion.ComesAfter d)
  | .snapshot timestamp => inferInstanceAs (Decidable (d ≤ timestamp))
  | .hbarBalance timestamp _ _ => inferInstanceAs (Decidable (d ≤ timestamp))
  | .tokenBalance timestamp _ _ _ => inferInstanceAs (Decidable (d ≤ timestamp))
  | .association _ _ _ timestamp => inferInstanceAs (Decidable (d < timestamp))
  | .transaction row => inferInstanceAs (Decidable (d < row.consensusTimestamp))
  | .recordFile _ | .addressBook .. => isTrue trivial
  | .entity _ | .token _ | .deleteToken _ => isFalse id

/-- The second store holds what the first one does of all that counts for an account deleted at
`d`: snapshots before `d`, movements and associations up to `d`. -/
structure Store.AgreesTo (d : Int64) (s s' : Store) : Prop where
  entities : s'.entities = s.entities
  order : s'.order = s.order
  tokens : s'.tokens = s.tokens
  snapshots : (s'.snapshots.entries.filter fun e => e.1 < d) =
    s.snapshots.entries.filter fun e => e.1 < d
  transactions : (s'.transactions.items.filter fun row => row.consensusTimestamp ≤ d) =
    s.transactions.items.filter fun row => row.consensusTimestamp ≤ d
  associations : ∀ account bound, bound ≤ d →
    s'.latestAssociationEvents account bound = s.latestAssociationEvents account bound

/-! ## Records of later times -/

section Agreement

variable {s s' s'' : Store} {d : Int64}

theorem agrees_refl (d : Int64) (s : Store) : s.AgreesTo d s where
  entities := rfl
  order := rfl
  tokens := rfl
  snapshots := rfl
  transactions := rfl
  associations _ _ _ := rfl

theorem agrees_trans (h : s.AgreesTo d s') (h' : s'.AgreesTo d s'') : s.AgreesTo d s'' where
  entities := h'.entities.trans h.entities
  order := h'.order.trans h.order
  tokens := h'.tokens.trans h.tokens
  snapshots := h'.snapshots.trans h.snapshots
  transactions := h'.transactions.trans h.transactions
  associations account bound hbound :=
    (h'.associations account bound hbound).trans (h.associations account bound hbound)

theorem agrees_alterSnapshot {timestamp : Int64} (h : d ≤ timestamp) (f : Snapshot → Snapshot) :
    s.AgreesTo d (s.alterSnapshot timestamp f) := by
  -- a snapshot of `d` itself is not one before `d`
  have hlate : decide (timestamp < d) = false := decide_eq_false (Int64.not_lt.2 h)
  exact { agrees_refl d s with
    snapshots := Table.filter_put (p := fun k => decide (k < d)) hlate }

theorem agrees_ingest {record : Ingestion} (h : record.ComesAfter d) :
    s.AgreesTo d (s.ingest record) := by
  cases record with
  | snapshot timestamp =>
    rw [Store.ingest]
    exact agrees_alterSnapshot h _
  | hbarBalance timestamp account balance =>
    rw [Store.ingest, Store.insertHbarBalance]
    exact agrees_alterSnapshot h _
  | tokenBalance timestamp account token balance =>
    rw [Store.ingest, Store.insertTokenBalance]
    exact agrees_alterSnapshot h _
  | association account token associated timestamp =>
    exact { agrees_refl d s with
      associations := fun _ _ hbound =>
        latestAssociationEvents_insertAssociation (Int64.lt_of_le_of_lt hbound h) }
  | transaction row =>
    have hlate : decide (row.consensusTimestamp ≤ d) = false :=
      decide_eq_false (Int64.not_le.2 h)
    exact { agrees_refl d s with transactions := Timeline.filter_place hlate }
  | recordFile file => exact { agrees_refl d s with }
  | addressBook file timestamp rows => exact { agrees_refl d s with }
  | entity | token | deleteToken => exact h.elim

theorem agrees_ingestAll {records : List Ingestion} (h : ∀ record ∈ records, record.ComesAfter d) :
    s.AgreesTo d (s.ingestAll records) := by
  induction records generalizing s with
  | nil => exact agrees_refl d s
  | cons record records ih =>
    obtain ⟨hrecord, hrecords⟩ := List.forall_mem_cons.1 h
    exact agrees_trans (agrees_ingest hrecord) (ih hrecords)

theorem latestSnapshot_of_agrees (h : s.AgreesTo d s') {bound : Int64} (hbound : bound < d) :
    s'.latestSnapshot? bound = s.latestSnapshot? bound :=
  Table.latestKey?_of_filter (p := fun k => decide (k < d)) h.snapshots fun _ hk =>
    decide_eq_true (Int64.lt_of_le_of_lt hk hbound)

theorem after_of_agrees (h : s.AgreesTo d s') {start stop : Int64} (hstop : stop ≤ d) :
    s'.transactions.after start stop = s.transactions.after start stop :=
  filter_of_filter h.transactions fun _ hrow =>
    decide_eq_true (Int64.le_trans (of_decide_eq_true hrow).2 hstop)

theorem balanceInputs_of_agrees (h : s.AgreesTo d s') {account snapshot changeEnd : Int64}
    (hsnapshot : snapshot < d) (hchange : changeEnd ≤ d) :
    s'.balanceInputs account snapshot changeEnd = s.balanceInputs account snapshot changeEnd := by
  have hbalances : s'.snapshots.get? snapshot = s.snapshots.get? snapshot :=
    Table.get?_of_filter (p := fun k => decide (k < d)) h.snapshots (decide_eq_true hsnapshot)
  simp only [Store.balanceInputs, Store.tokenAssociations, Store.joinToken, h.tokens,
    h.associations account changeEnd hchange, Store.snapshotHbarBalance?,
    Store.snapshotTokenBalances, hbalances, Store.cryptoTransfers, Store.tokenTransfers,
    Store.nftTransfers, after_of_agrees h hchange]

end Agreement

/-! ## Balances -/

section Balances

variable {s s' : Store} {e : Entity} {d stop stop' : Int64} {selector : AccountSelector}

/-- Nothing that counts for a deleted account is later than its deletion, and no snapshot is of that
time. -/
theorem window_of_deleted {window : BalanceWindow} (hdeleted : e.deletedAt? = some d)
    (h : (BalanceWindow.of (some e) stop : Outcome LedgerError _) = .ok window) :
    window.changeEnd ≤ d ∧ window.snapshotEnd < d := by
  rcases window_eq_ok_iff.1 h with ⟨halive, rfl⟩ | ⟨_, ⟨⟩, deletedAt, hat, -, hends, hbefore⟩
  · have hlt : stop < d := halive e rfl d hdeleted
    exact ⟨Int64.le_of_lt hlt, hlt⟩
  · cases hdeleted.symm.trans hat
    refine ⟨hends ▸ Int64.le_refl d, ?_⟩
    rw [Int64.lt_iff_toInt_lt]
    omega

theorem window_eq_of_deleted (hdeleted : e.deletedAt? = some d) (hstop : d ≤ stop) :
    (BalanceWindow.of (some e) stop : Outcome LedgerError _) = BalanceWindow.of (some e) d := by
  simp only [BalanceWindow.of, Option.bind_some, hdeleted, if_pos hstop,
    if_pos (Int64.le_refl d)]

theorem alike_account_of_leadsTo (h : s.AgreesTo d s')
    (hleads : s.LeadsTo e selector) :
    Script.Alike s s' (fun x y => x = y ∧ x.2 = some e) (Script.account selector)
      (Script.account selector) := by
  have hentity : ∀ id, s.entity? id = s'.entity? id := fun id => by
    rw [Store.entity?, Store.entity?, h.entities]
  cases selector with
  | byId id =>
    refine Script.alike_bind (Script.alike_find_some (hentity id.encode)) ?_
    rintro row _ ⟨rfl, hrow⟩
    have halias : s.aliasOf? id = s'.aliasOf? id := by
      rw [Store.aliasOf?, Store.aliasOf?, h.entities]
    refine Script.alike_bind_eq (Script.alike_ask halias) fun alias? => ?_
    exact Script.alike_ok ⟨rfl, hrow.symm.trans hleads⟩
  | byAlias bytes =>
    obtain ⟨hknown, hfound⟩ := hleads
    have hresolve : s'.resolveAlias bytes = s.resolveAlias bytes := by
      rw [Store.resolveAlias, Store.entityOfAlias?, h.order, h.entities]
      rfl
    refine Script.alike_bind
      (R := fun x y => x = y ∧ ∃ id : EntityId, x = some id ∧ e.id = id.encode) (.wait _ ?_) ?_
    · dsimp only
      rw [hresolve, Store.resolveAlias, hfound]
      dsimp only
      -- an id that cannot be presented ends both scripts in the same way
      cases hdecode : EntityId.decode e.id with
      | error cause => exact .done (.failure _)
      | ok id => exact Script.alike_ok ⟨rfl, id, rfl, EntityId.decode_eq_ok_iff.1 hdecode⟩
    · rintro _ _ ⟨rfl, id, rfl, hid⟩
      rw [hid] at hknown
      refine Script.alike_bind (R := fun x y => x = y ∧ x = some e)
        (Script.alike_ask ⟨hentity id.encode, hknown⟩) ?_
      rintro _ _ ⟨rfl, rfl⟩
      exact Script.alike_ok ⟨rfl, rfl⟩

theorem alike_entityBalance_of_agrees (h : s.AgreesTo d s') (hdeleted : e.deletedAt? = some d)
    (hwindow : (BalanceWindow.of (some e) stop : Outcome LedgerError _) =
      BalanceWindow.of (some e) stop') (id : EntityId) :
    Script.Alike s s' Eq (Script.entityBalance id (some e) stop)
      (Script.entityBalance id (some e) stop') := by
  refine Script.alike_bind (R := fun w w' => w = w' ∧ w.changeEnd ≤ d ∧ w.snapshotEnd < d) ?_ ?_
  · rw [hwindow]
    cases hof : (BalanceWindow.of (some e) stop' : Outcome LedgerError _) with
    | error cause => exact .done (.failure _)
    | ok window => exact Script.alike_ok ⟨rfl, window_of_deleted hdeleted hof⟩
  · rintro window _ ⟨rfl, hchange, hend⟩
    refine Script.alike_bind
      (Script.alike_find_some (latestSnapshot_of_agrees h hend).symm) ?_
    rintro snapshot _ ⟨rfl, hsnapshot⟩
    have hlt : snapshot < d := Int64.lt_of_le_of_lt (mem_keys_of_latestSnapshot hsnapshot).2 hend
    exact Script.alike_bind_eq
      (Script.alike_askChecked (balanceInputs_of_agrees h hlt hchange).symm) fun _ =>
        Script.alike_done _

theorem alike_balance_of_agrees (h : s.AgreesTo d s') (hleads : s.LeadsTo e selector)
    (hdeleted : e.deletedAt? = some d)
    (hwindow : (BalanceWindow.of (some e) stop : Outcome LedgerError _) =
      BalanceWindow.of (some e) stop') :
    Script.Alike s s' Eq (Script.balance selector stop) (Script.balance selector stop') := by
  refine Script.alike_bind (alike_account_of_leadsTo h hleads) ?_
  rintro ⟨account, entity?⟩ _ ⟨rfl, rfl⟩
  dsimp only
  cases account.entityId? with
  | none => exact Script.alike_ok rfl
  | some id =>
    exact Script.alike_bind_eq (alike_entityBalance_of_agrees h hdeleted hwindow id) fun _ =>
      Script.alike_ok rfl

end Balances

/-- From its deletion on the balance of an account stays what it was then, and at no time does it
depend on what is recorded of later times: neither on movements and associations after the
deletion nor on snapshots from its time on. -/
theorem balance_frozen {n : Node} {selector : AccountSelector} {e : Entity} {d : Int64}
    (hleads : n.store.LeadsTo e selector) (hdeleted : e.deletedAt? = some d) :
    (∀ (context : RequestContext) (stop : Int64), d ≤ stop →
      (n.ask context (.balance selector stop)).1 = (n.ask context (.balance selector d)).1) ∧
    ∀ records : List Ingestion, (∀ record ∈ records, record.ComesAfter d) →
      ∀ (context : RequestContext) (stop : Int64),
        ((n.run (records.map .ingest)).ask context (.balance selector stop)).1 =
          (n.ask context (.balance selector stop)).1 := by
  have halike : ∀ {s' stop stop'}, n.store.AgreesTo d s' →
      (BalanceWindow.of (some e) stop : Outcome LedgerError _) = BalanceWindow.of (some e) stop' →
      Script.Alike n.store s' Eq (n.settings.script (.balance selector stop))
        (n.settings.script (.balance selector stop')) := fun hagrees hwindow =>
    Script.alike_bind_eq (alike_balance_of_agrees hagrees hleads hdeleted hwindow) fun _ =>
      Script.alike_ok rfl
  constructor
  · intro context stop hstop
    have hsame := halike (agrees_refl d n.store) (window_eq_of_deleted hdeleted hstop)
    exact (congrArg Prod.fst (Node.ask_of_alike hsame rfl context)).symm
  · intro records hrecords context stop
    have hsame := halike (agrees_ingestAll hrecords) (rfl : _ = BalanceWindow.of (some e) stop)
    rw [Node.run_map_ingest, Node.ask_of_alike hsame rfl]

/-- An account deleted at 50, with what it received before. -/
private def closedNode : Node where
  store := Store.ingestAll {} [
    .entity ⟨1001, some [0xa1], some 50⟩,
    .token ⟨2000, 0, .fungibleCommon, false, 100⟩,
    .association (.numbered 1001) (.numbered 2000) true 8,
    .hbarBalance 10 (.numbered 1001) 100,
    .transaction {
      consensusTimestamp := 40, hash := [1], transactionType := 14, result := 22, payer := 1002,
      entity? := none, memo := [], cryptoTransfers := [⟨1002, -9, none⟩, ⟨1001, 7, none⟩],
      itemizedTransfers := [], tokenTransfers := [⟨1001, 2000, 3, 0, .fungibleCommon⟩],
      nftTransfers := [], stakingRewards := [], token? := none }]

/-- A snapshot of its deletion without its token, a late movement and a late dissociation. -/
private def lateRecords : List Ingestion := [
  .snapshot 60,
  .hbarBalance 50 (.numbered 1001) 999,
  .tokenBalance 50 (.numbered 1001) (.numbered 2000) 0,
  .association (.numbered 1001) (.numbered 2000) false 51,
  .transaction {
    consensusTimestamp := 51, hash := [2], transactionType := 14, result := 22, payer := 1002,
    entity? := none, memo := [], cryptoTransfers := [⟨1002, -5, none⟩, ⟨1001, 5, none⟩],
    itemizedTransfers := [], tokenTransfers := [], nftTransfers := [], stakingRewards := [],
    token? := none }]

private def closedBalance : AccountBalance :=
  ⟨"0.0.1001", some "0xa1", [.hbar 107, .token {
    tokenId := .numbered 2000, decimals := 0, tokenType := .fungibleCommon, value := 3,
    serialNumbers := [] }]⟩

theorem balance_frozen_closed :
    (closedNode.ask .background (.balance (.byId (.numbered 1001)) 70)).1 =
        .ok (.balance closedBalance) ∧
      ((closedNode.run (lateRecords.map .ingest)).ask .background
          (.balance (.byAlias [0xa1]) 50)).1 = .ok (.balance closedBalance) := by
  have hbyId : closedNode.store.LeadsTo ⟨1001, some [0xa1], some 50⟩ (.byId (.numbered 1001)) := by
    unfold Store.LeadsTo
    decide
  have hbyAlias : closedNode.store.LeadsTo ⟨1001, some [0xa1], some 50⟩ (.byAlias [0xa1]) :=
    ⟨by decide, by decide⟩
  have hlate : ∀ record ∈ lateRecords, record.ComesAfter 50 := by decide
  constructor
  · rw [(balance_frozen hbyId rfl).1 .background 70 (by decide)]
    decide +kernel
  · rw [(balance_frozen hbyAlias rfl).2 lateRecords hlate]
    decide +kernel

end LedgerView
