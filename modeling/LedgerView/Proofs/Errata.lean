import Mathlib
import LedgerView.Proofs.Alike
import LedgerView.Proofs.EntityOrder
import LedgerView.Proofs.Grouping
import LedgerView.Proofs.Scan
import LedgerView.Proofs.Timeline
/-!
# Errata

A movement that was retracted after the fact is as good as absent, and one that was added later is
as good as any other: with the first taken out and the second unmarked, every query is answered as
before (`answer_withoutErrata`). The order of the entities may change along with them, as long as
every alias leads to the same entity (`alike_script_settled`).
-/

namespace LedgerView

/-! ## Without the markers -/

/-- The movements that count, unmarked. -/
def CryptoTransfer.settle (transfers : List CryptoTransfer) : List CryptoTransfer :=
  (transfers.filter isEffective).map fun t => { t with errata? := none }

def TransactionRow.withoutErrata (row : TransactionRow) : TransactionRow :=
  { row with cryptoTransfers := CryptoTransfer.settle row.cryptoTransfers }

theorem timestamp_withoutErrata (row : TransactionRow) :
    timestamp row.withoutErrata = timestamp row := rfl

def Store.withoutErrata (s : Store) : Store :=
  { s with
    transactions := s.transactions.map TransactionRow.withoutErrata timestamp_withoutErrata }

def Node.withoutErrata (n : Node) : Node :=
  { n with store := n.store.withoutErrata }

/-! ## Sums and fees -/

section Rows

variable {ε : Type}

theorem filter_settle (transfers : List CryptoTransfer) :
    (CryptoTransfer.settle transfers).filter CryptoTransfer.isEffective =
      CryptoTransfer.settle transfers := by
  rw [List.filter_eq_self]
  intro t ht
  obtain ⟨marked, -, rfl⟩ := List.mem_map.1 ht
  rfl

theorem sumHbarDeltas_settle (transfers : List CryptoTransfer) :
    (sumHbarDeltas (CryptoTransfer.settle transfers) : Outcome ε Int64) =
      sumHbarDeltas transfers := by
  rw [sumHbarDeltas, filter_settle, CryptoTransfer.settle, List.map_map]
  rfl

theorem settle_filter_account (transfers : List CryptoTransfer) (account : Int64) :
    (CryptoTransfer.settle transfers).filter (fun t => t.account = account) =
      CryptoTransfer.settle (transfers.filter fun t => t.account = account) := by
  rw [CryptoTransfer.settle, List.filter_map, CryptoTransfer.settle, List.filter_comm]
  rfl

theorem settle_flatMap (rows : List TransactionRow) :
    (rows.map TransactionRow.withoutErrata).flatMap TransactionRow.cryptoTransfers =
      CryptoTransfer.settle (rows.flatMap TransactionRow.cryptoTransfers) := by
  rw [CryptoTransfer.settle, List.filter_flatMap, List.map_flatMap, List.flatMap_map]
  rfl

variable (row : TransactionRow)

theorem effectiveTransfers_withoutErrata :
    row.withoutErrata.effectiveTransfers = CryptoTransfer.settle row.cryptoTransfers :=
  filter_settle row.cryptoTransfers

theorem rawTotals_withoutErrata :
    (row.withoutErrata.rawTotals : Outcome ε Tally) = row.rawTotals := by
  rw [TransactionRow.rawTotals, effectiveTransfers_withoutErrata, CryptoTransfer.settle,
    List.map_map]
  rfl

theorem fees_withoutErrata (explained : List HbarTransfer) :
    (row.withoutErrata.fees explained : Outcome ε (List HbarTransfer)) = row.fees explained := by
  rw [TransactionRow.fees, rawTotals_withoutErrata, TransactionRow.fees]

theorem nonFeeTransfers_withoutErrata (a : Assembler) :
    a.nonFeeTransfers row.withoutErrata = a.nonFeeTransfers row := by
  have hany : ∀ account, (row.withoutErrata.effectiveTransfers.any fun c => c.account = account) =
      row.effectiveTransfers.any fun c => c.account = account := by
    intro account
    rw [effectiveTransfers_withoutErrata, CryptoTransfer.settle, List.any_map]
    rfl
  simp only [Assembler.nonFeeTransfers, hany]
  rfl

/-- A retracted movement of an account that the row does not move otherwise. -/
example :
    let row : TransactionRow :=
      { consensusTimestamp := 40, hash := [1], transactionType := 14, result := 22, payer := 1002,
        entity? := none, memo := [],
        cryptoTransfers := [⟨1003, 5, some .deleted⟩, ⟨1002, -9, none⟩, ⟨98, 9, some .inserted⟩],
        itemizedTransfers := [⟨1003, 5⟩], tokenTransfers := [], nftTransfers := [],
        stakingRewards := [], token? := none }
    Assembler.nonFeeTransfers ⟨.standard, 800⟩ row = [] ∧
      (row.fees [] : Outcome LedgerError _) = .ok [⟨1002, -9⟩, ⟨98, 9⟩] := by decide

theorem rowDrafts_withoutErrata (a : Assembler) :
    a.rowDrafts row.withoutErrata = a.rowDrafts row := by
  unfold Assembler.rowDrafts
  simp only [nonFeeTransfers_withoutErrata, fees_withoutErrata]
  rfl

end Rows

section Assembly

variable (a : Assembler) (rows : List TransactionRow)

theorem build_withoutErrata : a.build (rows.map TransactionRow.withoutErrata) = a.build rows := by
  cases rows with
  | nil => rfl
  | cons first others =>
    have hdrafts : ((first :: others).map TransactionRow.withoutErrata).mapM a.rowDrafts =
        (first :: others).mapM a.rowDrafts := by
      rw [List.mapM_map]
      congr 1
      funext row
      exact rowDrafts_withoutErrata row a
    have hprimary : ((first :: others).map TransactionRow.withoutErrata).find?
        TransactionRow.succeeded =
          ((first :: others).find? TransactionRow.succeeded).map TransactionRow.withoutErrata :=
      List.find?_map ..
    rw [List.map_cons] at hdrafts hprimary
    simp only [List.map_cons, Assembler.build, hdrafts, hprimary]
    cases (first :: others).find? TransactionRow.succeeded with
    | none => rfl
    | some primary => rfl

theorem assemble_withoutErrata :
    a.assemble (rows.map TransactionRow.withoutErrata) = a.assemble rows := by
  have hhash : ∀ row : TransactionRow, row.withoutErrata.hash = row.hash := fun _ => rfl
  rw [Assembler.assemble, Assembler.groupByHash_map hhash, List.mapM_map, Assembler.assemble]
  congr 1
  funext group
  exact build_withoutErrata a group.2

end Assembly

/-! ## Reads -/

section Reads

variable {s : Store}

theorem after_withoutErrata (start stop : Int64) :
    s.withoutErrata.transactions.after start stop =
      (s.transactions.after start stop).map TransactionRow.withoutErrata :=
  Timeline.after_map timestamp_withoutErrata s.transactions start stop

theorem between_withoutErrata (start stop : Int64) :
    s.withoutErrata.transactions.between start stop =
      (s.transactions.between start stop).map TransactionRow.withoutErrata :=
  Timeline.between_map timestamp_withoutErrata s.transactions start stop

theorem cryptoTransfers_withoutErrata (account after upTo : Int64) :
    s.withoutErrata.cryptoTransfers account after upTo =
      CryptoTransfer.settle (s.cryptoTransfers account after upTo) := by
  rw [Store.cryptoTransfers, after_withoutErrata, settle_flatMap,
    settle_filter_account, Store.cryptoTransfers]

theorem tokenTransfers_withoutErrata (account after upTo : Int64) :
    s.withoutErrata.tokenTransfers account after upTo = s.tokenTransfers account after upTo := by
  rw [Store.tokenTransfers, after_withoutErrata, List.flatMap_map]
  rfl

theorem nftTransfers_withoutErrata (account after upTo : Int64) :
    s.withoutErrata.nftTransfers account after upTo = s.nftTransfers account after upTo := by
  rw [Store.nftTransfers, after_withoutErrata, List.flatMap_map]
  rfl

theorem transactionsInRange_withoutErrata (start stop : Int64) (limit : Nat) :
    s.withoutErrata.transactionsInRange start stop limit =
      (s.transactionsInRange start stop limit).map TransactionRow.withoutErrata := by
  rw [Store.transactionsInRange, between_withoutErrata, ← List.map_take,
    List.map_map, Store.transactionsInRange, List.map_map]
  rfl

theorem transactionsByHash_withoutErrata (hash : Bytes) (start stop : Int64) :
    s.withoutErrata.transactionsByHash hash start stop =
      (s.transactionsByHash hash start stop).map TransactionRow.withoutErrata := by
  rw [Store.transactionsByHash, between_withoutErrata, List.filter_map,
    List.map_map, Store.transactionsByHash, List.map_map]
  rfl

theorem historicalTransfers_withoutErrata (timestamps : List Int64) :
    s.withoutErrata.historicalTransfers timestamps = s.historicalTransfers timestamps := by
  have hitems : s.withoutErrata.transactions.items =
      s.transactions.items.map TransactionRow.withoutErrata := rfl
  rw [Store.historicalTransfers, hitems, List.filter_map, List.map_map]
  rfl

theorem applyCorrections_withoutErrata (rows : List TransactionRow)
    (corrections : List TransferCorrection) :
    applyCorrections (rows.map TransactionRow.withoutErrata) corrections =
      (applyCorrections rows corrections).map TransactionRow.withoutErrata := by
  induction rows generalizing corrections with
  | nil => rfl
  | cons row rows ih =>
    cases corrections with
    | nil => rfl
    | cons c corrections =>
      have htimestamp : row.withoutErrata.consensusTimestamp = row.consensusTimestamp := rfl
      rw [List.map_cons, applyCorrections, applyCorrections, ih, ih, htimestamp]
      split
      · rfl
      · rfl

theorem pageEnd?_withoutErrata (page : List TransactionRow) (batch : Nat) (stop : Int64) :
    pageEnd? (page.map TransactionRow.withoutErrata) batch stop = pageEnd? page batch stop := by
  rw [pageEnd?, pageEnd?, List.getLast?_map, List.length_map]
  cases page.getLast? with
  | none => rfl
  | some last => rfl

/-- What a balance is worked out from differs in the markers only. -/
def BalanceInputs.withoutErrata (inputs : BalanceInputs) : BalanceInputs :=
  { inputs with cryptoTransfers := CryptoTransfer.settle inputs.cryptoTransfers }

theorem balanceInputs_withoutErrata (account snapshot changeEnd : Int64) :
    s.withoutErrata.balanceInputs account snapshot changeEnd =
      BalanceInputs.withoutErrata <$> s.balanceInputs account snapshot changeEnd := by
  have hassociations : s.withoutErrata.tokenAssociations account changeEnd =
      s.tokenAssociations account changeEnd := rfl
  rw [Store.balanceInputs, cryptoTransfers_withoutErrata, tokenTransfers_withoutErrata,
    nftTransfers_withoutErrata, hassociations, Store.balanceInputs]
  cases s.tokenAssociations account changeEnd with
  | error e => rfl
  | ok associations => rfl

theorem amounts_withoutErrata (inputs : BalanceInputs) :
    inputs.withoutErrata.amounts = inputs.amounts := by
  rw [BalanceInputs.amounts, BalanceInputs.withoutErrata, sumHbarDeltas_settle,
    BalanceInputs.amounts]

end Reads

/-! ## Queries -/

/-- The store without the markers, and with its entities in another order. -/
def Store.settled (s : Store) (order : EntityOrder) : Store :=
  s.withoutErrata.reordered order

/-- In the other order every alias leads to the same entity. -/
def Store.AliasesAlike (s : Store) (order : EntityOrder) : Prop :=
  ∀ bytes, (s.reordered order).resolveAlias bytes = s.resolveAlias bytes

namespace Script

variable {s : Store} {order : EntityOrder}

theorem alike_genesis : Alike s (s.settled order) Eq genesis genesis := by
  refine .consult fun genesis? => ?_
  cases genesis? with
  | some genesis => exact alike_ok rfl
  | none =>
    exact alike_bind_eq (alike_find rfl) fun _ => alike_bind_eq (alike_find rfl) fun _ =>
      alike_bind_eq (alike_done _) fun genesis => .memoize genesis (alike_ok rfl)

theorem alike_blockFrom (genesis : Block) (file : RecordFile) :
    Alike s (s.settled order) Eq (blockFrom genesis file) (blockFrom genesis file) := by
  unfold blockFrom
  split
  · exact alike_done _
  · exact alike_done _

theorem alike_blockByIndex (index : Int64) :
    Alike s (s.settled order) Eq (blockByIndex index) (blockByIndex index) := by
  unfold blockByIndex
  split
  · exact alike_done _
  · refine alike_bind_eq alike_genesis fun genesis => ?_
    split
    · exact alike_done _
    · exact alike_bind_eq (alike_find rfl) fun _ => alike_done _

theorem alike_block (selector : BlockSelector) :
    Alike s (s.settled order) Eq (block selector) (block selector) := by
  cases selector with
  | index index => exact alike_blockByIndex index
  | hash hash =>
    exact alike_bind_eq (alike_done _) fun _ => alike_bind_eq alike_genesis fun genesis =>
      alike_bind_eq (alike_find rfl) fun file => alike_blockFrom genesis file
  | indexAndHash index hash =>
    refine alike_bind_eq (alike_done _) fun _ =>
      alike_bind_eq (alike_blockByIndex index) fun _ => ?_
    split
    · exact alike_done _
    · exact alike_done _
  | latest =>
    exact alike_bind_eq alike_genesis fun genesis =>
      alike_bind_eq (alike_find rfl) fun file => alike_blockFrom genesis file
  | genesis => exact alike_genesis

theorem alike_addressBook (file fallback : EntityId) :
    Alike s (s.settled order) Eq (addressBook file fallback) (addressBook file fallback) := by
  refine alike_bind_eq (alike_ask rfl) fun rows => ?_
  split
  · exact alike_bind_eq (alike_ask rfl) fun _ => alike_done _
  · exact alike_done _

theorem alike_account (haliases : s.AliasesAlike order) (selector : AccountSelector) :
    Alike s (s.settled order) Eq (account selector) (account selector) := by
  cases selector with
  | byId id =>
    exact alike_bind_eq (alike_find rfl) fun _ => alike_bind_eq (alike_ask rfl) fun _ =>
      alike_ok rfl
  | byAlias bytes =>
    refine alike_bind_eq (alike_askChecked (haliases bytes).symm) fun id? => ?_
    cases id? with
    | none => exact alike_ok rfl
    | some id => exact alike_bind_eq (alike_ask rfl) fun _ => alike_ok rfl

theorem alike_entityBalance (id : EntityId) (entity? : Option Entity) (stop : Int64) :
    Alike s (s.settled order) Eq (entityBalance id entity? stop) (entityBalance id entity? stop) := by
  refine alike_bind_eq (alike_done _) fun window => alike_bind_eq (alike_find rfl) fun snapshot =>
    alike_bind (R := fun inputs inputs' => inputs' = inputs.withoutErrata) (.wait _ ?_) ?_
  · have hinputs : (s.settled order).balanceInputs id.encode snapshot window.changeEnd =
        BalanceInputs.withoutErrata <$> s.balanceInputs id.encode snapshot window.changeEnd :=
      balanceInputs_withoutErrata (s := s) id.encode snapshot window.changeEnd
    dsimp only
    rw [hinputs]
    cases s.balanceInputs id.encode snapshot window.changeEnd with
    | error e => exact .done (.failure _)
    | ok inputs => exact alike_ok rfl
  · rintro inputs _ rfl
    rw [amounts_withoutErrata]
    exact alike_done _

theorem alike_balance (haliases : s.AliasesAlike order) (selector : AccountSelector)
    (stop : Int64) :
    Alike s (s.settled order) Eq (balance selector stop) (balance selector stop) := by
  refine alike_bind_eq (alike_account haliases selector) fun (account, entity?) => ?_
  dsimp only
  cases account.entityId? with
  | none => exact alike_ok rfl
  | some id => exact alike_bind_eq (alike_entityBalance id entity? stop) fun _ => alike_ok rfl

theorem alike_correct (rows : List TransactionRow) :
    Alike s (s.settled order) (fun rows rows' => rows' = rows.map TransactionRow.withoutErrata)
      (correct rows) (correct (rows.map TransactionRow.withoutErrata)) := by
  have htimestamps : ((rows.map TransactionRow.withoutErrata).filter
      TransactionRow.needsCorrection).map TransactionRow.consensusTimestamp =
        (rows.filter TransactionRow.needsCorrection).map TransactionRow.consensusTimestamp := by
    rw [List.filter_map, List.map_map]
    rfl
  unfold correct
  dsimp only
  rw [htimestamps]
  split
  · exact alike_ok rfl
  · refine alike_bind_eq (alike_ask (historicalTransfers_withoutErrata _).symm) fun corrections =>
      .count _ (alike_ok ?_)
    exact applyCorrections_withoutErrata rows corrections

theorem alike_scan (batch : Nat) (stop cursor : Int64) (gathered : List TransactionRow) :
    Alike s (s.settled order) (fun rows rows' => rows' = rows.map TransactionRow.withoutErrata)
      (scan batch stop cursor gathered)
      (scan batch stop cursor (gathered.map TransactionRow.withoutErrata)) := by
  rw [scan_eq, scan_eq]
  have hpage : (s.settled order).transactionsInRange cursor stop batch =
      (s.transactionsInRange cursor stop batch).map TransactionRow.withoutErrata :=
    transactionsInRange_withoutErrata (s := s) cursor stop batch
  -- a page is full, and ends at the same time, with or without the markers
  refine .wait _ (.count _ ?_)
  rw [hpage]
  refine alike_bind (alike_correct _) ?_
  rintro corrected _ rfl
  rw [pageEnd?_withoutErrata, ← List.map_append]
  cases hend : pageEnd? (s.transactionsInRange cursor stop batch) batch stop with
  | none => exact alike_ok rfl
  | some last =>
    cases hnext : (addChecked last 1 : Outcome LedgerError Int64) with
    | error e =>
      simp only [hnext]
      exact .done (.failure e)
    | ok next =>
      simp only [hnext]
      exact alike_scan batch stop next _
termination_by (stop.toInt - cursor.toInt).toNat
decreasing_by exact remaining_lt hend hnext

theorem alike_transactions (a : Assembler) (batch : Nat) (start stop : Int64) :
    Alike s (s.settled order) Eq (transactions a batch start stop)
      (transactions a batch start stop) := by
  refine alike_bind_eq (alike_done _) fun _ => alike_bind (alike_scan batch stop start []) ?_
  rintro rows _ rfl
  rw [assemble_withoutErrata]
  exact alike_done _

theorem alike_transactionByHash (a : Assembler) (hash : String) (start stop : Int64) :
    Alike s (s.settled order) Eq (transactionByHash a hash start stop)
      (transactionByHash a hash start stop) := by
  have hrows : ∀ bytes, (s.settled order).transactionsByHash bytes start stop =
      (s.transactionsByHash bytes start stop).map TransactionRow.withoutErrata :=
    fun bytes => transactionsByHash_withoutErrata (s := s) bytes start stop
  refine alike_bind_eq (alike_done _) fun bytes => alike_bind_eq (alike_done _) fun _ =>
    alike_bind (R := fun rows rows' => rows' = rows.map TransactionRow.withoutErrata)
      (alike_ask (hrows bytes)) ?_
  rintro rows _ rfl
  simp only [List.map_eq_nil_iff]
  split
  · exact alike_done _
  · refine alike_bind (alike_correct rows) ?_
    rintro corrected _ rfl
    rw [assemble_withoutErrata]
    exact alike_bind_eq (alike_done _) fun _ => alike_done _

end Script

theorem alike_script_settled {s : Store} (order : EntityOrder) (haliases : s.AliasesAlike order)
    (settings : Settings) (query : Query) :
    Script.Alike s (s.settled order) Eq (settings.script query) (settings.script query) := by
  cases query with
  | resolveBlock selector =>
    exact Script.alike_bind_eq (Script.alike_block selector) fun _ => Script.alike_ok rfl
  | balance account stop =>
    exact Script.alike_bind_eq (Script.alike_balance haliases account stop) fun _ => Script.alike_ok rfl
  | balanceAtBlock account selector =>
    exact Script.alike_bind_eq (Script.alike_block selector) fun block =>
      Script.alike_bind_eq (Script.alike_balance haliases account block.consensusEnd) fun _ =>
        Script.alike_ok rfl
  | transactions start stop =>
    exact Script.alike_bind_eq (Script.alike_transactions _ _ start stop) fun _ =>
      Script.alike_ok rfl
  | transactionByHash hash start stop =>
    exact Script.alike_bind_eq (Script.alike_transactionByHash _ hash start stop) fun _ =>
      Script.alike_ok rfl
  | blockTransactions selector =>
    exact Script.alike_bind_eq (Script.alike_block selector) fun block =>
      Script.alike_bind_eq
        (Script.alike_transactions _ _ block.consensusStart block.consensusEnd) fun _ =>
          Script.alike_ok rfl
  | addressBook =>
    exact Script.alike_bind_eq (Script.alike_addressBook _ _) fun _ => Script.alike_ok rfl

/-! ## Runs -/

namespace Node

theorem ask_withoutErrata (n : Node) (context : RequestContext) (query : Query) :
    n.withoutErrata.ask context query =
      ((n.ask context query).1, (n.ask context query).2.withoutErrata) :=
  ask_of_alike (alike_script_settled n.store.order (fun _ => rfl) n.settings query) rfl context

/-- The same event, with an unmarked transaction if it brings one. -/
def Event.withoutErrata : Event → Event
  | .ingest (.transaction row) => .ingest (.transaction row.withoutErrata)
  | event => event

theorem step_withoutErrata (n : Node) (event : Event) :
    n.withoutErrata.step event.withoutErrata = (n.step event).withoutErrata := by
  cases event with
  | ingest record =>
    cases record with
    | transaction row =>
      have hinsert : n.store.withoutErrata.insertTransaction row.withoutErrata =
          (n.store.insertTransaction row).withoutErrata := by
        simp only [Store.insertTransaction, Store.withoutErrata, Timeline.map_insert]
      exact congrArg (fun store => { n with store }) hinsert
    | deleteToken tokenId =>
      have hdelete : n.store.withoutErrata.deleteToken tokenId.encode =
          (n.store.deleteToken tokenId.encode).withoutErrata := by
        -- only a token that is known is marked, which it is without errata as well
        have htokens : n.store.withoutErrata.tokens = n.store.tokens := rfl
        rw [Store.deleteToken, Store.deleteToken, htokens]
        cases n.store.tokens.get? tokenId.encode with
        | none => rfl
        | some state => rfl
      exact congrArg (fun store => { n with store }) hdelete
    | _ => rfl
  | ask context query => exact congrArg Prod.snd (ask_withoutErrata n context query)
  | _ => rfl

/-- A node that never sees a marker is at any time what it is with the markers, without them. -/
theorem run_withoutErrata (n : Node) (events : List Event) :
    n.withoutErrata.run (events.map Event.withoutErrata) = (n.run events).withoutErrata := by
  induction events generalizing n with
  | nil => rfl
  | cons event events ih =>
    have hstep := step_withoutErrata n event
    show (n.withoutErrata.step event.withoutErrata).run _ =
      ((n.step event).run events).withoutErrata
    rw [hstep, ih]

end Node

/-- Without the movements that were retracted, and with no mark on those that were added later,
every query is answered as before. A retracted movement adds to no balance and to no fee, changes
the order of no fees, and keeps no itemized transfer. -/
theorem answer_withoutErrata :
    (∀ (n : Node) (context : RequestContext) (query : Query),
      (n.withoutErrata.ask context query).1 = (n.ask context query).1) ∧
    (∀ transfers : List CryptoTransfer,
      (sumHbarDeltas (CryptoTransfer.settle transfers) : Outcome LedgerError Int64) =
        sumHbarDeltas transfers) ∧
    ∀ row : TransactionRow,
      (∀ explained, (row.withoutErrata.fees explained : Outcome LedgerError _) =
        row.fees explained) ∧
      ∀ a : Assembler, a.nonFeeTransfers row.withoutErrata = a.nonFeeTransfers row := by
  refine ⟨fun n context query => ?_, sumHbarDeltas_settle, fun row => ?_⟩
  · rw [Node.ask_withoutErrata]
  · exact ⟨fees_withoutErrata row, nonFeeTransfers_withoutErrata row⟩

end LedgerView
