import Mathlib
import LedgerView.Proofs.Balance.Token
import LedgerView.Proofs.Timeline
/-!
# Which tokens a balance shows

The tokens of a balance, told from the records as they were ingested: an association is shown with
what the snapshot holds and what moved since, a dissociation after the snapshot with an explicit
zero, and a dissociation before that not at all (`tokens_of_balance`). Of two events at one time the
one that was ingested last counts.
-/

namespace LedgerView

/-! ## Events as they were ingested -/

/-- The event that a record adds to an account and a token. -/
def Ingestion.event? (account token : EntityId) : Ingestion → Option AssociationEvent
  | .association a t associated timestamp =>
    if a = account ∧ t = token then some ⟨timestamp, associated⟩ else none
  | _ => none

section Events

variable {account token : EntityId}

theorem associationEvents_ingest (s : Store) (record : Ingestion) :
    (s.ingest record).associationEvents account.encode token.encode =
      (record.event? account token).toList.foldl Timeline.insert
        (s.associationEvents account.encode token.encode) := by
  cases record with
  | association a t associated timestamp =>
    simp only [Store.associationEvents, Store.ingest, Store.insertAssociation, Table.alter,
      Table.get?_insert, Ingestion.event?, encode_inj]
    by_cases haccount : account = a
    · subst haccount
      by_cases htoken : token = t
      · subst htoken
        simp
      · simp [htoken, Ne.symm htoken, encode_inj]
    · simp [haccount, Ne.symm haccount]
  | deleteToken t =>
    rw [Store.ingest, Store.deleteToken_eq]
    rfl
  | _ => rfl

theorem associationEvents_ingestAll (s : Store) (records : List Ingestion) :
    (s.ingestAll records).associationEvents account.encode token.encode =
      (records.filterMap (Ingestion.event? account token)).foldl Timeline.insert
        (s.associationEvents account.encode token.encode) :=
  Timeline.foldl_of_step (fun s => s.associationEvents account.encode token.encode)
    associationEvents_ingest s records

theorem latest?_associationEvents {order : EntityOrder} {records : List Ingestion} {bound : Int64}
    {event : AssociationEvent} :
    ((Store.ingestAll { order } records).associationEvents account.encode token.encode).latest?
        bound = some event ↔
      Timeline.IsLatest (records.filterMap (Ingestion.event? account token)) bound event := by
  rw [associationEvents_ingestAll, Timeline.latest?_foldl_insert]
  rfl

end Events

/-! ## Balances -/

/-- The snapshot that a balance starts from: the latest one up to the time that was asked for at
which the entity is alive. -/
structure Store.IsBase (s : Store) (e : Entity) (stop snapshot : Int64) : Prop where
  taken : snapshot ∈ s.snapshots.keys
  within : snapshot ≤ stop
  alive : e.AliveAt snapshot
  greatest : ∀ other ∈ s.snapshots.keys, other ≤ stop → e.AliveAt other → other ≤ snapshot

section Balance

variable {s : Store} {selector : AccountSelector} {id : EntityId} {e : Entity}

theorem isBase_of_latestSnapshot {ε : Type} {stop snapshot : Int64} {window : BalanceWindow}
    (hwindow : (BalanceWindow.of (some e) stop : Outcome ε _) = .ok window)
    (h : s.latestSnapshot? window.snapshotEnd = some snapshot) : s.IsBase e stop snapshot := by
  obtain ⟨htaken, hle⟩ := mem_keys_of_latestSnapshot h
  obtain ⟨-, -, halive⟩ := window_of_entity hwindow
  have halive' : e.AliveAt snapshot := fun deletedAt hdeleted =>
    Int64.lt_of_le_of_lt hle (halive deletedAt hdeleted)
  refine ⟨htaken, Int64.le_trans hle (le_of_window hwindow).2, halive', ?_⟩
  intro other hother hwithin hotherAlive
  refine Table.le_of_latestKey? h other hother ?_
  rcases window_eq_ok_iff.1 hwindow with
    ⟨-, rfl⟩ | ⟨_, ⟨⟩, deletedAt, hdeleted, -, -, hbefore⟩
  · exact hwithin
  · have hlt := hotherAlive deletedAt hdeleted
    rw [Int64.lt_iff_toInt_lt] at hlt
    rw [Int64.le_iff_toInt_le]
    omega

/-- Behind the hbar a balance has the tokens by ascending id, each of them once. They are those that
the account was associated with last, or was dissociated from after the snapshot, and what is shown
of each is told from its latest event. -/
theorem tokens_of_balance {order : EntityOrder} {records : List Ingestion} {settings : Settings}
    {stop : Int64} {b : AccountBalance} (hs : s = Store.ingestAll { order } records)
    (hnames : s.Names selector id) (hentity : s.entity? id.encode = some e)
    (h : s.Answers settings (.balance selector stop) (.balance b)) :
    ∃ (snapshot hbar : Int64) (entries : List TokenAmount),
      s.IsBase e stop snapshot ∧
      b.amounts = .hbar hbar :: entries.map Amount.token ∧
      entries.Pairwise (fun x y => x.tokenId < y.tokenId) ∧
      (∀ token, (∃ entry ∈ entries, entry.tokenId = token) ↔
        ∃ event,
          Timeline.IsLatest (records.filterMap (Ingestion.event? id token)) (e.pin stop) event ∧
          (event.associated = true ∨ snapshot < event.timestamp)) ∧
      (∀ entry ∈ entries, ∃ event state,
        Timeline.IsLatest (records.filterMap (Ingestion.event? id entry.tokenId)) (e.pin stop)
          event ∧
        s.AccountsFor id.encode snapshot (e.pin stop) event state entry) ∧
      ∀ token event,
        Timeline.IsLatest (records.filterMap (Ingestion.event? id token)) (e.pin stop) event →
        event.associated = false → event.timestamp ≤ snapshot →
          ∀ entry ∈ entries, entry.tokenId ≠ token := by
  obtain ⟨window, snapshot, hbar, entries, hwindow, hsnapshot, hamounts, hascending, hfrom,
    hcounted⟩ := entries_of_balance hnames h
  rw [hentity] at hwindow
  rw [(window_of_entity hwindow).1] at hfrom hcounted
  subst hs
  simp only [latest?_associationEvents] at hfrom hcounted
  refine ⟨snapshot, hbar, entries, isBase_of_latestSnapshot hwindow hsnapshot, hamounts,
    hascending, fun token => ⟨?_, ?_⟩, ?_, ?_⟩
  · rintro ⟨entry, hentry, rfl⟩
    obtain ⟨event, -, hlatest, hcounts, -⟩ := hfrom entry hentry
    exact ⟨event, hlatest, hcounts⟩
  · rintro ⟨event, hlatest, hcounts⟩
    exact hcounted token event hlatest hcounts
  · intro entry hentry
    obtain ⟨event, state, hlatest, -, haccounts⟩ := hfrom entry hentry
    exact ⟨event, state, hlatest, haccounts⟩
  · rintro _ event hlatest hdissociated hbefore entry hentry rfl
    obtain ⟨event', -, hlatest', hcounts, -⟩ := hfrom entry hentry
    cases Timeline.isLatest_unique hlatest hlatest'
    rcases hcounts with hassociated | hlater
    · rw [hdissociated] at hassociated
      cases hassociated
    · exact Int64.not_le.2 hlater hbefore

end Balance

/-- Account 1001 was deleted at 50. Of its tokens 2001 is fungible and 2005 is not. It gave 2002 up
after the snapshot at 20 and 2003 before it; of 2004 it was dissociated and associated at one time.
Token 2006 it was associated with after its deletion. -/
private def mixedRecords : List Ingestion :=
  let row : TransactionRow :=
    { consensusTimestamp := 30, hash := [1], transactionType := 14, result := 22, payer := 98,
      entity? := none, memo := [], cryptoTransfers := [], itemizedTransfers := [],
      tokenTransfers := [⟨1001, 2001, 7, 2, .fungibleCommon⟩, ⟨1001, 2002, -4, 0, .fungibleCommon⟩],
      nftTransfers := [⟨none, some 1001, 1, 2005⟩, ⟨none, some 1001, 2, 2005⟩],
      stakingRewards := [], token? := none }
  [.entity ⟨1001, none, some 50⟩,
    .token ⟨2001, 2, .fungibleCommon, false, 0⟩,
    .token ⟨2002, 0, .fungibleCommon, false, 0⟩,
    .token ⟨2003, 0, .fungibleCommon, false, 0⟩,
    .token ⟨2004, 1, .fungibleCommon, false, 0⟩,
    .token ⟨2005, 0, .nonFungibleUnique, false, 0⟩,
    .token ⟨2006, 0, .fungibleCommon, false, 0⟩,
    .association (.numbered 1001) (.numbered 2003) false 18,
    .association (.numbered 1001) (.numbered 2001) true 10,
    .association (.numbered 1001) (.numbered 2002) false 30,
    .association (.numbered 1001) (.numbered 2002) true 10,
    .association (.numbered 1001) (.numbered 2003) true 10,
    .association (.numbered 1001) (.numbered 2004) false 12,
    .association (.numbered 1001) (.numbered 2004) true 12,
    .association (.numbered 1001) (.numbered 2005) true 10,
    .association (.numbered 1001) (.numbered 2006) true 55,
    .hbarBalance 20 (.numbered 1001) 100,
    .tokenBalance 20 (.numbered 1001) (.numbered 2001) 5,
    .tokenBalance 20 (.numbered 1001) (.numbered 2002) 4,
    .tokenBalance 20 (.numbered 1001) (.numbered 2003) 9,
    .tokenBalance 50 (.numbered 1001) (.numbered 2001) 999,
    .transaction row,
    .transaction {
      row with
      consensusTimestamp := 40, tokenTransfers := [],
      nftTransfers := [⟨some 1001, none, 1, 2005⟩] },
    .transaction { row with consensusTimestamp := 55, nftTransfers := [] }]

private def mixedEntry (token : EntityId) (decimals : UInt32) (tokenType : TokenType)
    (value : Int64) : TokenAmount :=
  { tokenId := token, decimals, tokenType, value, serialNumbers := [] }

private def mixedEntries : List TokenAmount := [
  mixedEntry (.numbered 2001) 2 .fungibleCommon 12,
  mixedEntry (.numbered 2002) 0 .fungibleCommon 0,
  mixedEntry (.numbered 2004) 1 .fungibleCommon 0,
  mixedEntry (.numbered 2005) 0 .nonFungibleUnique 1]

theorem tokens_of_balance_mixed :
    (Store.ingestAll {} mixedRecords).Answers ⟨.standard, .standard⟩
        (.balance (.byId (.numbered 1001)) 60)
        (.balance ⟨"0.0.1001", none, .hbar 100 :: mixedEntries.map Amount.token⟩) ∧
      mixedEntries.Pairwise (fun x y => x.tokenId < y.tokenId) ∧
      ∀ entry ∈ mixedEntries, entry.tokenId ≠ .numbered 2003 := by
  have hanswer : (Store.ingestAll {} mixedRecords).Answers ⟨.standard, .standard⟩
      (.balance (.byId (.numbered 1001)) 60)
      (.balance ⟨"0.0.1001", none, .hbar 100 :: mixedEntries.map Amount.token⟩) :=
    ⟨{ store := Store.ingestAll {} mixedRecords }, .background, rfl, rfl, by cbv⟩
  obtain ⟨snapshot, hbar, entries, hbase, hamounts, hascending, -, -, hnever⟩ :=
    @tokens_of_balance _ (.byId (.numbered 1001)) (.numbered 1001) ⟨1001, none, some 50⟩
      .ascending mixedRecords _ _ _ rfl rfl (by decide) hanswer
  obtain ⟨-, hentries⟩ := List.cons.inj hamounts
  obtain rfl := List.map_injective_iff.2 (fun _ _ => Amount.token.inj) hentries
  have hgiven : Timeline.IsLatest
      (mixedRecords.filterMap (Ingestion.event? (.numbered 1001) (.numbered 2003)))
      (Entity.pin ⟨1001, none, some 50⟩ 60) ⟨18, false⟩ :=
    ⟨by decide, by decide, by decide⟩
  have hbefore : (18 : Int64) ≤ snapshot :=
    Int64.le_trans (by decide)
      (hbase.greatest 20 (by decide) (by decide) (by decide))
  exact ⟨hanswer, hascending, hnever _ _ hgiven rfl hbefore⟩

end LedgerView
