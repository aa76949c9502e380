import Mathlib
import LedgerView.Proofs.EntityId
import LedgerView.Proofs.EntityOrder
import LedgerView.Proofs.Errata
import LedgerView.Proofs.Table
import LedgerView.Proofs.Timeline
/-!
# Records in any order

Two records that have no key in common may enter the store in either order (`ingest_comm`), so
records with distinct keys leave behind the same store in whatever order they come
(`ingestAll_perm`), and every query is answered from it alike, in whatever order the entities are
gone through (`answer_of_perm`).
-/

namespace LedgerView

/-- What at most one of the records of a ledger tells of. -/
inductive Ingestion.Key where
  | recordFile (index : Int64)
  | hbarBalance (timestamp : Int64) (account : EntityId)
  | tokenBalance (timestamp : Int64) (account token : EntityId)
  | entity (id : Int64)
  | entityAlias (bytes : Bytes)
  | token (id : Int64)
  | association (account token : EntityId) (timestamp : Int64)
  | transaction (timestamp : Int64)
  | addressBook (file : EntityId) (timestamp : Int64)
  deriving DecidableEq, Repr

/-- An entity is known by its id and by its alias, if it has one. That a snapshot was taken may be
told any number of times. -/
def Ingestion.keys : Ingestion → List Ingestion.Key
  | .recordFile file => [.recordFile file.index]
  | .snapshot _ => []
  | .hbarBalance timestamp account _ => [.hbarBalance timestamp account]
  | .tokenBalance timestamp account tokenId _ => [.tokenBalance timestamp account tokenId]
  | .entity row => .entity row.id :: row.alias?.toList.map .entityAlias
  | .token definition => [.token definition.token]
  | .deleteToken _ => []
  | .association account tokenId _ timestamp => [.association account tokenId timestamp]
  | .transaction row => [.transaction row.consensusTimestamp]
  | .addressBook file timestamp _ => [.addressBook file timestamp]

/-- The record marks a token deleted, which it does only if the token is known by then. -/
def Ingestion.DeletesToken : Ingestion → Prop
  | .deleteToken _ => True
  | _ => False

instance : DecidablePred Ingestion.DeletesToken
  | .deleteToken _ => isTrue trivial
  | .recordFile _ | .snapshot _ | .hbarBalance .. | .tokenBalance .. | .entity _ | .token _
  | .association .. | .transaction _ | .addressBook .. => isFalse id

/-- No two of the records have a key in common, and none deletes a token. -/
structure DistinctRecords (records : List Ingestion) : Prop where
  keys : (records.flatMap Ingestion.keys).Nodup
  kept : ∀ record ∈ records, ¬record.DeletesToken

instance (records : List Ingestion) : Decidable (DistinctRecords records) :=
  decidable_of_iff ((records.flatMap Ingestion.keys).Nodup ∧
    ∀ record ∈ records, ¬record.DeletesToken) ⟨fun h => ⟨h.1, h.2⟩, fun h => ⟨h.1, h.2⟩⟩

/-- The tables that records go to. -/
inductive Ingestion.Place where
  | recordFiles
  | snapshots
  | entities
  | tokens
  | associations
  | transactions
  | addressBooks

def Ingestion.place : Ingestion → Ingestion.Place
  | .recordFile _ => .recordFiles
  | .snapshot _ | .hbarBalance .. | .tokenBalance .. => .snapshots
  | .entity _ => .entities
  | .token _ | .deleteToken _ => .tokens
  | .association .. => .associations
  | .transaction _ => .transactions
  | .addressBook .. => .addressBooks

/-! ## Two records -/

section Two

variable {s : Store} {a b : Ingestion}

theorem alterSnapshot_comm {timestamp timestamp' : Int64} {f f' : Snapshot → Snapshot}
    (h : timestamp = timestamp' → ∀ snapshot, f' (f snapshot) = f (f' snapshot)) :
    (s.alterSnapshot timestamp f).alterSnapshot timestamp' f' =
      (s.alterSnapshot timestamp' f').alterSnapshot timestamp f := by
  simp only [Store.alterSnapshot]
  rw [Table.alter_comm]
  intro heq snapshot?
  exact h heq _

theorem ingest_comm_of_snapshots (hkeys : a.keys.Disjoint b.keys) (ha : a.place = .snapshots)
    (hb : b.place = .snapshots) : (s.ingest a).ingest b = (s.ingest b).ingest a := by
  cases a with
  | snapshot timestamp =>
    cases b with
    | snapshot | hbarBalance | tokenBalance =>
      simp only [Store.ingest, Store.insertHbarBalance, Store.insertTokenBalance]
      exact alterSnapshot_comm fun _ _ => rfl
    | _ => cases hb
  | hbarBalance timestamp account balance =>
    cases b with
    | snapshot | tokenBalance =>
      simp only [Store.ingest, Store.insertHbarBalance, Store.insertTokenBalance]
      exact alterSnapshot_comm fun _ _ => rfl
    | hbarBalance timestamp' account' balance' =>
      simp only [Store.ingest, Store.insertHbarBalance]
      refine alterSnapshot_comm fun htimestamp snapshot => ?_
      have haccount : account.encode ≠ account'.encode := by
        intro heq
        cases encode_inj.1 heq
        cases htimestamp
        exact hkeys List.mem_cons_self List.mem_cons_self
      dsimp only
      rw [Table.insert_comm haccount]
    | _ => cases hb
  | tokenBalance timestamp account token balance =>
    cases b with
    | snapshot | hbarBalance =>
      simp only [Store.ingest, Store.insertHbarBalance, Store.insertTokenBalance]
      exact alterSnapshot_comm fun _ _ => rfl
    | tokenBalance timestamp' account' token' balance' =>
      simp only [Store.ingest, Store.insertTokenBalance]
      refine alterSnapshot_comm fun htimestamp snapshot => ?_
      dsimp only
      rw [Table.alter_comm]
      intro haccount balances?
      have htoken : token.encode ≠ token'.encode := by
        intro heq
        cases encode_inj.1 heq
        cases encode_inj.1 haccount
        cases htimestamp
        exact hkeys List.mem_cons_self List.mem_cons_self
      exact Table.insert_comm htoken
    | _ => cases hb
  | _ => cases ha

theorem ingest_comm_of_associations {account account' token token' : EntityId}
    {associated associated' : Bool} {timestamp timestamp' : Int64}
    (h : account = account' → token = token' → timestamp ≠ timestamp') :
    (s.ingest (.association account token associated timestamp)).ingest
        (.association account' token' associated' timestamp') =
      (s.ingest (.association account' token' associated' timestamp')).ingest
        (.association account token associated timestamp) := by
  simp only [Store.ingest, Store.insertAssociation]
  rw [Table.alter_comm]
  intro haccount tokens?
  simp only [Option.getD_some]
  rw [Table.alter_comm]
  intro htoken events?
  exact Timeline.insert_comm _ (h (encode_inj.1 haccount) (encode_inj.1 htoken))

theorem ingest_comm_of_addressBooks {file file' : EntityId} {timestamp timestamp' : Int64}
    {rows rows' : List EndpointRow} (h : file = file' → timestamp ≠ timestamp') :
    (s.ingest (.addressBook file timestamp rows)).ingest (.addressBook file' timestamp' rows') =
      (s.ingest (.addressBook file' timestamp' rows')).ingest
        (.addressBook file timestamp rows) := by
  simp only [Store.ingest, Store.insertAddressBook]
  rw [Table.alter_comm]
  intro hfile books?
  exact Table.insert_comm (h (encode_inj.1 hfile))

theorem ingest_comm_of_place_ne (ha : ¬a.DeletesToken) (hb : ¬b.DeletesToken)
    (h : a.place ≠ b.place) : (s.ingest a).ingest b = (s.ingest b).ingest a := by
  cases a with
  | deleteToken => exact absurd trivial ha
  | _ =>
    cases b with
    | deleteToken => exact absurd trivial hb
    | _ => first | exact absurd rfl h | rfl

theorem ingest_comm (hkeys : a.keys.Disjoint b.keys) (ha : ¬a.DeletesToken)
    (hb : ¬b.DeletesToken) : (s.ingest a).ingest b = (s.ingest b).ingest a := by
  by_cases hplace : a.place = b.place
  swap
  · exact ingest_comm_of_place_ne ha hb hplace
  -- the first key of the one is not the first key of the other
  have hhead : ∀ {key : Ingestion.Key}, a.keys.head? = some key → b.keys.head? ≠ some key :=
    fun hkey hkey' => hkeys (List.mem_of_head? hkey) (List.mem_of_head? hkey')
  cases a with
  | snapshot | hbarBalance | tokenBalance =>
    exact ingest_comm_of_snapshots hkeys rfl hplace.symm
  | deleteToken => exact absurd trivial ha
  | recordFile file =>
    cases b with
    | recordFile file' =>
      have hindex : file.index ≠ file'.index := by
        intro heq
        exact hhead rfl (congrArg (fun index => some (Ingestion.Key.recordFile index)) heq.symm)
      simp only [Store.ingest, Store.insertRecordFile, Table.insert_comm hindex]
    | _ => cases hplace
  | entity row =>
    cases b with
    | entity row' =>
      have hid : row.id ≠ row'.id := by
        intro heq
        exact hhead rfl (congrArg (fun id => some (Ingestion.Key.entity id)) heq.symm)
      simp only [Store.ingest, Store.insertEntity, Table.insert_comm hid]
    | _ => cases hplace
  | token definition =>
    cases b with
    | token definition' =>
      have htoken : definition.token ≠ definition'.token := by
        intro heq
        exact hhead rfl (congrArg (fun token => some (Ingestion.Key.token token)) heq.symm)
      simp only [Store.ingest, Store.insertToken, Table.insert_comm htoken]
    | deleteToken => exact absurd trivial hb
    | _ => cases hplace
  | association account token associated timestamp =>
    cases b with
    | association account' token' associated' timestamp' =>
      refine ingest_comm_of_associations fun haccount htoken htimestamp => ?_
      subst haccount htoken htimestamp
      exact hhead rfl rfl
    | _ => cases hplace
  | transaction row =>
    cases b with
    | transaction row' =>
      have htimestamp : timestamp row ≠ timestamp row' := by
        intro heq
        exact hhead rfl (congrArg (fun t => some (Ingestion.Key.transaction t)) heq.symm)
      simp only [Store.ingest, Store.insertTransaction, Timeline.insert_comm _ htimestamp]
    | _ => cases hplace
  | addressBook file timestamp rows =>
    cases b with
    | addressBook file' timestamp' rows' =>
      refine ingest_comm_of_addressBooks fun hfile htimestamp => ?_
      subst hfile htimestamp
      exact hhead rfl rfl
    | _ => cases hplace

end Two

/-! ## All records -/

section All

variable {records records' : List Ingestion}

theorem disjoint_of_distinct (h : DistinctRecords records) {a b : Ingestion} (ha : a ∈ records)
    (hb : b ∈ records) (hne : a ≠ b) : a.keys.Disjoint b.keys := by
  have hpairwise : records.Pairwise fun a b => a.keys.Disjoint b.keys :=
    (List.nodup_flatMap.1 h.keys).2
  have : Std.Symm fun a b : Ingestion => a.keys.Disjoint b.keys := ⟨fun _ _ h => h.symm⟩
  exact hpairwise.forall ha hb hne

theorem ingestAll_perm (hperm : records.Perm records') (h : DistinctRecords records) (s : Store) :
    s.ingestAll records = s.ingestAll records' := by
  refine hperm.foldl_eq' (fun a ha b hb s => ?_) s
  by_cases heq : a = b
  · rw [heq]
  · exact ingest_comm (disjoint_of_distinct h ha hb heq) (h.kept a ha) (h.kept b hb)

theorem entity_of_ingestAll {s : Store} {k : Int64} {row : Entity}
    (h : (s.ingestAll records).entities.get? k = some row) :
    s.entities.get? k = some row ∨ .entity row ∈ records ∧ row.id = k := by
  induction records generalizing s with
  | nil => exact .inl h
  | cons record records ih =>
    rcases ih h with hstored | ⟨hmem, hid⟩
    swap
    · exact .inr ⟨List.mem_cons_of_mem record hmem, hid⟩
    cases record with
    | entity other =>
      simp only [Store.ingest, Store.insertEntity, Table.get?_insert] at hstored
      split at hstored
      · next hid =>
        cases hstored
        exact .inr ⟨List.mem_cons_self, hid.symm⟩
      · exact .inl hstored
    | deleteToken token =>
      rw [Store.ingest, Store.deleteToken_eq] at hstored
      exact .inl hstored
    | _ => exact .inl hstored

theorem unshared_ingestAll (h : DistinctRecords records) {s : Store} (hnone : s.entities = ∅)
    (bytes : Bytes) : (s.ingestAll records).Unshared bytes := by
  have hrecord : ∀ e ∈ (s.ingestAll records).entities.entries,
      .entity e.2 ∈ records ∧ e.2.id = e.1 := by
    intro e he
    rcases entity_of_ingestAll (Table.mem_entries_iff.1 he) with hstored | hmem
    · rw [hnone] at hstored
      cases hstored
    · exact hmem
  intro e he e' he' hbytes hbytes'
  obtain ⟨hmem, hid⟩ := hrecord e he
  obtain ⟨hmem', hid'⟩ := hrecord e' he'
  by_cases hsame : e.2 = e'.2
  · rw [← hid, hsame, hid']
  · have hkey : ∀ {row : Entity}, row.alias? = some bytes →
        Ingestion.Key.entityAlias bytes ∈ (Ingestion.entity row).keys := by
      intro row hrow
      simp [Ingestion.keys, hrow]
    have hne : Ingestion.entity e.2 ≠ .entity e'.2 := fun heq => hsame (Ingestion.entity.inj heq)
    exact absurd (hkey hbytes') (disjoint_of_distinct h hmem hmem' hne (hkey hbytes))

end All

/-! ## Answers -/

section Answers

variable {records records' : List Ingestion}

/-- Where no two entities share an alias, no query tells in which order they come. Over the one
order and over the other it is answered as over the store without its errata. -/
theorem answer_reordered {n : Node} (h : ∀ bytes, n.store.Unshared bytes) (order : EntityOrder)
    (context : RequestContext) (query : Query) :
    ((n.reordered order).ask context query).1 = (n.ask context query).1 := by
  have haliases : n.store.AliasesAlike order := by
    intro bytes
    rw [Store.resolveAlias, entityOfAlias?_reordered (h bytes), Store.resolveAlias]
  have hask := Node.ask_of_alike (alike_script_settled order haliases n.settings query) rfl context
  calc ((n.reordered order).ask context query).1
      = ((n.reordered order).withoutErrata.ask context query).1 := by
        rw [Node.ask_withoutErrata]
    _ = (n.ask context query).1 := congrArg (fun answered => answered.1) hask

/-- Records with distinct keys may come in any order: whatever happens after them, every query is
answered alike. If there were no entities before, the order in which those of the records are gone
through makes no difference either. -/
theorem answer_of_perm (hperm : records.Perm records') (h : DistinctRecords records)
    (start : Node) :
    (∀ events context query,
      ((start.run (records.map .ingest ++ events)).ask context query).1 =
        ((start.run (records'.map .ingest ++ events)).ask context query).1) ∧
    (start.store.entities = ∅ → ∀ order order' context query,
      (((start.run (records.map .ingest)).reordered order).ask context query).1 =
        (((start.run (records'.map .ingest)).reordered order').ask context query).1) := by
  have hrun : start.run (records.map .ingest) = start.run (records'.map .ingest) := by
    rw [Node.run_map_ingest, Node.run_map_ingest, ingestAll_perm hperm h]
  constructor
  · intro events context query
    rw [Node.run_append, Node.run_append, hrun]
  · intro hnone order order' context query
    have hunshared : ∀ bytes, (start.run (records.map .ingest)).store.Unshared bytes := by
      rw [Node.run_map_ingest]
      exact unshared_ingestAll h hnone
    rw [← hrun, answer_reordered hunshared, answer_reordered hunshared]

end Answers

/-- An account is associated with a token, dissociated and associated again. -/
private def scatteredRecords : List Ingestion :=
  let row : TransactionRow :=
    { consensusTimestamp := 40, hash := [1], transactionType := 14, result := 22, payer := 1002,
      entity? := none, memo := [], cryptoTransfers := [⟨1002, -9, none⟩, ⟨1001, 7, none⟩],
      itemizedTransfers := [], tokenTransfers := [⟨1001, 2000, 3, 0, .fungibleCommon⟩],
      nftTransfers := [], stakingRewards := [], token? := none }
  [.snapshot 10,
    .recordFile ⟨1, "ab12", "00", 5, 50⟩,
    .recordFile ⟨2, "cd34", "ab12", 51, 90⟩,
    .hbarBalance 10 (.numbered 1001) 100,
    .hbarBalance 10 (.numbered 1002) 50,
    .tokenBalance 10 (.numbered 1001) (.numbered 2000) 4,
    .snapshot 10,
    .entity ⟨1001, some [0xa1], none⟩,
    .entity ⟨1002, none, none⟩,
    .token ⟨2000, 0, .fungibleCommon, false, 100⟩,
    .association (.numbered 1001) (.numbered 2000) true 8,
    .association (.numbered 1001) (.numbered 2000) false 20,
    .association (.numbered 1001) (.numbered 2000) true 30,
    .transaction row,
    .transaction { row with consensusTimestamp := 60, hash := [2] },
    .transaction { row with consensusTimestamp := 50, hash := [3] },
    .addressBook (.numbered 101) 10 []]

private def scatteredBalance : Answer :=
  .balanceAtBlock ⟨2, "0xcd34", 1, "0xab12", 51, 90⟩
    ⟨"0.0.1001", some "0xa1", [.hbar 121, .token {
      tokenId := .numbered 2000, decimals := 0, tokenType := .fungibleCommon, value := 13,
      serialNumbers := [] }]⟩

theorem answer_of_perm_reversed :
    DistinctRecords scatteredRecords ∧
      ((({} : Node).run (scatteredRecords.reverse.map .ingest ++ [.delay 20])).ask .background
          (.balanceAtBlock (.byAlias [0xa1]) .latest)).1 = .ok scatteredBalance ∧
      ∀ order, (((({} : Node).run (scatteredRecords.reverse.map .ingest)).reordered order).ask
          .background (.balanceAtBlock (.byAlias [0xa1]) .latest)).1 = .ok scatteredBalance := by
  have hdistinct : DistinctRecords scatteredRecords := by decide +kernel
  obtain ⟨halike, hreordered⟩ :=
    answer_of_perm (List.reverse_perm scatteredRecords).symm hdistinct {}
  refine ⟨hdistinct, ?_, fun order => ?_⟩
  · rw [← halike]
    decide +kernel
  · rw [← hreordered rfl .ascending order]
    decide +kernel

end LedgerView
