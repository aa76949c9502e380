import Mathlib
import LedgerView.Proofs.EntityOrder
import LedgerView.Proofs.Timeline
/-!
# Adding to the store

A record that only tells of what came after a time `T` leaves alone whatever the store knows of
the time up to `T` (`extends_ingest`). Reads that stay within that time bring the same from a store
and from every store that extends it.
-/

namespace LedgerView

/-! ## Additions -/

/-- The row is that of a known entity again, with a deletion after `T` at most added to it. -/
def Entity.Continues (T : Int64) (known row : Entity) : Prop :=
  row.id = known.id ∧ row.alias? = known.alias? ∧
    (row.deletedAt? = known.deletedAt? ∨
      known.deletedAt? = none ∧ ∀ deletedAt ∈ row.deletedAt?, T < deletedAt)

instance Entity.decidableContinues (T : Int64) (known row : Entity) :
    Decidable (known.Continues T row) :=
  -- not by going through all words
  have : Decidable (∀ deletedAt ∈ row.deletedAt?, T < deletedAt) := Option.decidableForallMem _
  inferInstanceAs (Decidable (_ ∧ _ ∧ (_ ∨ _ ∧ _)))

/-- The row continues a known entity, or it is of a new one without an alias or under a new one. -/
def Store.AppendsEntity (s : Store) (T : Int64) (row : Entity) : Prop :=
  match s.entities.get? row.id with
  | some known => known.Continues T row
  | none => row.alias? = none ∨ ∀ known ∈ s.entities.values, known.alias? ≠ row.alias?

instance (s : Store) (T : Int64) (row : Entity) : Decidable (s.AppendsEntity T row) := by
  unfold Store.AppendsEntity
  split <;> infer_instance

/-- The record only adds what came after `T`, or what is new altogether. -/
def Store.Appends (s : Store) (T : Int64) : Ingestion → Prop
  | .recordFile file => ∀ index ∈ s.recordFiles.keys, index < file.index
  | .snapshot timestamp => T < timestamp
  | .hbarBalance timestamp _ _ => T < timestamp
  | .tokenBalance timestamp _ _ _ => T < timestamp
  | .entity row => s.AppendsEntity T row
  | .token definition => s.tokens.get? definition.token = none
  | .deleteToken _ => False
  | .association _ _ _ timestamp => T < timestamp
  | .transaction row => T < row.consensusTimestamp
  | .addressBook .. => True

instance (s : Store) (T : Int64) : (record : Ingestion) → Decidable (s.Appends T record)
  | .recordFile file => List.decidableBAll (fun index => index < file.index) s.recordFiles.keys
  | .snapshot timestamp => inferInstanceAs (Decidable (T < timestamp))
  | .hbarBalance timestamp _ _ => inferInstanceAs (Decidable (T < timestamp))
  | .tokenBalance timestamp _ _ _ => inferInstanceAs (Decidable (T < timestamp))
  | .entity row => inferInstanceAs (Decidable (s.AppendsEntity T row))
  | .token definition => inferInstanceAs (Decidable (s.tokens.get? definition.token = none))
  | .deleteToken _ => isFalse id
  | .association _ _ _ timestamp => inferInstanceAs (Decidable (T < timestamp))
  | .transaction row => inferInstanceAs (Decidable (T < row.consensusTimestamp))
  | .addressBook .. => isTrue trivial

/-- The second store knows what the first one does of the time up to `T`, and nothing else of it. -/
structure Store.Extends (T : Int64) (s s' : Store) : Prop where
  files : s.recordFiles.entries <+: s'.recordFiles.entries
  snapshots : (s'.snapshots.entries.filter fun e => e.1 ≤ T) =
    s.snapshots.entries.filter fun e => e.1 ≤ T
  transactions : (s'.transactions.items.filter fun row => row.consensusTimestamp ≤ T) =
    s.transactions.items.filter fun row => row.consensusTimestamp ≤ T
  associations : ∀ account bound, bound ≤ T →
    s'.latestAssociationEvents account bound = s.latestAssociationEvents account bound
  tokens : ∀ token state, s.tokens.get? token = some state → s'.tokens.get? token = some state
  live : ∀ token, s'.isLive token = s.isLive token
  entities : ∀ id known, s.entities.get? id = some known →
    ∃ row, s'.entities.get? id = some row ∧ known.Continues T row
  aliases : ∀ bytes id, s.Carries bytes id → ∀ other, s'.Carries bytes other →
    s.Carries bytes other

section Extends

variable {s s' s'' : Store} {T : Int64}

theorem continues_refl (known : Entity) : known.Continues T known :=
  ⟨rfl, rfl, .inl rfl⟩

theorem continues_trans {known row row' : Entity} (h : known.Continues T row)
    (h' : row.Continues T row') : known.Continues T row' := by
  obtain ⟨hid, halias, hdeleted⟩ := h
  obtain ⟨hid', halias', hdeleted'⟩ := h'
  refine ⟨hid'.trans hid, halias'.trans halias, ?_⟩
  rcases hdeleted with hsame | ⟨hnone, hlate⟩
  · rw [← hsame]
    exact hdeleted'
  · refine .inr ⟨hnone, ?_⟩
    rcases hdeleted' with hsame' | ⟨-, hlate'⟩
    · rw [hsame']
      exact hlate
    · exact hlate'

theorem extends_refl (T : Int64) (s : Store) : s.Extends T s where
  files := List.prefix_refl _
  snapshots := rfl
  transactions := rfl
  associations _ _ _ := rfl
  tokens _ _ h := h
  live _ := rfl
  entities _ known h := ⟨known, h, continues_refl known⟩
  aliases _ _ _ _ h := h

theorem carries_of_extends (h : s.Extends T s') {bytes : Bytes} {id : Int64}
    (hcarries : s.Carries bytes id) : s'.Carries bytes id := by
  obtain ⟨known, hknown, hbytes⟩ := hcarries
  obtain ⟨row, hrow, hcontinues⟩ := h.entities id known hknown
  exact ⟨row, hrow, hcontinues.2.1.trans hbytes⟩

theorem extends_trans (h : s.Extends T s') (h' : s'.Extends T s'') : s.Extends T s'' where
  files := h.files.trans h'.files
  snapshots := h'.snapshots.trans h.snapshots
  transactions := h'.transactions.trans h.transactions
  associations account bound hbound :=
    (h'.associations account bound hbound).trans (h.associations account bound hbound)
  tokens token state hstate := h'.tokens token state (h.tokens token state hstate)
  live token := (h'.live token).trans (h.live token)
  entities id known hknown := by
    obtain ⟨row, hrow, hcontinues⟩ := h.entities id known hknown
    obtain ⟨row', hrow', hcontinues'⟩ := h'.entities id row hrow
    exact ⟨row', hrow', continues_trans hcontinues hcontinues'⟩
  aliases bytes id hid other hother :=
    h.aliases bytes id hid other (h'.aliases bytes id (carries_of_extends h hid) other hother)

theorem extends_reordered (h : s.Extends T s') (order : EntityOrder) :
    s.Extends T (s'.reordered order) :=
  { h with }

end Extends

/-! ## One record -/

section Ingest

variable {s : Store} {T : Int64}

theorem extends_insertRecordFile {file : RecordFile}
    (h : ∀ index ∈ s.recordFiles.keys, index < file.index) :
    s.Extends T (s.insertRecordFile file) := by
  have hput : (s.insertRecordFile file).recordFiles.entries =
      s.recordFiles.entries ++ [(file.index, file)] :=
    Table.put_of_forall_lt fun e he => h e.1 (List.mem_map_of_mem he)
  exact { extends_refl T s with files := hput ▸ List.prefix_append _ _ }

theorem extends_alterSnapshot {timestamp : Int64} (h : T < timestamp) (f : Snapshot → Snapshot) :
    s.Extends T (s.alterSnapshot timestamp f) := by
  have hlate : decide (timestamp ≤ T) = false := by simpa using h
  exact { extends_refl T s with
    snapshots := Table.filter_put (p := fun k => decide (k ≤ T)) hlate }

theorem extends_insertTransaction {row : TransactionRow} (h : T < row.consensusTimestamp) :
    s.Extends T (s.insertTransaction row) := by
  have hlate : decide (row.consensusTimestamp ≤ T) = false := by simpa using h
  exact { extends_refl T s with transactions := Timeline.filter_place hlate }

theorem extends_insertToken {definition : TokenDefinition}
    (h : s.tokens.get? definition.token = none) : s.Extends T (s.insertToken definition) := by
  refine { extends_refl T s with tokens := fun token state hstate => ?_, live := fun token => ?_ }
  · have hne : token ≠ definition.token := by
      rintro rfl
      cases h.symm.trans hstate
    rw [Store.insertToken, Table.get?_insert, if_neg hne, hstate]
  · -- an unknown token is live, and so is one that is defined anew
    unfold Store.isLive Store.insertToken
    rw [Table.get?_insert]
    by_cases heq : token = definition.token
    · rw [if_pos heq, heq, h]
      rfl
    · rw [if_neg heq]

theorem latest?_insert {events : Timeline AssociationEvent} {event : AssociationEvent}
    {bound : Int64} (h : bound < event.timestamp) :
    (events.insert event).latest? bound = events.latest? bound := by
  have hlate : decide (timestamp event ≤ bound) = false := decide_eq_false (Int64.not_le.2 h)
  rw [Timeline.latest?, Timeline.insert,
    Timeline.filter_place (p := fun event => decide (timestamp event ≤ bound)) hlate,
    Timeline.latest?]

theorem latestAssociationEvents_insertAssociation {account token other bound : Int64}
    {event : AssociationEvent} (h : bound < event.timestamp) :
    (s.insertAssociation account token event).latestAssociationEvents other bound =
      s.latestAssociationEvents other bound := by
  unfold Store.latestAssociationEvents Store.insertAssociation Table.alter
  rw [Table.get?_insert]
  by_cases heq : other = account
  · subst heq
    rw [if_pos rfl]
    apply Table.filterMap_put (Table.ascending _)
    dsimp only
    rw [latest?_insert h, Table.get?]
    cases Table.lookup token ((s.associations.get? other).getD ∅).entries with
    | none => rfl
    | some events => rfl
  · rw [if_neg heq]

theorem extends_insertAssociation {account token : Int64} {event : AssociationEvent}
    (h : T < event.timestamp) : s.Extends T (s.insertAssociation account token event) :=
  { extends_refl T s with
    associations := fun _ _ hbound =>
      latestAssociationEvents_insertAssociation (Int64.lt_of_le_of_lt hbound h) }

theorem get?_insertEntity (row : Entity) (id : Int64) :
    (s.insertEntity row).entities.get? id =
      if id = row.id then some row else s.entities.get? id :=
  Table.get?_insert s.entities row.id id row

theorem exists_continues_of_appendsEntity {row known : Entity} (h : s.AppendsEntity T row)
    {id : Int64} (hknown : s.entities.get? id = some known) :
    ∃ row', (s.insertEntity row).entities.get? id = some row' ∧ known.Continues T row' := by
  rw [get?_insertEntity]
  by_cases heq : id = row.id
  · subst heq
    unfold Store.AppendsEntity at h
    rw [hknown] at h
    rw [if_pos rfl]
    exact ⟨row, rfl, h⟩
  · rw [if_neg heq]
    exact ⟨known, hknown, continues_refl known⟩

theorem carries_of_appendsEntity {row : Entity} (h : s.AppendsEntity T row) {bytes : Bytes}
    {k id : Int64} (hknown : s.Carries bytes k) (hcarries : (s.insertEntity row).Carries bytes id) :
    s.Carries bytes id := by
  obtain ⟨row', hrow', hbytes'⟩ := hcarries
  rw [get?_insertEntity] at hrow'
  by_cases heq : id = row.id
  · rw [if_pos heq] at hrow'
    cases hrow'
    subst heq
    unfold Store.AppendsEntity at h
    cases hold : s.entities.get? row.id with
    | some old =>
      rw [hold] at h
      exact ⟨old, hold, h.2.1.symm.trans hbytes'⟩
    | none =>
      rw [hold] at h
      obtain ⟨known, hget, hbytes⟩ := hknown
      rcases h with hnone | hfresh
      · cases hnone.symm.trans hbytes'
      · exact absurd (hbytes.trans hbytes'.symm) (hfresh known (Table.mem_values_of_get? hget))
  · rw [if_neg heq] at hrow'
    exact ⟨row', hrow', hbytes'⟩

theorem extends_insertEntity {row : Entity} (h : s.AppendsEntity T row) :
    s.Extends T (s.insertEntity row) :=
  { extends_refl T s with
    entities := fun _ _ => exists_continues_of_appendsEntity h
    aliases := fun _ _ hknown _ => carries_of_appendsEntity h hknown }

/-- A record that only adds leaves alone what is known of the time up to `T`. -/
theorem extends_ingest {record : Ingestion} (h : s.Appends T record) :
    s.Extends T (s.ingest record) := by
  cases record with
  | recordFile file => exact extends_insertRecordFile h
  | snapshot timestamp =>
    rw [Store.ingest]
    exact extends_alterSnapshot h _
  | hbarBalance timestamp account balance =>
    rw [Store.ingest, Store.insertHbarBalance]
    exact extends_alterSnapshot h _
  | tokenBalance timestamp account token balance =>
    rw [Store.ingest, Store.insertTokenBalance]
    exact extends_alterSnapshot h _
  | entity row => exact extends_insertEntity h
  | token definition => exact extends_insertToken h
  | deleteToken token => exact h.elim
  | association account token associated timestamp => exact extends_insertAssociation h
  | transaction row => exact extends_insertTransaction h
  | addressBook file timestamp rows => exact { extends_refl T s with }

end Ingest

/-! ## Reads -/

section Reads

variable {s s' : Store} {T : Int64}

theorem filter_transactions_of_extends (h : s.Extends T s') {p : TransactionRow → Bool}
    (hp : ∀ row, p row → row.consensusTimestamp ≤ T) :
    s'.transactions.items.filter p = s.transactions.items.filter p :=
  filter_of_filter h.transactions fun row hrow => decide_eq_true (hp row hrow)

theorem between_of_extends (h : s.Extends T s') {start stop : Int64} (hstop : stop ≤ T) :
    s'.transactions.between start stop = s.transactions.between start stop := by
  apply filter_transactions_of_extends h
  intro row hrow
  exact Int64.le_trans (of_decide_eq_true hrow).2 hstop

theorem after_of_extends (h : s.Extends T s') {start stop : Int64} (hstop : stop ≤ T) :
    s'.transactions.after start stop = s.transactions.after start stop := by
  apply filter_transactions_of_extends h
  intro row hrow
  exact Int64.le_trans (of_decide_eq_true hrow).2 hstop

theorem historicalTransfers_of_extends (h : s.Extends T s') {timestamps : List Int64}
    (htimestamps : ∀ timestamp ∈ timestamps, timestamp ≤ T) :
    s'.historicalTransfers timestamps = s.historicalTransfers timestamps := by
  rw [Store.historicalTransfers, Store.historicalTransfers, filter_transactions_of_extends h]
  intro row hrow
  exact htimestamps _ (List.contains_iff_mem.1 hrow)

theorem liveRow_of_extends (h : s.Extends T s') : s'.liveRow = s.liveRow := by
  funext row
  simp only [Store.liveRow, h.live]

theorem transactionsInRange_of_extends (h : s.Extends T s') {start stop : Int64}
    (hstop : stop ≤ T) (limit : Nat) :
    s'.transactionsInRange start stop limit = s.transactionsInRange start stop limit := by
  rw [Store.transactionsInRange, between_of_extends h hstop, liveRow_of_extends h,
    Store.transactionsInRange]

theorem transactionsByHash_of_extends (h : s.Extends T s') {start stop : Int64}
    (hstop : stop ≤ T) (hash : Bytes) :
    s'.transactionsByHash hash start stop = s.transactionsByHash hash start stop := by
  rw [Store.transactionsByHash, between_of_extends h hstop, liveRow_of_extends h,
    Store.transactionsByHash]

theorem snapshot_of_extends (h : s.Extends T s') {k : Int64} (hk : k ≤ T) :
    s'.snapshots.get? k = s.snapshots.get? k :=
  Table.get?_of_filter (p := fun k => decide (k ≤ T)) h.snapshots (decide_eq_true hk)

theorem latestSnapshot_of_extends (h : s.Extends T s') {bound : Int64} (hbound : bound ≤ T) :
    s'.latestSnapshot? bound = s.latestSnapshot? bound :=
  Table.latestKey?_of_filter (p := fun k => decide (k ≤ T)) h.snapshots fun _ hk =>
    decide_eq_true (Int64.le_trans hk hbound)

theorem mem_snapshots_of_extends (h : s.Extends T s') {k : Int64} (hk : k ≤ T) :
    k ∈ s'.snapshots.keys ↔ k ∈ s.snapshots.keys := by
  rw [Table.mem_keys_iff, Table.mem_keys_iff, snapshot_of_extends h hk]

theorem earliestSnapshot_of_extends (h : s.Extends T s') {k snapshot : Int64}
    (hk : k ∈ s.snapshots.keys) (hkT : k ≤ T) (hs : s.earliestSnapshot? = some snapshot) :
    s'.earliestSnapshot? = some snapshot := by
  obtain ⟨hmem, hleast⟩ := Table.head?_keys_eq_some_iff.1 hs
  have hT : snapshot ≤ T := Int64.le_trans (hleast k hk) hkT
  refine Table.head?_keys_eq_some_iff.2 ⟨(mem_snapshots_of_extends h hT).2 hmem, ?_⟩
  intro other hother
  by_cases hearly : other ≤ T
  · exact hleast other ((mem_snapshots_of_extends h hearly).1 hother)
  · exact Int64.le_trans hT (Int64.le_of_lt (Int64.not_le.1 hearly))

theorem find?_files_of_extends (h : s.Extends T s') {p : RecordFile → Bool} {file : RecordFile}
    (hfile : s.recordFiles.values.find? p = some file) :
    s'.recordFiles.values.find? p = some file := by
  obtain ⟨more, hmore⟩ := h.files
  rw [Table.values, ← hmore, List.map_append, List.find?_append]
  rw [Table.values] at hfile
  rw [hfile, Option.some_or]

theorem recordFileByIndex_of_extends (h : s.Extends T s') {index : Int64} {file : RecordFile}
    (hfile : s.recordFileByIndex? index = some file) :
    s'.recordFileByIndex? index = some file := by
  obtain ⟨more, hmore⟩ := h.files
  rw [Store.recordFileByIndex?, Table.get?, ← hmore]
  exact Table.lookup_append_of_eq_some hfile

/-- An alias of one entity alone leads to it still, in whatever order the entities come. -/
theorem resolveAlias_of_extends (h : s.Extends T s') {bytes : Bytes} {id : EntityId}
    (hunshared : s.Unshared bytes) (hid : s.resolveAlias bytes = .ok (some id)) :
    s'.resolveAlias bytes = .ok (some id) := by
  obtain ⟨known, hfound, hdecode⟩ := resolveAlias_eq_ok_some_iff.1 hid
  obtain ⟨k, hknown, hbytes⟩ := carries_of_entityOfAlias hfound
  have hcarries : s.Carries bytes k := ⟨known, hknown, hbytes⟩
  obtain ⟨row, hrow⟩ := exists_entityOfAlias (carries_of_extends h hcarries)
  obtain ⟨k', hk', hbytes'⟩ := carries_of_entityOfAlias hrow
  -- whoever has the alias now had it before
  have hheld := h.aliases bytes k hcarries k' ⟨row, hk', hbytes'⟩
  obtain rfl : k' = k := eq_of_unshared hunshared hheld hcarries
  obtain ⟨row', hrow', hcontinues⟩ := h.entities k' known hknown
  cases hk'.symm.trans hrow'
  exact resolveAlias_eq_ok_some_iff.2 ⟨row, hrow, hcontinues.1 ▸ hdecode⟩

/-- An alias of several entities leads to the same one still, if that one comes first. -/
theorem exists_order_of_extends (h : s.Extends T s') {bytes : Bytes} {id : EntityId}
    (hid : s.resolveAlias bytes = .ok (some id)) :
    ∃ order, (s'.reordered order).resolveAlias bytes = .ok (some id) := by
  obtain ⟨known, hfound, hdecode⟩ := resolveAlias_eq_ok_some_iff.1 hid
  obtain ⟨k, hknown, hbytes⟩ := carries_of_entityOfAlias hfound
  obtain ⟨row, hrow, hcontinues⟩ := h.entities k known hknown
  refine ⟨.first k, resolveAlias_eq_ok_some_iff.2 ⟨row, ?_, hcontinues.1 ▸ hdecode⟩⟩
  exact entityOfAlias?_first hrow (hcontinues.2.1.trans hbytes)

end Reads

end LedgerView
