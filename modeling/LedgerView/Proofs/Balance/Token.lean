import Mathlib
import LedgerView.Proofs.Balance
import LedgerView.Proofs.Balance.Window
import LedgerView.Proofs.Operations
import LedgerView.Proofs.Table
import LedgerView.Proofs.Tally
/-!
# What a token balance is made of

Of every token the latest association event decides: a balance has an entry for it if that is an
association or a dissociation after the snapshot (`entries_of_balance`). A token that an account is
associated with is shown exactly once, with what the snapshot holds of it and what moved since:
units of a fungible token, serials of a non-fungible one (`token_of_alive`).
-/

namespace LedgerView

/-- The values that a balance reports for a token. -/
def AccountBalance.valuesOf (b : AccountBalance) (token : EntityId) : List Int64 :=
  (b.amounts.filter fun amount => amount.tokenId? = some token).map Amount.value

/-- What a snapshot holds of an account's token; an account that is not in it has none. -/
def Store.snapshotToken (s : Store) (account token snapshot : Int64) : Int :=
  let tokens? := (s.snapshots.get? snapshot).bind fun balances => balances.tokens.get? account
  ((tokens?.bind fun tokens => tokens.get? token).getD 0).toInt

/-- The units of a fungible token that a row moves to an account. -/
def TransactionRow.unitsMoved (account token : Int64) (row : TransactionRow) : Int :=
  ((row.tokenTransfers.filter fun t =>
    t.account = account ∧ t.token = token ∧ t.tokenType = .fungibleCommon).map fun t =>
      t.amount.toInt).sum

/-- The serials of a token that an account receives in a row less those that it sends. -/
def TransactionRow.serialsMoved (account token : Int64) (row : TransactionRow) : Int :=
  (((row.nftTransfers.flatMap NftTransfer.legs).filter fun l =>
    l.account = account ∧ l.token = token).map fun l => l.delta.toInt).sum

def TransactionRow.tokenMoved (account token : Int64) (row : TransactionRow) : Int :=
  row.unitsMoved account token + row.serialsMoved account token

/-- What a row moves of a token of a type. -/
def TransactionRow.movedAs : TokenType → Int64 → Int64 → TransactionRow → Int
  | .fungibleCommon => TransactionRow.unitsMoved
  | .nonFungibleUnique => TransactionRow.serialsMoved

/-- Rows record a token's movements by its type: token transfers have it, and serials move of
non-fungible tokens only. -/
def Store.MovesByType (s : Store) (token : Int64) (tokenType : TokenType) : Prop :=
  ∀ row ∈ s.transactions.items,
    (∀ t ∈ row.tokenTransfers, t.token = token → t.tokenType = tokenType) ∧
      ∀ n ∈ row.nftTransfers, n.token = token → tokenType = .nonFungibleUnique

instance (s : Store) (token : Int64) (tokenType : TokenType) :
    Decidable (s.MovesByType token tokenType) :=
  inferInstanceAs (Decidable (∀ row ∈ s.transactions.items, _ ∧ _))

/-- The association events of an account and a token. -/
def Store.associationEvents (s : Store) (account token : Int64) : Timeline AssociationEvent :=
  (((s.associations.get? account).getD ∅).get? token).getD ∅

def Store.tokenLedger (s : Store) (account snapshot stop : Int64)
    (associations : List TokenAssociation) : TokenLedger where
  account
  snapshotTimestamp := snapshot
  associations
  snapshotBalances := s.snapshotTokenBalances account snapshot
  tokenTransfers := s.tokenTransfers account snapshot stop
  nftTransfers := s.nftTransfers account snapshot stop

/-! ## Associations -/

section Associations

variable {s : Store} {account token bound : Int64} {state : TokenState}

theorem pairwise_latestAssociationEvents (s : Store) (account bound : Int64) :
    (s.latestAssociationEvents account bound).Pairwise fun a b => a.1 < b.1 := by
  unfold Store.latestAssociationEvents
  rw [List.pairwise_filterMap]
  refine ((s.associations.get? account).getD ∅).ascending.imp ?_
  intro a b hlt a' ha' b' hb'
  simp only [Option.map_eq_some_iff] at ha' hb'
  obtain ⟨_, -, rfl⟩ := ha'
  obtain ⟨_, -, rfl⟩ := hb'
  exact hlt

theorem mem_latestAssociationEvents {account column bound : Int64} {event : AssociationEvent} :
    (column, event) ∈ s.latestAssociationEvents account bound ↔
      (s.associationEvents account column).latest? bound = some event := by
  unfold Store.latestAssociationEvents Store.associationEvents
  generalize (s.associations.get? account).getD ∅ = tokens
  rw [List.mem_filterMap]
  constructor
  · rintro ⟨⟨column, events⟩, hmem, hpicked⟩
    obtain ⟨event, hlatest, heq⟩ := Option.map_eq_some_iff.1 hpicked
    cases heq
    rw [Table.mem_entries_iff.1 hmem]
    exact hlatest
  · intro hlatest
    cases hevents : tokens.get? column with
    | none =>
      rw [hevents] at hlatest
      cases hlatest
    | some events =>
      rw [hevents] at hlatest
      refine ⟨(column, events), Table.mem_entries_iff.2 hevents, ?_⟩
      exact Option.map_eq_some_iff.2 ⟨event, hlatest, rfl⟩

/-- An association of a token with what is known of the token. -/
def TokenState.association (state : TokenState) (token : Int64) (event : AssociationEvent) :
    TokenAssociation where
  token
  associated := event.associated
  timestamp := event.timestamp
  decimals := state.decimals
  tokenType := state.tokenType

theorem joinToken_eq_ok {event : AssociationEvent} {association : TokenAssociation}
    (h : s.joinToken token event = .ok association) :
    ∃ state, s.tokens.get? token = some state ∧ association = state.association token event := by
  unfold Store.joinToken at h
  cases hstate : s.tokens.get? token with
  | none =>
    rw [hstate] at h
    cases h
  | some state =>
    rw [hstate] at h
    exact ⟨state, rfl, (Except.ok.inj h).symm⟩

theorem pairwise_tokenAssociations {associations : List TokenAssociation}
    (h : s.tokenAssociations account bound = .ok associations) :
    associations.Pairwise fun a b => a.token < b.token := by
  have htokens : associations.map TokenAssociation.token =
      (s.latestAssociationEvents account bound).map Prod.fst := by
    apply map_of_mapM h
    rintro ⟨token, event⟩ - association hjoin
    obtain ⟨state, -, rfl⟩ := joinToken_eq_ok hjoin
    rfl
  rw [← List.pairwise_map (R := (· < ·)), htokens, List.pairwise_map]
  exact pairwise_latestAssociationEvents s account bound

theorem mem_tokenAssociations {account bound : Int64} {associations : List TokenAssociation}
    {association : TokenAssociation} (h : s.tokenAssociations account bound = .ok associations)
    (hmem : association ∈ associations) :
    ∃ column event state, (s.associationEvents account column).latest? bound = some event ∧
      s.tokens.get? column = some state ∧ association = state.association column event := by
  refine forall_mem_of_mapM (P := fun association => ∃ column event state,
    (s.associationEvents account column).latest? bound = some event ∧
      s.tokens.get? column = some state ∧ association = state.association column event)
    h ?_ association hmem
  rintro ⟨column, event⟩ hlatest association hjoin
  obtain ⟨state, hstate, rfl⟩ := joinToken_eq_ok hjoin
  exact ⟨column, event, state, mem_latestAssociationEvents.1 hlatest, hstate, rfl⟩

theorem exists_tokenAssociation {account column bound : Int64}
    {associations : List TokenAssociation} {event : AssociationEvent}
    (h : s.tokenAssociations account bound = .ok associations)
    (hlatest : (s.associationEvents account column).latest? bound = some event) :
    ∃ state : TokenState, state.association column event ∈ associations := by
  obtain ⟨association, hmem, hjoin⟩ :=
    exists_mem_of_mapM h _ (mem_latestAssociationEvents.2 hlatest)
  obtain ⟨state, -, rfl⟩ := joinToken_eq_ok hjoin
  exact ⟨state, hmem⟩

end Associations

/-! ## Movements -/

section Movements

variable {account token : Int64}

theorem sumOf_unitsMoved (account token : Int64) (row : TransactionRow) :
    Tally.sumOf token
        (((row.tokenTransfers.filter fun t => t.account = account).filter fun t =>
          t.tokenType = .fungibleCommon).map fun t => (t.token, t.amount)) =
      row.unitsMoved account token := by
  have hfilter : (row.tokenTransfers.filter fun t =>
      t.account = account ∧ t.token = token ∧ t.tokenType = .fungibleCommon) =
      ((row.tokenTransfers.filter fun t => t.account = account).filter fun t =>
        t.tokenType = .fungibleCommon).filter fun t => t.token = token := by
    rw [List.filter_filter, List.filter_filter]
    apply List.filter_congr
    intro t _
    rw [← Bool.decide_and, ← Bool.decide_and, decide_eq_decide]
    constructor
    · rintro ⟨haccount, htoken, htype⟩
      exact ⟨⟨htoken, htype⟩, haccount⟩
    · rintro ⟨⟨htoken, htype⟩, haccount⟩
      exact ⟨haccount, htoken, htype⟩
  rw [TransactionRow.unitsMoved, hfilter, sum_map_filter, Tally.sumOf, List.map_map]
  simp only [decide_eq_true_eq]
  rfl

theorem sumOf_tokenTransfers (account token : Int64) (rows : List TransactionRow) :
    Tally.sumOf token
        ((((rows.flatMap TransactionRow.tokenTransfers).filter fun t => t.account = account).filter
          fun t => t.tokenType = .fungibleCommon).map fun t => (t.token, t.amount)) =
      (rows.map (TransactionRow.unitsMoved account token)).sum := by
  induction rows with
  | nil => rfl
  | cons row rows ih =>
    rw [List.flatMap_cons, List.filter_append, List.filter_append, List.map_append,
      Tally.sumOf_append, ih, sumOf_unitsMoved, List.map_cons, List.sum_cons]

theorem get?_foldl_alter (token : Int64) (legs : List NftLeg) (counts : Table Int) :
    ((legs.foldl (fun counts l => counts.alter l.token fun n => n.getD 0 + l.delta.toInt)
        counts).get? token).getD 0 =
      (counts.get? token).getD 0 +
        ((legs.filter fun l => l.token = token).map fun l => l.delta.toInt).sum := by
  induction legs generalizing counts with
  | nil => simp
  | cons l legs ih =>
    rw [List.foldl_cons, ih, Table.alter, Table.get?_insert]
    by_cases hkey : token = l.token
    · rw [if_pos hkey, List.filter_cons_of_pos (by simpa using hkey.symm), List.map_cons,
        List.sum_cons, hkey, Option.getD_some]
      omega
    · rw [if_neg hkey, List.filter_cons_of_neg (by simpa using Ne.symm hkey)]

theorem getD_netNftCount (account token : Int64) (transfers : List NftTransfer) :
    ((netNftCount account transfers).get? token).getD 0 =
      ((((transfers.flatMap NftTransfer.legs).filter fun l => l.account = account).filter
        fun l => l.token = token).map fun l => l.delta.toInt).sum := by
  have hempty : ((∅ : Table Int).get? token).getD 0 = 0 := rfl
  rw [netNftCount, get?_foldl_alter, hempty, Int.zero_add]

theorem of_mem_legs {l : NftLeg} {t : NftTransfer} (h : l ∈ t.legs) :
    l.token = t.token ∧ (t.sender? = some l.account ∨ t.receiver? = some l.account) := by
  simp only [NftTransfer.legs, List.mem_append, List.mem_map, Option.mem_toList] at h
  rcases h with ⟨sender, hsender, rfl⟩ | ⟨receiver, hreceiver, rfl⟩
  · exact ⟨rfl, .inl hsender⟩
  · exact ⟨rfl, .inr hreceiver⟩

theorem filter_legs {keep : NftTransfer → Bool} {counts : NftLeg → Bool}
    {transfers : List NftTransfer}
    (h : ∀ t ∈ transfers, ∀ l ∈ t.legs, counts l = true → keep t = true) :
    ((transfers.filter keep).flatMap NftTransfer.legs).filter counts =
      (transfers.flatMap NftTransfer.legs).filter counts := by
  induction transfers with
  | nil => rfl
  | cons t transfers ih =>
    have hrest := ih fun t ht => h t (List.mem_cons_of_mem _ ht)
    rw [List.flatMap_cons, List.filter_append, ← hrest]
    cases hkeep : keep t with
    | true => rw [List.filter_cons_of_pos hkeep, List.flatMap_cons, List.filter_append]
    | false =>
      have hnone : t.legs.filter counts = [] := by
        rw [List.filter_eq_nil_iff]
        intro l hl hcounts
        rw [h t List.mem_cons_self l hl hcounts] at hkeep
        cases hkeep
      rw [List.filter_cons_of_neg (by simp [hkeep]), hnone, List.nil_append]

theorem get?_netNftCount (account token : Int64) (rows : List TransactionRow) :
    ((netNftCount account ((rows.flatMap TransactionRow.nftTransfers).filter fun t =>
        t.sender? = some account ∨ t.receiver? = some account)).get? token).getD 0 =
      (rows.map (TransactionRow.serialsMoved account token)).sum := by
  have hlegs : (((rows.flatMap TransactionRow.nftTransfers).filter fun t =>
      t.sender? = some account ∨ t.receiver? = some account).flatMap NftTransfer.legs).filter
        (fun l => l.account = account) =
      ((rows.flatMap TransactionRow.nftTransfers).flatMap NftTransfer.legs).filter
        fun l => l.account = account := by
    apply filter_legs
    intro t _ l hl haccount
    obtain ⟨-, hside⟩ := of_mem_legs hl
    rw [decide_eq_true_iff] at haccount ⊢
    exact haccount ▸ hside
  rw [getD_netNftCount, hlegs, List.filter_filter, List.flatMap_assoc, List.filter_flatMap,
    List.map_flatMap, List.flatMap_def, List.sum_flatten, List.map_map]
  congr 1
  apply List.map_congr_left
  intro row _
  show List.sum _ = row.serialsMoved account token
  rw [TransactionRow.serialsMoved]
  simp only [← Bool.decide_and, and_comm]

end Movements

/-! ## Amounts -/

namespace TokenLedger

variable {l : TokenLedger} {deltas : Tally} {association : TokenAssociation}

/-- The association is a current one, or a dissociation after the snapshot. -/
def Counts (l : TokenLedger) (association : TokenAssociation) : Prop :=
  association.associated = true ∨ l.snapshotTimestamp < association.timestamp

/-- The entry that is shown for an association. -/
structure Shows (l : TokenLedger) (deltas : Tally) (association : TokenAssociation)
    (entry : TokenAmount) : Prop where
  token : association.token = entry.tokenId.encode
  decimals : entry.decimals = association.decimals
  tokenType : entry.tokenType = association.tokenType
  serialNumbers : entry.serialNumbers = []
  value : l.value? deltas association = (.ok (some entry.value) : Outcome EntityIdError _)

theorem counts_of_value? {value : Int64}
    (h : l.value? deltas association = (.ok (some value) : Outcome EntityIdError _)) :
    l.Counts association := by
  by_cases hassociated : association.associated = true
  · exact .inl hassociated
  · rw [value?, if_neg hassociated] at h
    split at h
    · next hlater => exact .inr hlater
    · cases h

theorem value?_ne_none (hcounts : l.Counts association) :
    l.value? deltas association ≠ (.ok none : Outcome EntityIdError _) := by
  intro h
  unfold value? at h
  split at h
  · simp only [bind_eq_ok, pure_eq_ok] at h
    obtain ⟨value, -, h⟩ := h
    cases h
  · next hdissociated =>
    rw [if_pos (hcounts.resolve_left hdissociated)] at h
    cases h

theorem shows_of_amount? {amount : Amount}
    (h : l.amount? deltas association = .ok (some amount)) :
    ∃ entry, amount = .token entry ∧ l.Shows deltas association entry := by
  simp only [amount?, bind_eq_ok] at h
  obtain ⟨value?, hvalue, h⟩ := h
  cases value? with
  | none => cases h
  | some value =>
    simp only [bind_eq_ok, pure_eq_ok, Outcome.ofExcept_eq_ok] at h
    obtain ⟨tokenId, hdecode, hamount⟩ := h
    cases hamount
    exact ⟨_, rfl, EntityId.decode_eq_ok_iff.1 hdecode, rfl, rfl, rfl, hvalue⟩

theorem amount?_ne_none (hcounts : l.Counts association) :
    l.amount? deltas association ≠ .ok none := by
  intro h
  simp only [amount?, bind_eq_ok] at h
  obtain ⟨value?, hvalue, h⟩ := h
  cases value? with
  | none => exact value?_ne_none hcounts hvalue
  | some value =>
    simp only [bind_eq_ok, pure_eq_ok] at h
    obtain ⟨tokenId, -, h⟩ := h
    cases h

theorem sortedAssociations_of_pairwise (h : l.associations.Pairwise fun a b => a.token < b.token) :
    l.sortedAssociations = l.associations := by
  apply List.mergeSort_of_pairwise
  refine h.imp fun {a b} hlt => ?_
  rw [decide_eq_true_iff]
  exact Int64.le_of_lt hlt

theorem exists_entries {associations : List TokenAssociation} {shown : List (Option Amount)}
    (hsorted : associations.Pairwise fun a b => a.token < b.token)
    (h : associations.mapM (l.amount? deltas) = .ok shown) :
    ∃ entries : List TokenAmount,
      (shown.filterMap fun amount? => amount?) = entries.map Amount.token ∧
      entries.Pairwise (fun a b => a.tokenId < b.tokenId) ∧
      (∀ entry ∈ entries, ∃ a ∈ associations, l.Shows deltas a entry) ∧
      ∀ a ∈ associations, l.Counts a → ∃ entry ∈ entries, l.Shows deltas a entry := by
  induction associations generalizing shown with
  | nil =>
    rw [mapM_nil_eq_ok.1 h]
    exact ⟨[], rfl, List.Pairwise.nil, by simp, by simp⟩
  | cons first rest ih =>
    obtain ⟨amount?, tail, hamount, htail, rfl⟩ := mapM_cons_eq_ok.1 h
    obtain ⟨hfirst, hrest⟩ := List.pairwise_cons.1 hsorted
    obtain ⟨entries, hentries, hascending, hfrom, hcounted⟩ := ih hrest htail
    have hfrom' : ∀ entry ∈ entries, ∃ a ∈ first :: rest, l.Shows deltas a entry := by
      intro entry hentry
      obtain ⟨a, ha, hshows⟩ := hfrom entry hentry
      exact ⟨a, List.mem_cons_of_mem _ ha, hshows⟩
    cases amount? with
    | none =>
      refine ⟨entries, hentries, hascending, hfrom', List.forall_mem_cons.2 ⟨?_, hcounted⟩⟩
      exact fun hcounts => absurd hamount (amount?_ne_none hcounts)
    | some amount =>
      obtain ⟨entry, rfl, hshows⟩ := shows_of_amount? hamount
      refine ⟨entry :: entries, congrArg (Amount.token entry :: ·) hentries, ?_, ?_, ?_⟩
      · refine List.pairwise_cons.2 ⟨fun later hlater => ?_, hascending⟩
        obtain ⟨a, ha, hlaterShows⟩ := hfrom later hlater
        rw [← encode_lt_encode, ← hshows.token, ← hlaterShows.token]
        exact hfirst a ha
      · exact List.forall_mem_cons.2 ⟨⟨first, List.mem_cons_self, hshows⟩, hfrom'⟩
      · refine List.forall_mem_cons.2 ⟨fun _ => ⟨entry, List.mem_cons_self, hshows⟩, ?_⟩
        intro a ha hcounts
        obtain ⟨later, hlater, hlaterShows⟩ := hcounted a ha hcounts
        exact ⟨later, List.mem_cons_of_mem _ hlater, hlaterShows⟩

end TokenLedger

/-! ## Balances -/

/-- The entry of a token that has a state in the token table: nothing of it if the account was
dissociated last, and what the snapshot holds and what moved since if it was not. -/
structure Store.AccountsFor (s : Store) (account snapshot stop : Int64) (event : AssociationEvent)
    (state : TokenState) (entry : TokenAmount) : Prop where
  defined : s.tokens.get? entry.tokenId.encode = some state
  decimals : entry.decimals = state.decimals
  tokenType : entry.tokenType = state.tokenType
  serialNumbers : entry.serialNumbers = []
  value : entry.value.toInt =
    if event.associated then s.snapshotToken account entry.tokenId.encode snapshot +
      s.moved (TransactionRow.movedAs state.tokenType account entry.tokenId.encode) snapshot stop
    else 0

section Balance

variable {s : Store} {selector : AccountSelector} {id token : EntityId} {state : TokenState}
  {event : AssociationEvent}

theorem moved_of_fungible (account : Int64) {column : Int64}
    (htyped : s.MovesByType column .fungibleCommon) (x y : Int64) :
    s.moved (TransactionRow.tokenMoved account column) x y =
      s.moved (TransactionRow.unitsMoved account column) x y := by
  simp only [Store.moved]
  congr 1
  apply List.map_congr_left
  intro row hrow
  have hserials : (row.nftTransfers.flatMap NftTransfer.legs).filter (fun l =>
      l.account = account ∧ l.token = column) = [] := by
    rw [List.filter_eq_nil_iff]
    intro l hl
    rw [decide_eq_true_iff]
    rintro ⟨-, htoken⟩
    obtain ⟨n, hn, hleg⟩ := List.mem_flatMap.1 hl
    obtain ⟨hcolumn, -⟩ := of_mem_legs hleg
    have htype := (htyped row (List.mem_filter.1 hrow).1).2 n hn (hcolumn.symm.trans htoken)
    cases htype
  rw [TransactionRow.tokenMoved, TransactionRow.serialsMoved, hserials]
  exact Int.add_zero _

theorem moved_of_nonFungible (account : Int64) {column : Int64}
    (htyped : s.MovesByType column .nonFungibleUnique) (x y : Int64) :
    s.moved (TransactionRow.tokenMoved account column) x y =
      s.moved (TransactionRow.serialsMoved account column) x y := by
  simp only [Store.moved]
  congr 1
  apply List.map_congr_left
  intro row hrow
  have hunits : row.tokenTransfers.filter (fun t =>
      t.account = account ∧ t.token = column ∧ t.tokenType = .fungibleCommon) = [] := by
    rw [List.filter_eq_nil_iff]
    intro t ht
    rw [decide_eq_true_iff]
    rintro ⟨-, htoken, htype⟩
    rw [(htyped row (List.mem_filter.1 hrow).1).1 t ht htoken] at htype
    cases htype
  rw [TransactionRow.tokenMoved, TransactionRow.unitsMoved, hunits]
  exact Int.zero_add _

theorem moved_of_movesByType (account : Int64) {column : Int64} {tokenType : TokenType}
    (htyped : s.MovesByType column tokenType) (x y : Int64) :
    s.moved (TransactionRow.movedAs tokenType account column) x y =
      s.moved (TransactionRow.tokenMoved account column) x y := by
  cases tokenType with
  | fungibleCommon => exact (moved_of_fungible account htyped x y).symm
  | nonFungibleUnique => exact (moved_of_nonFungible account htyped x y).symm

theorem toInt_snapshotTable (s : Store) (account column snapshot stop : Int64)
    (associations : List TokenAssociation) :
    (((s.tokenLedger account snapshot stop associations).snapshotTable.get? column).getD 0).toInt =
      s.snapshotToken account column snapshot := by
  rw [TokenLedger.snapshotTable, Store.tokenLedger, Store.snapshotTokenBalances,
    Store.snapshotToken]
  cases (s.snapshots.get? snapshot).bind fun balances => balances.tokens.get? account with
  | none => rfl
  | some tokens =>
    have hentries : (tokens.entries.map fun e => (⟨e.1, e.2⟩ : TokenBalance)).map
        (fun b => (b.token, b.balance)) = tokens.entries := by
      rw [List.map_map]
      exact List.map_id _
    simp only [hentries, Table.get?_ofList tokens.ascending]
    rfl

theorem toInt_of_value? {account column snapshot stop value : Int64}
    {associations : List TokenAssociation} {deltas : Tally}
    (hdeltas : (s.tokenLedger account snapshot stop associations).fungibleDeltas =
      (.ok deltas : Outcome EntityIdError _))
    (hvalue : (s.tokenLedger account snapshot stop associations).value? deltas
      (state.association column event) = (.ok (some value) : Outcome EntityIdError _)) :
    value.toInt =
      if event.associated then s.snapshotToken account column snapshot +
        s.moved (TransactionRow.movedAs state.tokenType account column) snapshot stop
      else 0 := by
  cases hassociated : event.associated with
  | false =>
    simp only [TokenLedger.value?, TokenState.association, hassociated, Bool.false_eq_true,
      if_false] at hvalue
    split at hvalue
    · cases hvalue
      rfl
    · cases hvalue
  | true =>
    simp only [TokenLedger.value?, TokenState.association, hassociated, if_true, bind_eq_ok,
      pure_eq_ok, Option.some.injEq] at hvalue
    obtain ⟨_, hfit, rfl⟩ := hvalue
    rw [if_pos rfl, fit_eq_ok_iff.1 hfit, toInt_snapshotTable]
    congr 1
    cases state.tokenType with
    | fungibleCommon =>
      show (deltas.total column).toInt = _
      rw [Tally.toInt_total_addAll hdeltas]
      exact sumOf_tokenTransfers account column _
    | nonFungibleUnique => exact get?_netNftCount account column _

theorem accounts_of_shows {account snapshot stop : Int64} {associations : List TokenAssociation}
    {association : TokenAssociation} {deltas : Tally} {entry : TokenAmount}
    (hassociations : s.tokenAssociations account stop = .ok associations)
    (hdeltas : (s.tokenLedger account snapshot stop associations).fungibleDeltas =
      (.ok deltas : Outcome EntityIdError _))
    (hmem : association ∈ associations)
    (hshows : (s.tokenLedger account snapshot stop associations).Shows deltas association entry) :
    ∃ event state,
      (s.associationEvents account entry.tokenId.encode).latest? stop = some event ∧
      (event.associated = true ∨ snapshot < event.timestamp) ∧
      s.AccountsFor account snapshot stop event state entry := by
  obtain ⟨column, event, state, hlatest, hstate, rfl⟩ := mem_tokenAssociations hassociations hmem
  obtain ⟨rfl, hdecimals, htokenType, hserials, hvalue⟩ := hshows
  refine ⟨event, state, hlatest, TokenLedger.counts_of_value? hvalue, ?_⟩
  exact ⟨hstate, hdecimals, htokenType, hserials, toInt_of_value? hdeltas hvalue⟩

/-- Behind the hbar a balance has an entry for every token whose latest association event counts. -/
theorem entries_of_balance {settings : Settings} {stop : Int64} {b : AccountBalance}
    (hnames : s.Names selector id)
    (h : s.Answers settings (.balance selector stop) (.balance b)) :
    ∃ (window : BalanceWindow) (snapshot hbar : Int64) (entries : List TokenAmount),
      (BalanceWindow.of (s.entity? id.encode) stop : Outcome LedgerError _) = .ok window ∧
      s.latestSnapshot? window.snapshotEnd = some snapshot ∧
      b.amounts = .hbar hbar :: entries.map Amount.token ∧
      entries.Pairwise (fun x y => x.tokenId < y.tokenId) ∧
      (∀ entry ∈ entries, ∃ event state,
        (s.associationEvents id.encode entry.tokenId.encode).latest? window.changeEnd =
          some event ∧
        (event.associated = true ∨ snapshot < event.timestamp) ∧
        s.AccountsFor id.encode snapshot window.changeEnd event state entry) ∧
      ∀ (token : EntityId) event,
        (s.associationEvents id.encode token.encode).latest? window.changeEnd = some event →
        event.associated = true ∨ snapshot < event.timestamp →
          ∃ entry ∈ entries, entry.tokenId = token := by
  obtain ⟨window, snapshot, inputs, hwindow, hsnapshot, hinputs, hamounts⟩ :=
    amounts_of_balance hnames h
  simp only [Store.balanceInputs, bind_eq_ok, pure_eq_ok] at hinputs
  obtain ⟨associations, hassociations, rfl⟩ := hinputs
  simp only [BalanceInputs.amounts, bind_eq_ok, pure_eq_ok, Outcome.mapCause_eq_ok] at hamounts
  obtain ⟨_, -, hbar, -, tokens, htokens, hb⟩ := hamounts
  simp only [TokenLedger.amounts, bind_eq_ok, pure_eq_ok] at htokens
  obtain ⟨deltas, hdeltas, shown, hshown, rfl⟩ := htokens
  have hsorted := pairwise_tokenAssociations hassociations
  rw [TokenLedger.sortedAssociations_of_pairwise hsorted] at hshown
  obtain ⟨entries, hentries, hascending, hfrom, hcounted⟩ :=
    @TokenLedger.exists_entries (s.tokenLedger id.encode snapshot window.changeEnd associations)
      deltas associations shown hsorted hshown
  refine ⟨window, snapshot, hbar, entries, hwindow, hsnapshot, ?_, hascending, ?_, ?_⟩
  · rw [← hb, hentries]
  · intro entry hentry
    obtain ⟨association, hmem, hshows⟩ := hfrom entry hentry
    exact accounts_of_shows hassociations hdeltas hmem hshows
  · intro token event hlatest hcounts
    obtain ⟨state, hmem⟩ := exists_tokenAssociation hassociations hlatest
    obtain ⟨entry, hentry, hshows⟩ := hcounted _ hmem hcounts
    exact ⟨entry, hentry, (encode_inj.1 hshows.token).symm⟩

theorem valuesOf_of_mem {b : AccountBalance} {hbar : Int64} {entries : List TokenAmount}
    {entry : TokenAmount} (hamounts : b.amounts = .hbar hbar :: entries.map Amount.token)
    (hascending : entries.Pairwise fun x y => x.tokenId < y.tokenId) (hentry : entry ∈ entries) :
    b.valuesOf entry.tokenId = [entry.value] := by
  have hirrefl : ∀ id : EntityId, ¬id < id := fun id hlt =>
    Int64.lt_irrefl (encode_lt_encode.2 hlt)
  obtain ⟨before, after, rfl⟩ := List.append_of_mem hentry
  obtain ⟨-, hafter, hbefore⟩ := List.pairwise_append.1 hascending
  have hnone : ∀ others : List TokenAmount, (∀ other ∈ others, other.tokenId ≠ entry.tokenId) →
      (others.map Amount.token).filter (fun amount => amount.tokenId? = some entry.tokenId) =
        [] := by
    intro others hne
    rw [List.filter_eq_nil_iff]
    rintro _ hamount hsame
    obtain ⟨other, hother, rfl⟩ := List.mem_map.1 hamount
    exact hne other hother (Option.some.inj (of_decide_eq_true hsame))
  have hearlier := hnone before fun other hother hsame =>
    hirrefl _ (hsame ▸ hbefore other hother entry List.mem_cons_self)
  have hlater := hnone after fun other hother hsame =>
    hirrefl _ (hsame ▸ (List.pairwise_cons.1 hafter).1 other hother)
  rw [AccountBalance.valuesOf, hamounts, List.filter_cons_of_neg (by simp [Amount.tokenId?]),
    List.map_append, List.filter_append, hearlier, List.nil_append, List.map_cons,
    List.filter_cons_of_pos (by simp [Amount.tokenId?]), hlater]
  rfl

/-- To an account that is alive a token is reported once if its latest event counts, with the
snapshot's value and what moved since, or none of it after a dissociation. -/
theorem value_of_latest {settings : Settings} {stop : Int64} {b : AccountBalance}
    (hnames : s.Names selector id) (halive : s.AliveAt id.encode stop)
    (hstate : s.tokens.get? token.encode = some state)
    (hlatest : (s.associationEvents id.encode token.encode).latest? stop = some event)
    (h : s.Answers settings (.balance selector stop) (.balance b)) :
    ∃ snapshot, s.latestSnapshot? stop = some snapshot ∧
      (event.associated = true ∨ snapshot < event.timestamp →
        ∃ value, b.valuesOf token = [value] ∧
          value.toInt =
            if event.associated then s.snapshotToken id.encode token.encode snapshot +
              s.moved (TransactionRow.movedAs state.tokenType id.encode token.encode) snapshot stop
            else 0) := by
  obtain ⟨window, snapshot, hbar, entries, hwindow, hsnapshot, hamounts, hascending, hfrom,
    hcounted⟩ := entries_of_balance hnames h
  obtain rfl := window_of_alive halive hwindow
  refine ⟨snapshot, hsnapshot, fun hcounts => ?_⟩
  obtain ⟨entry, hentry, rfl⟩ := hcounted token event hlatest hcounts
  obtain ⟨event', state', hlatest', -, haccounts⟩ := hfrom entry hentry
  cases hlatest.symm.trans hlatest'
  cases hstate.symm.trans haccounts.defined
  exact ⟨entry.value, valuesOf_of_mem hamounts hascending hentry, haccounts.value⟩

theorem token_of_alive {settings : Settings} {stop : Int64} {b : AccountBalance}
    (hnames : s.Names selector id) (halive : s.AliveAt id.encode stop)
    (hstate : s.tokens.get? token.encode = some state)
    (hlatest : (s.associationEvents id.encode token.encode).latest? stop = some event)
    (hassociated : event.associated = true)
    (htyped : s.MovesByType token.encode state.tokenType)
    (h : s.Answers settings (.balance selector stop) (.balance b)) :
    ∃ snapshot ∈ s.snapshots.keys, snapshot ≤ stop ∧ ∃ value, b.valuesOf token = [value] ∧
      value.toInt = s.snapshotToken id.encode token.encode snapshot +
        s.moved (TransactionRow.tokenMoved id.encode token.encode) snapshot stop := by
  obtain ⟨snapshot, hsnapshot, hreported⟩ := value_of_latest hnames halive hstate hlatest h
  obtain ⟨hkey, hbound⟩ := mem_keys_of_latestSnapshot hsnapshot
  obtain ⟨value, hvalues, hvalue⟩ := hreported (.inl hassociated)
  refine ⟨snapshot, hkey, hbound, value, hvalues, ?_⟩
  rw [hvalue, if_pos hassociated, moved_of_movesByType id.encode htyped]

end Balance

end LedgerView
