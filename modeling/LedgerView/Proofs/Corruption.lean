import Mathlib
import LedgerView.Proofs.Causes
import LedgerView.Proofs.Fees
/-!
# Corrupt ids

A row may hold words that are no ids. `Assembler.shownWords` lists the words that the transactions
of rows show, in the order in which they are presented; what is filtered out, cancels out or gives
way to another row is not among them. Assembling rows fails just if one of these words is negative,
and the error names the first that is (`assemble_fails_iff`).
-/

namespace LedgerView

/-! ## Columns -/

/-- The columns that an operation presents: that of its account, and that of its token if it moves
one. -/
structure Columns where
  account : Int64
  token? : Option Int64 := none

def Columns.words (c : Columns) : List Int64 :=
  c.account :: c.token?.toList

/-- The operation presents these columns, and its metadata the token among them. -/
structure Columns.ShownBy (c : Columns) (op : Operation) : Prop where
  account : EntityId.decode c.account = .ok op.account
  token : c.token?.mapM EntityId.decode = .ok op.amount.tokenId?
  metadata : ∀ fields, op.metadata? = some fields → ∃ tokenId token,
    op.amount.tokenId? = some tokenId ∧ fields = Assembler.tokenMetadata tokenId token

def Movement.column? : Movement → Option Int64
  | .hbar _ => none
  | .token column _ _ _ _ => some column

def Leg.columns (leg : Leg) : Columns :=
  ⟨leg.account, leg.movement.column?⟩

namespace Assembler

/-- What an account's raw total has beyond the itemized transfers, which count if the row took
effect, and the rewards with their debit. -/
def remainder (a : Assembler) (row : TransactionRow) (account : Int64) : Int :=
  Tally.sumOf account row.rawPairs -
    Tally.sumOf account
      ((if row.succeeded then row.itemizedTransfers.filter fun t => a.Keeps row t.account
        else []).map HbarTransfer.toPair) -
    Tally.sumOf account (row.stakingRewards.map HbarTransfer.toPair) +
    if account = a.rewardAccount then (row.stakingRewards.map fun t => t.amount.toInt).sum else 0

/-- The accounts that rewards are paid to, and then the one that pays them. -/
def rewardAccounts (a : Assembler) (row : TransactionRow) : List Int64 :=
  if row.stakingRewards = [] then []
  else row.stakingRewards.map HbarTransfer.account ++ [a.rewardAccount]

def definitionColumns (row : TransactionRow) : List Columns :=
  match row.token? with
  | none => []
  | some token =>
    if CodeBook.definesToken row.transactionType then [⟨row.payer, some token.token⟩] else []

/-- The columns of a row that its operations present, in their order. -/
def rowColumns (a : Assembler) (row : TransactionRow) : List Columns :=
  ((row.itemizedTransfers.filter fun t => a.Keeps row t.account).map fun t => ⟨t.account, none⟩) ++
    ((row.rawAccounts.filter fun account => a.remainder row account ≠ 0).map fun account =>
      ⟨account, none⟩) ++
    ((a.rewardAccounts row).map fun account => ⟨account, none⟩) ++
    ((row.tokenTransfers.filter fun t => t.tokenType = .fungibleCommon).map fun t =>
      ⟨t.account, some t.token⟩) ++
    ((row.nftTransfers.flatMap NftTransfer.legs).map fun l => ⟨l.account, some l.token⟩) ++
    definitionColumns row

/-- The columns that the operations of a transaction present: those of all its rows, or the payer of
the first row if none took effect. -/
def groupColumns (a : Assembler) (rows : List TransactionRow) : List Columns :=
  match rows.find? TransactionRow.succeeded with
  | some _ => rows.flatMap a.rowColumns
  | none => rows.head?.toList.map fun first => ⟨first.payer, none⟩

/-- The entity column of the first row that took effect, or of the first row if none did. -/
def entityColumn? (rows : List TransactionRow) : Option Int64 :=
  ((rows.find? TransactionRow.succeeded).or rows.head?).bind TransactionRow.entity?

def groupWords (a : Assembler) (rows : List TransactionRow) : List Int64 :=
  (a.groupColumns rows).flatMap Columns.words ++ (entityColumn? rows).toList

/-- The words that the transactions of these rows present as ids, in their order. -/
def shownWords (a : Assembler) (rows : List TransactionRow) : List Int64 :=
  (firstHashes rows).flatMap fun hash => a.groupWords (rowsOf rows hash)

end Assembler

/-! ## Decoding in order -/

/-- The first of the words that is no id. -/
def firstCorrupt? (words : List Int64) : Option Int64 :=
  words.find? fun w => w < 0

theorem firstCorrupt?_append (front back : List Int64) :
    firstCorrupt? (front ++ back) = (firstCorrupt? front).or (firstCorrupt? back) :=
  List.find?_append

theorem firstCorrupt?_eq_none {words : List Int64} :
    firstCorrupt? words = none ↔ ¬∃ w ∈ words, w < 0 := by
  simp [firstCorrupt?]

theorem corrupt_of_firstCorrupt? {words : List Int64} {w : Int64}
    (h : firstCorrupt? words = some w) : w ∈ words ∧ w < 0 :=
  ⟨List.mem_of_find?_eq_some h, of_decide_eq_true (List.find?_some (p := fun w : Int64 => w < 0) h)⟩

namespace Outcome

variable {α β : Type} {x : Outcome LedgerError α} {front back words : List Int64}

/-- The computation needs these words to be ids, asks for one after the other, and ends with the
first that is none. -/
def Decodes (words : List Int64) : Outcome LedgerError α → Prop
  | .ok _ => firstCorrupt? words = none
  | .error (.cause e) => ∃ w, firstCorrupt? words = some w ∧ e = corruptRow (.negativeEncoding w)
  | .error (.overflow _) => True

theorem decodes_bind {f : α → Outcome LedgerError β} (hx : x.Decodes front)
    (hf : ∀ a, x = .ok a → (f a).Decodes back) : (x >>= f).Decodes (front ++ back) := by
  rcases x with (what | e) | a
  · trivial
  · obtain ⟨w, hw, he⟩ := hx
    refine ⟨w, ?_, he⟩
    rw [firstCorrupt?_append, hw, Option.some_or]
  · have hfront : firstCorrupt? front = none := hx
    have hback := hf a rfl
    have hwords : firstCorrupt? (front ++ back) = firstCorrupt? back := by
      rw [firstCorrupt?_append, hfront, Option.none_or]
    change (f a).Decodes (front ++ back)
    rcases hresult : f a with (what | e) | b
    · trivial
    · rw [hresult] at hback
      obtain ⟨w, hw, he⟩ := hback
      exact ⟨w, hwords.trans hw, he⟩
    · rw [hresult] at hback
      exact hwords.trans hback

theorem decodes_ok (a : α) : Decodes [] (.ok a : Outcome LedgerError α) := rfl

theorem decodes_map {f : α → β} (hx : x.Decodes words) : (f <$> x).Decodes words := by
  rcases x with (what | e) | a <;> exact hx

theorem decodes_bind_ok {f : α → β} (hx : x.Decodes words) :
    (x >>= fun a => .ok (f a)).Decodes words := by
  rcases x with (what | e) | a <;> exact hx

theorem decodes_bind_of_onlyCauses {f : α → Outcome LedgerError β}
    (hx : x.OnlyCauses fun _ => False) (hf : ∀ a, x = .ok a → (f a).Decodes words) :
    (x >>= f).Decodes words := by
  have hnothing : x.Decodes [] := by
    rcases x with (what | e) | a
    · trivial
    · exact (hx e rfl).elim
    · rfl
  exact decodes_bind hnothing hf

theorem decodes_mapM {f : α → Outcome LedgerError β} {wordsOf : α → List Int64} {xs : List α}
    (hf : ∀ a ∈ xs, (f a).Decodes (wordsOf a)) : (xs.mapM f).Decodes (xs.flatMap wordsOf) := by
  induction xs with
  | nil => exact decodes_ok []
  | cons x xs ih =>
    obtain ⟨hfirst, hrest⟩ := List.forall_mem_cons.1 hf
    rw [List.mapM_cons, List.flatMap_cons]
    exact decodes_bind hfirst fun y _ => decodes_bind_ok (ih hrest)

end Outcome

open Outcome

/-! ## Columns and legs -/

section Legs

variable {α : Type} {operationType status : String} {column : Int64}

theorem decodes_decodeColumn (column : Int64) : (decodeColumn column).Decodes [column] := by
  have hzero : (0 : Int64).toInt = 0 := rfl
  unfold decodeColumn EntityId.decode
  split
  · next hneg =>
    have hlt : column < 0 := Int64.lt_iff_toInt_lt.2 (by omega)
    exact ⟨column, List.find?_cons_of_pos (by simpa using hlt), rfl⟩
  · next hnonneg =>
    have hle : ¬column < 0 := fun hlt => hnonneg (by
      have := Int64.lt_iff_toInt_lt.1 hlt
      omega)
    exact List.find?_cons_of_neg (by simpa using hle)

theorem decodes_optionMapM (column? : Option Int64) :
    (column?.mapM decodeColumn).Decodes column?.toList := by
  cases column? with
  | none => exact decodes_ok none
  | some column => exact decodes_map (decodes_decodeColumn column)

theorem decodes_amount (movement : Movement) :
    (ofExcept corruptRow movement.amount).Decodes movement.column?.toList := by
  cases movement with
  | hbar value => exact decodes_ok _
  | token column decimals tokenType value serialNumbers =>
    -- the amount is there just if the token is
    have hamount : ofExcept corruptRow
        (Movement.token column decimals tokenType value serialNumbers).amount =
          (fun tokenId => .token { tokenId, decimals, tokenType, value, serialNumbers }) <$>
            decodeColumn column := by
      rw [Movement.amount, decodeColumn]
      cases EntityId.decode column <;> rfl
    rw [hamount]
    exact decodes_map (decodes_decodeColumn column)

theorem decodes_ofLeg (operationType status : String) (leg : Leg) :
    (Draft.ofLeg operationType status leg).Decodes leg.columns.words := by
  change Decodes ([leg.account] ++ leg.movement.column?.toList) _
  exact decodes_bind (decodes_decodeColumn leg.account) fun account _ =>
    decodes_bind_ok (decodes_amount leg.movement)

theorem shownBy_of_ofLeg {leg : Leg} {d : Draft}
    (h : Draft.ofLeg operationType status leg = .ok d) (index : Nat) :
    leg.columns.ShownBy (d.numbered index) := by
  obtain ⟨account, amount, haccount, hamount, rfl⟩ := ofLeg_eq_ok_iff.1 h
  refine ⟨EntityId.decode_eq_ok_iff.2 haccount, ?_, nofun⟩
  obtain ⟨column, movement⟩ := leg
  cases movement with
  | hbar value =>
    cases hamount
    rfl
  | token column decimals tokenType value serialNumbers =>
    simp only [Movement.amount, bind_eq_ok, pure_eq_ok] at hamount
    obtain ⟨tokenId, htoken, rfl⟩ := hamount
    simp only [Leg.columns, Movement.column?, Option.mapM_some, htoken]
    rfl

theorem decodes_legs (operationType status : String) (legOf : α → Leg) (xs : List α) :
    (xs.mapM fun x => Draft.ofLeg operationType status (legOf x)).Decodes
      ((xs.map fun x => (legOf x).columns).flatMap Columns.words) := by
  rw [List.flatMap_map]
  exact decodes_mapM fun x _ => decodes_ofLeg operationType status (legOf x)

theorem shownBy_of_legs {legOf : α → Leg} {xs : List α} {drafts : List Draft}
    (h : (xs.mapM fun x => Draft.ofLeg operationType status (legOf x)) = .ok drafts) :
    List.Forall₂ (fun (c : Columns) d => ∀ index, c.ShownBy (d.numbered index))
      (xs.map fun x => (legOf x).columns) drafts := by
  rw [List.forall₂_map_left_iff]
  exact (mapM_eq_ok_iff.1 h).imp fun x d hd => shownBy_of_ofLeg hd

end Legs

namespace Assembler

section Row

variable {a : Assembler} {row : TransactionRow} {rewards fees : List HbarTransfer}

theorem decodes_definitionDrafts (a : Assembler) (row : TransactionRow) :
    (a.definitionDrafts row).Decodes ((definitionColumns row).flatMap Columns.words) := by
  rw [definitionDrafts, definitionColumns]
  cases row.token? with
  | none => exact decodes_ok []
  | some token =>
    dsimp only
    split
    · change Decodes ([row.payer] ++ [token.token]) _
      exact decodes_bind (decodes_decodeColumn row.payer) fun account _ =>
        decodes_bind_ok (decodes_decodeColumn token.token)
    · exact decodes_ok []

theorem shownBy_of_definitionDrafts {drafts : List Draft}
    (h : a.definitionDrafts row = .ok drafts) :
    List.Forall₂ (fun (c : Columns) d => ∀ index, c.ShownBy (d.numbered index))
      (definitionColumns row) drafts := by
  rw [definitionDrafts] at h
  rw [definitionColumns]
  cases htoken : row.token? with
  | none =>
    rw [htoken] at h
    cases h
    exact .nil
  | some token =>
    rw [htoken] at h
    dsimp only at h ⊢
    split at h
    · next hdefines =>
      simp only [bind_eq_ok, pure_eq_ok, decodeColumn_eq_ok, ← EntityId.decode_eq_ok_iff] at h
      obtain ⟨account, haccount, tokenId, htokenId, rfl⟩ := h
      rw [if_pos hdefines]
      refine .cons (fun index => ⟨haccount, ?_, fun fields hfields => ?_⟩) .nil
      · simp only [Option.mapM_some, htokenId]
        rfl
      · cases hfields
        exact ⟨tokenId, token, rfl, rfl⟩
    · next hnot =>
      cases h
      rw [if_neg hnot]
      exact .nil

/-- What the explained transfers leave does not depend on how it is worked out. -/
theorem unexplained_eq_remainder
    (hrewards : (a.rewardTransfers row : Outcome LedgerError _) = .ok rewards) (account : Int64) :
    a.unexplained row rewards account = a.remainder row account := by
  rw [unexplained, remainder, nonFeeTransfers_eq]
  rcases rewardTransfers_eq_ok hrewards with ⟨hnone, rfl⟩ | ⟨-, debit, hdebit, rfl⟩
  · simp [hnone]
  · have hsplit : Tally.sumOf account
        ((row.stakingRewards ++ [(⟨a.rewardAccount, debit⟩ : HbarTransfer)]).map
          HbarTransfer.toPair) =
        Tally.sumOf account (row.stakingRewards.map HbarTransfer.toPair) +
          if account = a.rewardAccount then debit.toInt else 0 := by
      rw [List.map_append, Tally.sumOf_append]
      simp [HbarTransfer.toPair, eq_comm]
    rw [hsplit, hdebit]
    by_cases hpayer : account = a.rewardAccount
    · rw [if_pos hpayer, if_pos hpayer]
      omega
    · rw [if_neg hpayer, if_neg hpayer]
      omega

theorem columns_of_rewards
    (hrewards : (a.rewardTransfers row : Outcome LedgerError _) = .ok rewards) :
    (rewards.map fun t => t.leg.columns) =
      (a.rewardAccounts row).map fun account => ⟨account, none⟩ := by
  unfold rewardAccounts
  rcases rewardTransfers_eq_ok hrewards with ⟨hnone, rfl⟩ | ⟨hpays, debit, -, rfl⟩
  · rw [if_pos hnone]
    rfl
  · rw [if_neg hpays, List.map_append, List.map_append, List.map_map]
    rfl

theorem columns_of_fees
    (hrewards : (a.rewardTransfers row : Outcome LedgerError _) = .ok rewards)
    (hfees : (row.fees (a.explained row rewards) : Outcome LedgerError _) = .ok fees) :
    (fees.map fun t => t.leg.columns) =
      (row.rawAccounts.filter fun account => a.remainder row account ≠ 0).map fun account =>
        ⟨account, none⟩ := by
  have haccounts := (fees_eq_ok hfees).1
  simp only [unexplained_eq_remainder hrewards] at haccounts
  rw [← haccounts, List.map_map]
  rfl

/-- The words of a row are decoded in the order in which its operations present them. -/
theorem decodes_rowDrafts (a : Assembler) (row : TransactionRow) :
    (a.rowDrafts row).Decodes ((a.rowColumns row).flatMap Columns.words) := by
  simp only [rowColumns, List.flatMap_append, List.append_assoc]
  rw [← nonFeeTransfers_eq]
  unfold rowDrafts
  refine decodes_bind (decodes_legs _ _ HbarTransfer.leg _) fun itemized _ => ?_
  -- the rewards and the fees are worked out before any of them is decoded
  refine decodes_bind_of_onlyCauses (onlyCauses_rewardTransfers a row) fun rewards hrewards => ?_
  refine decodes_bind_of_onlyCauses (row.onlyCauses_fees _) fun fees hfees => ?_
  rw [← columns_of_fees hrewards hfees, ← columns_of_rewards hrewards]
  refine decodes_bind (decodes_legs _ _ HbarTransfer.leg _) fun feeDrafts _ => ?_
  refine decodes_bind (decodes_legs _ _ HbarTransfer.leg _) fun rewardDrafts _ => ?_
  refine decodes_bind (decodes_legs _ _ TokenTransfer.leg _) fun tokens _ => ?_
  refine decodes_bind (decodes_legs _ _ NftLeg.leg _) fun serials _ => ?_
  exact decodes_bind_ok (decodes_definitionDrafts a row)

theorem shownBy_of_rowDrafts {drafts : List Draft} (h : a.rowDrafts row = .ok drafts) :
    List.Forall₂ (fun (c : Columns) d => ∀ index, c.ShownBy (d.numbered index))
      (a.rowColumns row) drafts := by
  obtain ⟨itemized, rewards, fees, feeDrafts, rewardDrafts, tokens, serials, definition,
    hitemized, hrewards, hfees, hfeeDrafts, hrewardDrafts, htokens, hserials, hdefinition, rfl⟩ :=
    rowDrafts_eq_ok h
  unfold rowColumns
  rw [← nonFeeTransfers_eq, ← columns_of_fees hrewards hfees, ← columns_of_rewards hrewards]
  exact List.rel_append (List.rel_append (List.rel_append (List.rel_append (List.rel_append
    (shownBy_of_legs hitemized) (shownBy_of_legs hfeeDrafts)) (shownBy_of_legs hrewardDrafts))
    (shownBy_of_legs htokens)) (shownBy_of_legs hserials))
    (shownBy_of_definitionDrafts hdefinition)

theorem shownBy_of_mapM {rows : List TransactionRow} {lists : List (List Draft)}
    (h : rows.mapM a.rowDrafts = .ok lists) :
    List.Forall₂ (fun (c : Columns) d => ∀ index, c.ShownBy (d.numbered index))
      (rows.flatMap a.rowColumns) lists.flatten := by
  induction rows generalizing lists with
  | nil =>
    rw [mapM_nil_eq_ok.1 h]
    exact .nil
  | cons row rows ih =>
    obtain ⟨drafts, others, hfirst, hrest, rfl⟩ := mapM_cons_eq_ok.1 h
    exact List.rel_append (shownBy_of_rowDrafts hfirst) (ih hrest)

end Row

/-! ## Transactions -/

section Transactions

variable {a : Assembler} {rows : List TransactionRow} {t : Transaction}

/-- Every id of the transaction comes from the column in its place. -/
structure Presents (a : Assembler) (rows : List TransactionRow) (t : Transaction) : Prop where
  operations : List.Forall₂ Columns.ShownBy (a.groupColumns rows) t.operations
  entityId? : (entityColumn? rows).mapM EntityId.decode = .ok t.entityId?

theorem optionMapM_decode {column? : Option Int64} {id? : Option EntityId}
    (h : column?.mapM decodeColumn = .ok id?) : column?.mapM EntityId.decode = .ok id? := by
  cases column? with
  | none =>
    cases h
    rfl
  | some column =>
    obtain ⟨id, hid, rfl⟩ := map_eq_ok.1 h
    rw [Option.mapM_some, EntityId.decode_eq_ok_iff.2 (decodeColumn_eq_ok.1 hid)]
    rfl

theorem decodes_build (a : Assembler) (first : TransactionRow) (others : List TransactionRow) :
    (a.build (first :: others)).Decodes (a.groupWords (first :: others)) := by
  cases hprimary : (first :: others).find? TransactionRow.succeeded with
  | none =>
    simp only [build, groupWords, groupColumns, entityColumn?, hprimary]
    refine decodes_bind (decodes_map ?_) fun drafts _ => decodes_bind_ok (decodes_optionMapM _)
    exact decodes_ofLeg _ _ ⟨first.payer, .hbar 0⟩
  | some primary =>
    simp only [build, groupWords, groupColumns, entityColumn?, hprimary]
    rw [List.flatMap_assoc]
    refine decodes_bind (decodes_map ?_) fun drafts _ => decodes_bind_ok (decodes_optionMapM _)
    exact decodes_mapM fun row _ => decodes_rowDrafts a row

theorem presents_of_build (h : a.build rows = .ok t) : a.Presents rows t := by
  cases rows with
  | nil => cases h
  | cons first others =>
    cases hprimary : (first :: others).find? TransactionRow.succeeded with
    | none =>
      simp only [build, hprimary, bind_eq_ok, map_eq_ok, pure_eq_ok] at h
      obtain ⟨_, ⟨draft, hdraft, rfl⟩, entityId?, hentity, rfl⟩ := h
      refine ⟨?_, optionMapM_decode ?_⟩
      · rw [groupColumns, hprimary]
        exact .cons (shownBy_of_ofLeg hdraft 0) .nil
      · rw [entityColumn?, hprimary]
        exact hentity
    | some primary =>
      obtain ⟨lists, entityId?, hlists, hentity, rfl⟩ := (build_eq_ok_iff hprimary).1 h
      refine ⟨?_, optionMapM_decode ?_⟩
      · rw [groupColumns, hprimary]
        exact forall₂_numberFrom (shownBy_of_mapM hlists) 0
      · rw [entityColumn?, hprimary]
        exact hentity

theorem decodes_assemble (a : Assembler) (rows : List TransactionRow) :
    (a.assemble rows).Decodes (a.shownWords rows) := by
  have hgroup : ∀ hash ∈ firstHashes rows,
      (a.build (rowsOf rows hash)).Decodes (a.groupWords (rowsOf rows hash)) := by
    intro hash hhash
    obtain ⟨row, hrow, hsame⟩ := mem_firstHashes.1 hhash
    have hmem : row ∈ rowsOf rows hash := List.mem_filter.2 ⟨hrow, decide_eq_true hsame⟩
    cases hrows : rowsOf rows hash with
    | nil =>
      rw [hrows] at hmem
      cases hmem
    | cons first others => exact decodes_build a first others
  rw [assemble_eq, shownWords]
  exact decodes_mapM hgroup

/-- Rows make up no transactions just if some word that would be presented as an id is negative, as
long as no amount overflows. The error is an internal one, not to be retried, and names the first
such word. Otherwise every id that is presented comes from the column in its place. -/
theorem assemble_fails_iff (hfits : ∀ what, a.assemble rows ≠ .error (.overflow what)) :
    ((∃ e, a.assemble rows = .error e) ↔ ∃ w ∈ a.shownWords rows, w < 0) ∧
      (∀ e, a.assemble rows = .error e → ∃ w, firstCorrupt? (a.shownWords rows) = some w ∧
        e = .cause (corruptRow (.negativeEncoding w)) ∧
        (corruptRow (.negativeEncoding w)).kind = .internalServerError ∧
        (corruptRow (.negativeEncoding w)).isRetriable = false) ∧
      ∀ transactions, a.assemble rows = .ok transactions →
        List.Forall₂ (fun hash t => a.Presents (rowsOf rows hash) t) (firstHashes rows)
          transactions := by
  have hdecodes := decodes_assemble a rows
  have hfails : ∀ e, a.assemble rows = .error e →
      ∃ w, firstCorrupt? (a.shownWords rows) = some w ∧
        e = .cause (corruptRow (.negativeEncoding w)) := by
    intro e he
    rw [he] at hdecodes
    cases e with
    | overflow what => exact absurd he (hfits what)
    | cause e =>
      obtain ⟨w, hw, rfl⟩ := hdecodes
      exact ⟨w, hw, rfl⟩
  refine ⟨⟨?_, ?_⟩, fun e he => ?_, fun transactions h => ?_⟩
  · rintro ⟨e, he⟩
    obtain ⟨w, hw, -⟩ := hfails e he
    exact ⟨w, corrupt_of_firstCorrupt? hw⟩
  · intro hcorrupt
    cases hresult : a.assemble rows with
    | ok transactions =>
      rw [hresult] at hdecodes
      exact absurd hcorrupt (firstCorrupt?_eq_none.1 hdecodes)
    | error e => exact ⟨e, rfl⟩
  · obtain ⟨w, hw, rfl⟩ := hfails e he
    exact ⟨w, hw, rfl, rfl, rfl⟩
  · rw [assemble_eq] at h
    exact (mapM_eq_ok_iff.1 h).imp fun hash t hbuild => presents_of_build hbuild

/-- Negative words in every place that is not presented: an account whose raw total comes to
nothing, a transfer of a token that is not fungible, a serial that has no sender and no receiver, a
definition in a row that defines nothing, an entity of a row that is not the first to take effect,
and the transfers of a transaction that failed. Its entity is presented. -/
private def hiddenRows : List TransactionRow :=
  let row : TransactionRow :=
    { consensusTimestamp := 10, hash := [1], transactionType := 14, result := 10, payer := -1,
      entity? := some (-9), memo := [],
      cryptoTransfers := [⟨-3, 5, none⟩, ⟨98, 2, none⟩, ⟨-3, -5, none⟩],
      itemizedTransfers := [⟨-5, 7⟩], tokenTransfers := [⟨-4, -4, 1, 0, .nonFungibleUnique⟩],
      nftTransfers := [⟨none, none, 1, -6⟩], stakingRewards := [],
      token? := some ⟨-7, 2, .fungibleCommon, false, 0⟩ }
  [row,
    { row with consensusTimestamp := 11, hash := [2], payer := 1001, entity? := some (-2) },
    { row with consensusTimestamp := 12, result := 22, entity? := some 2000 }]

theorem assemble_fails_iff_hidden :
    shownWords ⟨.standard, 800⟩ hiddenRows = [98, 98, 2000, 1001, -2] ∧
      (∃ e, assemble ⟨.standard, 800⟩ hiddenRows = .error e) ∧
      ∀ e, assemble ⟨.standard, 800⟩ hiddenRows = .error e →
        e = .cause (corruptRow (.negativeEncoding (-2))) := by
  have hfits : ∀ what, assemble ⟨.standard, 800⟩ hiddenRows ≠ .error (.overflow what) := by
    intro what
    cases what <;> decide +kernel
  have hshown : shownWords ⟨.standard, 800⟩ hiddenRows = [98, 98, 2000, 1001, -2] := by
    decide +kernel
  obtain ⟨hiff, hfirst, -⟩ := assemble_fails_iff hfits
  rw [hshown] at hiff hfirst
  refine ⟨hshown, hiff.2 (by decide), fun e he => ?_⟩
  obtain ⟨w, hw, rfl, -⟩ := hfirst e he
  cases hw
  rfl

end Transactions

end Assembler

end LedgerView
