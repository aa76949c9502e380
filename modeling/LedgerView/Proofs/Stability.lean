import Mathlib
import LedgerView.Proofs.Append
import LedgerView.Proofs.Balance
import LedgerView.Proofs.Balance.Window
import LedgerView.Proofs.Genesis
/-!
# Answers about the past

A query about the time up to `T` comes to the same over a store and over every store that extends
it. So an answer about that time stays what it was while records are added for later times
(`answer_of_appends`), whatever else happens to the node in between, and in whatever order the
entities come by then. Only what an alias of several entities stands for hangs on that order.
-/

namespace LedgerView

/-! ## Transactions -/

section Transactions

variable {s s' : Store} {T start stop : Int64} {a : Assembler} {batch : Nat}

theorem eval_correct_of_extends (h : s.Extends T s') {rows : List TransactionRow}
    (hrows : ∀ row ∈ rows, row.consensusTimestamp ≤ T) (g : Option Block) :
    (Script.correct rows).eval s' g = (Script.correct rows).eval s g := by
  have htimestamps : ∀ timestamp ∈ (rows.filter TransactionRow.needsCorrection).map
      TransactionRow.consensusTimestamp, timestamp ≤ T := by
    intro timestamp htimestamp
    obtain ⟨row, hrow, rfl⟩ := List.mem_map.1 htimestamp
    exact hrows row (List.mem_filter.1 hrow).1
  unfold Script.correct
  dsimp only
  split
  · rfl
  · refine Script.eval_bind_congr ?_ fun _ _ _ => rfl
    rw [Script.eval_ask, Script.eval_ask, historicalTransfers_of_extends h htimestamps]

theorem eval_scan_of_extends (h : s.Extends T s') (hstop : stop ≤ T) (cursor : Int64)
    (gathered : List TransactionRow) (g : Option Block) :
    (Script.scan batch stop cursor gathered).eval s' g =
      (Script.scan batch stop cursor gathered).eval s g := by
  have hrows : ∀ row ∈ s.transactionsInRange cursor stop batch, row.consensusTimestamp ≤ T :=
    fun row hrow => Int64.le_trans (Store.le_of_mem_transactionsInRange hrow).2 hstop
  rw [Script.scan_eq]
  simp only [Script.eval]
  rw [transactionsInRange_of_extends h hstop]
  refine Script.eval_bind_congr (eval_correct_of_extends h hrows g) fun corrected g' _ => ?_
  cases hend : pageEnd? (s.transactionsInRange cursor stop batch) batch stop with
  | none => rfl
  | some last =>
    cases hnext : (addChecked last 1 : Outcome LedgerError Int64) with
    | error e =>
      simp only [hnext]
      rfl
    | ok next =>
      simp only [hnext]
      exact eval_scan_of_extends h hstop next _ g'
termination_by (stop.toInt - cursor.toInt).toNat
decreasing_by exact remaining_lt hend hnext

theorem eval_transactions_of_extends (h : s.Extends T s') (hstop : stop ≤ T)
    (g : Option Block) :
    (Script.transactions a batch start stop).eval s' g =
      (Script.transactions a batch start stop).eval s g :=
  Script.eval_bind_congr rfl fun _ g _ =>
    Script.eval_bind_congr (eval_scan_of_extends h hstop start [] g) fun _ _ _ => rfl

theorem eval_transactionByHash_of_extends (h : s.Extends T s') (hstop : stop ≤ T)
    (text : String) (g : Option Block) :
    (Script.transactionByHash a text start stop).eval s' g =
      (Script.transactionByHash a text start stop).eval s g := by
  refine Script.eval_bind_congr rfl fun hash g _ => Script.eval_bind_congr rfl fun _ g _ =>
    Script.eval_bind_congr ?_ fun rows g hfound => ?_
  · rw [Script.eval_ask, Script.eval_ask, transactionsByHash_of_extends h hstop]
  · have hrows : ∀ row ∈ rows, row.consensusTimestamp ≤ T := by
      rw [Script.eval_ask] at hfound
      cases hfound
      intro row hrow
      obtain ⟨stored, hstored, rfl⟩ := List.mem_map.1 hrow
      have hrange := (List.mem_filter.1 (List.mem_filter.1 hstored).1).2
      exact Int64.le_trans (of_decide_eq_true hrange).2 hstop
    split
    · rfl
    · exact Script.eval_bind_congr (eval_correct_of_extends h hrows g) fun _ _ _ =>
        Script.eval_bind_congr rfl fun _ _ _ => rfl

end Transactions

/-! ## Balances -/

section Balances

variable {s s' : Store} {T stop : Int64} {id : EntityId} {known row : Entity}

theorem window_of_continues (hcontinues : known.Continues T row) (hstop : stop ≤ T) :
    (BalanceWindow.of (some row) stop : Outcome LedgerError BalanceWindow) =
      BalanceWindow.of (some known) stop := by
  obtain ⟨-, -, hsame | ⟨hnone, hlate⟩⟩ := hcontinues
  · simp only [BalanceWindow.of, Option.bind_some, hsame]
  · cases hdeleted : row.deletedAt? with
    | none => simp only [BalanceWindow.of, Option.bind_some, hnone, hdeleted]
    | some deletedAt =>
      have hafter : ¬deletedAt ≤ stop :=
        Int64.not_le.2 (Int64.lt_of_le_of_lt hstop (hlate deletedAt hdeleted))
      simp only [BalanceWindow.of, Option.bind_some, hnone, hdeleted, if_neg hafter]

theorem tokenAssociations_of_extends (h : s.Extends T s') {account bound : Int64}
    (hbound : bound ≤ T) {associations : List TokenAssociation}
    (hassociations : s.tokenAssociations account bound = .ok associations) :
    s'.tokenAssociations account bound = .ok associations := by
  rw [Store.tokenAssociations, h.associations account bound hbound]
  refine mapM_eq_ok_of_imp hassociations ?_
  rintro ⟨token, event⟩ association hjoin
  dsimp only [Store.joinToken] at hjoin ⊢
  split at hjoin
  · next state hstate => rw [h.tokens token state hstate, ← hjoin]
  · cases hjoin

theorem balanceInputs_of_extends (h : s.Extends T s') {account snapshot changeEnd : Int64}
    (hsnapshot : snapshot ≤ T) (hchange : changeEnd ≤ T) {inputs : BalanceInputs}
    (hinputs : s.balanceInputs account snapshot changeEnd = .ok inputs) :
    s'.balanceInputs account snapshot changeEnd = .ok inputs := by
  obtain ⟨associations, hassociations, hinputs⟩ := bind_eq_ok.1 hinputs
  refine bind_eq_ok.2 ⟨associations, tokenAssociations_of_extends h hchange hassociations, ?_⟩
  rw [← hinputs]
  simp only [Store.snapshotHbarBalance?, Store.snapshotTokenBalances, Store.cryptoTransfers,
    Store.tokenTransfers, Store.nftTransfers, snapshot_of_extends h hsnapshot,
    after_of_extends h hchange]

/-- How an account is labelled in its balance. -/
def AccountSelector.label (selector : AccountSelector) (id : EntityId) (known : Entity) :
    AccountId :=
  match selector with
  | byId _ => ⟨some id, known.alias?⟩
  | byAlias bytes => ⟨some id, some bytes⟩

theorem eval_account_of_entity {selector : AccountSelector} (hnames : s.Names selector id)
    (hknown : s.entity? id.encode = some known) (g : Option Block) :
    (Script.account selector).eval s g = (.ok (selector.label id known, some known), g) := by
  cases selector with
  | byId entity =>
    obtain rfl : entity = id := hnames
    have halias : s.aliasOf? entity = known.alias? := congrArg (·.bind Entity.alias?) hknown
    simp only [Script.account, Script.bind_eq, Script.eval_bind, Script.eval_find, hknown,
      Outcome.ofOption_some, Script.eval_ask, halias, Script.pure_eq, Script.eval_done,
      AccountSelector.label]
  | byAlias bytes =>
    have hresolve : s.resolveAlias bytes = .ok (some id) := hnames
    simp only [Script.account, Script.bind_eq, Script.eval_bind, Script.eval_askChecked,
      hresolve, Outcome.ofExcept_ok, Script.eval_ask, hknown, Script.pure_eq, Script.eval_done,
      AccountSelector.label]

theorem eval_balance_eq_ok_iff {selector : AccountSelector} (hnames : s.Names selector id)
    (hknown : s.entity? id.encode = some known) {g : Option Block} {b : AccountBalance} :
    ((Script.balance selector stop).eval s g).1 = .ok b ↔
      ∃ amounts, ((Script.entityBalance id (some known) stop).eval s g).1 = .ok amounts ∧
        b = .of (selector.label id known) amounts := by
  have hid : (selector.label id known).entityId? = some id := by
    cases selector <;> rfl
  simp only [Script.balance, Script.bind_eq]
  rw [Script.eval_bind_of_eq (eval_account_of_entity hnames hknown g)]
  simp only [hid, Script.eval_bind_eq_ok]
  constructor
  · rintro ⟨amounts, g', hamounts, h⟩
    cases h
    exact ⟨amounts, congrArg Prod.fst hamounts, rfl⟩
  · rintro ⟨amounts, hamounts, rfl⟩
    exact ⟨amounts, _, Prod.ext hamounts rfl, rfl⟩

theorem balance_of_extends (h : s.Extends T s') (hstop : stop ≤ T) {selector : AccountSelector}
    (hnames : s.Names selector id) (hnames' : s'.Names selector id)
    (hknown : s.entity? id.encode = some known) {g g' : Option Block} {b : AccountBalance}
    (hb : ((Script.balance selector stop).eval s g).1 = .ok b) :
    ((Script.balance selector stop).eval s' g').1 = .ok b := by
  obtain ⟨row, hrow, hcontinues⟩ := h.entities _ _ hknown
  have hlabel : selector.label id row = selector.label id known := by
    cases selector with
    | byId entity => rw [AccountSelector.label, hcontinues.2.1, AccountSelector.label]
    | byAlias bytes => rfl
  obtain ⟨amounts, hamounts, rfl⟩ := (eval_balance_eq_ok_iff hnames hknown).1 hb
  obtain ⟨window, snapshot, inputs, hwindow, hsnapshot, hinputs, hamounts⟩ :=
    eval_entityBalance_eq_ok_iff.1 hamounts
  obtain ⟨hchange, hend⟩ := le_of_window hwindow
  have hbefore : snapshot ≤ window.snapshotEnd := (mem_keys_of_latestSnapshot hsnapshot).2
  have hendT := Int64.le_trans hend hstop
  refine (eval_balance_eq_ok_iff hnames' hrow).2 ⟨amounts, ?_, by rw [hlabel]⟩
  refine eval_entityBalance_eq_ok_iff.2 ⟨window, snapshot, inputs, ?_, ?_, ?_, hamounts⟩
  · rw [window_of_continues hcontinues hstop]
    exact hwindow
  · rw [latestSnapshot_of_extends h hendT]
    exact hsnapshot
  · exact balanceInputs_of_extends h (Int64.le_trans hbefore hendT)
      (Int64.le_trans hchange hstop) hinputs

end Balances

/-! ## Blocks -/

section Blocks

variable {s s' : Store} {T : Int64} {g b : Block}

theorem isGenesis_of_extends (h : s.Extends T s') {k : Int64} (hk : k ∈ s.snapshots.keys)
    (hkT : k ≤ T) (hg : s.IsGenesis g) : s'.IsGenesis g := by
  obtain ⟨snapshot, file, hsnapshot, hfile, hgenesis⟩ := hg
  exact ⟨snapshot, file, earliestSnapshot_of_extends h hk hkT hsnapshot,
    find?_files_of_extends h hfile, hgenesis⟩

theorem blockAt_of_extends (h : s.Extends T s') {index : Int64} (hb : s.BlockAt g index b) :
    s'.BlockAt g index b := by
  obtain ⟨hnonneg, hge, file, hfile, hb⟩ := hb
  exact ⟨hnonneg, hge, file, recordFileByIndex_of_extends h hfile, hb⟩

theorem selects_of_extends (h : s.Extends T s') {selector : BlockSelector}
    (hselector : selector ≠ .latest) (hb : s.Selects g selector b) : s'.Selects g selector b := by
  cases selector with
  | index index => exact blockAt_of_extends h hb
  | hash text =>
    obtain ⟨normal, hnormal, file, hfile, hb⟩ := hb
    exact ⟨normal, hnormal, file, find?_files_of_extends h hfile, hb⟩
  | indexAndHash index text =>
    obtain ⟨normal, hnormal, hb, hsame⟩ := hb
    exact ⟨normal, hnormal, blockAt_of_extends h hb, hsame⟩
  | latest => exact absurd rfl hselector
  | genesis => exact hb

end Blocks

/-! ## Queries -/

/-- What the query asks for is settled at `T`: a block that is not named as the latest one, the
balance of a known entity, or transactions, up to `T`. -/
def Query.Settled (s : Store) (T : Int64) : Query → Prop
  | .resolveBlock selector => selector ≠ .latest
  | .balance selector stop => stop ≤ T ∧
      ∃ id known, s.Names selector id ∧ s.entity? id.encode = some known
  | .transactions _ stop => stop ≤ T
  | .transactionByHash _ _ stop => stop ≤ T
  | _ => False

/-- If the query asks for a balance, the selector leads to the same entity in both stores. -/
def Query.NamesAlike (s s' : Store) : Query → Prop
  | .balance selector _ => ∀ id, s.Names selector id → s'.Names selector id
  | _ => True

/-- If the query asks for the balance of an alias, no two entities have it, so that it resolves to one
entity in whatever order they come. An alias of several resolves to another of them once another
one comes first. -/
def Query.Unambiguous (s : Store) : Query → Prop
  | .balance (.byAlias bytes) _ => s.Unshared bytes
  | _ => True

section Names

variable {s s' : Store} {T : Int64} {query : Query}

theorem namesAlike_of_extends (h : s.Extends T s') (hquery : query.Unambiguous s) :
    query.NamesAlike s s' := by
  cases query with
  | balance selector stop =>
    cases selector with
    | byId entity => exact fun _ hnames => hnames
    | byAlias bytes => exact fun _ hnames => resolveAlias_of_extends h hquery hnames
  | _ => trivial

theorem exists_namesAlike_of_extends (h : s.Extends T s') (hquery : query.Settled s T) :
    ∃ order, query.NamesAlike s (s'.reordered order) := by
  cases query with
  | balance selector stop =>
    obtain ⟨-, id, known, hnames, -⟩ := hquery
    cases selector with
    | byId entity => exact ⟨s'.order, fun _ hnames => hnames⟩
    | byAlias bytes =>
      obtain ⟨order, horder⟩ := exists_order_of_extends h hnames
      refine ⟨order, fun other hother => ?_⟩
      cases hnames.symm.trans hother
      exact horder
  | _ => exact ⟨s'.order, trivial⟩

end Names

theorem eval_of_settled {s s' : Store} {T : Int64} {settings : Settings} {query : Query}
    {answer : Answer} {memo? memo'? : Option Block} (h : s.Extends T s')
    (hgenesis : ∀ g, s.Resolves memo? g → s'.Resolves memo'? g) (hquery : query.Settled s T)
    (hnames : query.NamesAlike s s')
    (hanswer : ((settings.script query).eval s memo?).1 = .ok answer) :
    ((settings.script query).eval s' memo'?).1 = .ok answer := by
  cases query with
  | resolveBlock selector =>
    -- the memo may differ between the two, but both resolve to one genesis block
    obtain ⟨b, after?, hb, hanswer⟩ := Script.eval_bind_eq_ok.1 hanswer
    obtain ⟨g, hg, -, hselects⟩ := Script.eval_block_eq_ok.1 hb
    refine Script.eval_bind_eq_ok.2 ⟨b, some g, Script.eval_block_eq_ok.2 ?_, hanswer⟩
    exact ⟨g, hgenesis g hg, rfl, selects_of_extends h hquery hselects⟩
  | balance selector stop =>
    obtain ⟨hstop, id, known, hknownNames, hknown⟩ := hquery
    obtain ⟨b, after?, hb, hanswer⟩ := Script.eval_bind_eq_ok.1 hanswer
    have hb' : ((Script.balance selector stop).eval s' memo'?).1 = .ok b :=
      balance_of_extends h hstop hknownNames (hnames id hknownNames) hknown (congrArg Prod.fst hb)
    exact Script.eval_bind_eq_ok.2 ⟨b, _, Prod.ext hb' rfl, hanswer⟩
  | transactions start stop =>
    have hplain : (settings.script (.transactions start stop)).Plain :=
      Script.plain_bind (Script.plain_transactions ..) fun _ => trivial
    rw [Script.answer_of_plain hplain memo'? memo?, ← hanswer]
    exact congrArg Prod.fst
      (Script.eval_bind_congr (eval_transactions_of_extends h hquery memo?) fun _ _ _ => rfl)
  | transactionByHash text start stop =>
    have hplain : (settings.script (.transactionByHash text start stop)).Plain :=
      Script.plain_bind (Script.plain_transactionByHash ..) fun _ => trivial
    rw [Script.answer_of_plain hplain memo'? memo?, ← hanswer]
    exact congrArg Prod.fst (Script.eval_bind_congr
      (eval_transactionByHash_of_extends h hquery text memo?) fun _ _ _ => rfl)
  | _ => exact hquery.elim

/-! ## Runs -/

namespace Node

variable {n : Node} {T k : Int64} {g : Block}

/-- If the event is a record, it only adds to the store. -/
def Adds (T : Int64) (n : Node) : Event → Prop
  | .ingest record => n.store.Appends T record
  | _ => True

/-- Every record among the events only adds to what the store holds by then. -/
def AppendsOnly (T : Int64) (n : Node) : List Event → Prop
  | [] => True
  | event :: events => n.Adds T event ∧ (n.step event).AppendsOnly T events

instance (T : Int64) (n : Node) : (event : Event) → Decidable (n.Adds T event)
  | .ingest record => inferInstanceAs (Decidable (n.store.Appends T record))
  | .fail _ => isTrue trivial
  | .delay _ => isTrue trivial
  | .ask _ _ => isTrue trivial

instance decidableAppendsOnly (T : Int64) :
    (n : Node) → (events : List Event) → Decidable (n.AppendsOnly T events)
  | _, [] => isTrue trivial
  | n, event :: events =>
    @instDecidableAnd _ _ inferInstance (decidableAppendsOnly T (n.step event) events)

theorem extends_step {event : Event} (h : n.Adds T event) :
    n.store.Extends T (n.step event).store := by
  cases event with
  | ingest record => exact extends_ingest h
  | _ => exact extends_refl T n.store

theorem extends_run {events : List Event} (h : n.AppendsOnly T events) :
    n.store.Extends T (n.run events).store := by
  induction events generalizing n with
  | nil => exact extends_refl T n.store
  | cons event events ih => exact extends_trans (extends_step h.1) (ih h.2)

/-- The genesis block is resolved to the same one after the event, whether it is found once more or
memoized by now. -/
theorem resolves_step {event : Event} (hk : k ∈ n.store.snapshots.keys) (hkT : k ≤ T)
    (h : n.Adds T event) (hg : n.store.Resolves n.genesis? g) :
    (n.step event).store.Resolves (n.step event).genesis? g := by
  cases hmemo : n.genesis? with
  | some memoized =>
    rw [hmemo] at hg
    rw [genesis_step hmemo event]
    exact hg
  | none =>
    rw [hmemo] at hg
    cases event with
    | ingest record =>
      have hkept : (n.step (.ingest record)).genesis? = none := hmemo
      rw [hkept]
      exact isGenesis_of_extends (extends_ingest h) hk hkT hg
    | ask context query =>
      cases hafter : (n.step (.ask context query)).genesis? with
      | none => exact hg
      | some memoized =>
        -- a query fills the memo only with what the store holds as it is asked
        obtain ⟨-, -, hmemoized⟩ := (genesis_ask_of_none hmemo).1 hafter
        exact resolves_unique hg hmemoized
    | _ =>
      dsimp only [step]
      rw [hmemo]
      exact hg

theorem resolves_run {events : List Event} (hk : k ∈ n.store.snapshots.keys) (hkT : k ≤ T)
    (h : n.AppendsOnly T events) (hg : n.store.Resolves n.genesis? g) :
    (n.run events).store.Resolves (n.run events).genesis? g := by
  induction events generalizing n with
  | nil => exact hg
  | cons event events ih =>
    have hk' := (mem_snapshots_of_extends (extends_step h.1) hkT).2 hk
    exact ih hk' h.2 (resolves_step hk hkT h.1 hg)

/-- The node gives this answer to the query, unless a store call fails, and no other. -/
def StandsBy (n : Node) (query : Query) (answer : Answer) : Prop :=
  (n.Quiet → ∀ context, (n.ask context query).1 = .ok answer) ∧
    ∀ context other, (n.ask context query).1 = .ok other → other = answer

theorem standsBy_of_eval {query : Query} {answer : Answer}
    (h : ((n.settings.script query).eval n.store n.genesis?).1 = .ok answer) :
    n.StandsBy query answer := by
  constructor
  · intro hquiet context
    rw [(ask_of_permits (hquiet.permits _)).1, h]
  · intro context other hother
    exact Except.ok.inj ((eval_of_ask hother).symm.trans h)

end Node

/-- An account under an alias of its own, with what it received up to 50, and two under one alias. -/
private def pastNode : Node where
  store := Store.ingestAll {} [
    .recordFile ⟨1, "ab12", "00", 5, 50⟩,
    .entity ⟨1001, some [0xa1], none⟩,
    .entity ⟨1003, some [0xa5], none⟩,
    .entity ⟨1004, some [0xa5], none⟩,
    .token ⟨2000, 0, .fungibleCommon, false, 100⟩,
    .association (.numbered 1001) (.numbered 2000) true 8,
    .hbarBalance 10 (.numbered 1001) 100,
    .transaction {
      consensusTimestamp := 40, hash := [1], transactionType := 14, result := 22, payer := 1002,
      entity? := none, memo := [], cryptoTransfers := [⟨1002, -9, none⟩, ⟨1001, 7, none⟩],
      itemizedTransfers := [], tokenTransfers := [⟨1001, 2000, 3, 0, .fungibleCommon⟩],
      nftTransfers := [], stakingRewards := [], token? := none }]

example : (pastNode.ask .background (.balance (.byAlias [0xa5]) 50)).1 =
      .ok (.balance ⟨"0.0.1003", some "0xa5", [.hbar 0]⟩) ∧
    ((pastNode.reordered (.first 1004)).ask .background (.balance (.byAlias [0xa5]) 50)).1 =
      .ok (.balance ⟨"0.0.1004", some "0xa5", [.hbar 0]⟩) := by decide +kernel

/-- The account moves on and is deleted, and its token is dissociated. -/
private def laterEvents : List Node.Event := [
  .ingest (.hbarBalance 60 (.numbered 1001) 1),
  .ask .background (.resolveBlock .latest),
  .ingest (.recordFile ⟨2, "cd34", "ab12", 51, 90⟩),
  .delay 20,
  .ingest (.association (.numbered 1001) (.numbered 2000) false 61),
  .ingest (.entity ⟨1001, some [0xa1], some 70⟩),
  .ingest (.entity ⟨1000, some [0xa2], none⟩),
  .ingest (.token ⟨2001, 0, .fungibleCommon, false, 5⟩),
  .delay 0]

private def pastBalance : AccountBalance :=
  ⟨"0.0.1001", some "0xa1", [.hbar 107, .token {
    tokenId := .numbered 2000, decimals := 0, tokenType := .fungibleCommon, value := 3,
    serialNumbers := [] }]⟩

end LedgerView
