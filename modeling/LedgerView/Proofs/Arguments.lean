import Mathlib
import LedgerView.Proofs.Causes
import LedgerView.Proofs.Starting
/-!
# Malformed arguments

A query is refused as invalid just if what the caller wrote is malformed: a negative index, a text
that is no hash, or a range that ends before it starts. It is then refused before any store call
(`invalid_iff_malformed`). A range that a query takes from a block that it found is never refused,
for no block starts after its own end as long as no record file does.
-/

namespace LedgerView

open Outcome

/-! ## What is malformed -/

/-- An index is negative, or a text is no hash. -/
def BlockSelector.Malformed : BlockSelector → Prop
  | .index i => i < 0
  | .hash text => ¬BlockHash.IsHash text
  | .indexAndHash i text => i < 0 ∨ ¬BlockHash.IsHash text
  | .latest => False
  | .genesis => False

/-- A block selector is malformed, a text is no hash, or a range ends before it starts. -/
def Query.Malformed : Query → Prop
  | .resolveBlock selector => selector.Malformed
  | .balance _ _ => False
  | .balanceAtBlock _ selector => selector.Malformed
  | .transactions start stop => stop < start
  | .transactionByHash text start stop => ¬BlockHash.IsHash text ∨ stop < start
  | .blockTransactions selector => selector.Malformed
  | .addressBook => False

theorem accepted_iff_not_malformed {selector : BlockSelector} :
    selector.Accepted ↔ ¬selector.Malformed := by
  cases selector <;>
    simp [BlockSelector.Accepted, BlockSelector.Malformed, BlockHash.exists_normalize_iff]

/-! ## What is refused before any store call -/

section Refused

variable {selector : BlockSelector} {query : Query}

theorem block_of_malformed (h : selector.Malformed) :
    ∃ what, (∀ start stop, what ≠ .startAfterEnd start stop) ∧
      Script.block selector = Script.refuse (.invalidArgument what) := by
  have hnegative : ∀ {i : Int64}, i < 0 →
      Script.blockByIndex i = Script.refuse (.invalidArgument (.negativeIndex i)) :=
    fun hi => if_pos hi
  have hhash : ∀ {text : String}, ¬BlockHash.IsHash text → ∃ what,
      (∀ start stop, what ≠ .startAfterEnd start stop) ∧
        BlockHash.normalize text = .error what := by
    intro text htext
    obtain ⟨what, hwhat⟩ := exists_error (mt BlockHash.exists_normalize_iff.1 htext)
    refine ⟨what, ?_, hwhat⟩
    rcases BlockHash.normalize_eq_error hwhat with rfl | rfl <;> simp
  cases selector with
  | index i => exact ⟨.negativeIndex i, by simp, hnegative h⟩
  | hash text =>
    obtain ⟨what, hkind, hwhat⟩ := hhash h
    refine ⟨what, hkind, ?_⟩
    rw [Script.block, Script.blockByHash, hwhat]
    rfl
  | indexAndHash i text =>
    by_cases htext : BlockHash.IsHash text
    · obtain ⟨normal, hnormal⟩ := BlockHash.exists_normalize_iff.2 htext
      refine ⟨.negativeIndex i, by simp, ?_⟩
      rw [Script.block, Script.blockByIndexAndHash, hnormal,
        hnegative (h.resolve_right (not_not_intro htext))]
      rfl
    · obtain ⟨what, hkind, hwhat⟩ := hhash htext
      refine ⟨what, hkind, ?_⟩
      rw [Script.block, Script.blockByIndexAndHash, hwhat]
      rfl
  | latest => exact h.elim
  | genesis => exact h.elim

theorem checkRange_of_lt {start stop : Int64} (h : stop < start) :
    Script.checkRange start stop =
      Script.refuse (.invalidArgument (.startAfterEnd start stop)) := by
  rw [Script.checkRange, if_pos h]
  rfl

theorem script_of_malformed (settings : Settings) (h : query.Malformed) :
    ∃ what, settings.script query = Script.refuse (.invalidArgument what) := by
  cases query with
  | resolveBlock selector =>
    obtain ⟨what, -, hwhat⟩ := block_of_malformed h
    exact ⟨what, by rw [Settings.script, hwhat]; rfl⟩
  | balance account stop => exact h.elim
  | balanceAtBlock account selector =>
    obtain ⟨what, -, hwhat⟩ := block_of_malformed h
    exact ⟨what, by rw [Settings.script, hwhat]; rfl⟩
  | transactions start stop =>
    exact ⟨_, by rw [Settings.script, Script.transactions, checkRange_of_lt h]; rfl⟩
  | transactionByHash text start stop =>
    by_cases htext : BlockHash.IsHash text
    · obtain ⟨hash, hhash⟩ := BlockHash.exists_bytes_iff.2 htext
      have hrange := checkRange_of_lt (h.resolve_left (not_not_intro htext))
      exact ⟨_, by rw [Settings.script, Script.transactionByHash, hhash, hrange]; rfl⟩
    · obtain ⟨what, hwhat⟩ := exists_error (mt BlockHash.exists_bytes_iff.1 htext)
      exact ⟨what, by rw [Settings.script, Script.transactionByHash, hwhat]; rfl⟩
  | blockTransactions selector =>
    obtain ⟨what, -, hwhat⟩ := block_of_malformed h
    exact ⟨what, by rw [Settings.script, hwhat]; rfl⟩
  | addressBook => exact h.elim

theorem Node.ask_of_malformed (n : Node) (context : RequestContext) (h : query.Malformed) :
    ∃ what, (n.ask context query).1 = Outcome.fail (.invalidArgument what) ∧
      (n.ask context query).2 = { n with metrics := (n.ask context query).2.metrics } := by
  obtain ⟨what, hwhat⟩ := script_of_malformed n.settings h
  refine ⟨what, ?_, ?_⟩ <;> (rw [Node.ask, hwhat]; rfl)

end Refused

/-! ## What is accepted -/

/-- The error blames something else than an argument. -/
def LedgerError.SparesCaller (e : LedgerError) : Prop :=
  e.kind ≠ .invalidArgument

instance (e : LedgerError) : Decidable e.SparesCaller :=
  inferInstanceAs (Decidable (_ ≠ _))

theorem sparesCaller_notFound (what : Missing) : (LedgerError.notFound what).SparesCaller :=
  fun hkind => by cases hkind

namespace Script

variable {α β : Type} {s : Store} {memo? : Option Block}

/-- Over this store, and with this memo, the script does not end by blaming an argument. -/
def AcceptsOver (s : Store) (memo? : Option Block) (script : Script α) : Prop :=
  ((script.eval s memo?).1).OnlyCauses LedgerError.SparesCaller

theorem acceptsOver_ok (a : α) : (done (.ok a)).AcceptsOver s memo? :=
  onlyCauses_ok a

theorem acceptsOver_done {x : Outcome LedgerError α} (h : x.OnlyCauses LedgerError.IsCorruption) :
    (done x).AcceptsOver s memo? :=
  onlyCauses_imp h fun _ hcorrupt => by
    obtain ⟨what, rfl⟩ := hcorrupt
    exact fun hkind => by cases hkind

theorem acceptsOver_refuse {e : LedgerError} (h : e.SparesCaller) :
    (refuse e : Script α).AcceptsOver s memo? :=
  onlyCauses_fail h

theorem acceptsOver_bind {script : Script α} {f : α → Script β} (h : script.AcceptsOver s memo?)
    (hf : ∀ a memo', script.eval s memo? = (.ok a, memo') → (f a).AcceptsOver s memo') :
    (script.bind f).AcceptsOver s memo? := by
  intro e he
  rcases eval_bind_eq_error.1 he with hfirst | ⟨a, memo', ha, hrest⟩
  · exact h e hfirst
  · exact hf a memo' ha e hrest

theorem acceptsOver_ask {operation : String} {look : Store → α} :
    (ask operation look).AcceptsOver s memo? :=
  onlyCauses_ok _

theorem acceptsOver_askChecked {operation : String} {look : Store → Except StoreError α} :
    (askChecked operation look).AcceptsOver s memo? :=
  onlyCauses_ofExcept (fun e hkind => by cases e <;> cases hkind) _

theorem acceptsOver_find {operation : String} {missing : LedgerError}
    (h : missing.SparesCaller) {look : Store → Option α} :
    (find operation missing look).AcceptsOver s memo? :=
  onlyCauses_ofOption h _

theorem check_bind {a : α} {f : α → Script β} : (check (.ok a)).bind f = f a := rfl

/-! ### Blocks -/

theorem acceptsOver_ofRecordFile (file : RecordFile) (g : Block) :
    (done (Block.ofRecordFile file g)).AcceptsOver s memo? := by
  refine acceptsOver_done ?_
  unfold Block.ofRecordFile
  split
  · exact onlyCauses_ok g
  · exact onlyCauses_bind (onlyCauses_fit _ _) fun _ _ => onlyCauses_ok _

theorem acceptsOver_genesis : genesis.AcceptsOver s memo? := by
  cases memo? with
  | some g => exact onlyCauses_ok g
  | none =>
    have hblock : ∀ (file : RecordFile) (snapshot : Int64),
        (Block.genesis file snapshot).OnlyCauses LedgerError.IsCorruption := by
      intro file snapshot
      unfold Block.genesis
      split
      · exact onlyCauses_bind (onlyCauses_fit _ _) fun _ _ => onlyCauses_ok _
      · exact onlyCauses_ok _
    exact acceptsOver_bind (acceptsOver_find (by decide)) fun snapshot _ _ =>
      acceptsOver_bind (acceptsOver_find (by decide)) fun file _ _ =>
        acceptsOver_bind (acceptsOver_done (hblock file snapshot)) fun g _ _ => onlyCauses_ok g

theorem acceptsOver_blockFrom (g : Block) (file : RecordFile) :
    (blockFrom g file).AcceptsOver s memo? := by
  unfold blockFrom
  split
  · exact acceptsOver_refuse (by decide)
  · exact acceptsOver_ofRecordFile file g

theorem acceptsOver_blockByIndex {index : Int64} (h : 0 ≤ index) :
    (blockByIndex index).AcceptsOver s memo? := by
  rw [blockByIndex, if_neg (Int64.not_lt.2 h)]
  refine acceptsOver_bind acceptsOver_genesis fun g _ _ => ?_
  split
  · exact acceptsOver_refuse (by decide)
  · exact acceptsOver_bind (acceptsOver_find (by decide)) fun file _ _ =>
      acceptsOver_ofRecordFile file g

theorem acceptsOver_block {selector : BlockSelector} (h : selector.Accepted) :
    (block selector).AcceptsOver s memo? := by
  have hgenesis : ∀ {operation : String} {look : Store → Option RecordFile},
      (genesis.bind fun g => (find operation (.notFound .block) look).bind fun file =>
        blockFrom g file).AcceptsOver s memo? :=
    acceptsOver_bind acceptsOver_genesis fun g _ _ =>
      acceptsOver_bind (acceptsOver_find (by decide)) fun file _ _ => acceptsOver_blockFrom g file
  cases selector with
  | index index => exact acceptsOver_blockByIndex h
  | hash text =>
    obtain ⟨normal, hnormal⟩ := h
    rw [block, blockByHash, hnormal]
    exact hgenesis
  | indexAndHash index text =>
    obtain ⟨hindex, normal, hnormal⟩ := h
    rw [block, blockByIndexAndHash, hnormal, bind_eq, check_bind]
    refine acceptsOver_bind (acceptsOver_blockByIndex hindex) fun b _ _ => ?_
    split
    · exact acceptsOver_ok b
    · exact acceptsOver_refuse (by decide)
  | latest => exact hgenesis
  | genesis => exact acceptsOver_genesis

/-! ### Balances -/

theorem acceptsOver_account (selector : AccountSelector) :
    (account selector).AcceptsOver s memo? := by
  cases selector with
  | byId id =>
    exact acceptsOver_bind (acceptsOver_find (sparesCaller_notFound _)) fun entity _ _ =>
      acceptsOver_bind acceptsOver_ask fun _ _ _ => acceptsOver_ok _
  | byAlias bytes =>
    refine acceptsOver_bind acceptsOver_askChecked fun id? _ _ => ?_
    cases id? with
    | none => exact acceptsOver_ok _
    | some id => exact acceptsOver_bind acceptsOver_ask fun _ _ _ => acceptsOver_ok _

theorem onlyCauses_amounts (inputs : BalanceInputs) :
    inputs.amounts.OnlyCauses LedgerError.IsCorruption := by
  intro e he
  obtain ⟨what, rfl⟩ := cause_of_amounts he
  exact ⟨.rowId what, rfl⟩

theorem acceptsOver_balance (selector : AccountSelector) (stop : Int64) :
    (balance selector stop).AcceptsOver s memo? := by
  refine acceptsOver_bind (acceptsOver_account selector) fun (account, entity?) _ _ => ?_
  dsimp only
  split
  · exact acceptsOver_ok _
  · refine acceptsOver_bind ?_ fun _ _ _ => acceptsOver_ok _
    refine acceptsOver_bind (acceptsOver_done fun _ h => absurd h window_ne_cause) fun _ _ _ => ?_
    exact acceptsOver_bind (acceptsOver_find (by decide)) fun _ _ _ =>
      acceptsOver_bind acceptsOver_askChecked fun inputs _ _ =>
        acceptsOver_done (onlyCauses_amounts inputs)

/-! ### Transactions -/

theorem acceptsOver_correct (rows : List TransactionRow) :
    (correct rows).AcceptsOver s memo? := by
  unfold correct
  dsimp only
  split
  · exact acceptsOver_ok rows
  · exact acceptsOver_bind acceptsOver_ask fun _ _ _ => onlyCauses_ok _

theorem acceptsOver_scan {memo? : Option Block} (batch : Nat) (stop cursor : Int64)
    (gathered : List TransactionRow) : (scan batch stop cursor gathered).AcceptsOver s memo? := by
  rw [scan_eq]
  refine acceptsOver_bind (acceptsOver_correct _) fun corrected memo' _ => ?_
  cases hend : pageEnd? (s.transactionsInRange cursor stop batch) batch stop with
  | none => exact acceptsOver_ok _
  | some last =>
    cases hnext : (addChecked last 1 : Outcome LedgerError Int64) with
    | error e =>
      simp only [hnext]
      exact acceptsOver_done (onlyCauses_error (onlyCauses_fit _ _) hnext)
    | ok next =>
      simp only [hnext]
      exact acceptsOver_scan batch stop next _
termination_by (stop.toInt - cursor.toInt).toNat
decreasing_by exact remaining_lt hend hnext

theorem checkRange_of_le {start stop : Int64} (h : start ≤ stop) :
    checkRange start stop = check (.ok ()) := by
  rw [checkRange, if_neg (Int64.not_lt.2 h)]

theorem acceptsOver_transactions (a : Assembler) (batch : Nat) {start stop : Int64}
    (h : start ≤ stop) : (transactions a batch start stop).AcceptsOver s memo? := by
  rw [transactions, checkRange_of_le h, bind_eq, check_bind]
  exact acceptsOver_bind (acceptsOver_scan batch stop start []) fun rows _ _ =>
    acceptsOver_done (a.onlyCauses_assemble rows)

theorem acceptsOver_transactionByHash (a : Assembler) {text : String} {start stop : Int64}
    (htext : BlockHash.IsHash text) (h : start ≤ stop) :
    (transactionByHash a text start stop).AcceptsOver s memo? := by
  obtain ⟨bytes, hbytes⟩ := BlockHash.exists_bytes_iff.2 htext
  rw [transactionByHash, hbytes, bind_eq, check_bind, checkRange_of_le h, bind_eq, check_bind]
  refine acceptsOver_bind acceptsOver_ask fun rows _ _ => ?_
  split
  · exact acceptsOver_refuse (sparesCaller_notFound _)
  · exact acceptsOver_bind (acceptsOver_correct rows) fun corrected _ _ =>
      acceptsOver_bind (acceptsOver_done (a.onlyCauses_assemble corrected)) fun _ _ _ =>
        onlyCauses_ofOption (sparesCaller_notFound _) _

theorem acceptsOver_addressBook (file fallback : EntityId) :
    (addressBook file fallback).AcceptsOver s memo? := by
  refine acceptsOver_bind acceptsOver_ask fun rows _ _ => ?_
  dsimp only
  split
  · exact acceptsOver_bind acceptsOver_ask fun rows _ _ =>
      acceptsOver_done (AddressBookEntry.onlyCauses_ofRows rows)
  · exact acceptsOver_done (AddressBookEntry.onlyCauses_ofRows rows)

end Script

/-! ## Blocks that do not start after their end -/

/-- No record file starts after its own end. -/
def Store.Ordered (s : Store) : Prop :=
  ∀ file ∈ s.recordFiles.values, file.consensusStart ≤ file.consensusEnd

/-- Neither does the memoized genesis block. -/
structure Node.Ordered (n : Node) : Prop where
  files : n.store.Ordered
  memo : ∀ g, n.genesis? = some g → g.consensusStart ≤ g.consensusEnd

section Ordered

variable {s : Store} {memo? : Option Block} {g b : Block} {selector : BlockSelector} {n : Node}

theorem ordered_of_isGenesis (hfiles : s.Ordered) (h : s.IsGenesis g) :
    g.consensusStart ≤ g.consensusEnd := by
  obtain ⟨snapshot, -, file, hfile, hend, hopens⟩ := exists_opens (holdsOrigin_of_isGenesis h)
  exact (hopens.bounds hend).2 (hfiles file hfile)

theorem ordered_of_resolves (hfiles : s.Ordered)
    (hmemo : ∀ g, memo? = some g → g.consensusStart ≤ g.consensusEnd) (h : s.Resolves memo? g) :
    g.consensusStart ≤ g.consensusEnd :=
  of_resolves hmemo (fun _ => ordered_of_isGenesis hfiles) h

theorem exists_file_of_selects (h : s.Selects g selector b) :
    b = g ∨ ∃ file ∈ s.recordFiles.values,
      (Block.ofRecordFile file g : Outcome LedgerError Block) = .ok b := by
  have hat : ∀ {index}, s.BlockAt g index b → ∃ file ∈ s.recordFiles.values,
      (Block.ofRecordFile file g : Outcome LedgerError Block) = .ok b := by
    rintro index ⟨-, -, file, hfile, hb⟩
    exact ⟨file, Table.mem_values_of_get? hfile, hb⟩
  cases selector with
  | index index => exact .inr (hat h)
  | hash text =>
    obtain ⟨normal, -, file, hfile, hb⟩ := h
    exact .inr ⟨file, List.mem_of_find?_eq_some hfile, hb.2⟩
  | indexAndHash index text =>
    obtain ⟨normal, -, hb, -⟩ := h
    exact .inr (hat hb)
  | latest =>
    obtain ⟨file, hfile, hb⟩ := h
    exact .inr ⟨file, List.mem_of_getLast? hfile, hb.2⟩
  | genesis => exact .inl h

theorem ordered_of_selects (hfiles : s.Ordered) (hg : g.consensusStart ≤ g.consensusEnd)
    (h : s.Selects g selector b) : b.consensusStart ≤ b.consensusEnd := by
  obtain rfl | ⟨file, hfile, hb⟩ := exists_file_of_selects h
  · exact hg
  · unfold Block.ofRecordFile at hb
    split at hb
    · cases hb
      exact hg
    · obtain ⟨parentIndex, -, hb⟩ := bind_eq_ok.1 hb
      cases hb
      exact hfiles file hfile

theorem ordered_ingest (h : s.Ordered) {record : Ingestion}
    (hrecord : ∀ file, record = .recordFile file → file.consensusStart ≤ file.consensusEnd) :
    (s.ingest record).Ordered := by
  cases record with
  | recordFile file =>
    intro other hother
    obtain ⟨e, he, rfl⟩ := List.mem_map.1 hother
    rcases Table.mem_put he with rfl | he
    · exact hrecord file rfl
    · exact h e.2 (List.mem_map_of_mem he)
  | deleteToken token =>
    rw [Store.ingest, Store.deleteToken_eq]
    exact h
  | _ => exact h

/-- A record file that does not start after its end keeps a node ordered, and so does every other
event: what a query memoizes is the genesis block of the store. -/
theorem ordered_step (h : n.Ordered) {event : Node.Event}
    (hevent : ∀ file, event = .ingest (.recordFile file) →
      file.consensusStart ≤ file.consensusEnd) : (n.step event).Ordered := by
  cases event with
  | ingest record =>
    refine ⟨ordered_ingest h.files fun file hfile => hevent file (hfile ▸ rfl), h.memo⟩
  | fail failure? => exact ⟨h.files, h.memo⟩
  | delay latency => exact ⟨h.files, h.memo⟩
  | ask context query =>
    refine ⟨h.files, fun g hg => ?_⟩
    cases hmemo : n.genesis? with
    | none => exact ordered_of_isGenesis h.files ((Node.genesis_ask_of_none hmemo).1 hg).2.2
    | some memoized =>
      cases (Node.genesis_ask_of_some hmemo).symm.trans hg
      exact h.memo g hmemo

theorem ordered_run (h : n.Ordered) {events : List Node.Event}
    (hevents : ∀ file, .ingest (.recordFile file) ∈ events →
      file.consensusStart ≤ file.consensusEnd) : (n.run events).Ordered := by
  induction events generalizing n with
  | nil => exact h
  | cons event events ih =>
    refine ih (ordered_step h fun file hfile => hevents file ?_) fun file hfile =>
      hevents file (List.mem_cons_of_mem _ hfile)
    rw [hfile]
    exact List.mem_cons_self

end Ordered

/-! ## Queries -/

section Query

open Script

variable {s : Store} {memo? : Option Block} {n : Node} {query : Query}
  {context : RequestContext}

/-- Over record files in order, a query that is not malformed is not refused as invalid. What it
takes from a block that it found is in order as well. -/
theorem acceptsOver_script (settings : Settings) (hfiles : s.Ordered)
    (hmemo : ∀ g, memo? = some g → g.consensusStart ≤ g.consensusEnd)
    (hquery : ¬query.Malformed) : (settings.script query).AcceptsOver s memo? := by
  have hblock : ∀ {selector : BlockSelector}, ¬selector.Malformed →
      (Script.block selector).AcceptsOver s memo? :=
    fun h => acceptsOver_block (accepted_iff_not_malformed.2 h)
  cases query with
  | resolveBlock selector =>
    exact acceptsOver_bind (hblock hquery) fun b _ _ => acceptsOver_ok _
  | balance account stop =>
    exact acceptsOver_bind (acceptsOver_balance account stop) fun _ _ _ => acceptsOver_ok _
  | balanceAtBlock account selector =>
    exact acceptsOver_bind (hblock hquery) fun b _ _ =>
      acceptsOver_bind (acceptsOver_balance account b.consensusEnd) fun _ _ _ => acceptsOver_ok _
  | transactions start stop =>
    exact acceptsOver_bind (acceptsOver_transactions _ _ (Int64.not_lt.1 hquery)) fun _ _ _ =>
      acceptsOver_ok _
  | transactionByHash text start stop =>
    obtain ⟨htext, hrange⟩ := not_or.1 hquery
    exact acceptsOver_bind
      (acceptsOver_transactionByHash _ (not_not.1 htext) (Int64.not_lt.1 hrange))
      fun _ _ _ => acceptsOver_ok _
  | blockTransactions selector =>
    refine acceptsOver_bind (hblock hquery) fun b memo' hb => ?_
    obtain ⟨g, hg, -, hselects⟩ := eval_block_eq_ok.1 hb
    have hordered := ordered_of_selects hfiles (ordered_of_resolves hfiles hmemo hg) hselects
    exact acceptsOver_bind (acceptsOver_transactions _ _ hordered) fun _ _ _ => acceptsOver_ok _
  | addressBook =>
    exact acceptsOver_bind (acceptsOver_addressBook _ _) fun _ _ _ => acceptsOver_ok _

theorem invalid_iff_of_ordered (h : n.Ordered) :
    (∃ what, (n.ask context query).1 = Outcome.fail (.invalidArgument what)) ↔
      query.Malformed := by
  constructor
  · rintro ⟨what, hwhat⟩
    by_contra hquery
    have hown : ∀ e, (Outcome.fail (.invalidArgument what) : Outcome LedgerError Answer) ≠
        Outcome.fail (LedgerError.ofStore e) := by
      intro e
      cases e <;> simp [Outcome.fail, LedgerError.ofStore]
    have heval := Script.eval_of_run_eq (p := n.progress) hwhat hown
    exact acceptsOver_script n.settings h.files h.memo hquery _ heval rfl
  · intro hquery
    obtain ⟨what, hwhat, -⟩ := n.ask_of_malformed context hquery
    exact ⟨what, hwhat⟩

theorem not_startAfterEnd_of_ordered (h : n.Ordered) (selector : BlockSelector)
    (start stop : Int64) :
    (n.ask context (.blockTransactions selector)).1 ≠
      Outcome.fail (.invalidArgument (.startAfterEnd start stop)) := by
  intro hrefused
  have hmalformed : (Query.blockTransactions selector).Malformed :=
    (invalid_iff_of_ordered h).1 ⟨_, hrefused⟩
  obtain ⟨what, hkind, hwhat⟩ := block_of_malformed hmalformed
  rw [Node.ask, Settings.script, hwhat] at hrefused
  have hsame : (Outcome.fail (.invalidArgument what) : Outcome LedgerError Answer) =
      Outcome.fail (.invalidArgument (.startAfterEnd start stop)) := hrefused
  cases hsame
  exact hkind start stop rfl

end Query

/-- Along every run of a fresh service over record files none of which starts after its end, a query
is refused as invalid just if it is malformed. Then it makes no store call, and the node stays as it
is but for its counts. The range of a block that a query found is never refused. -/
theorem invalid_iff_malformed {start : Node} (hfresh : start.genesis? = none)
    (hstored : start.store.Ordered) {events : List Node.Event}
    (hingested : ∀ file, .ingest (.recordFile file) ∈ events →
      file.consensusStart ≤ file.consensusEnd) (context : RequestContext) (query : Query) :
    let n := start.run events
    ((∃ what, (n.ask context query).1 = Outcome.fail (.invalidArgument what)) ↔
      query.Malformed) ∧
    (query.Malformed → (∀ s memo?, (n.settings.script query).waits s memo? = 0) ∧
      (n.ask context query).2 = { n with metrics := (n.ask context query).2.metrics }) ∧
    ∀ selector start stop, (n.ask context (.blockTransactions selector)).1 ≠
      Outcome.fail (.invalidArgument (.startAfterEnd start stop)) := by
  intro n
  have hordered : n.Ordered :=
    ordered_run ⟨hstored, fun g hg => by cases hfresh.symm.trans hg⟩ hingested
  refine ⟨invalid_iff_of_ordered hordered, fun hquery => ⟨fun s memo? => ?_, ?_⟩,
    not_startAfterEnd_of_ordered hordered⟩
  · obtain ⟨what, hwhat⟩ := script_of_malformed n.settings hquery
    rw [hwhat]
    rfl
  · obtain ⟨what, -, hsame⟩ := n.ask_of_malformed context hquery
    exact hsame

/-- The first record file spans the snapshot, so that the genesis block is shifted. Now the store
fails. -/
private def shiftedEvents : List Node.Event := [
  .ingest (.recordFile ⟨5, "ab12", "00", 10, 90⟩),
  .ingest (.snapshot 89),
  .ask .background (.resolveBlock .genesis),
  .fail (some (.unavailable (.io "down")))]

theorem invalid_iff_malformed_shifted :
    (∃ what, ((({} : Node).run shiftedEvents).ask .background
        (.balanceAtBlock (.byId (.numbered 1001)) (.indexAndHash (-1) "0xAB12"))).1 =
          Outcome.fail (.invalidArgument what)) ∧
      (∃ what, ((({} : Node).run shiftedEvents).ask .background
        (.transactionByHash "0xAB1" 10 90)).1 = Outcome.fail (.invalidArgument what)) ∧
      ¬∃ what, ((({} : Node).run shiftedEvents).ask .background
        (.blockTransactions (.hash "0XAb12"))).1 = Outcome.fail (.invalidArgument what) := by
  have hstored : ({} : Node).store.Ordered := by
    unfold Store.Ordered
    decide
  have hingested : ∀ file, Node.Event.ingest (.recordFile file) ∈ shiftedEvents →
      file.consensusStart ≤ file.consensusEnd := by
    intro file hfile
    simp [shiftedEvents] at hfile
    subst hfile
    decide
  have hasked := invalid_iff_malformed rfl hstored hingested .background
  refine ⟨(hasked _).1.2 (.inl (by decide)), (hasked _).1.2 (.inl fun htext => ?_),
    fun hrefused => (hasked _).1.1 hrefused ?_⟩
  · obtain ⟨normal, hnormal⟩ := BlockHash.exists_normalize_iff.2 htext
    cases hnormal.symm.trans (show _ = Except.error (BadArgument.malformedHash "0xAB1") by decide)
  · exact BlockHash.exists_normalize_iff.1 ⟨"ab12", by decide⟩

end LedgerView
