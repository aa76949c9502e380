import Mathlib
import LedgerView.Proofs.Plain
import LedgerView.Proofs.Selectors
/-!
# The genesis block along runs

A node memoizes the genesis block when a query resolves it for the first time, and keeps it
whatever happens later (`genesis_memo_run`). The blocks that queries answer with come at or behind
it (`Block.Follows`).
-/

namespace LedgerView

/-! ## The beginning of a store -/

/-- The genesis block of what the store holds: over the record file of least index among those
that end after the earliest snapshot. -/
def Store.Begins (s : Store) (g : Block) : Prop :=
  ∃ snapshot ∈ s.snapshots.keys, (∀ other ∈ s.snapshots.keys, snapshot ≤ other) ∧
    ∃ file ∈ s.recordFiles.values, snapshot < file.consensusEnd ∧
      (∀ other ∈ s.recordFiles.values, snapshot < other.consensusEnd → file.index ≤ other.index) ∧
      (Block.genesis file snapshot : Outcome LedgerError Block) = .ok g

theorem firstRecordFileEndingAfter?_eq_some_iff {s : Store} (hkeyed : s.Keyed) {snapshot : Int64}
    {file : RecordFile} :
    s.firstRecordFileEndingAfter? snapshot = some file ↔
      file ∈ s.recordFiles.values ∧ snapshot < file.consensusEnd ∧
        ∀ other ∈ s.recordFiles.values, snapshot < other.consensusEnd →
          file.index ≤ other.index := by
  rw [Store.firstRecordFileEndingAfter?, Table.find?_values_eq_some_iff]
  simp only [decide_eq_true_eq, Table.values, List.mem_map]
  constructor
  · rintro ⟨k, hmem, hend, hleast⟩
    refine ⟨⟨_, hmem, rfl⟩, hend, ?_⟩
    rintro other ⟨e, he, rfl⟩ hother
    rw [hkeyed _ hmem, hkeyed e he]
    exact hleast e he hother
  · rintro ⟨⟨e, he, rfl⟩, hend, hleast⟩
    refine ⟨e.1, he, hend, fun e' he' hend' => ?_⟩
    rw [← hkeyed e he, ← hkeyed e' he']
    exact hleast e'.2 ⟨e', he', rfl⟩ hend'

theorem isGenesis_iff_begins {s : Store} (hkeyed : s.Keyed) {g : Block} :
    s.IsGenesis g ↔ s.Begins g := by
  simp only [Store.IsGenesis, Store.Begins, Store.earliestSnapshot?,
    Table.head?_keys_eq_some_iff, firstRecordFileEndingAfter?_eq_some_iff hkeyed]
  constructor
  · rintro ⟨snapshot, file, ⟨hsnapshot, hearliest⟩, ⟨hfile, hend, hleast⟩, hg⟩
    exact ⟨snapshot, hsnapshot, hearliest, file, hfile, hend, hleast, hg⟩
  · rintro ⟨snapshot, hsnapshot, hearliest, file, hfile, hend, hleast, hg⟩
    exact ⟨snapshot, file, ⟨hsnapshot, hearliest⟩, ⟨hfile, hend, hleast⟩, hg⟩

/-! ## Queries that come to the genesis block -/

/-- The block selector in a query. -/
def Query.selector? : Query → Option BlockSelector
  | .resolveBlock selector => some selector
  | .balanceAtBlock _ selector => some selector
  | .blockTransactions selector => some selector
  | _ => none

/-- The arguments in a selector are accepted. -/
def BlockSelector.Accepted : BlockSelector → Prop
  | .index i => 0 ≤ i
  | .hash text => ∃ normal, BlockHash.normalize text = .ok normal
  | .indexAndHash i text => 0 ≤ i ∧ ∃ normal, BlockHash.normalize text = .ok normal
  | .latest => True
  | .genesis => True

/-- The query has a block selector that is accepted, so the genesis block is the first thing that it
asks for. -/
def Query.NeedsGenesis (query : Query) : Prop :=
  ∃ selector, query.selector? = some selector ∧ selector.Accepted

namespace Script

theorem bind_assoc {α β γ : Type} (script : Script α) (f : α → Script β) (h : β → Script γ) :
    (script.bind f).bind h = script.bind fun a => (f a).bind h := by
  induction script with
  | done answer => cases answer <;> rfl
  | wait operation next ih => simp only [bind, ih]
  | count metric next ih => simp only [bind, ih]
  | consult next ih => simp only [bind, ih]
  | memoize genesis next ih => simp only [bind, ih]

theorem bind_done {α : Type} (script : Script α) :
    (script.bind fun a => done (.ok a)) = script := by
  induction script with
  | done answer => cases answer <;> rfl
  | wait operation next ih => simp only [bind, ih]
  | count metric next ih => simp only [bind, ih]
  | consult next ih => simp only [bind, ih]
  | memoize genesis next ih => simp only [bind, ih]

theorem plain_blockFrom (g : Block) (file : RecordFile) : (blockFrom g file).Plain := by
  unfold blockFrom
  split <;> trivial

theorem blockByIndex_eq {index : Int64} (h : 0 ≤ index) :
    ∃ f : Block → Script Block, (∀ g, (f g).Plain) ∧ blockByIndex index = genesis.bind f := by
  rw [blockByIndex, if_neg (Int64.not_lt.2 h)]
  refine ⟨_, fun g => ?_, rfl⟩
  split
  · trivial
  · exact plain_bind plain_wait fun _ => plain_done _

theorem block_eq {selector : BlockSelector} (h : selector.Accepted) :
    ∃ f : Block → Script Block, (∀ g, (f g).Plain) ∧ block selector = genesis.bind f := by
  cases selector with
  | index index => exact blockByIndex_eq h
  | hash text =>
    obtain ⟨normal, hnormal⟩ := h
    rw [block, blockByHash, hnormal]
    exact ⟨_, fun g => plain_bind plain_wait fun file => plain_blockFrom g file, rfl⟩
  | indexAndHash index text =>
    obtain ⟨hindex, normal, hnormal⟩ := h
    obtain ⟨f, hf, heq⟩ := blockByIndex_eq hindex
    rw [block, blockByIndexAndHash, hnormal, heq]
    refine ⟨_, fun g => plain_bind (hf g) fun b => ?_, bind_assoc genesis f _⟩
    split <;> trivial
  | latest => exact ⟨_, fun g => plain_bind plain_wait fun file => plain_blockFrom g file, rfl⟩
  | genesis => exact ⟨fun g => done (.ok g), fun _ => trivial, (bind_done genesis).symm⟩

theorem plain_block_of_not_accepted {selector : BlockSelector} (h : ¬selector.Accepted) :
    (block selector).Plain := by
  have hhash : ∀ {text : String} {f : String → Script Block},
      (¬∃ normal, BlockHash.normalize text = .ok normal) →
        ((check (BlockHash.normalize text)).bind f).Plain := by
    intro text f hrefused
    cases hnormal : BlockHash.normalize text with
    | error e => trivial
    | ok normal => exact absurd ⟨normal, hnormal⟩ hrefused
  cases selector with
  | index index =>
    rw [block, blockByIndex, if_pos (Int64.not_le.1 h)]
    trivial
  | hash text => exact hhash h
  | indexAndHash index text =>
    by_cases hindex : 0 ≤ index
    · exact hhash fun hnormal => h ⟨hindex, hnormal⟩
    · refine plain_bind (plain_done _) fun normal => plain_bind ?_ fun b => ?_
      · rw [blockByIndex, if_pos (Int64.not_le.1 hindex)]
        trivial
      · split <;> trivial
  | latest => exact absurd trivial h
  | genesis => exact absurd trivial h

end Script

theorem script_eq {query : Query} (settings : Settings) (h : query.NeedsGenesis) :
    ∃ f : Block → Script Answer, (∀ g, (f g).Plain) ∧
      settings.script query = Script.genesis.bind f := by
  obtain ⟨selector, hselector, haccepted⟩ := h
  obtain ⟨f, hf, heq⟩ := Script.block_eq haccepted
  -- what follows the block is plain for every kind of query
  have hrest : ∀ rest : Block → Script Answer, (∀ b, (rest b).Plain) →
      ∃ f : Block → Script Answer, (∀ g, (f g).Plain) ∧
        (Script.block selector).bind rest = Script.genesis.bind f := by
    intro rest hplain
    rw [heq, Script.bind_assoc]
    exact ⟨_, fun g => Script.plain_bind (hf g) hplain, rfl⟩
  cases query with
  | resolveBlock _ =>
    cases hselector
    exact hrest _ fun _ => trivial
  | balanceAtBlock account _ =>
    cases hselector
    exact hrest _ fun b => Script.plain_bind (Script.plain_balance ..) fun _ => trivial
  | blockTransactions _ =>
    cases hselector
    exact hrest _ fun b => Script.plain_bind (Script.plain_transactions ..) fun _ => trivial
  | _ => cases hselector

theorem plain_of_not_needsGenesis {query : Query} (settings : Settings)
    (h : ¬query.NeedsGenesis) : (settings.script query).Plain := by
  have hblock : ∀ selector, query.selector? = some selector →
      (Script.block selector).Plain := fun selector hselector =>
    Script.plain_block_of_not_accepted fun haccepted => h ⟨selector, hselector, haccepted⟩
  cases query with
  | resolveBlock selector => exact Script.plain_bind (hblock selector rfl) fun _ => trivial
  | balance account stop => exact Script.plain_bind (Script.plain_balance ..) fun _ => trivial
  | balanceAtBlock account selector =>
    exact Script.plain_bind (hblock selector rfl) fun b =>
      Script.plain_bind (Script.plain_balance ..) fun _ => trivial
  | transactions start stop =>
    exact Script.plain_bind (Script.plain_transactions ..) fun _ => trivial
  | transactionByHash text start stop =>
    exact Script.plain_bind (Script.plain_transactionByHash ..) fun _ => trivial
  | blockTransactions selector =>
    exact Script.plain_bind (hblock selector rfl) fun b =>
      Script.plain_bind (Script.plain_transactions ..) fun _ => trivial
  | addressBook => exact Script.plain_bind (Script.plain_addressBook _ _) fun _ => trivial

/-! ## One query -/

namespace Script

variable {around : Surroundings} {p : Progress} {g : Block}

theorem discoverGenesis_eq : ∃ search : Script Block, search.Plain ∧
    discoverGenesis = search.bind fun g => memoize g (done (.ok g)) := by
  refine ⟨(find "earliest_snapshot_timestamp" .nodeIsStarting Store.earliestSnapshot?).bind
    fun snapshot => (find "first_record_file_ending_after" (.notFound .block) fun store =>
      store.firstRecordFileEndingAfter? snapshot).bind fun file =>
        done (Block.genesis file snapshot), ?_, ?_⟩
  · exact plain_bind plain_wait fun _ => plain_bind plain_wait fun _ => plain_done _
  · simp only [bind_assoc]
    rfl

/-- The genesis block is memoized last, so what is memoized has been found. -/
theorem ok_of_run_discoverGenesis (hp : p.genesis? = none)
    (h : (discoverGenesis.run around p).2.genesis? = some g) :
    (discoverGenesis.run around p).1 = .ok g := by
  obtain ⟨search, hplain, heq⟩ := discoverGenesis_eq
  have hkept : (search.run around p).2.genesis? = p.genesis? := run_of_plain hplain p
  rw [heq, run_bind] at h ⊢
  rcases hrun : search.run around p with ⟨e | found, q⟩
  · rw [hrun] at h hkept
    rw [hp] at hkept
    exact absurd (hkept.symm.trans h) (by simp)
  · rw [hrun] at h
    cases h
    rfl

/-- An empty memo is filled just if both calls come back and the store holds a genesis block. -/
theorem run_genesis_iff (hp : p.genesis? = none) :
    (genesis.run around p).2.genesis? = some g ↔
      around.Permits p.clock 2 ∧ around.store.IsGenesis g := by
  have hresolves : ∀ {g}, around.store.IsGenesis g → around.store.Resolves p.genesis? g := by
    intro g hg
    rw [hp]
    exact hg
  have hcalls : ∀ {g}, around.store.IsGenesis g → genesis.waits around.store p.genesis? = 2 := by
    intro g hg
    rw [waits_genesis (hresolves hg), hp]
    rfl
  have hrun : genesis.run around p = discoverGenesis.run around p := by
    rw [genesis, run, hp]
  constructor
  · intro h
    have hok : (genesis.run around p).1 = .ok g := by
      rw [hrun] at h ⊢
      exact ok_of_run_discoverGenesis hp h
    have heval := eval_genesis_eq_ok.1 (Prod.ext (eval_of_run hok) rfl)
    have hg : around.store.IsGenesis g := by
      have hg := heval.1
      rw [hp] at hg
      exact hg
    have hpermits := permits_of_run hok
    rw [hcalls hg] at hpermits
    exact ⟨hpermits, hg⟩
  · rintro ⟨hpermits, hg⟩
    rw [← hcalls hg] at hpermits
    rw [(run_of_permits hpermits).2, eval_genesis_eq_ok.2 ⟨hresolves hg, rfl⟩]

theorem run_genesis_of_some (hp : p.genesis? = some g) : genesis.run around p = (.ok g, p) := by
  rw [genesis, run, hp]
  rfl

end Script

namespace Node

variable {n : Node} {context : RequestContext} {query : Query} {g : Block}

theorem genesis_ask_of_needsGenesis (h : query.NeedsGenesis) :
    (n.ask context query).2.genesis? =
      (Script.genesis.run (n.surroundings context) n.progress).2.genesis? := by
  obtain ⟨f, hf, heq⟩ := script_eq n.settings h
  rw [← Script.run_bind_of_plain hf, ← heq]
  rfl

theorem genesis_ask_of_not_needsGenesis (h : ¬query.NeedsGenesis) :
    (n.ask context query).2.genesis? = n.genesis? :=
  Script.run_of_plain (plain_of_not_needsGenesis n.settings h) n.progress

theorem genesis_ask_of_none (h : n.genesis? = none) :
    (n.ask context query).2.genesis? = some g ↔
      query.NeedsGenesis ∧ (n.surroundings context).Permits n.clock 2 ∧ n.store.IsGenesis g := by
  have hp : n.progress.genesis? = none := h
  by_cases hneeds : query.NeedsGenesis
  · rw [genesis_ask_of_needsGenesis hneeds, Script.run_genesis_iff hp, and_iff_right hneeds]
    rfl
  · rw [genesis_ask_of_not_needsGenesis hneeds, h]
    exact iff_of_false (by simp) fun hcompletes => hneeds hcompletes.1

theorem genesis_ask_of_some (h : n.genesis? = some g) :
    (n.ask context query).2.genesis? = some g := by
  have hp : n.progress.genesis? = some g := h
  by_cases hneeds : query.NeedsGenesis
  · rw [genesis_ask_of_needsGenesis hneeds, Script.run_genesis_of_some hp, hp]
  · rw [genesis_ask_of_not_needsGenesis hneeds, h]

/-! ## Runs -/

variable {start : Node}

/-- The query completes the resolution of the genesis block: it asks for it, both store calls come
back, and this is the block that the store holds now. -/
def Completes (n : Node) (context : RequestContext) (query : Query) (g : Block) : Prop :=
  query.NeedsGenesis ∧ (n.surroundings context).Permits n.clock 2 ∧ n.store.Begins g

theorem completes_iff (hkeyed : n.store.Keyed) (h : n.genesis? = none) :
    n.Completes context query g ↔ (n.ask context query).2.genesis? = some g := by
  rw [genesis_ask_of_none h, isGenesis_iff_begins hkeyed, Completes]

theorem keyed_step (h : n.store.Keyed) (event : Event) : (n.step event).store.Keyed := by
  cases event with
  | ingest record => exact keyed_ingest h record
  | _ => exact h

theorem keyed_run (h : n.store.Keyed) (events : List Event) : (n.run events).store.Keyed := by
  induction events generalizing n with
  | nil => exact h
  | cons event events ih => exact ih (keyed_step h event)

theorem genesis_step (h : n.genesis? = some g) (event : Event) :
    (n.step event).genesis? = some g := by
  cases event with
  | ask context query => exact genesis_ask_of_some h
  | _ => exact h

theorem genesis_run (h : n.genesis? = some g) (events : List Event) :
    (n.run events).genesis? = some g := by
  induction events generalizing n with
  | nil => exact h
  | cons event events ih => exact ih (genesis_step h event)

theorem completes_of_step (hkeyed : n.store.Keyed) (hnone : n.genesis? = none) {event : Event}
    (h : (n.step event).genesis? = some g) :
    ∃ context query, event = .ask context query ∧ n.Completes context query g := by
  cases event with
  | ask context query => exact ⟨context, query, rfl, (completes_iff hkeyed hnone).2 h⟩
  | _ =>
    exact absurd (hnone.symm.trans h) (by simp)

theorem exists_completes_of_run (hkeyed : start.store.Keyed) (hfresh : start.genesis? = none)
    {events : List Event} (h : (start.run events).genesis? = some g) :
    ∃ before context query after, events = before ++ .ask context query :: after ∧
      (start.run before).genesis? = none ∧ (start.run before).Completes context query g := by
  induction events using List.reverseRecOn with
  | nil => exact absurd (hfresh.symm.trans h) (by simp)
  | append_singleton events event ih =>
    rw [run_append] at h
    cases hmemo : (start.run events).genesis? with
    | none =>
      obtain ⟨context, query, rfl, hcompletes⟩ :=
        completes_of_step (keyed_run hkeyed events) hmemo h
      exact ⟨events, context, query, [], rfl, hmemo, hcompletes⟩
    | some memoized =>
      cases (genesis_step hmemo event).symm.trans h
      obtain ⟨before, context, query, after, rfl, hnone, hcompletes⟩ := ih hmemo
      exact ⟨before, context, query, after ++ [event], by simp, hnone, hcompletes⟩

end Node

/-! ## The blocks of answers -/

/-- The block in an answer. -/
def Answer.block? : Answer → Option Block
  | .block b => some b
  | .balanceAtBlock b _ => some b
  | .blockTransactions b _ => some b
  | _ => none

/-- The block comes at the genesis block or behind it. There is one block at the index of the
genesis block, and the parent of every other comes at it or behind it as well. -/
structure Block.Follows (b g : Block) : Prop where
  le : g.index ≤ b.index
  same : b.index = g.index → b = g
  parent : b.index ≠ g.index → b.parentIndex.toInt = b.index.toInt - 1 ∧ g.index ≤ b.parentIndex

section Follows

variable {s : Store} {g b : Block} {selector : BlockSelector}

theorem follows_self (g : Block) : g.Follows g :=
  ⟨Int64.le_refl _, fun _ => rfl, fun hne => absurd rfl hne⟩

theorem follows_of_from {file : RecordFile} (h : g.From file b) : b.Follows g := by
  obtain ⟨hle, hb⟩ := h
  unfold Block.ofRecordFile at hb
  split at hb
  · cases hb
    exact follows_self g
  · next hne =>
    obtain ⟨parentIndex, hparent, hb⟩ := bind_eq_ok.1 hb
    cases hb
    have hstep : parentIndex.toInt = file.index.toInt - 1 := subChecked_eq_ok_iff.1 hparent
    have hdiffer : file.index.toInt ≠ g.index.toInt := fun heq => hne (Int64.toInt_inj.1 heq)
    have hindex : g.index.toInt ≤ file.index.toInt := Int64.le_iff_toInt_le.1 hle
    have hbefore : g.index.toInt ≤ parentIndex.toInt := by omega
    exact ⟨hle, fun hsame => absurd hsame hne, fun _ => ⟨hstep, Int64.le_iff_toInt_le.2 hbefore⟩⟩

theorem follows_of_selects (hkeyed : s.Keyed) (h : s.Selects g selector b) : b.Follows g := by
  have hat : ∀ {index}, s.BlockAt g index b → b.Follows g := by
    rintro index ⟨-, hge, file, hfile, hb⟩
    rw [← index_of_recordFileByIndex hkeyed hfile] at hge
    exact follows_of_from ⟨hge, hb⟩
  cases selector with
  | index index => exact hat h
  | hash text =>
    obtain ⟨normal, -, file, -, hb⟩ := h
    exact follows_of_from hb
  | indexAndHash index text =>
    obtain ⟨normal, -, hb, -⟩ := h
    exact hat hb
  | latest =>
    obtain ⟨file, -, hb⟩ := h
    exact follows_of_from hb
  | genesis =>
    obtain rfl := h
    exact follows_self b

theorem selects_of_eval_bind {rest : Block → Script Answer} {answer : Answer}
    {memo? after? : Option Block} (hplain : ∀ block, (rest block).Plain)
    (hshown : ∀ block memo?, ((rest block).eval s memo?).1 = .ok answer →
      answer.block? = some block)
    (h : ((Script.block selector).bind rest).eval s memo? = (.ok answer, after?))
    (hb : answer.block? = some b) :
    ∃ g, s.Resolves memo? g ∧ s.Selects g selector b ∧ after? = some g := by
  obtain ⟨block, _, heval, hrest⟩ := Script.eval_bind_eq.1 h
  obtain ⟨g, hg, rfl, hselects⟩ := Script.eval_block_eq_ok.1 heval
  have hafter : ((rest block).eval s (some g)).2 = some g :=
    Script.eval_of_plain (hplain block) (some g)
  rw [hrest] at hafter
  have hsame := hshown block (some g) (by rw [hrest])
  cases hsame.symm.trans hb
  exact ⟨g, hg, hselects, hafter⟩

theorem selects_of_eval {settings : Settings} {query : Query} {answer : Answer}
    {memo? after? : Option Block}
    (h : (settings.script query).eval s memo? = (.ok answer, after?))
    (hb : answer.block? = some b) :
    ∃ selector g, query.selector? = some selector ∧ s.Resolves memo? g ∧
      s.Selects g selector b ∧ after? = some g := by
  cases query with
  | resolveBlock selector =>
    refine ⟨selector, (selects_of_eval_bind ?_ ?_ h hb).imp fun g hg => ⟨rfl, hg⟩⟩
    · exact fun _ => trivial
    · intro block memo? h
      cases h
      rfl
  | balanceAtBlock account selector =>
    refine ⟨selector, (selects_of_eval_bind ?_ ?_ h hb).imp fun g hg => ⟨rfl, hg⟩⟩
    · exact fun block => Script.plain_bind (Script.plain_balance ..) fun _ => trivial
    · intro block memo? h
      obtain ⟨balance, _, -, h⟩ := Script.eval_bind_eq_ok.1 h
      cases h
      rfl
  | blockTransactions selector =>
    refine ⟨selector, (selects_of_eval_bind ?_ ?_ h hb).imp fun g hg => ⟨rfl, hg⟩⟩
    · exact fun block => Script.plain_bind (Script.plain_transactions ..) fun _ => trivial
    · intro block memo? h
      obtain ⟨transactions, _, -, h⟩ := Script.eval_bind_eq_ok.1 h
      cases h
      rfl
  | _ =>
    -- the other queries have no block in their answers
    obtain ⟨found, _, -, h⟩ := Script.eval_bind_eq.1 h
    cases h
    cases hb

/-- After an answer with a block the genesis block is memoized, and the block follows it. -/
theorem follows_of_ask {n : Node} {context : RequestContext} {query : Query} {answer : Answer}
    (hkeyed : n.store.Keyed) (h : (n.ask context query).1 = .ok answer)
    (hb : answer.block? = some b) :
    ∃ g, (n.ask context query).2.genesis? = some g ∧ b.Follows g := by
  obtain ⟨selector, g, -, -, hselects, hafter⟩ :=
    selects_of_eval (Prod.ext (Node.eval_of_ask h) rfl) hb
  have hmemo := (Node.ask_of_permits (Node.permits_of_ask h)).2
  exact ⟨g, hmemo.trans hafter, follows_of_selects hkeyed hselects⟩

end Follows

/-- Along every run of a fresh service, the genesis block is memoized by the first query that
completes its resolution. It is then what the store holds at that moment, stays memoized whatever
happens, and every block in an answer follows it. -/
theorem genesis_memo_run {start : Node} (hkeyed : start.store.Keyed)
    (hfresh : start.genesis? = none) (events : List Node.Event) :
    (∀ g, (start.run events).genesis? = some g ↔ ∃ before context query after,
      events = before ++ .ask context query :: after ∧ (start.run before).genesis? = none ∧
        (start.run before).Completes context query g) ∧
    (∀ g, (start.run events).genesis? = some g →
      ∀ more, (start.run (events ++ more)).genesis? = some g) ∧
    ∀ context query answer b, ((start.run events).ask context query).1 = .ok answer →
      answer.block? = some b →
        ∃ g, (start.run (events ++ [.ask context query])).genesis? = some g ∧ b.Follows g := by
  refine ⟨fun g => ⟨Node.exists_completes_of_run hkeyed hfresh, ?_⟩, fun g h more => ?_, ?_⟩
  · rintro ⟨before, context, query, after, rfl, hnone, hcompletes⟩
    rw [Node.run_append]
    have hasked := (Node.completes_iff (Node.keyed_run hkeyed before) hnone).1 hcompletes
    exact Node.genesis_run hasked after
  · rw [Node.run_append]
    exact Node.genesis_run h more
  · intro context query answer b h hb
    rw [Node.run_append]
    exact follows_of_ask (Node.keyed_run hkeyed events) h hb

/-- Attempts to resolve the genesis block of a ledger that is starting, while its store fails, and
while it is slow. The next one does resolve it; then an earlier snapshot is learned of. -/
private def recoveryEvents : List Node.Event := [
  .ingest (.recordFile ⟨5, "ab12", "00", 10, 90⟩),
  .ingest (.recordFile ⟨6, "cd34", "ab12", 95, 190⟩),
  .ask .background (.resolveBlock .latest),
  .ingest (.snapshot 100),
  .fail (some (.unavailable (.io "down"))),
  .ask .background (.resolveBlock .genesis),
  .fail none,
  .delay 40,
  .ask (.timeout (some 60)) (.resolveBlock .genesis),
  .delay 0,
  .ask .background (.resolveBlock (.index (-1))),
  .ask .background (.blockTransactions (.hash "ab12")),
  .ingest (.snapshot 50)]

theorem genesis_memo_run_recovered :
    (({} : Node).run (recoveryEvents.take 11)).genesis? = none ∧
      (∃ before context query after, recoveryEvents = before ++ .ask context query :: after ∧
        (({} : Node).run before).genesis? = none ∧
          (({} : Node).run before).Completes context query ⟨6, "0xcd34", 6, "0xcd34", 101, 190⟩) ∧
      ∀ more, (({} : Node).run (recoveryEvents ++ more)).genesis? =
        some ⟨6, "0xcd34", 6, "0xcd34", 101, 190⟩ := by
  have hkeyed : ({} : Node).store.Keyed := fun e he => by cases he
  have hmemo : (({} : Node).run recoveryEvents).genesis? =
      some ⟨6, "0xcd34", 6, "0xcd34", 101, 190⟩ := by decide +kernel
  obtain ⟨hcompletes, hstays, -⟩ := genesis_memo_run hkeyed rfl recoveryEvents
  exact ⟨by decide +kernel, (hcompletes _).1 hmemo, hstays _ hmemo⟩

end LedgerView
