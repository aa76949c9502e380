import Mathlib
import LedgerView.Proofs.Chain
import LedgerView.Proofs.Reconciliation
/-!
# Blocks that tile the ledger

Over record files that follow each other without a gap, the blocks from the genesis block to the
latest one do so as well, and together they hold what the whole range holds: the transactions of
one block after the other are the transactions of the range from the first block to the last
(`blocks_tile`). This is so for a genesis block whose record file is still there; a memoized one
stays when its record file is replaced, and then there may be a gap behind it.
-/

namespace LedgerView

/-- Record files of consecutive indices, each of which starts right after the one before it and
does not end before it starts. -/
structure Store.Tiled (s : Store) : Prop where
  consecutive : s.Consecutive fun a b => b.consensusStart.toInt = a.consensusEnd.toInt + 1
  nonempty : ∀ file ∈ s.recordFiles.values, file.consensusStart ≤ file.consensusEnd

/-- The blocks of a store, from the genesis block to the latest. -/
def Store.blocks (s : Store) (g : Block) : List Block :=
  (s.recordFiles.values.filter fun file => g.index ≤ file.index).map g.over

/-- Blocks of consecutive indices, each of which starts right after the one before it and does not
end before it starts. -/
structure Tiles (blocks : List Block) : Prop where
  nonempty : ∀ b ∈ blocks, b.consensusStart ≤ b.consensusEnd
  adjacent : blocks.IsChain fun a b => b.index.toInt = a.index.toInt + 1 ∧
    b.consensusStart.toInt = a.consensusEnd.toInt + 1

/-- The rows whose timestamp lies in a block. -/
def Store.within (s : Store) (b : Block) : List TransactionRow :=
  s.transactions.between b.consensusStart b.consensusEnd

/-! ## The blocks of a store -/

section Blocks

variable {s : Store} {g b : Block} {file first : RecordFile}

theorem mem_blocks : b ∈ s.blocks g ↔ ∃ file ∈ s.recordFiles.values, g.From file b := by
  simp only [Store.blocks, List.mem_map, List.mem_filter, decide_eq_true_eq, from_iff, and_assoc]
  constructor
  · rintro ⟨file, hfile, hle, rfl⟩
    exact ⟨file, hfile, hle, rfl⟩
  · rintro ⟨file, hfile, hle, rfl⟩
    exact ⟨file, hfile, hle, rfl⟩

theorem exists_split (hkeyed : s.Keyed) (hfirst : first ∈ s.recordFiles.values)
    (hindex : g.index = first.index) :
    ∃ before after, s.recordFiles.values = before ++ first :: after ∧
      s.recordFiles.values.filter (fun file => g.index ≤ file.index) = first :: after := by
  obtain ⟨before, after, hsplit⟩ := List.append_of_mem hfirst
  have hasc := ascending_files hkeyed
  rw [hsplit, List.pairwise_append, List.pairwise_cons] at hasc
  obtain ⟨-, ⟨hafter, -⟩, hbefore⟩ := hasc
  have hnone : before.filter (fun file => g.index ≤ file.index) = [] := by
    rw [List.filter_eq_nil_iff]
    intro file hfile
    have hlt := hbefore file hfile first List.mem_cons_self
    rw [hindex, decide_eq_true_eq, Int64.not_le]
    exact hlt
  have hall : after.filter (fun file => g.index ≤ file.index) = after := by
    rw [List.filter_eq_self]
    intro file hfile
    rw [hindex, decide_eq_true_eq]
    exact Int64.le_of_lt (hafter file hfile)
  refine ⟨before, after, hsplit, ?_⟩
  rw [hsplit, List.filter_append, hnone, List.nil_append,
    List.filter_cons_of_pos (by simp [hindex]), hall]

theorem le_latest (hkeyed : s.Keyed) {last : RecordFile} (hlast : s.latestRecordFile? = some last)
    (hfile : file ∈ s.recordFiles.values) : file.index ≤ last.index := by
  obtain ⟨init, hinit⟩ := List.getLast?_eq_some_iff.1 hlast
  have hasc := ascending_files hkeyed
  rw [hinit] at hasc hfile
  rcases List.mem_append.1 hfile with hearlier | hsame
  · exact Int64.le_of_lt ((List.pairwise_append.1 hasc).2.2 file hearlier last (by simp))
  · rw [List.mem_singleton.1 hsame]
    exact Int64.le_refl _

/-! ## Selecting them -/

theorem selects_index_iff (hkeyed : s.Keyed) (hg : s.StartsAt g)
    (hnonneg : ∀ file ∈ s.recordFiles.values, 0 ≤ file.index) {index : Int64} :
    s.Selects g (.index index) b ↔ b ∈ s.blocks g ∧ b.index = index := by
  rw [Store.Selects, blockAt_iff hkeyed hg hnonneg, mem_blocks, and_comm]
  refine and_congr_left fun _ => exists_congr fun file => ?_
  constructor
  · intro hshows
    exact ⟨mem_of_shows hkeyed hshows, hshows.built⟩
  · rintro ⟨hfile, hfrom⟩
    exact shows_of_mem hkeyed hg hfile hfrom

theorem selects_genesis_iff (hkeyed : s.Keyed) (hg : s.StartsAt g) :
    s.Selects g .genesis b ↔ (s.blocks g).head? = some b := by
  obtain ⟨first, hfirst⟩ := shows_genesis hkeyed hg
  have hindex := index_of_shows hfirst
  obtain ⟨before, after, -, hblocks⟩ := exists_split hkeyed (mem_of_shows hkeyed hfirst) hindex
  rw [Store.blocks, hblocks, List.map_cons, List.head?_cons, Option.some.injEq, Block.over,
    if_pos hindex.symm, eq_comm]
  rfl

theorem selects_latest_iff (hkeyed : s.Keyed) (hg : s.StartsAt g) :
    s.Selects g .latest b ↔ (s.blocks g).getLast? = some b := by
  obtain ⟨first, hfirst⟩ := shows_genesis hkeyed hg
  have hmem := mem_of_shows hkeyed hfirst
  obtain ⟨last, hlast⟩ : ∃ last, s.latestRecordFile? = some last :=
    ⟨_, List.getLast?_eq_some_getLast (List.ne_nil_of_mem hmem)⟩
  have hle : g.index ≤ last.index := by
    rw [index_of_shows hfirst]
    exact le_latest hkeyed hlast hmem
  have hblocks : (s.blocks g).getLast? = some (g.over last) := by
    obtain ⟨init, hinit⟩ := List.getLast?_eq_some_iff.1 hlast
    rw [Store.blocks, hinit, List.filter_append, List.filter_cons_of_pos (by simpa using hle),
      List.filter_nil, List.map_append, List.map_singleton, List.getLast?_concat]
  rw [hblocks, Option.some.injEq]
  constructor
  · rintro ⟨file, hfile, hb⟩
    cases hlast.symm.trans hfile
    exact (from_iff.1 hb).2.symm
  · intro hb
    exact ⟨last, hlast, from_iff.2 ⟨hle, hb.symm⟩⟩

/-! ## They tile the ledger -/

/-- The genesis block may start later than its record file, but it starts before it ends. -/
theorem tiles_blocks (hkeyed : s.Keyed) (htiled : s.Tiled) (hg : s.HoldsOrigin g) :
    Tiles (s.blocks g) := by
  obtain ⟨snapshot, -, first, hfirst, hend, hopens⟩ := exists_opens hg
  have hends : ∀ file ∈ s.recordFiles.values, (g.over file).consensusEnd = file.consensusEnd :=
    fun file hfile => consensusEnd_over hkeyed hfirst hopens hfile
  constructor
  · intro b hb
    obtain ⟨file, hfile, hfrom⟩ := mem_blocks.1 hb
    rw [(from_iff.1 hfrom).2, hends file hfile]
    by_cases hsame : file.index = g.index
    · obtain rfl := eq_of_index_eq hkeyed hfile hfirst (hsame.trans hopens.index)
      have hnonempty := Int64.le_iff_toInt_le.1 (htiled.nonempty file hfile)
      have hstarts := hopens.starts
      have hlt := Int64.lt_iff_toInt_lt.1 hend
      rw [Block.over, if_pos hsame, Int64.le_iff_toInt_le]
      omega
    · rw [consensusStart_over hsame]
      exact htiled.nonempty file hfile
  · obtain ⟨before, after, hsplit, hblocks⟩ := exists_split hkeyed hfirst hopens.index
    have hchain := htiled.consecutive.chain
    rw [hsplit] at hchain
    have hsuffix := hchain.suffix (List.suffix_append before (first :: after))
    have hmem : ∀ file ∈ first :: after, file ∈ s.recordFiles.values ∧ g.index ≤ file.index := by
      intro file hfile
      rw [← hblocks] at hfile
      simpa using hfile
    rw [Store.blocks, hblocks, List.isChain_map]
    refine hsuffix.imp_of_mem_imp fun a b ha hb hlinked => ?_
    obtain ⟨hindex, hstart⟩ := hlinked
    have hle := Int64.le_iff_toInt_le.1 (hmem a ha).2
    have hbehind : b.index ≠ g.index := by
      intro hsame
      rw [hsame] at hindex
      omega
    rw [index_over, index_over, consensusStart_over hbehind, hends a (hmem a ha).1]
    exact ⟨hindex, hstart⟩

end Blocks

/-! ## The rows in them -/

section Rows

variable {s : Store} {rows : List TransactionRow} {start middle next stop : Int64}

theorem filter_append_filter (h : InOrder rows) (time : Int64) :
    (rows.filter fun row => row.consensusTimestamp.toInt ≤ time.toInt) ++
      (rows.filter fun row => time.toInt < row.consensusTimestamp.toInt) = rows := by
  induction rows with
  | nil => rfl
  | cons row rows ih =>
    obtain ⟨hrow, hrows⟩ := List.pairwise_cons.1 h
    by_cases hle : row.consensusTimestamp.toInt ≤ time.toInt
    · rw [List.filter_cons_of_pos (by simpa using hle),
        List.filter_cons_of_neg (by simpa using hle), List.cons_append, ih hrows]
    · have hlater : ∀ other ∈ row :: rows, time.toInt < other.consensusTimestamp.toInt := by
        intro other hother
        rcases List.mem_cons.1 hother with rfl | hother
        · omega
        · have hafter := Int64.le_iff_toInt_le.1 (hrow other hother)
          simp only [Timed.timestamp] at hafter
          omega
      have hnone : (row :: rows).filter (fun row =>
          row.consensusTimestamp.toInt ≤ time.toInt) = [] := by
        rw [List.filter_eq_nil_iff]
        intro other hother
        simpa using hlater other hother
      rw [hnone, List.nil_append, List.filter_eq_self]
      intro other hother
      simpa using hlater other hother

theorem between_append (hstart : start ≤ middle) (hstop : middle ≤ stop)
    (hnext : next.toInt = middle.toInt + 1) :
    s.transactions.between start stop =
      s.transactions.between start middle ++ s.transactions.between next stop := by
  rw [Int64.le_iff_toInt_le] at hstart hstop
  have hfront : s.transactions.between start middle =
      (s.transactions.between start stop).filter fun row =>
        row.consensusTimestamp.toInt ≤ middle.toInt := by
    rw [Timeline.between, Timeline.between, List.filter_filter]
    apply List.filter_congr
    intro row _
    simp only [Timed.timestamp, Int64.le_iff_toInt_le, ← Bool.decide_and, decide_eq_decide]
    omega
  rw [hfront, between_of_next hstart hnext]
  exact (filter_append_filter (s.transactions.inOrder.sublist List.filter_sublist) middle).symm

theorem tiles_of_cons {b : Block} {blocks : List Block} (h : Tiles (b :: blocks)) : Tiles blocks :=
  ⟨fun b' hb' => h.nonempty b' (List.mem_cons_of_mem _ hb'), h.adjacent.of_cons⟩

theorem between_eq_flatMap {b last : Block} {blocks : List Block} (htiles : Tiles (b :: blocks))
    (hlast : (b :: blocks).getLast? = some last) :
    b.consensusStart ≤ last.consensusEnd ∧
      s.transactions.between b.consensusStart last.consensusEnd =
        (b :: blocks).flatMap s.within := by
  have hfirst := htiles.nonempty b List.mem_cons_self
  induction blocks generalizing b with
  | nil =>
    rw [List.getLast?_singleton, Option.some.injEq] at hlast
    rw [← hlast]
    exact ⟨hfirst, by simp [Store.within]⟩
  | cons next blocks ih =>
    rw [List.getLast?_cons_cons] at hlast
    have hrest := tiles_of_cons htiles
    obtain ⟨hle, hbetween⟩ := ih hrest hlast (hrest.nonempty next List.mem_cons_self)
    have hnext := (List.isChain_cons_cons.1 htiles.adjacent).1.2
    have hmiddle : b.consensusEnd ≤ last.consensusEnd := by
      rw [Int64.le_iff_toInt_le] at hle ⊢
      omega
    refine ⟨Int64.le_trans hfirst hmiddle, ?_⟩
    rw [between_append hfirst hmiddle hnext, hbetween, List.flatMap_cons]
    rfl

end Rows

/-! ## The transactions in them -/

/-- The node answers over this store, with these settings and this genesis block. -/
structure Node.Serves (n : Node) (s : Store) (settings : Settings) (g : Block) : Prop where
  store : n.store = s
  settings : n.settings = settings
  genesis : s.Resolves n.genesis? g

/-- No transaction hash occurs in two of the blocks. -/
def Store.HashesApart (s : Store) (blocks : List Block) : Prop :=
  blocks.Pairwise fun a b => ∀ row ∈ s.within a, ∀ other ∈ s.within b, row.hash ≠ other.hash

instance (s : Store) (blocks : List Block) : Decidable (s.HashesApart blocks) :=
  inferInstanceAs (Decidable (List.Pairwise _ _))

section Queries

variable {s : Store} {settings : Settings} {g b : Block} {context : RequestContext}

theorem assemble_append {a : Assembler} {rows others : List TransactionRow}
    {transactions more : List Transaction}
    (hapart : ∀ row ∈ rows, ∀ other ∈ others, row.hash ≠ other.hash)
    (h : a.assemble rows = .ok transactions) (hmore : a.assemble others = .ok more) :
    a.assemble (rows ++ others) = .ok (transactions ++ more) := by
  unfold Assembler.assemble at h hmore ⊢
  rw [Assembler.groupByHash_append hapart, List.mapM_append, h, hmore]
  rfl

theorem assemble_flatMap {a : Assembler} {blocks : List Block} {lists : List (List Transaction)}
    (hapart : s.HashesApart blocks)
    (h : List.Forall₂ (fun b list => a.assemble ((s.within b).map s.presented) = .ok list)
      blocks lists) :
    a.assemble ((blocks.flatMap s.within).map s.presented) = .ok lists.flatten := by
  induction h with
  | nil => rfl
  | cons hb _ ih =>
    obtain ⟨hfirst, hrest⟩ := List.pairwise_cons.1 hapart
    rw [List.flatMap_cons, List.map_append, List.flatten_cons]
    refine assemble_append ?_ hb (ih hrest)
    intro row hrow other hother
    obtain ⟨stored, hstored, rfl⟩ := List.mem_map.1 hrow
    obtain ⟨later, hlater, rfl⟩ := List.mem_map.1 hother
    obtain ⟨b', hb', hwithin⟩ := List.mem_flatMap.1 hlater
    rw [hash_presented, hash_presented]
    exact hfirst b' hb' stored hstored later hwithin

theorem le_of_eval_transactions {a : Assembler} {batch : Nat} {start stop : Int64}
    {transactions : List Transaction} {memo? after? : Option Block}
    (h : (Script.transactions a batch start stop).eval s memo? = (.ok transactions, after?)) :
    start ≤ stop := by
  obtain ⟨_, _, hcheck, -⟩ := Script.eval_bind_eq.1 h
  have hok := (Script.eval_check_eq_ok.1 hcheck).1
  by_contra hle
  rw [if_pos (Int64.not_le.1 hle)] at hok
  cases hok

theorem assemble_of_blockTransactions {n : Node} {selector : BlockSelector}
    {transactions : List Transaction} (hserves : n.Serves s settings g)
    (hvalid : settings.config.validate = .ok ()) (hdistinct : s.DistinctTimestamps)
    (h : (n.ask context (.blockTransactions selector)).1 =
      .ok (.blockTransactions b transactions)) :
    settings.assembler.assemble ((s.within b).map s.presented) = .ok transactions := by
  have hanswer := Node.eval_of_ask h
  rw [hserves.store, hserves.settings] at hanswer
  simp only [Settings.script, Script.bind_eq, Script.eval_bind_eq_ok] at hanswer
  obtain ⟨block, memo?, -, found, after?, hfound, hreported⟩ := hanswer
  cases hreported
  have hrange := le_of_eval_transactions hfound
  rw [eval_transactions hdistinct (batch_pos hvalid) settings.assembler hrange] at hfound
  exact congrArg Prod.fst hfound

theorem ask_transactions_of_quiet {n : Node} {start stop : Int64} {transactions : List Transaction}
    (hserves : n.Serves s settings g) (hquiet : n.Quiet)
    (hvalid : settings.config.validate = .ok ()) (hdistinct : s.DistinctTimestamps)
    (hrange : start ≤ stop)
    (h : settings.assembler.assemble ((s.transactions.between start stop).map s.presented) =
      .ok transactions) :
    (n.ask context (.transactions start stop)).1 = .ok (.transactions transactions) := by
  rw [(Node.ask_of_permits (hquiet.permits _)).1, hserves.store, hserves.settings]
  simp only [Settings.script, Script.bind_eq]
  rw [Script.eval_bind_of_eq (eval_transactions hdistinct (batch_pos hvalid) settings.assembler
    hrange n.genesis? |>.trans (by rw [h]))]
  rfl

/-- Some node answers with these transactions of a block. -/
def Store.Lists (s : Store) (settings : Settings) (g b : Block) (transactions : List Transaction) :
    Prop :=
  ∃ (n : Node) (context : RequestContext), n.Serves s settings g ∧
    (n.ask context (.blockTransactions (.index b.index))).1 =
      .ok (.blockTransactions b transactions)

theorem finds_iff_selects {n : Node} {selector : BlockSelector} (hserves : n.Serves s settings g)
    (hpermits : (n.surroundings context).Permits n.clock 3) :
    n.Finds context selector b ↔ s.Selects g selector b := by
  have hcalls := Script.permits_of_le (Script.blockCalls_le n.genesis? selector) hpermits
  rw [Node.finds_iff, and_iff_right hcalls, hserves.store]
  constructor
  · rintro ⟨g', hg', hb⟩
    rwa [resolves_unique hg' hserves.genesis] at hb
  · intro hb
    exact ⟨g, hserves.genesis, hb⟩

theorem exists_isGenesis {first : Int64} (hfirst : s.earliestSnapshot? = some first)
    (hend : ∃ file ∈ s.recordFiles.values, first < file.consensusEnd) : ∃ g, s.IsGenesis g := by
  obtain ⟨other, hother, hlater⟩ := hend
  obtain ⟨file, hfile⟩ : ∃ file, s.firstRecordFileEndingAfter? first = some file :=
    Option.isSome_iff_exists.1 (List.find?_isSome.2 ⟨other, hother, by simpa using hlater⟩)
  obtain ⟨g, hg⟩ := exists_genesis (lt_consensusEnd_of_first hfile)
  exact ⟨g, first, file, hfirst, hfile, hg⟩

theorem lt_consensusStart {first : Int64} (hfirst : s.earliestSnapshot? = some first)
    (hg : s.HoldsOrigin g) : first < g.consensusStart := by
  obtain ⟨snapshot, hsnapshot, file, -, -, hopens⟩ := exists_opens hg
  have hle := Int64.le_iff_toInt_le.1
    ((Table.head?_keys_eq_some_iff.1 hfirst).2 snapshot hsnapshot)
  have hstarts := hopens.starts
  rw [Int64.lt_iff_toInt_lt]
  omega

/-- There is a genesis block. From a genesis block whose record file and snapshot are still held to
the latest block the blocks tile the ledger after the first snapshot: they are what the indices
from one to the other find, none is empty, and each starts right after the one before it. The
transactions of one block after the other are then those of the whole range, unless a hash occurs
in two blocks. -/
theorem blocks_tile (settings : Settings) (hkeyed : s.Keyed) (htiled : s.Tiled) {first : Int64}
    (hfirst : s.earliestSnapshot? = some first)
    (hend : ∃ file ∈ s.recordFiles.values, first < file.consensusEnd) :
    (∃ g, s.IsGenesis g ∧ s.HoldsOrigin g) ∧ ∀ g, s.HoldsOrigin g →
      (Tiles (s.blocks g) ∧ first < g.consensusStart) ∧
      (∀ n : Node, n.Serves s settings g → ∀ context,
        (n.surroundings context).Permits n.clock 3 → ∀ b,
          (n.Finds context .genesis b ↔ (s.blocks g).head? = some b) ∧
          (n.Finds context .latest b ↔ (s.blocks g).getLast? = some b) ∧
          ∀ index, n.Finds context (.index index) b ↔ b ∈ s.blocks g ∧ b.index = index) ∧
      (settings.config.validate = .ok () → s.DistinctTimestamps → s.HashesApart (s.blocks g) →
        ∀ lists, List.Forall₂ (s.Lists settings g) (s.blocks g) lists →
          ∀ latest, (s.blocks g).getLast? = some latest →
            ∀ n : Node, n.Serves s settings g → ∀ context,
              (∀ transactions, (n.ask context
                    (.transactions g.consensusStart latest.consensusEnd)).1 =
                  .ok (.transactions transactions) → transactions = lists.flatten) ∧
                (n.Quiet → (n.ask context
                    (.transactions g.consensusStart latest.consensusEnd)).1 =
                  .ok (.transactions lists.flatten))) := by
  obtain ⟨found, hfound⟩ := exists_isGenesis hfirst hend
  refine ⟨⟨found, hfound, holdsOrigin_of_isGenesis hfound⟩, fun g hg => ?_⟩
  have hstarts := startsAt_of_holdsOrigin hkeyed hg
  have htiles := tiles_blocks hkeyed htiled hg
  refine ⟨⟨htiles, lt_consensusStart hfirst hg⟩, ?_, ?_⟩
  · intro n hserves context hpermits b
    refine ⟨?_, ?_, fun index => ?_⟩
    · rw [finds_iff_selects hserves hpermits, selects_genesis_iff hkeyed hstarts]
    · rw [finds_iff_selects hserves hpermits, selects_latest_iff hkeyed hstarts]
    · rw [finds_iff_selects hserves hpermits,
        selects_index_iff hkeyed hstarts htiled.consecutive.nonneg]
  · intro hvalid hdistinct hapart lists hlists latest hlatest n hserves context
    have hblocks : (s.blocks g).head? = some g := (selects_genesis_iff hkeyed hstarts).1 rfl
    obtain ⟨rest, hrest⟩ := List.head?_eq_some_iff.1 hblocks
    rw [hrest] at htiles hlatest hapart hlists
    obtain ⟨hrange, hbetween⟩ := between_eq_flatMap (s := s) htiles hlatest
    have hassembled : List.Forall₂ (fun b list =>
        settings.assembler.assemble ((s.within b).map s.presented) = .ok list)
        (g :: rest) lists := by
      refine hlists.imp fun b list hlist => ?_
      obtain ⟨m, context', hm, hanswer⟩ := hlist
      exact assemble_of_blockTransactions hm hvalid hdistinct hanswer
    have hwhole := assemble_flatMap hapart hassembled
    rw [← hbetween] at hwhole
    constructor
    · intro transactions hanswer
      have hassemble := assemble_of_answers (batch_pos hvalid) hdistinct hrange
        ⟨n, context, hserves.store, hserves.settings, hanswer⟩
      exact Except.ok.inj (hassemble.symm.trans hwhole)
    · intro hquiet
      exact ask_transactions_of_quiet hserves hquiet hvalid hdistinct hrange hwhole

end Queries

/-- The first snapshot is in the middle of the second of three record files. A transaction before
the genesis block, one in it, and two on the ends of the last block. -/
private def tiledStore : Store :=
  let row : TransactionRow :=
    { consensusTimestamp := 95, hash := [1], transactionType := 14, result := 22, payer := 1001,
      entity? := none, memo := [], cryptoTransfers := [⟨1001, -5, none⟩, ⟨98, 5, none⟩],
      itemizedTransfers := [], tokenTransfers := [], nftTransfers := [], stakingRewards := [],
      token? := none }
  Store.ingestAll {} [
    .recordFile ⟨5, "ab12", "00", 10, 90⟩,
    .recordFile ⟨6, "cd34", "ab12", 91, 190⟩,
    .recordFile ⟨7, "ef56", "cd34", 191, 290⟩,
    .snapshot 100,
    .transaction row,
    .transaction { row with consensusTimestamp := 190, hash := [2] },
    .transaction { row with consensusTimestamp := 191, hash := [3] },
    .transaction { row with consensusTimestamp := 290, hash := [3] }]

private def tiledGenesis : Block :=
  ⟨6, "0xcd34", 6, "0xcd34", 101, 190⟩

private def tiledLatest : Block :=
  ⟨7, "0xef56", 6, "0xcd34", 191, 290⟩

private def listed (answer : Outcome LedgerError Answer) : List Transaction :=
  match answer with
  | .ok (.blockTransactions _ transactions) => transactions
  | _ => []

theorem blocks_tile_moved :
    let n : Node := { store := tiledStore }
    let lists := [tiledGenesis, tiledLatest].map fun b =>
      listed (n.ask .background (.blockTransactions (.index b.index))).1
    Tiles [tiledGenesis, tiledLatest] ∧ lists.map List.length = [1, 1] ∧
      (n.ask .background (.transactions 101 290)).1 = .ok (.transactions lists.flatten) := by
  intro n lists
  have hkeyed : tiledStore.Keyed := keyed_ingestAll (fun e he => by cases he) _
  have htiled : tiledStore.Tiled := ⟨⟨by decide, by decide⟩, by decide⟩
  have hblocks : tiledStore.blocks tiledGenesis = [tiledGenesis, tiledLatest] := by decide
  have hgenesis : tiledStore.IsGenesis tiledGenesis :=
    ⟨100, ⟨6, "cd34", "ab12", 91, 190⟩, by decide, by decide, by decide⟩
  have hserves : n.Serves tiledStore ⟨.standard, .standard⟩ tiledGenesis := ⟨rfl, rfl, hgenesis⟩
  have hlists : List.Forall₂ (tiledStore.Lists ⟨.standard, .standard⟩ tiledGenesis)
      [tiledGenesis, tiledLatest] lists := by
    refine .cons ⟨n, .background, hserves, ?_⟩ (.cons ⟨n, .background, hserves, ?_⟩ .nil)
    · decide +kernel
    · decide +kernel
  obtain ⟨-, htile⟩ := blocks_tile ⟨.standard, .standard⟩ hkeyed htiled
    (by decide : tiledStore.earliestSnapshot? = some 100) (by decide)
  obtain ⟨⟨htiles, -⟩, -, hwhole⟩ := htile tiledGenesis (holdsOrigin_of_isGenesis hgenesis)
  rw [hblocks] at htiles hwhole
  exact ⟨htiles, by decide +kernel, (hwhole rfl (by decide) (by decide) lists hlists tiledLatest
    rfl n hserves .background).2 (by decide)⟩

/-- The genesis block is resolved, and then its record file is replaced by one that ends later, and
the next one by one that starts later. -/
private def shiftedNode : Node :=
  ({} : Node).run [
    .ingest (.recordFile ⟨5, "ab12", "00", 10, 90⟩),
    .ingest (.recordFile ⟨6, "cd34", "ab12", 91, 190⟩),
    .ingest (.recordFile ⟨7, "ef56", "cd34", 191, 290⟩),
    .ingest (.snapshot 100),
    .ask .background (.resolveBlock .genesis),
    .ingest (.recordFile ⟨6, "cd34", "ab12", 91, 200⟩),
    .ingest (.recordFile ⟨7, "ef56", "cd34", 201, 290⟩)]

/-- A genesis block whose record file is gone may leave a gap behind it. -/
theorem gap_behind_genesis :
    shiftedNode.store.Tiled ∧ shiftedNode.store.earliestSnapshot? = some 100 ∧
      (∃ file ∈ shiftedNode.store.recordFiles.values, (100 : Int64) < file.consensusEnd) ∧
      shiftedNode.Finds .background .genesis ⟨6, "0xcd34", 6, "0xcd34", 101, 190⟩ ∧
      shiftedNode.Finds .background .latest ⟨7, "0xef56", 6, "0xcd34", 201, 290⟩ ∧
      ¬Tiles [⟨6, "0xcd34", 6, "0xcd34", 101, 190⟩, ⟨7, "0xef56", 6, "0xcd34", 201, 290⟩] := by
  refine ⟨⟨⟨by decide, by decide⟩, by decide⟩, by decide, by decide, by decide +kernel,
    by decide +kernel, ?_⟩
  intro htiles
  obtain ⟨⟨-, hstart⟩, -⟩ := List.isChain_cons_cons.1 htiles.adjacent
  exact absurd hstart (by decide)

end LedgerView
