import Mathlib
import LedgerView.Proofs.Chain
/-!
# Parents

A block names its parent by index and hash. Over record files that are linked by their hashes the
parent is found under both, and whoever goes on from parent to parent comes to the genesis block
after as many steps as there are indices in between (`parents_lead_to_genesis`). This is so for a
genesis block with the hash of the record file at its index; a memoized one stays when that record
file is replaced.
-/

namespace LedgerView

/-- Record files of consecutive indices, each with a hash that is given by its digits alone and
with the hash of the one before it, in whatever case. -/
structure Store.Linked (s : Store) : Prop where
  consecutive : s.Consecutive fun a b => BlockHash.sameIgnoringCase b.prevHash a.hash
  digits : ∀ file ∈ s.recordFiles.values, BlockHash.IsDigits file.hash.toList

/-- The parent that a block names, and the record file that it shows. The genesis block is named by
itself; behind it the index goes back by one. -/
structure Store.HasParent (s : Store) (g b p : Block) : Prop where
  shown : ∃ file, s.Shows g file p
  index : p.index = b.parentIndex
  hash : p.hash = b.parentHash
  step : p.index.toInt = max g.index.toInt (b.index.toInt - 1)

section Parents

variable {s : Store} {g b p : Block} {file : RecordFile}

theorem le_index_of_shows (h : s.Shows g file b) : g.index.toInt ≤ b.index.toInt :=
  Int64.le_iff_toInt_le.1 (follows_of_from h.built).le

theorem eq_genesis_iff (h : s.Shows g file b) : b = g ↔ b.index.toInt = g.index.toInt := by
  constructor
  · intro heq
    rw [heq]
  · intro hindex
    exact (follows_of_from h.built).same (Int64.toInt_inj.1 hindex)

theorem selfReferential_iff (hg : s.StartsAt g) (h : s.Shows g file b) :
    b.isSelfReferential ↔ b = g := by
  constructor
  · intro hself
    have hparent : b.parentIndex = b.index := (of_decide_eq_true hself).1
    by_contra hne
    have hindex : b.index ≠ g.index := fun heq => hne ((follows_of_from h.built).same heq)
    have hback := ((follows_of_from h.built).parent hindex).1
    rw [hparent] at hback
    omega
  · intro heq
    rw [heq]
    exact hg.selfReferential

theorem exists_parent (hkeyed : s.Keyed) (hg : s.StartsAt g) (hlinked : s.Linked)
    (hshows : s.Shows g file b) : ∃ p, s.HasParent g b p := by
  obtain ⟨first, hfirst⟩ := shows_genesis hkeyed hg
  have hle := le_index_of_shows hshows
  by_cases hb : b = g
  · have hself : b.parentIndex = b.index ∧ b.parentHash = b.hash :=
      of_decide_eq_true ((selfReferential_iff hg hshows).2 hb)
    exact ⟨b, ⟨file, hshows⟩, hself.1.symm, hself.2.symm, by rw [hb]; omega⟩
  · have hindex := index_of_shows hshows
    have hne : b.index.toInt ≠ g.index.toInt := fun heq => hb ((eq_genesis_iff hshows).2 heq)
    have hlt : first.index < file.index := by
      rw [← index_of_shows hfirst, ← hindex, Int64.lt_iff_toInt_lt]
      omega
    obtain ⟨previous, hprevious, hstep, hlink⟩ := exists_previous hkeyed hlinked.consecutive
      (mem_of_shows hkeyed hshows) (mem_of_shows hkeyed hfirst) hlt
    have hback := (follows_of_from hshows.built).parent fun heq => hne (congrArg _ heq)
    rw [hindex] at hle hne hback
    have hfrom : g.From previous (g.over previous) :=
      from_iff.2 ⟨Int64.le_iff_toInt_le.2 (by omega), rfl⟩
    have hshown := shows_of_mem hkeyed hg hprevious hfrom
    refine ⟨g.over previous, ⟨previous, hshown⟩, ?_, ?_, ?_⟩
    · rw [index_of_shows hshown, ← Int64.toInt_inj]
      omega
    · -- the two columns may differ in the case of their digits, which blocks do not show
      have hover := (from_iff.1 hshows.built).2
      have hother : file.index ≠ g.index := fun heq => hne (congrArg _ heq)
      rw [hshown.hash, hover, Block.over, if_neg hother]
      exact (BlockHash.marked_eq_of_same (hlinked.digits previous hprevious) hlink).symm
    · rw [index_of_shows hshown, hindex]
      omega

theorem selects_parent (hkeyed : s.Keyed) (hlinked : s.Linked) (h : s.HasParent g b p) :
    s.Selects g (.indexAndHash b.parentIndex b.parentHash) p := by
  obtain ⟨file, hshows⟩ := h.shown
  have hdigits := hlinked.digits file (mem_of_shows hkeyed hshows)
  have hnormal := BlockHash.normalize_of_spells hdigits (BlockHash.spells_marked hdigits)
  rw [← h.index, ← h.hash]
  refine ⟨_, hshows.hash ▸ hnormal, blockAt_of_shows hkeyed hlinked.consecutive.nonneg hshows, ?_⟩
  rw [hshows.hash, BlockHash.dropMarks_marked hdigits, String.toList_ofList]

end Parents

/-! ## From parent to parent -/

/-- Ask for the parent of a block, then for the parent of what is found, and so on: one request for
every context. What is come to, if all are found, and the node afterwards. -/
def Node.climb (n : Node) (b : Block) : List RequestContext → Option Block × Node
  | [] => (some b, n)
  | context :: contexts =>
    match n.ask context (.resolveBlock (.indexAndHash b.parentIndex b.parentHash)) with
    | (.ok (.block p), later) => later.climb p contexts
    | (_, later) => (none, later)

section Climb

variable {n : Node} {g b p : Block} {context : RequestContext}

theorem climb_cons (contexts : List RequestContext)
    (h : n.Finds context (.indexAndHash b.parentIndex b.parentHash) p) :
    n.climb b (context :: contexts) =
      (n.ask context (.resolveBlock (.indexAndHash b.parentIndex b.parentHash))).2.climb p
        contexts := by
  have hask : n.ask context (.resolveBlock (.indexAndHash b.parentIndex b.parentHash)) =
      (.ok (.block p),
        (n.ask context (.resolveBlock (.indexAndHash b.parentIndex b.parentHash))).2) :=
    Prod.ext h rfl
  rw [Node.climb, hask]

theorem finds_of_selects {selector : BlockSelector} (hquiet : n.Quiet)
    (hg : n.store.Resolves n.genesis? g) (h : n.store.Selects g selector b) :
    n.Finds context selector b :=
  Node.finds_iff.2 ⟨hquiet.permits _, g, hg, h⟩

theorem finds_parent (hkeyed : n.store.Keyed) (hlinked : n.store.Linked) (hquiet : n.Quiet)
    (hg : n.store.Resolves n.genesis? g) (h : n.store.HasParent g b p) :
    n.Finds context (.indexAndHash b.parentIndex b.parentHash) p :=
  finds_of_selects hquiet hg (selects_parent hkeyed hlinked h)

/-- Each request goes one step back, unless the genesis block is come to. -/
theorem exists_climb (hkeyed : n.store.Keyed) (hg : n.store.StartsAt g)
    (hlinked : n.store.Linked) (hquiet : n.Quiet) (hmemo : n.genesis? = some g)
    (hb : ∃ file, n.store.Shows g file b) (contexts : List RequestContext) :
    ∃ p, (n.climb b contexts).1 = some p ∧ (∃ file, n.store.Shows g file p) ∧
      p.index.toInt = max g.index.toInt (b.index.toInt - contexts.length) := by
  induction contexts generalizing n b with
  | nil =>
    obtain ⟨file, hshows⟩ := hb
    have hle := le_index_of_shows hshows
    refine ⟨b, rfl, ⟨file, hshows⟩, ?_⟩
    rw [List.length_nil]
    omega
  | cons context contexts ih =>
    obtain ⟨file, hshows⟩ := hb
    obtain ⟨p, hparent⟩ := exists_parent hkeyed hg hlinked hshows
    have hresolves : n.store.Resolves n.genesis? g := by
      rw [hmemo]
      rfl
    have hfinds : n.Finds context (.indexAndHash b.parentIndex b.parentHash) p :=
      finds_parent hkeyed hlinked hquiet hresolves hparent
    -- the request changes neither the store nor the memo
    obtain ⟨last, hlast, hshown, hindex⟩ :=
      ih (n := (n.ask context (.resolveBlock (.indexAndHash b.parentIndex b.parentHash))).2)
        hkeyed hg hlinked hquiet (Node.genesis_ask_of_some hmemo) hparent.shown
    have hback := hparent.step
    refine ⟨last, ?_, hshown, ?_⟩
    · rw [climb_cons contexts hfinds]
      exact hlast
    · rw [hindex, hback, List.length_cons]
      omega

/-- Where a memoized genesis block still shows its record file, the parent that a block names is
found under both its index and its hash, and only the genesis block is its own parent. From a block
that is found by any selector, parent by parent, the genesis block is come to after exactly as many
steps as its index lies behind. -/
theorem parents_lead_to_genesis (hkeyed : n.store.Keyed) (hlinked : n.store.Linked)
    (hkept : n.KeepsFile) (hquiet : n.Quiet) {selector : BlockSelector} {later : Node}
    (h : n.ask context (.resolveBlock selector) = (.ok (.block b), later)) :
    ∃ g, (∀ context', later.Finds context' .genesis g) ∧ (b.isSelfReferential ↔ b = g) ∧
      (∃ p, (∀ context', later.Finds context' (.indexAndHash b.parentIndex b.parentHash) p) ∧
        p.index = b.parentIndex ∧ p.hash = b.parentHash ∧ (p = b ↔ b = g)) ∧
      ∀ contexts, ∃ p, (later.climb b contexts).1 = some p ∧
        p.index.toInt = max g.index.toInt (b.index.toInt - contexts.length) ∧
          (p = g ↔ b.index.toInt - g.index.toInt ≤ contexts.length) := by
  have hfinds : n.Finds context selector b := congrArg Prod.fst h
  obtain ⟨-, g, hg, hb⟩ := Node.finds_iff.1 hfinds
  obtain ⟨g', hg', hmemoized⟩ := Node.genesis_of_finds hfinds
  rw [resolves_unique hg' hg] at hmemoized
  have hstarts := startsAt_of_resolves hkeyed hkept hg
  obtain rfl : (n.ask context (.resolveBlock selector)).2 = later := congrArg Prod.snd h
  generalize hlater : (n.ask context (.resolveBlock selector)).2 = later at hmemoized
  have hstore : later.store = n.store := hlater ▸ rfl
  have hstill : later.Quiet := hlater ▸ hquiet
  rw [← hstore] at hkeyed hlinked hstarts hb
  have hresolves : later.store.Resolves later.genesis? g := by
    rw [hmemoized]
    rfl
  obtain ⟨file, hshows⟩ := exists_shows_of_selects hkeyed hstarts hb
  obtain ⟨p, hparent⟩ := exists_parent hkeyed hstarts hlinked hshows
  obtain ⟨parentFile, hparentShows⟩ := hparent.shown
  have hback := hparent.step
  have hle := le_index_of_shows hshows
  refine ⟨g, fun _ => finds_of_selects hstill hresolves rfl, selfReferential_iff hstarts hshows,
    ⟨p, fun _ => finds_parent hkeyed hlinked hstill hresolves hparent, hparent.index,
      hparent.hash, ?_⟩, fun contexts => ?_⟩
  · rw [eq_genesis_iff hshows]
    constructor
    · intro heq
      rw [heq] at hback
      omega
    · intro hsame
      have hgenesis : p = g := (eq_genesis_iff hparentShows).2 (by omega)
      rw [hgenesis, (eq_genesis_iff hshows).2 hsame]
  · obtain ⟨last, hlast, ⟨lastFile, hlastShows⟩, hindex⟩ :=
      exists_climb hkeyed hstarts hlinked hstill hmemoized ⟨file, hshows⟩ contexts
    refine ⟨last, hlast, hindex, ?_⟩
    rw [eq_genesis_iff hlastShows, hindex]
    omega

end Climb

/-- The genesis block is over the second of four record files, whose hashes are given in either
case. -/
private def ancestryStore : Store :=
  Store.ingestAll {} [
    .recordFile ⟨5, "AB12", "00", 10, 90⟩,
    .recordFile ⟨6, "Cd34", "ab12", 95, 190⟩,
    .recordFile ⟨7, "ef56", "cD34", 195, 290⟩,
    .recordFile ⟨8, "0a1B", "EF56", 295, 390⟩,
    .snapshot 100]

private def ancestryNode : Node :=
  { store := ancestryStore }

private def ancestryGenesis : Block :=
  ⟨6, "0xcd34", 6, "0xcd34", 101, 190⟩

private def ancestryTip : Block :=
  ⟨8, "0x0a1b", 7, "0xef56", 295, 390⟩

theorem parents_lead_to_genesis_linked :
    let later := (ancestryNode.ask .background (.resolveBlock .latest)).2
    ancestryNode.Finds .background .latest ancestryTip ∧
      (later.climb ancestryTip [.background, .background]).1 = some ancestryGenesis ∧
        ∀ contexts, (later.climb ancestryTip contexts).1 = some ancestryGenesis ↔
          2 ≤ contexts.length := by
  intro later
  have hkeyed : ancestryNode.store.Keyed := keyed_ingestAll (fun e he => by cases he) _
  have hlinked : ancestryNode.store.Linked := ⟨⟨by decide, by decide⟩, by decide⟩
  have hkept : ancestryNode.KeepsFile := fun g hg => by cases hg
  have hfinds : ancestryNode.Finds .background .latest ancestryTip := by decide +kernel
  have hgenesis : later.Finds .background .genesis ancestryGenesis := by decide +kernel
  have hask : ancestryNode.ask .background (.resolveBlock .latest) =
      (.ok (.block ancestryTip), later) := Prod.ext hfinds rfl
  obtain ⟨g, hg, -, -, hclimb⟩ :=
    parents_lead_to_genesis hkeyed hlinked hkept (by decide) hask
  have hsame : g = ancestryGenesis := by
    have hanswer := (hg .background).symm.trans hgenesis
    simpa using hanswer
  have hsteps : ∀ contexts, (later.climb ancestryTip contexts).1 = some ancestryGenesis ↔
      2 ≤ contexts.length := by
    intro contexts
    obtain ⟨p, hp, -, hiff⟩ := hclimb contexts
    have htip : ancestryTip.index.toInt - ancestryGenesis.index.toInt = 2 := rfl
    rw [hsame, htip] at hiff
    rw [hp, Option.some.injEq, hiff]
    omega
  exact ⟨hfinds, (hsteps _).2 (Nat.le_refl _), hsteps⟩

/-- The genesis block is resolved, and then its record file is replaced by one with another hash,
and the next one by one that goes back to that hash. -/
private def rewrittenNode : Node :=
  ({} : Node).run [
    .ingest (.recordFile ⟨6, "cd34", "ab12", 91, 190⟩),
    .ingest (.recordFile ⟨7, "ef56", "cd34", 191, 290⟩),
    .ingest (.snapshot 100),
    .ask .background (.resolveBlock .genesis),
    .ingest (.recordFile ⟨6, "ee11", "ab12", 91, 190⟩),
    .ingest (.recordFile ⟨7, "ef56", "ee11", 191, 290⟩)]

/-- Behind a genesis block that shows a hash which is gone, a block may name a parent that nobody
finds. -/
theorem parent_not_found :
    rewrittenNode.store.Linked ∧
      rewrittenNode.Finds .background .latest ⟨7, "0xef56", 6, "0xee11", 191, 290⟩ ∧
      (rewrittenNode.ask .background (.resolveBlock (.indexAndHash 6 "0xee11"))).1 =
        Outcome.fail (.notFound .block) :=
  ⟨⟨⟨by decide, by decide⟩, by decide⟩, by decide +kernel, by decide +kernel⟩

end LedgerView
