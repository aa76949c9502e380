import Mathlib
import LedgerView.Proofs.Waits
/-!
# Selecting blocks

`Store.Selects` says which block a selector stands for, given the record files and the genesis
block. Resolving a selector ends well just if there is such a block and the calls come back
(`Node.finds_iff`).
-/

namespace LedgerView

/-- The genesis block that the store holds, over the record file of least index that ends after
the earliest snapshot. -/
def Store.IsGenesis (s : Store) (g : Block) : Prop :=
  ∃ snapshot file, s.earliestSnapshot? = some snapshot ∧
    s.firstRecordFileEndingAfter? snapshot = some file ∧
    (Block.genesis file snapshot : Outcome LedgerError Block) = .ok g

/-- What the genesis block is resolved to: the memoized one if there is one, else the one that the
store holds. -/
def Store.Resolves (s : Store) : Option Block → Block → Prop
  | some memoized, g => g = memoized
  | none, g => s.IsGenesis g

/-- The block of an index, given the genesis block. -/
def Store.BlockAt (s : Store) (g : Block) (index : Int64) (b : Block) : Prop :=
  0 ≤ index ∧ g.index ≤ index ∧ ∃ file, s.recordFileByIndex? index = some file ∧
    (Block.ofRecordFile file g : Outcome LedgerError Block) = .ok b

/-- The block over a record file that does not come before the genesis block. -/
def Block.From (g : Block) (file : RecordFile) (b : Block) : Prop :=
  g.index ≤ file.index ∧ (Block.ofRecordFile file g : Outcome LedgerError Block) = .ok b

/-- The block that a selector stands for, given the genesis block. -/
def Store.Selects (s : Store) (g : Block) : BlockSelector → Block → Prop
  | .index index, b => s.BlockAt g index b
  | .hash text, b => ∃ normal, BlockHash.normalize text = .ok normal ∧
      ∃ file, s.recordFileByHash? normal = some file ∧ g.From file b
  | .indexAndHash index text, b => ∃ normal, BlockHash.normalize text = .ok normal ∧
      s.BlockAt g index b ∧ BlockHash.dropMarks b.hash.toList = normal.toList
  | .latest, b => ∃ file, s.latestRecordFile? = some file ∧ g.From file b
  | .genesis, b => b = g

theorem resolves_unique {s : Store} {memo? : Option Block} {g g' : Block}
    (h : s.Resolves memo? g) (h' : s.Resolves memo? g') : g = g' := by
  cases memo? with
  | some memoized => exact Eq.trans h (Eq.symm h')
  | none =>
    obtain ⟨snapshot, file, hsnapshot, hfile, hg⟩ := h
    obtain ⟨snapshot', file', hsnapshot', hfile', hg'⟩ := h'
    cases hsnapshot.symm.trans hsnapshot'
    cases hfile.symm.trans hfile'
    cases hg.symm.trans hg'
    rfl

theorem of_resolves {s : Store} {memo? : Option Block} {g : Block} {P : Block → Prop}
    (hmemo : ∀ g, memo? = some g → P g) (hfound : ∀ g, s.IsGenesis g → P g)
    (hg : s.Resolves memo? g) : P g := by
  cases memo? with
  | some memoized =>
    obtain rfl : g = memoized := hg
    exact hmemo g rfl
  | none => exact hfound g hg

/-! ## What resolving comes to -/

namespace Script

variable {s : Store} {memo? after? : Option Block} {g b : Block} {selector : BlockSelector}

theorem eval_check_eq_ok {α : Type} {result : Except BadArgument α} {a : α} :
    (check result).eval s memo? = (.ok a, after?) ↔ result = .ok a ∧ memo? = after? := by
  rw [check, eval_done, Prod.mk.injEq, Outcome.ofExcept_eq_ok]

theorem eval_find_eq_ok {α : Type} {operation : String} {missing : LedgerError}
    {look : Store → Option α} {a : α} :
    (find operation missing look).eval s memo? = (.ok a, after?) ↔
      look s = some a ∧ memo? = after? := by
  rw [eval_find, Prod.mk.injEq, Outcome.ofOption_eq_ok]

theorem eval_unless_eq_ok {α : Type} {P : Prop} [Decidable P] {error : LedgerError}
    {script : Script α} {a : α} :
    (if P then refuse error else script).eval s memo? = (.ok a, after?) ↔
      ¬P ∧ script.eval s memo? = (.ok a, after?) := by
  by_cases h : P
  · rw [if_pos h]
    exact iff_of_false (fun h => by cases h) fun h' => h'.1 h
  · rw [if_neg h, and_iff_right h]

theorem eval_discoverGenesis_eq_ok :
    discoverGenesis.eval s memo? = (.ok g, after?) ↔ s.IsGenesis g ∧ after? = some g := by
  simp only [discoverGenesis, bind_eq, eval_bind_eq, eval_find_eq_ok, eval_done, Prod.mk.injEq]
  constructor
  · rintro ⟨snapshot, _, ⟨hsnapshot, rfl⟩, file, _, ⟨hfile, rfl⟩, genesis, _, ⟨hgenesis, rfl⟩, h⟩
    cases h
    exact ⟨⟨snapshot, file, hsnapshot, hfile, hgenesis⟩, rfl⟩
  · rintro ⟨⟨snapshot, file, hsnapshot, hfile, hgenesis⟩, rfl⟩
    exact ⟨snapshot, _, ⟨hsnapshot, rfl⟩, file, _, ⟨hfile, rfl⟩, g, _, ⟨hgenesis, rfl⟩, rfl⟩

theorem eval_genesis_eq_ok :
    genesis.eval s memo? = (.ok g, after?) ↔ s.Resolves memo? g ∧ after? = some g := by
  cases memo? with
  | none => exact eval_discoverGenesis_eq_ok
  | some memoized =>
    simp only [genesis, eval, pure_eq, Store.Resolves, Prod.mk.injEq, Except.ok.injEq]
    constructor
    · rintro ⟨rfl, rfl⟩
      exact ⟨rfl, rfl⟩
    · rintro ⟨rfl, rfl⟩
      exact ⟨rfl, rfl⟩

theorem eval_blockFrom_eq_ok {file : RecordFile} :
    (blockFrom g file).eval s memo? = (.ok b, after?) ↔ g.From file b ∧ memo? = after? := by
  simp only [blockFrom, eval_unless_eq_ok, eval_done, Prod.mk.injEq, Int64.not_lt, Block.From,
    and_assoc]

theorem eval_blockByIndex_eq_ok {index : Int64} :
    (blockByIndex index).eval s memo? = (.ok b, after?) ↔
      ∃ g, s.Resolves memo? g ∧ after? = some g ∧ s.BlockAt g index b := by
  simp only [blockByIndex, bind_eq, eval_unless_eq_ok, eval_bind_eq, eval_genesis_eq_ok,
    eval_find_eq_ok, eval_done, Prod.mk.injEq, Int64.not_lt, Store.BlockAt]
  constructor
  · rintro ⟨hnonneg, g, _, ⟨hg, rfl⟩, hge, file, _, ⟨hfile, rfl⟩, hb, rfl⟩
    exact ⟨g, hg, rfl, hnonneg, hge, file, hfile, hb⟩
  · rintro ⟨g, hg, rfl, hnonneg, hge, file, hfile, hb⟩
    exact ⟨hnonneg, g, _, ⟨hg, rfl⟩, hge, file, _, ⟨hfile, rfl⟩, hb, rfl⟩

theorem eval_blockByHash_eq_ok {text : String} :
    (blockByHash text).eval s memo? = (.ok b, after?) ↔
      ∃ g, s.Resolves memo? g ∧ after? = some g ∧ s.Selects g (.hash text) b := by
  simp only [blockByHash, bind_eq, eval_bind_eq, eval_check_eq_ok, eval_genesis_eq_ok,
    eval_find_eq_ok, eval_blockFrom_eq_ok, Store.Selects]
  constructor
  · rintro ⟨normal, _, ⟨hnormal, rfl⟩, g, _, ⟨hg, rfl⟩, file, _, ⟨hfile, rfl⟩, hb, rfl⟩
    exact ⟨g, hg, rfl, normal, hnormal, file, hfile, hb⟩
  · rintro ⟨g, hg, rfl, normal, hnormal, file, hfile, hb⟩
    exact ⟨normal, _, ⟨hnormal, rfl⟩, g, _, ⟨hg, rfl⟩, file, _, ⟨hfile, rfl⟩, hb, rfl⟩

theorem eval_blockByIndexAndHash_eq_ok {index : Int64} {text : String} :
    (blockByIndexAndHash index text).eval s memo? = (.ok b, after?) ↔
      ∃ g, s.Resolves memo? g ∧ after? = some g ∧ s.Selects g (.indexAndHash index text) b := by
  simp only [blockByIndexAndHash, bind_eq, eval_bind_eq, eval_check_eq_ok,
    eval_blockByIndex_eq_ok, Store.Selects]
  constructor
  · rintro ⟨normal, _, ⟨hnormal, rfl⟩, block, _, ⟨g, hg, rfl, hblock⟩, hmatch⟩
    split at hmatch
    · next hsame =>
      cases hmatch
      exact ⟨g, hg, rfl, normal, hnormal, hblock, hsame⟩
    · cases hmatch
  · rintro ⟨g, hg, rfl, normal, hnormal, hblock, hsame⟩
    refine ⟨normal, _, ⟨hnormal, rfl⟩, b, _, ⟨g, hg, rfl, hblock⟩, ?_⟩
    rw [if_pos hsame]
    rfl

theorem eval_latestBlock_eq_ok :
    latestBlock.eval s memo? = (.ok b, after?) ↔
      ∃ g, s.Resolves memo? g ∧ after? = some g ∧ s.Selects g .latest b := by
  simp only [latestBlock, bind_eq, eval_bind_eq, eval_genesis_eq_ok, eval_find_eq_ok,
    eval_blockFrom_eq_ok, Store.Selects]
  constructor
  · rintro ⟨g, _, ⟨hg, rfl⟩, file, _, ⟨hfile, rfl⟩, hb, rfl⟩
    exact ⟨g, hg, rfl, file, hfile, hb⟩
  · rintro ⟨g, hg, rfl, file, hfile, hb⟩
    exact ⟨g, _, ⟨hg, rfl⟩, file, _, ⟨hfile, rfl⟩, hb, rfl⟩

/-- A selector is resolved just if the genesis block is, to what the selector stands for then. -/
theorem eval_block_eq_ok :
    (block selector).eval s memo? = (.ok b, after?) ↔
      ∃ g, s.Resolves memo? g ∧ after? = some g ∧ s.Selects g selector b := by
  cases selector with
  | index index => exact eval_blockByIndex_eq_ok
  | hash text => exact eval_blockByHash_eq_ok
  | indexAndHash index text => exact eval_blockByIndexAndHash_eq_ok
  | latest => exact eval_latestBlock_eq_ok
  | genesis =>
    simp only [block, eval_genesis_eq_ok, Store.Selects]
    constructor
    · rintro ⟨hb, rfl⟩
      exact ⟨b, hb, rfl, rfl⟩
    · rintro ⟨g, hg, rfl, rfl⟩
      exact ⟨hg, rfl⟩

/-! ## How often it waits -/

/-- The calls that finding a genesis block takes: none if there is a memoized one. -/
def genesisCalls : Option Block → Nat
  | some _ => 0
  | none => 2

/-- The calls that finding the block of a selector takes. -/
def blockCalls (memo? : Option Block) : BlockSelector → Nat
  | .genesis => genesisCalls memo?
  | _ => genesisCalls memo? + 1

theorem blockCalls_le (memo? : Option Block) (selector : BlockSelector) :
    blockCalls memo? selector ≤ 3 := by
  have hgenesis : genesisCalls memo? ≤ 2 := by
    cases memo? <;> simp [genesisCalls]
  cases selector <;> simp only [blockCalls] <;> omega

theorem waits_genesis (h : s.Resolves memo? g) : genesis.waits s memo? = genesisCalls memo? := by
  cases memo? with
  | some memoized => rfl
  | none =>
    obtain ⟨snapshot, file, hsnapshot, hfile, hgenesis⟩ := h
    simp only [genesis, waits, discoverGenesis, bind_eq]
    rw [waits_bind_of_eq (eval_find_eq_ok.2 ⟨hsnapshot, rfl⟩),
      waits_bind_of_eq (eval_find_eq_ok.2 ⟨hfile, rfl⟩), waits_bind_of_zero fun _ _ => rfl]
    rfl

theorem waits_genesis_bind {f : Block → Script Block} (h : s.Resolves memo? g) :
    (genesis.bind f).waits s memo? = genesisCalls memo? + (f g).waits s (some g) := by
  rw [waits_bind_of_eq (eval_genesis_eq_ok.2 ⟨h, rfl⟩), waits_genesis h]

theorem waits_find_bind {α : Type} {operation : String} {missing : LedgerError}
    {look : Store → Option α} {a : α} {f : α → Script Block} (h : look s = some a)
    (hf : ∀ a, (f a).waits s memo? = 0) :
    ((find operation missing look).bind f).waits s memo? = 1 := by
  rw [waits_bind_of_eq (eval_find_eq_ok.2 ⟨h, rfl⟩), hf]
  rfl

theorem waits_blockFrom {file : RecordFile} : (blockFrom g file).waits s memo? = 0 := by
  unfold blockFrom
  split <;> rfl

theorem waits_blockByIndex {index : Int64} (hg : s.Resolves memo? g)
    (hb : s.BlockAt g index b) : (blockByIndex index).waits s memo? = genesisCalls memo? + 1 := by
  obtain ⟨hnonneg, hge, file, hfile, -⟩ := hb
  rw [blockByIndex, if_neg (Int64.not_lt.2 hnonneg), bind_eq, waits_genesis_bind hg,
    if_neg (Int64.not_lt.2 hge), bind_eq, waits_find_bind hfile fun _ => rfl]

theorem waits_block (hg : s.Resolves memo? g) (hb : s.Selects g selector b) :
    (block selector).waits s memo? = blockCalls memo? selector := by
  cases selector with
  | index index => exact waits_blockByIndex hg hb
  | hash text =>
    obtain ⟨normal, hnormal, file, hfile, -⟩ := hb
    simp only [block, blockByHash, bind_eq]
    rw [waits_bind_of_eq (eval_check_eq_ok.2 ⟨hnormal, rfl⟩), waits_genesis_bind hg,
      waits_find_bind hfile fun _ => waits_blockFrom, check, waits, Nat.zero_add]
    rfl
  | indexAndHash index text =>
    obtain ⟨normal, hnormal, hb, -⟩ := hb
    simp only [block, blockByIndexAndHash, bind_eq]
    rw [waits_bind_of_eq (eval_check_eq_ok.2 ⟨hnormal, rfl⟩), waits_bind_of_zero,
      waits_blockByIndex hg hb, check, waits, Nat.zero_add]
    · rfl
    · intro block memo?
      split <;> rfl
  | latest =>
    obtain ⟨file, hfile, -⟩ := hb
    simp only [block, latestBlock, bind_eq]
    rw [waits_genesis_bind hg, waits_find_bind hfile fun _ => waits_blockFrom]
    rfl
  | genesis => exact waits_genesis hg

end Script

/-! ## Nodes -/

namespace Node

variable {n : Node} {context : RequestContext} {selector : BlockSelector} {b : Block}

/-- The node finds the block of a selector. -/
def Finds (n : Node) (context : RequestContext) (selector : BlockSelector) (b : Block) : Prop :=
  (n.ask context (.resolveBlock selector)).1 = .ok (.block b)

instance : Decidable (n.Finds context selector b) :=
  inferInstanceAs (Decidable (_ = _))

theorem eval_resolveBlock_eq_ok {settings : Settings} {s : Store} {memo? after? : Option Block} :
    (settings.script (.resolveBlock selector)).eval s memo? = (.ok (.block b), after?) ↔
      ∃ g, s.Resolves memo? g ∧ after? = some g ∧ s.Selects g selector b := by
  simp only [Settings.script, Script.bind_eq, Script.eval_bind_eq, Script.eval_block_eq_ok]
  constructor
  · rintro ⟨_, _, ⟨g, hg, rfl, hb⟩, h⟩
    cases h
    exact ⟨g, hg, rfl, hb⟩
  · rintro ⟨g, hg, rfl, hb⟩
    exact ⟨b, some g, ⟨g, hg, rfl, hb⟩, rfl⟩

theorem waits_resolveBlock {settings : Settings} {s : Store} {memo? : Option Block} :
    (settings.script (.resolveBlock selector)).waits s memo? =
      (Script.block selector).waits s memo? := by
  simp only [Settings.script, Script.bind_eq]
  exact Script.waits_bind_of_zero fun _ _ => rfl

theorem permits_of_selects {g : Block} (hg : n.store.Resolves n.genesis? g)
    (hb : n.store.Selects g selector b) :
    (n.surroundings context).Permits n.clock
        ((n.settings.script (.resolveBlock selector)).waits n.store n.genesis?) ↔
      (n.surroundings context).Permits n.clock (Script.blockCalls n.genesis? selector) := by
  rw [waits_resolveBlock, Script.waits_block hg hb]

/-- A block is found just if the selector stands for it, with the genesis block that is resolved,
and the calls come back. -/
theorem finds_iff :
    n.Finds context selector b ↔
      (n.surroundings context).Permits n.clock (Script.blockCalls n.genesis? selector) ∧
        ∃ g, n.store.Resolves n.genesis? g ∧ n.store.Selects g selector b := by
  constructor
  · intro h
    obtain ⟨g, hg, -, hb⟩ := eval_resolveBlock_eq_ok.1 (Prod.ext (eval_of_ask h) rfl)
    exact ⟨(permits_of_selects hg hb).1 (permits_of_ask h), g, hg, hb⟩
  · rintro ⟨hpermits, g, hg, hb⟩
    have heval : (n.settings.script (.resolveBlock selector)).eval n.store n.genesis? =
        (.ok (.block b), some g) := eval_resolveBlock_eq_ok.2 ⟨g, hg, rfl, hb⟩
    rw [Finds, (ask_of_permits ((permits_of_selects hg hb).2 hpermits)).1, heval]

theorem genesis_of_finds (h : n.Finds context selector b) :
    ∃ g, n.store.Resolves n.genesis? g ∧
      (n.ask context (.resolveBlock selector)).2.genesis? = some g := by
  obtain ⟨g, hg, hafter, -⟩ := eval_resolveBlock_eq_ok.1 (Prod.ext (eval_of_ask h) rfl)
  exact ⟨g, hg, (ask_of_permits (permits_of_ask h)).2.trans hafter⟩

end Node

end LedgerView
