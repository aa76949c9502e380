import Mathlib
import LedgerView.Proofs.Alike
import LedgerView.Proofs.Chain
/-!
# Arithmetic behind blocks

Two sums are taken to find a block: the timestamp right after the first snapshot, where the
genesis block starts, and the index right before that of a record file, its parent's. Either can
overflow for some words. That a block is resolved to the same by other sums than the checked ones
(`run_block_of_exact`) says for which arguments they are taken at all. Those are arguments at which
no word overflows (`resolveBlock_safe`).
-/

namespace LedgerView

/-- The sums are the checked ones over record files that end after the snapshot, and over those of
an index above that of the genesis block. -/
structure Arithmetic.Exact (a : Arithmetic LedgerError) : Prop where
  after : ∀ file snapshot, snapshot < file.consensusEnd →
    a.after file snapshot = addChecked snapshot 1
  before : ∀ file g, g.index < file.index → a.before file g = subChecked file.index 1

section Sums

variable {a : Arithmetic LedgerError} {s : Store} {g : Block} {file : RecordFile}
  {snapshot : Int64}

theorem genesis_of_exact (ha : a.Exact) (h : snapshot < file.consensusEnd) :
    Block.genesis file snapshot a = Block.genesis file snapshot := by
  rw [Block.genesis, Block.genesis, ha.after file snapshot h, Arithmetic.after_checked]

theorem ofRecordFile_of_exact (ha : a.Exact) (h : g.index ≤ file.index) :
    Block.ofRecordFile file g a = Block.ofRecordFile file g := by
  unfold Block.ofRecordFile
  split
  · rfl
  · next hne =>
    rw [ha.before file g (Int64.lt_of_le_of_ne h (Ne.symm hne)), Arithmetic.before_checked]

theorem ofRecordFile_eq (h : g.index ≤ file.index) :
    (Block.ofRecordFile file g : Outcome LedgerError Block) = .ok (g.over file) :=
  (from_iff.2 ⟨h, rfl⟩).2

/-! ## Where the sums are taken -/

namespace Script

variable {index : Int64} {selector : BlockSelector}

theorem alike_genesis_of_exact (ha : a.Exact) : Alike s s Eq (genesis a) genesis := by
  refine .consult fun memo? => ?_
  cases memo? with
  | some memoized => exact alike_done _
  | none =>
    refine alike_bind_eq (alike_find rfl) fun snapshot => ?_
    refine alike_bind (alike_find_some rfl) fun file other ⟨heq, hfile⟩ => ?_
    rw [← heq, genesis_of_exact ha (lt_consensusEnd_of_first hfile)]
    exact alike_bind_eq (alike_done _) fun g => .memoize g (alike_done _)

theorem alike_blockFrom_of_exact (ha : a.Exact) (g : Block) (file : RecordFile) :
    Alike s s Eq (blockFrom g file a) (blockFrom g file) := by
  unfold blockFrom
  split
  · exact alike_done _
  · next hle =>
    rw [ofRecordFile_of_exact ha (Int64.not_lt.1 hle)]
    exact alike_done _

theorem alike_blockByIndex_of_exact (hkeyed : s.Keyed) (ha : a.Exact) (index : Int64) :
    Alike s s Eq (blockByIndex index a) (blockByIndex index) := by
  unfold blockByIndex
  split
  · exact alike_done _
  refine alike_bind_eq (alike_genesis_of_exact ha) fun g => ?_
  split
  · exact alike_done _
  · next hle =>
    refine alike_bind (alike_find_some rfl) fun file other ⟨heq, hfile⟩ => ?_
    have hindex := index_of_recordFileByIndex hkeyed hfile
    rw [← heq, ofRecordFile_of_exact ha (hindex ▸ Int64.not_lt.1 hle)]
    exact alike_done _

theorem alike_block_of_exact (hkeyed : s.Keyed) (ha : a.Exact) (selector : BlockSelector) :
    Alike s s Eq (block selector a) (block selector) := by
  cases selector with
  | index index => exact alike_blockByIndex_of_exact hkeyed ha index
  | hash text =>
    refine alike_bind_eq (alike_done _) fun normal => ?_
    refine alike_bind_eq (alike_genesis_of_exact ha) fun g => ?_
    exact alike_bind_eq (alike_find rfl) fun file => alike_blockFrom_of_exact ha g file
  | indexAndHash index text =>
    refine alike_bind_eq (alike_done _) fun normal => ?_
    refine alike_bind_eq (alike_blockByIndex_of_exact hkeyed ha index) fun b => ?_
    split <;> exact alike_done _
  | latest =>
    refine alike_bind_eq (alike_genesis_of_exact ha) fun g => ?_
    exact alike_bind_eq (alike_find rfl) fun file => alike_blockFrom_of_exact ha g file
  | genesis => exact alike_genesis_of_exact ha

/-- Sums that are right where they must be resolve every block as the checked ones do, however the
calls go. -/
theorem run_block_of_exact {around : Surroundings} (hkeyed : around.store.Keyed) (ha : a.Exact)
    (selector : BlockSelector) (p : Progress) :
    (block selector a).run around p = (block selector).run around p := by
  obtain ⟨hanswer, hprogress⟩ := run_of_alike (alike_block_of_exact hkeyed ha selector)
    around.failure? around.latency around.deadline p
  exact Prod.ext (Outcome.alike_eq_iff.1 hanswer) hprogress

end Script

end Sums

/-! ## No overflow -/

section Safe

variable {s : Store} {memo? : Option Block} {what : Overflow}

namespace Script

theorem eval_find_ne_overflow {α : Type} {operation : String} {missing : LedgerError}
    {look : Store → Option α} :
    ((find operation missing look).eval s memo?).1 ≠ .error (.overflow what) := by
  rw [eval_find]
  cases look s <;> simp

theorem eval_check_ne_overflow {α : Type} {result : Except BadArgument α} :
    ((check result).eval s memo?).1 ≠ .error (.overflow what) := by
  rw [check, eval_done]
  cases result <;> simp

theorem eval_genesis_ne_overflow : (genesis.eval s memo?).1 ≠ .error (.overflow what) := by
  cases memo? with
  | some memoized => exact nofun
  | none =>
    intro h
    rcases eval_bind_eq_error.1 h with h | ⟨snapshot, _, -, h⟩
    · exact eval_find_ne_overflow h
    rcases eval_bind_eq_error.1 h with h | ⟨file, _, hfile, h⟩
    · exact eval_find_ne_overflow h
    obtain ⟨g, hg⟩ := exists_genesis
      (lt_consensusEnd_of_first (eval_find_eq_ok.1 hfile).1)
    rw [hg] at h
    cases h

theorem eval_blockFrom_ne_overflow {g : Block} {file : RecordFile} :
    ((blockFrom g file).eval s memo?).1 ≠ .error (.overflow what) := by
  unfold blockFrom
  split
  · exact nofun
  · next hle =>
    rw [ofRecordFile_eq (Int64.not_lt.1 hle)]
    exact nofun

theorem eval_blockByIndex_ne_overflow (hkeyed : s.Keyed) {index : Int64} :
    ((blockByIndex index).eval s memo?).1 ≠ .error (.overflow what) := by
  unfold blockByIndex
  split
  · exact nofun
  intro h
  rcases eval_bind_eq_error.1 h with h | ⟨g, _, -, h⟩
  · exact eval_genesis_ne_overflow h
  split at h
  · cases h
  · next hle =>
    rcases eval_bind_eq_error.1 h with h | ⟨file, _, hfile, h⟩
    · exact eval_find_ne_overflow h
    have hindex := index_of_recordFileByIndex hkeyed (eval_find_eq_ok.1 hfile).1
    rw [ofRecordFile_eq (hindex ▸ Int64.not_lt.1 hle)] at h
    cases h

theorem eval_block_ne_overflow (hkeyed : s.Keyed) {selector : BlockSelector} :
    ((block selector).eval s memo?).1 ≠ .error (.overflow what) := by
  have hfrom : ∀ {operation look memo?},
      ((genesis.bind fun g => (find operation (.notFound .block) look).bind fun file =>
        blockFrom g file).eval s memo?).1 ≠ .error (.overflow what) := by
    intro operation look memo? h
    rcases eval_bind_eq_error.1 h with h | ⟨g, _, -, h⟩
    · exact eval_genesis_ne_overflow h
    rcases eval_bind_eq_error.1 h with h | ⟨file, _, -, h⟩
    · exact eval_find_ne_overflow h
    · exact eval_blockFrom_ne_overflow h
  intro h
  cases selector with
  | index index => exact eval_blockByIndex_ne_overflow hkeyed h
  | hash text =>
    rcases eval_bind_eq_error.1 h with h | ⟨normal, _, -, h⟩
    · exact eval_check_ne_overflow h
    · exact hfrom h
  | indexAndHash index text =>
    rcases eval_bind_eq_error.1 h with h | ⟨normal, _, -, h⟩
    · exact eval_check_ne_overflow h
    rcases eval_bind_eq_error.1 h with h | ⟨b, _, -, h⟩
    · exact eval_blockByIndex_ne_overflow hkeyed h
    · split at h <;> cases h
  | latest => exact hfrom h
  | genesis => exact eval_genesis_ne_overflow h

end Script

theorem ask_resolveBlock_ne_overflow {n : Node} (hkeyed : n.store.Keyed) (context : RequestContext)
    (selector : BlockSelector) :
    (n.ask context (.resolveBlock selector)).1 ≠ .error (.overflow what) := by
  intro h
  have heval := Script.eval_of_run_eq (p := n.progress) h fun _ => nofun
  rcases Script.eval_bind_eq_error.1 heval with h | ⟨b, _, -, h⟩
  · exact Script.eval_block_ne_overflow hkeyed h
  · cases h

end Safe

/-! ## Reachable states -/

section Reachable

variable {start : Node} {events : List Node.Event}

theorem isGenesis_of_run (hkeyed : start.store.Keyed) (hfresh : start.genesis? = none)
    {event : Node.Event} {g : Block} (h : (start.run (events ++ [event])).genesis? = some g) :
    ∃ before, before <+: events ∧ (start.run before).store.IsGenesis g := by
  obtain ⟨before, context, query, after, heq, -, -, -, hbegins⟩ :=
    Node.exists_completes_of_run hkeyed hfresh h
  have hlength := congrArg List.length heq
  simp only [List.length_append, List.length_cons, List.length_nil] at hlength
  have hbefore : before <+: events :=
    List.prefix_of_prefix_length_le ⟨_, heq.symm⟩ (List.prefix_append events [event]) (by omega)
  exact ⟨before, hbefore, (isGenesis_iff_begins (Node.keyed_run hkeyed before)).2 hbegins⟩

theorem genesis_of_ask {n : Node} {context : RequestContext} {selector : BlockSelector}
    {b : Block} (hkeyed : n.store.Keyed)
    (h : (n.ask context (.resolveBlock selector)).1 = .ok (.block b)) :
    ∃ g, (n.ask context (.resolveBlock selector)).2.genesis? = some g ∧
      (selector = .genesis ∨ b.index = g.index → b = g) := by
  obtain ⟨_, g, hselector, -, hselects, hafter⟩ :=
    selects_of_eval (Prod.ext (Node.eval_of_ask h) rfl) rfl
  cases hselector
  refine ⟨g, (Node.ask_of_permits (Node.permits_of_ask h)).2.trans hafter, ?_⟩
  rintro (rfl | hindex)
  · exact hselects
  · exact (follows_of_selects hkeyed hselects).same hindex

/-- In no state that a fresh service comes to does resolving a block overflow. The timestamp after
the first snapshot is taken only over a record file that ends after that snapshot, and the index
before that of a record file only if it is above that of the genesis block. The genesis block starts
after the first snapshot it was built from, and after its own end only if its record file does. -/
theorem resolveBlock_safe (hkeyed : start.store.Keyed) (hfresh : start.genesis? = none)
    (events : List Node.Event) (context : RequestContext) (selector : BlockSelector) :
    (∀ what, ((start.run events).ask context (.resolveBlock selector)).1 ≠
      .error (.overflow what)) ∧
    (∀ a : Arithmetic LedgerError, a.Exact →
      ∀ (around : Script.Surroundings) (p : Script.Progress),
        around.store = (start.run events).store →
          (Script.block selector a).run around p = (Script.block selector).run around p) ∧
    ∀ b, ((start.run events).ask context (.resolveBlock selector)).1 = .ok (.block b) →
      ∃ before g snapshot file, before <+: events ∧
        (start.run before).store.earliestSnapshot? = some snapshot ∧
        (start.run before).store.firstRecordFileEndingAfter? snapshot = some file ∧
        (Block.genesis file snapshot : Outcome LedgerError Block) = .ok g ∧
        snapshot < g.consensusStart ∧
        (file.consensusStart ≤ file.consensusEnd → g.consensusStart ≤ g.consensusEnd) ∧
        (selector = .genesis ∨ b.index = g.index → b = g) := by
  have hkeyed' := Node.keyed_run hkeyed events
  refine ⟨fun what => ask_resolveBlock_ne_overflow hkeyed' context selector,
    ?_, fun b h => ?_⟩
  · intro a ha around p haround
    exact Script.run_block_of_exact (haround ▸ hkeyed') ha selector p
  · obtain ⟨g, hmemo, hsame⟩ := genesis_of_ask hkeyed' h
    have hlast : (start.run (events ++ [.ask context (.resolveBlock selector)])).genesis? =
        some g := by
      rw [Node.run_append]
      exact hmemo
    obtain ⟨before, hbefore, snapshot, file, hsnapshot, hfile, hg⟩ :=
      isGenesis_of_run hkeyed hfresh hlast
    obtain ⟨hstart, hends⟩ := (opens_of_genesis hg).bounds (lt_consensusEnd_of_first hfile)
    exact ⟨before, g, snapshot, file, hbefore, hsnapshot, hfile, hg, hstart, hends, hsame⟩

end Reachable

/-- The least index and the last timestamp there are. -/
private def extremeFile : RecordFile :=
  ⟨Int64.minValue, "ab12", "00", 10, Int64.maxValue⟩

/-- The last snapshot that a record file can end after. Once the genesis block is memoized, its
record file is replaced by one that ends before the snapshot. -/
private def extremeEvents : List Node.Event := [
  .ingest (.recordFile extremeFile),
  .ingest (.snapshot (Int64.maxValue - 1)),
  .ask .background (.resolveBlock .latest),
  .ingest (.recordFile { extremeFile with hash := "cd34", consensusEnd := 20 }),
  .ingest (.snapshot Int64.minValue)]

theorem resolveBlock_safe_extreme :
    (Block.genesis extremeFile Int64.maxValue : Outcome LedgerError Block) =
        .error (.overflow .add) ∧
      (Block.ofRecordFile extremeFile ⟨0, "0x", 0, "0x", 0, 0⟩ : Outcome LedgerError Block) =
        .error (.overflow .sub) ∧
      (∀ what, ((({} : Node).run extremeEvents).ask .background (.resolveBlock .genesis)).1 ≠
        .error (.overflow what)) ∧
      ∃ before g snapshot file, before <+: extremeEvents ∧
        (({} : Node).run before).store.earliestSnapshot? = some snapshot ∧
        (({} : Node).run before).store.firstRecordFileEndingAfter? snapshot = some file ∧
        (Block.genesis file snapshot : Outcome LedgerError Block) = .ok g ∧
        snapshot < g.consensusStart ∧
        g = ⟨Int64.minValue, "0xab12", Int64.minValue, "0xab12", Int64.maxValue,
          Int64.maxValue⟩ := by
  have hkeyed : ({} : Node).store.Keyed := fun e he => by cases he
  obtain ⟨hsafe, -, hbuilt⟩ :=
    resolveBlock_safe hkeyed rfl extremeEvents .background .genesis
  obtain ⟨before, g, snapshot, file, hbefore, hsnapshot, hfile, hg, hstart, -, hsame⟩ :=
    hbuilt ⟨Int64.minValue, "0xab12", Int64.minValue, "0xab12", Int64.maxValue, Int64.maxValue⟩
      (by decide +kernel)
  refine ⟨by decide, by decide, hsafe, before, g, snapshot, file, hbefore, hsnapshot, hfile, hg,
    hstart, (hsame (.inl rfl)).symm⟩

end LedgerView
