import Mathlib
import LedgerView.Proofs.Genesis
/-!
# Chains of record files

Record files of consecutive indices, each with some link to the one before it. The block over a
record file that does not come before the genesis block is always there (`from_iff`), and every
such record file but the first has a predecessor that it is linked to (`exists_previous`).

The genesis block is built from a record file and a snapshot, and a memoized one outlives them. As
long as no record file is replaced they are still there (`Node.keepsOrigin_run`).
-/

namespace LedgerView

/-- The indices of the record files are consecutive and none is negative, and each record file has
this link from the one before it. -/
structure Store.Consecutive (s : Store) (link : RecordFile → RecordFile → Prop) : Prop where
  nonneg : ∀ file ∈ s.recordFiles.values, 0 ≤ file.index
  chain : s.recordFiles.values.IsChain fun a b => b.index.toInt = a.index.toInt + 1 ∧ link a b

section Files

variable {s : Store} {link : RecordFile → RecordFile → Prop} {file other : RecordFile}

theorem ascending_files (hkeyed : s.Keyed) :
    s.recordFiles.values.Pairwise fun a b => a.index < b.index := by
  rw [Table.values, List.pairwise_map]
  refine s.recordFiles.ascending.imp_of_mem fun {a b} ha hb hlt => ?_
  rw [hkeyed a ha, hkeyed b hb]
  exact hlt

theorem eq_of_index_eq (hkeyed : s.Keyed) (hfile : file ∈ s.recordFiles.values)
    (hother : other ∈ s.recordFiles.values) (h : file.index = other.index) : file = other := by
  have hkept := (mem_files_iff hkeyed).1 hfile
  rw [h, (mem_files_iff hkeyed).1 hother] at hkept
  exact (Option.some.inj hkept).symm

theorem exists_previous (hkeyed : s.Keyed) (hconsecutive : s.Consecutive link)
    (hfile : file ∈ s.recordFiles.values) (hother : other ∈ s.recordFiles.values)
    (hlt : other.index < file.index) :
    ∃ previous ∈ s.recordFiles.values,
      file.index.toInt = previous.index.toInt + 1 ∧ link previous file := by
  have hasc := ascending_files hkeyed
  have hchain := hconsecutive.chain
  obtain ⟨before, after, hsplit⟩ := List.append_of_mem hfile
  rw [hsplit] at hasc hchain hother ⊢
  rcases List.eq_nil_or_concat' before with rfl | ⟨init, previous, rfl⟩
  · -- nothing is less than the first
    rw [List.nil_append] at hasc hother
    rcases List.mem_cons.1 hother with rfl | hother
    · exact absurd hlt Int64.lt_irrefl
    · have hgt := (List.pairwise_cons.1 hasc).1 other hother
      exact absurd (Int64.lt_trans hlt hgt) Int64.lt_irrefl
  · rw [List.append_assoc, List.singleton_append] at hchain
    have hlinked := (List.isChain_append_cons_cons.1 hchain).2.1
    exact ⟨previous, by simp, hlinked⟩

end Files

/-! ## Blocks over record files -/

/-- The block over a record file behind the genesis block, whose parent index needs no check. -/
def Block.over (g : Block) (file : RecordFile) : Block :=
  if file.index = g.index then g
  else {
    index := file.index
    hash := BlockHash.marked file.hash
    parentIndex := file.index - 1
    parentHash := BlockHash.marked file.prevHash
    consensusStart := file.consensusStart
    consensusEnd := file.consensusEnd
  }

section Over

variable {s : Store} {g b : Block} {file first : RecordFile} {index : Int64}

theorem toInt_sub_one {least : Int64} (h : least < index) :
    (index - 1).toInt = index.toInt - 1 := by
  have hmin : -2 ^ 63 ≤ least.toInt := Int64.le_toInt least
  have hmax : index.toInt < 2 ^ 63 := Int64.toInt_lt index
  have hlt := Int64.lt_iff_toInt_lt.1 h
  have hone : Int64.ofInt (index.toInt - 1) = index - 1 := by
    rw [Int64.ofInt_sub, Int64.ofInt_toInt]
    rfl
  rw [← hone]
  exact Int64.toInt_ofInt_of_le (by omega) (by omega)

/-- A block is there over every record file that does not come before the genesis block. -/
theorem from_iff : g.From file b ↔ g.index ≤ file.index ∧ b = g.over file := by
  refine and_congr_right fun hle => ?_
  unfold Block.ofRecordFile Block.over
  by_cases hsame : file.index = g.index
  · rw [if_pos hsame, if_pos hsame, Except.ok.injEq, eq_comm]
  · have hlt : g.index < file.index := Int64.lt_of_le_of_ne hle (Ne.symm hsame)
    have hparent : (subChecked file.index 1 : Outcome LedgerError Int64) =
        .ok (file.index - 1) := subChecked_eq_ok_iff.2 (toInt_sub_one hlt)
    rw [if_neg hsame, if_neg hsame, Arithmetic.before_checked, hparent, eq_comm (a := b)]
    exact pure_eq_ok

theorem index_over : (g.over file).index = file.index := by
  unfold Block.over
  split
  · next hsame => exact hsame.symm
  · rfl

/-- If its record file ends after the snapshot, the genesis block starts after the snapshot, and
after its own end only if the record file does. -/
theorem Block.Opens.bounds {snapshot : Int64} (h : g.Opens file snapshot)
    (hend : snapshot < file.consensusEnd) :
    snapshot < g.consensusStart ∧
      (file.consensusStart ≤ file.consensusEnd → g.consensusStart ≤ g.consensusEnd) := by
  have hafter := Int64.lt_iff_toInt_lt.1 hend
  simp only [Int64.lt_iff_toInt_lt, Int64.le_iff_toInt_le, h.starts, h.ends]
  omega

theorem lt_consensusEnd_of_first {snapshot : Int64}
    (h : s.firstRecordFileEndingAfter? snapshot = some file) : snapshot < file.consensusEnd :=
  of_decide_eq_true
    (List.find?_some (p := fun file : RecordFile => snapshot < file.consensusEnd) h)

theorem exists_genesis {snapshot : Int64} (h : snapshot < file.consensusEnd) :
    ∃ g, (Block.genesis file snapshot : Outcome LedgerError Block) = .ok g := by
  unfold Block.genesis
  by_cases hle : file.consensusStart ≤ snapshot
  · obtain ⟨next, hnext⟩ := exists_addChecked_one h
    rw [if_pos hle, Arithmetic.after_checked, hnext]
    exact ⟨_, rfl⟩
  · rw [if_neg hle]
    exact ⟨_, rfl⟩

theorem consensusStart_over (h : file.index ≠ g.index) :
    (g.over file).consensusStart = file.consensusStart := by
  rw [Block.over, if_neg h]

theorem consensusEnd_over {snapshot : Int64} (hkeyed : s.Keyed)
    (hfirst : first ∈ s.recordFiles.values) (hopens : g.Opens first snapshot)
    (hfile : file ∈ s.recordFiles.values) : (g.over file).consensusEnd = file.consensusEnd := by
  by_cases hsame : file.index = g.index
  · have heq : file = first := eq_of_index_eq hkeyed hfile hfirst (hsame.trans hopens.index)
    rw [Block.over, if_pos hsame, hopens.ends, heq]
  · rw [Block.over, if_neg hsame]

end Over

/-! ## Where the chain of blocks begins -/

/-- The store holds a snapshot and a record file that ends after it, and the genesis block is the
one that is built from the two. -/
def Store.HoldsOrigin (s : Store) (g : Block) : Prop :=
  ∃ snapshot ∈ s.snapshots.keys, ∃ file ∈ s.recordFiles.values, snapshot < file.consensusEnd ∧
    (Block.genesis file snapshot : Outcome LedgerError Block) = .ok g

/-- What the memoized genesis block was built from, if there is one, is still there. -/
def Node.KeepsOrigin (n : Node) : Prop :=
  ∀ g, n.genesis? = some g → n.store.HoldsOrigin g

section Origin

variable {s : Store} {g : Block}

theorem holdsOrigin_of_isGenesis (h : s.IsGenesis g) : s.HoldsOrigin g := by
  obtain ⟨snapshot, file, hsnapshot, hfile, hg⟩ := h
  exact ⟨snapshot, (Table.head?_keys_eq_some_iff.1 hsnapshot).1, file,
    List.mem_of_find?_eq_some hfile, lt_consensusEnd_of_first hfile, hg⟩

theorem holdsOrigin_of_resolves {n : Node} (hkept : n.KeepsOrigin)
    (hg : n.store.Resolves n.genesis? g) : n.store.HoldsOrigin g :=
  of_resolves hkept (fun _ => holdsOrigin_of_isGenesis) hg

theorem exists_opens (h : s.HoldsOrigin g) :
    ∃ snapshot ∈ s.snapshots.keys, ∃ file ∈ s.recordFiles.values,
      snapshot < file.consensusEnd ∧ g.Opens file snapshot := by
  obtain ⟨snapshot, hsnapshot, file, hfile, hend, hg⟩ := h
  exact ⟨snapshot, hsnapshot, file, hfile, hend, opens_of_genesis hg⟩

theorem startsAt_of_holdsOrigin (hkeyed : s.Keyed) (h : s.HoldsOrigin g) : s.StartsAt g := by
  obtain ⟨snapshot, -, file, hfile, -, hopens⟩ := exists_opens h
  exact startsAt_of_opens hkeyed hfile hopens

end Origin

/-! ## Runs that replace no record file -/

/-- The record puts no record file in the place of another. -/
def Store.LeavesFiles (s : Store) : Ingestion → Prop
  | .recordFile file => ∀ kept, s.recordFileByIndex? file.index = some kept → kept = file
  | _ => True

/-- No record file is replaced once the genesis block is memoized. -/
def Node.LeavesFiles (n : Node) : Node.Event → Prop
  | .ingest record => n.genesis? = none ∨ n.store.LeavesFiles record
  | _ => True

def Node.NeverReplaces (n : Node) : List Node.Event → Prop
  | [] => True
  | event :: events => n.LeavesFiles event ∧ (n.step event).NeverReplaces events

section Runs

variable {s : Store} {g : Block}

theorem mem_snapshots_ingest {k : Int64} (h : k ∈ s.snapshots.keys) (record : Ingestion) :
    k ∈ (s.ingest record).snapshots.keys := by
  cases record with
  | snapshot | hbarBalance | tokenBalance => exact Table.mem_keys_insert h
  | deleteToken token =>
    rw [Store.ingest, Store.deleteToken_eq]
    exact h
  | _ => exact h

theorem mem_files_ingest (hkeyed : s.Keyed) {file : RecordFile} {record : Ingestion}
    (hleaves : s.LeavesFiles record) (h : file ∈ s.recordFiles.values) :
    file ∈ (s.ingest record).recordFiles.values := by
  cases record with
  | recordFile other =>
    have hkept := (mem_files_iff hkeyed).1 h
    rw [mem_files_iff (keyed_ingest hkeyed _), Store.recordFileByIndex?]
    dsimp only [Store.ingest, Store.insertRecordFile]
    rw [Table.get?_insert]
    split
    · next hindex =>
      rw [hindex] at hkept
      rw [hleaves file hkept]
    · exact hkept
  | deleteToken token =>
    rw [Store.ingest, Store.deleteToken_eq]
    exact h
  | _ => exact h

theorem holdsOrigin_ingest (hkeyed : s.Keyed) {record : Ingestion}
    (hleaves : s.LeavesFiles record) (h : s.HoldsOrigin g) : (s.ingest record).HoldsOrigin g := by
  obtain ⟨snapshot, hsnapshot, file, hfile, hg⟩ := h
  exact ⟨snapshot, mem_snapshots_ingest hsnapshot record, file,
    mem_files_ingest hkeyed hleaves hfile, hg⟩

namespace Node

variable {n : Node}

theorem keepsFile_of_keepsOrigin (hkeyed : n.store.Keyed) (h : n.KeepsOrigin) : n.KeepsFile :=
  fun g hg => startsAt_of_holdsOrigin hkeyed (h g hg)

theorem keepsOrigin_step (hkeyed : n.store.Keyed) {event : Event} (hleaves : n.LeavesFiles event)
    (h : n.KeepsOrigin) : (n.step event).KeepsOrigin := by
  intro g hg
  cases event with
  | ingest record =>
    have hmemo : n.genesis? = some g := hg
    rcases hleaves with hnone | hleaves
    · exact absurd (hnone.symm.trans hmemo) (by simp)
    · exact holdsOrigin_ingest hkeyed hleaves (h g hmemo)
  | ask context query =>
    have hstore : n.store.HoldsOrigin g := by
      cases hmemo : n.genesis? with
      | some memoized =>
        cases (genesis_ask_of_some hmemo).symm.trans hg
        exact h g hmemo
      | none => exact holdsOrigin_of_isGenesis ((genesis_ask_of_none hmemo).1 hg).2.2
    exact hstore
  | fail | delay => exact h g hg

/-- As long as no record file is replaced, a node holds what its genesis block was built from. -/
theorem keepsOrigin_run (hkeyed : n.store.Keyed) {events : List Event}
    (hleaves : n.NeverReplaces events) (h : n.KeepsOrigin) : (n.run events).KeepsOrigin := by
  induction events generalizing n with
  | nil => exact h
  | cons event events ih =>
    exact ih (keyed_step hkeyed event) hleaves.2 (keepsOrigin_step hkeyed hleaves.1 h)

end Node

end Runs

end LedgerView
