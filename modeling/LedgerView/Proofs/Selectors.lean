import Mathlib
import LedgerView.Proofs.Block
import LedgerView.Proofs.BlockHash
import LedgerView.Proofs.Table
/-!
# Selectors that agree

A block is found by its index, by its hash and by both. The look-ups differ in what they compare:
the key of the record file, the stored hash in whatever case, and the hash as the block shows it.
Over record files whose hashes are all different these are the same record file.
-/

namespace LedgerView

/-- Record files are kept under their index. So is every record file that is ingested
(`keyed_ingest`). -/
def Store.Keyed (s : Store) : Prop :=
  ∀ e ∈ s.recordFiles.entries, e.2.index = e.1

/-- No index is negative, every hash is given by its digits alone, and no two hashes are the same
up to the case of the digits. -/
structure Store.WellHashed (s : Store) : Prop where
  nonneg : ∀ file ∈ s.recordFiles.values, 0 ≤ file.index
  digits : ∀ file ∈ s.recordFiles.values, BlockHash.IsDigits file.hash.toList
  distinct : s.recordFiles.values.Pairwise fun a b =>
    BlockHash.sameIgnoringCase a.hash b.hash = false

/-- The genesis block shows the record file that is kept under its index, and it is its own
parent. -/
structure Store.StartsAt (s : Store) (g : Block) : Prop where
  shown : ∃ file, s.recordFileByIndex? g.index = some file ∧ g.hash = BlockHash.marked file.hash
  selfReferential : g.isSelfReferential

/-- What the genesis block takes from its record file and the first snapshot. -/
structure Block.Opens (g : Block) (file : RecordFile) (snapshot : Int64) : Prop where
  index : g.index = file.index
  hash : g.hash = BlockHash.marked file.hash
  selfReferential : g.isSelfReferential
  starts : g.consensusStart.toInt = max file.consensusStart.toInt (snapshot.toInt + 1)
  ends : g.consensusEnd = file.consensusEnd

section Files

variable {s : Store} {g b : Block} {file : RecordFile}

theorem keyed_ingest (h : s.Keyed) (record : Ingestion) : (s.ingest record).Keyed := by
  cases record with
  | recordFile file =>
    intro e he
    rcases Table.mem_put he with rfl | he
    · rfl
    · exact h e he
  | deleteToken token =>
    rw [Store.ingest, Store.deleteToken_eq]
    exact h
  | _ => exact h

theorem keyed_ingestAll (h : s.Keyed) (records : List Ingestion) : (s.ingestAll records).Keyed := by
  induction records generalizing s with
  | nil => exact h
  | cons record records ih => exact ih (keyed_ingest h record)

theorem mem_files_iff (hkeyed : s.Keyed) :
    file ∈ s.recordFiles.values ↔ s.recordFileByIndex? file.index = some file := by
  rw [Store.recordFileByIndex?, Table.get?, Table.lookup_eq_some_iff s.recordFiles.ascending,
    Table.values, List.mem_map]
  constructor
  · rintro ⟨e, he, rfl⟩
    rw [hkeyed e he]
    exact he
  · intro hmem
    exact ⟨_, hmem, rfl⟩

theorem index_of_recordFileByIndex (hkeyed : s.Keyed) {index : Int64}
    (h : s.recordFileByIndex? index = some file) : file.index = index :=
  hkeyed (index, file) (Table.mem_of_lookup h)

theorem index_of_ofRecordFile
    (h : (Block.ofRecordFile file g : Outcome LedgerError Block) = .ok b) :
    b.index = file.index := by
  unfold Block.ofRecordFile at h
  split at h
  · next hsame =>
    cases h
    exact hsame.symm
  · simp only [bind_eq_ok, pure_eq_ok] at h
    obtain ⟨parentIndex, -, rfl⟩ := h
    rfl

theorem opens_of_genesis {snapshot : Int64}
    (h : (Block.genesis file snapshot : Outcome LedgerError Block) = .ok g) :
    g.Opens file snapshot := by
  unfold Block.genesis at h
  split at h
  · next hle =>
    obtain ⟨start, hstart, h⟩ := bind_eq_ok.1 h
    have hnext : start.toInt = snapshot.toInt + 1 := addChecked_eq_ok_iff.1 hstart
    have hbefore := Int64.le_iff_toInt_le.1 hle
    cases h
    exact ⟨rfl, rfl, by simp [Block.isSelfReferential], by dsimp only; omega, rfl⟩
  · next hnle =>
    have hafter := Int64.lt_iff_toInt_lt.1 (Int64.not_le.1 hnle)
    cases h
    exact ⟨rfl, rfl, by simp [Block.isSelfReferential], by dsimp only; omega, rfl⟩

theorem startsAt_of_opens (hkeyed : s.Keyed) {snapshot : Int64}
    (hfile : file ∈ s.recordFiles.values) (h : g.Opens file snapshot) : s.StartsAt g := by
  refine ⟨⟨file, ?_, h.hash⟩, h.selfReferential⟩
  rw [h.index]
  exact (mem_files_iff hkeyed).1 hfile

theorem startsAt_of_isGenesis (hkeyed : s.Keyed) (h : s.IsGenesis g) : s.StartsAt g := by
  obtain ⟨snapshot, file, -, hfile, hg⟩ := h
  exact startsAt_of_opens hkeyed (List.mem_of_find?_eq_some hfile) (opens_of_genesis hg)

theorem hash_of_ofRecordFile (hg : s.StartsAt g)
    (hfile : s.recordFileByIndex? file.index = some file)
    (h : (Block.ofRecordFile file g : Outcome LedgerError Block) = .ok b) :
    b.hash = BlockHash.marked file.hash := by
  unfold Block.ofRecordFile at h
  split at h
  · next hsame =>
    cases h
    obtain ⟨other, hother, hhash⟩ := hg.shown
    rw [← hsame, hfile] at hother
    cases hother
    exact hhash
  · simp only [bind_eq_ok, pure_eq_ok] at h
    obtain ⟨parentIndex, -, rfl⟩ := h
    rfl

end Files

/-! ## One record file for a block -/

section Selects

variable {s : Store} {g b : Block} {file : RecordFile} {index : Int64} {text : String}
  {selector : BlockSelector}

/-- The block shows the record file that is kept under its index, and does not come before the
genesis block. -/
structure Store.Shows (s : Store) (g : Block) (file : RecordFile) (b : Block) : Prop where
  kept : s.recordFileByIndex? b.index = some file
  hash : b.hash = BlockHash.marked file.hash
  built : g.From file b

theorem index_of_shows (h : s.Shows g file b) : b.index = file.index :=
  index_of_ofRecordFile h.built.2

theorem mem_of_shows (hkeyed : s.Keyed) (h : s.Shows g file b) : file ∈ s.recordFiles.values :=
  (mem_files_iff hkeyed).2 (index_of_shows h ▸ h.kept)

theorem shows_of_mem (hkeyed : s.Keyed) (hg : s.StartsAt g)
    (hfile : file ∈ s.recordFiles.values) (hb : g.From file b) : s.Shows g file b := by
  have hkept := (mem_files_iff hkeyed).1 hfile
  refine ⟨?_, hash_of_ofRecordFile hg hkept hb.2, hb⟩
  rw [index_of_ofRecordFile hb.2]
  exact hkept

theorem shows_genesis (hkeyed : s.Keyed) (hg : s.StartsAt g) : ∃ file, s.Shows g file g := by
  obtain ⟨file, hfile, hhash⟩ := hg.shown
  have hindex := index_of_recordFileByIndex hkeyed hfile
  refine ⟨file, hfile, hhash, ?_, ?_⟩
  · rw [hindex]
    exact Int64.le_refl _
  · rw [Block.ofRecordFile, if_pos hindex]

theorem shows_of_blockAt (hkeyed : s.Keyed) (hg : s.StartsAt g) (h : s.BlockAt g index b) :
    b.index = index ∧ ∃ file, s.Shows g file b := by
  obtain ⟨-, hge, file, hfile, hb⟩ := h
  obtain rfl := index_of_recordFileByIndex hkeyed hfile
  exact ⟨index_of_ofRecordFile hb, file,
    shows_of_mem hkeyed hg ((mem_files_iff hkeyed).2 hfile) ⟨hge, hb⟩⟩

theorem blockAt_of_shows (hkeyed : s.Keyed)
    (hnonneg : ∀ file ∈ s.recordFiles.values, 0 ≤ file.index) (h : s.Shows g file b) :
    s.BlockAt g b.index b := by
  have hindex := index_of_shows h
  refine ⟨?_, ?_, file, h.kept, h.built.2⟩
  · rw [hindex]
    exact hnonneg file (mem_of_shows hkeyed h)
  · rw [hindex]
    exact h.built.1

theorem blockAt_iff (hkeyed : s.Keyed) (hg : s.StartsAt g)
    (hnonneg : ∀ file ∈ s.recordFiles.values, 0 ≤ file.index) :
    s.BlockAt g index b ↔ b.index = index ∧ ∃ file, s.Shows g file b := by
  refine ⟨shows_of_blockAt hkeyed hg, ?_⟩
  rintro ⟨rfl, file, hshows⟩
  exact blockAt_of_shows hkeyed hnonneg hshows

theorem eq_of_shownDigits_eq (hwell : s.WellHashed) {other : RecordFile}
    (hfile : file ∈ s.recordFiles.values) (hother : other ∈ s.recordFiles.values)
    (h : BlockHash.shownDigits file.hash = BlockHash.shownDigits other.hash) : file = other := by
  have hnodup : (s.recordFiles.values.map fun file => BlockHash.shownDigits file.hash).Nodup := by
    rw [List.Nodup, List.pairwise_map]
    refine hwell.distinct.imp fun {a b} hdiffer heq => ?_
    rw [BlockHash.sameIgnoringCase, beq_eq_false_iff_ne] at hdiffer
    exact hdiffer heq
  exact List.inj_on_of_nodup_map hnodup hfile hother h

theorem recordFileByHash?_eq_some_iff (hwell : s.WellHashed) {normal : String}
    (hnormal : BlockHash.normalize text = .ok normal) :
    s.recordFileByHash? normal = some file ↔
      file ∈ s.recordFiles.values ∧ BlockHash.shownDigits file.hash = normal.toList := by
  have hsame : ∀ file : RecordFile, BlockHash.sameIgnoringCase file.hash normal ↔
      BlockHash.shownDigits file.hash = normal.toList :=
    fun _ => BlockHash.sameIgnoringCase_normal hnormal
  have hfound : ∀ file, s.recordFileByHash? normal = some file →
      BlockHash.shownDigits file.hash = normal.toList := by
    intro file h
    unfold Store.recordFileByHash? at h
    have hfile := List.find?_some h
    exact (hsame file).1 hfile
  constructor
  · intro h
    exact ⟨List.mem_of_find?_eq_some h, hfound file h⟩
  · rintro ⟨hmem, hdigits⟩
    cases hother : s.recordFileByHash? normal with
    | none => exact absurd ((hsame file).2 hdigits) (List.find?_eq_none.1 hother file hmem)
    | some other =>
      rw [eq_of_shownDigits_eq hwell hmem (List.mem_of_find?_eq_some hother)
        (hdigits.trans (hfound other hother).symm)]

theorem selects_hash_iff (hkeyed : s.Keyed) (hg : s.StartsAt g) (hwell : s.WellHashed) :
    s.Selects g (.hash text) b ↔ ∃ normal, BlockHash.normalize text = .ok normal ∧
      ∃ file, s.Shows g file b ∧ BlockHash.shownDigits file.hash = normal.toList := by
  constructor
  · rintro ⟨normal, hnormal, file, hfile, hb⟩
    obtain ⟨hmem, hdigits⟩ := (recordFileByHash?_eq_some_iff hwell hnormal).1 hfile
    exact ⟨normal, hnormal, file, shows_of_mem hkeyed hg hmem hb, hdigits⟩
  · rintro ⟨normal, hnormal, file, hshows, hdigits⟩
    have hmem := mem_of_shows hkeyed hshows
    exact ⟨normal, hnormal, file, (recordFileByHash?_eq_some_iff hwell hnormal).2 ⟨hmem, hdigits⟩,
      hshows.built⟩

theorem selects_indexAndHash_iff (hkeyed : s.Keyed) (hg : s.StartsAt g)
    (hwell : s.WellHashed) :
    s.Selects g (.indexAndHash index text) b ↔
      s.Selects g (.index index) b ∧ s.Selects g (.hash text) b := by
  have hdigits : ∀ file, s.Shows g file b →
      BlockHash.dropMarks b.hash.toList = BlockHash.shownDigits file.hash := by
    intro file hshows
    rw [hshows.hash]
    exact BlockHash.dropMarks_marked (hwell.digits file (mem_of_shows hkeyed hshows))
  rw [selects_hash_iff hkeyed hg hwell]
  simp only [Store.Selects]
  constructor
  · rintro ⟨normal, hnormal, hb, hsame⟩
    obtain ⟨-, file, hshows⟩ := shows_of_blockAt hkeyed hg hb
    exact ⟨hb, normal, hnormal, file, hshows, (hdigits file hshows).symm.trans hsame⟩
  · rintro ⟨hb, normal, hnormal, file, hshows, hsame⟩
    exact ⟨normal, hnormal, hb, (hdigits file hshows).trans hsame⟩

theorem exists_shows_of_selects (hkeyed : s.Keyed) (hg : s.StartsAt g)
    (h : s.Selects g selector b) : ∃ file, s.Shows g file b := by
  cases selector with
  | index index => exact (shows_of_blockAt hkeyed hg h).2
  | hash text =>
    obtain ⟨normal, -, file, hfile, hb⟩ := h
    exact ⟨file, shows_of_mem hkeyed hg (List.mem_of_find?_eq_some hfile) hb⟩
  | indexAndHash index text =>
    obtain ⟨normal, -, hb, -⟩ := h
    exact (shows_of_blockAt hkeyed hg hb).2
  | latest =>
    obtain ⟨file, hfile, hb⟩ := h
    exact ⟨file, shows_of_mem hkeyed hg (List.mem_of_getLast? hfile) hb⟩
  | genesis =>
    obtain rfl := h
    exact shows_genesis hkeyed hg

/-- Every selected block is selected by its index and by its hash, however that is written. -/
theorem selects_of_spells (hkeyed : s.Keyed) (hg : s.StartsAt g) (hwell : s.WellHashed)
    (h : s.Selects g selector b) (hspells : BlockHash.Spells text b.hash) :
    s.Selects g (.index b.index) b ∧ s.Selects g (.hash text) b ∧
      s.Selects g (.indexAndHash b.index text) b := by
  obtain ⟨file, hshows⟩ := exists_shows_of_selects hkeyed hg h
  have hindex : s.Selects g (.index b.index) b := blockAt_of_shows hkeyed hwell.nonneg hshows
  have hhash : s.Selects g (.hash text) b := by
    rw [hshows.hash] at hspells
    have hnormal := BlockHash.normalize_of_spells
      (hwell.digits file (mem_of_shows hkeyed hshows)) hspells
    refine (selects_hash_iff hkeyed hg hwell).2 ⟨_, hnormal, file, hshows, ?_⟩
    rw [String.toList_ofList]
  exact ⟨hindex, hhash, (selects_indexAndHash_iff hkeyed hg hwell).2 ⟨hindex, hhash⟩⟩

end Selects

/-! ## Agreement -/

/-- The memoized genesis block, if there is one, still shows the record file under its index. -/
def Node.KeepsFile (n : Node) : Prop :=
  ∀ g, n.genesis? = some g → n.store.StartsAt g

section Agreement

variable {n : Node}

theorem startsAt_of_resolves {g : Block} (hkeyed : n.store.Keyed) (hkept : n.KeepsFile)
    (hg : n.store.Resolves n.genesis? g) : n.store.StartsAt g :=
  of_resolves hkept (fun _ => startsAt_of_isGenesis hkeyed) hg

/-- An index and a hash together find a block just if each of them does. And a block that is found
in any way is found by its index, by every text that writes its hash, and by both, now and after
the query; three calls are the most that this takes. -/
theorem block_selectors_agree (hkeyed : n.store.Keyed) (hwell : n.store.WellHashed)
    (hkept : n.KeepsFile) :
    (∀ context index text b, n.Finds context (.indexAndHash index text) b ↔
      n.Finds context (.index index) b ∧ n.Finds context (.hash text) b) ∧
    ∀ context selector b, n.Finds context selector b →
      ∀ later : Node, later.store = n.store →
        later.genesis? = n.genesis? ∨
          later.genesis? = (n.ask context (.resolveBlock selector)).2.genesis? →
        ∀ context', (later.surroundings context').Permits later.clock 3 →
          ∀ text, BlockHash.Spells text b.hash →
            later.Finds context' (.index b.index) b ∧ later.Finds context' (.hash text) b ∧
              later.Finds context' (.indexAndHash b.index text) b := by
  constructor
  · intro context index text b
    simp only [Node.finds_iff, Script.blockCalls]
    constructor
    · rintro ⟨hpermits, g, hg, hb⟩
      obtain ⟨hindex, hhash⟩ :=
        (selects_indexAndHash_iff hkeyed (startsAt_of_resolves hkeyed hkept hg) hwell).1 hb
      exact ⟨⟨hpermits, g, hg, hindex⟩, hpermits, g, hg, hhash⟩
    · rintro ⟨⟨hpermits, g, hg, hindex⟩, -, g', hg', hhash⟩
      rw [resolves_unique hg' hg] at hhash
      refine ⟨hpermits, g, hg, ?_⟩
      exact (selects_indexAndHash_iff hkeyed (startsAt_of_resolves hkeyed hkept hg) hwell).2
        ⟨hindex, hhash⟩
  · intro context selector b hfinds later hstore hmemo context' hpermits text hspells
    obtain ⟨-, g, hg, hb⟩ := Node.finds_iff.1 hfinds
    have hlater : later.store.Resolves later.genesis? g := by
      rw [hstore]
      rcases hmemo with hsame | hafter
      · rw [hsame]
        exact hg
      · -- the query itself has memoized the block that it resolved
        obtain ⟨g', hg', hmemoized⟩ := Node.genesis_of_finds hfinds
        rw [hafter, hmemoized]
        exact resolves_unique hg hg'
    have hfind : ∀ selector, n.store.Selects g selector b → later.Finds context' selector b := by
      intro selector hselects
      rw [← hstore] at hselects
      exact Node.finds_iff.2 ⟨Script.permits_of_le (Script.blockCalls_le _ _) hpermits,
        g, hlater, hselects⟩
    obtain ⟨hindex, hhash, hboth⟩ :=
      selects_of_spells hkeyed (startsAt_of_resolves hkeyed hkept hg) hwell hb hspells
    exact ⟨hfind _ hindex, hfind _ hhash, hfind _ hboth⟩

end Agreement

/-- The second of three record files is the first that ends after the snapshot. -/
private def chainStore : Store :=
  Store.ingestAll {} [
    .recordFile ⟨5, "AB12", "00", 10, 90⟩,
    .recordFile ⟨6, "Cd34", "AB12", 95, 190⟩,
    .recordFile ⟨7, "ef56", "Cd34", 195, 290⟩,
    .snapshot 100]

private def chainGenesis : Block :=
  ⟨6, "0xcd34", 6, "0xcd34", 101, 190⟩

/-- A node that has resolved the genesis block, and learned of an earlier snapshot since, and of an
earlier record file that ends after it. -/
private def chainNode : Node where
  store := chainStore.ingestAll [.snapshot 50, .recordFile ⟨4, "0F12", "00", 5, 150⟩]
  genesis? := some chainGenesis

theorem block_selectors_agree_chain :
    chainNode.Finds .background .genesis chainGenesis ∧
      chainNode.Finds .background (.index 6) chainGenesis ∧
      chainNode.Finds .background (.hash " 0XcD34") chainGenesis ∧
      chainNode.Finds .background (.indexAndHash 6 " 0XcD34") chainGenesis := by
  have hkeyed : chainNode.store.Keyed :=
    keyed_ingestAll (keyed_ingestAll (fun e he => by cases he) _) _
  have hkept : chainNode.KeepsFile := by
    intro g hg
    cases hg
    exact ⟨⟨⟨6, "Cd34", "AB12", 95, 190⟩, by decide, by decide⟩, by decide⟩
  have hgenesis : chainNode.Finds .background .genesis chainGenesis := by decide +kernel
  have hspells : BlockHash.Spells " 0XcD34" chainGenesis.hash :=
    ⟨['c', 'd', '3', '4'], (BlockHash.normalChars_eq_ok_iff.1 (by decide)).1, by decide⟩
  have hquiet : chainNode.Quiet := by decide
  obtain ⟨-, hfound⟩ := block_selectors_agree hkeyed ⟨by decide, by decide, by decide⟩ hkept
  exact ⟨hgenesis, hfound .background .genesis chainGenesis hgenesis chainNode rfl (.inl rfl)
    .background (hquiet.permits 3) " 0XcD34" hspells⟩

end LedgerView
