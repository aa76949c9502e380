import Mathlib
import LedgerView.BlockHash
import LedgerView.Proofs.Outcome
import LedgerView.Proofs.Text
/-!
# The ways to write a hash

A hash has one normal form and is written in many ways. A text has a normal form just if it writes
one (`normalize_eq_ok_iff`), and the bytes of a hash are found from every text that writes them
(`bytes_eq_ok_iff`).
-/

namespace LedgerView.BlockHash

/-- Digits that spell at least one byte, in either case. -/
def IsDigits (digits : List Char) : Prop :=
  digits ≠ [] ∧ digits.length % 2 = 0 ∧ ∀ c ∈ digits, Text.isHexDigit c

instance (digits : List Char) : Decidable (IsDigits digits) :=
  decidable_of_iff (digits ≠ [] ∧ digits.length % 2 = 0 ∧ digits.all Text.isHexDigit) (by
    rw [IsDigits, List.all_eq_true])

/-- What may stand before the digits. -/
def marks : List (List Char) :=
  [[], ['0', 'x'], ['0', 'X']]

/-- The text writes these lower-case digits: each of them in either case, behind a mark or without
one, and between blanks. -/
def Writes (text : String) (digits : List Char) : Prop :=
  ∃ before mark written after, text.toList = before ++ (mark ++ written) ++ after ∧
    (∀ c ∈ before, Text.isBlank c) ∧ (∀ c ∈ after, Text.isBlank c) ∧ mark ∈ marks ∧
    written.map Char.toLower = digits

/-- The text writes some hash. -/
def IsHash (text : String) : Prop :=
  ∃ digits, Writes text digits ∧ IsDigits digits

/-- The text is a way to write a hash that is shown with the mark and in lower case. -/
def Spells (text shown : String) : Prop :=
  ∃ digits, Writes text digits ∧ shown = String.ofList ('0' :: 'x' :: digits)

section Digits

variable {digits written mark : List Char}

theorem isDigits_map_toLower : IsDigits (digits.map Char.toLower) ↔ IsDigits digits := by
  simp only [IsDigits, List.length_map, List.forall_mem_map, Text.isHexDigit_toLower, ne_eq,
    List.map_eq_nil_iff]

theorem isDigits_encodeHex {bytes : Bytes} (hne : bytes ≠ []) :
    IsDigits (Text.encodeHex bytes) := by
  have hlength := Text.length_encodeHex bytes
  refine ⟨fun hnil => hne ?_, by omega, fun c hc => Text.isHexDigit_of_mem_encodeHex hc⟩
  rw [hnil, List.length_nil] at hlength
  exact List.length_eq_zero_iff.1 (by omega)

theorem dropMark_of_isDigits (h : IsDigits digits) : dropMark digits = digits := by
  unfold dropMark
  split
  · have hx := h.2.2 'x' (by simp)
    exact absurd hx (by decide)
  · have hX := h.2.2 'X' (by simp)
    exact absurd hX (by decide)
  · rfl

theorem dropMark_append (hmark : mark ∈ marks) (h : IsDigits digits) :
    dropMark (mark ++ digits) = digits := by
  simp only [marks, List.mem_cons, List.not_mem_nil, or_false] at hmark
  rcases hmark with rfl | rfl | rfl
  · exact dropMark_of_isDigits h
  · rfl
  · rfl

theorem exists_mark (cs : List Char) : ∃ mark ∈ marks, cs = mark ++ dropMark cs := by
  unfold dropMark
  split
  · exact ⟨['0', 'x'], by decide, rfl⟩
  · exact ⟨['0', 'X'], by decide, rfl⟩
  · exact ⟨[], by decide, rfl⟩

theorem isBlank_of_mem_append (hmark : mark ∈ marks) (h : IsDigits digits) :
    ∀ c ∈ mark ++ digits, Text.isBlank c = false := by
  have hblank : ∀ c ∈ ['0', 'x', 'X'], Text.isBlank c = false := by
    simp only [List.forall_mem_cons]
    exact ⟨rfl, rfl, rfl, by simp⟩
  intro c hc
  rcases List.mem_append.1 hc with hc | hc
  · apply hblank
    simp only [marks, List.mem_cons, List.not_mem_nil, or_false] at hmark
    rcases hmark with rfl | rfl | rfl
    · cases hc
    · exact List.mem_append_left ['X'] hc
    · rcases List.mem_cons.1 hc with rfl | hc
      · exact List.mem_cons_self
      · exact List.mem_cons_of_mem _ (List.mem_cons_of_mem _ hc)
  · exact Text.isBlank_of_isHexDigit (h.2.2 c hc)

end Digits

section Normal

variable {text normal : String} {digits : List Char}

theorem normalChars_eq_ok_iff :
    normalChars text = .ok digits ↔ Writes text digits ∧ IsDigits digits := by
  simp only [normalChars]
  constructor
  · intro h
    obtain ⟨before, after, htrim, hbefore, hafter⟩ := Text.exists_trimChars text.toList
    obtain ⟨mark, hmark, hcore⟩ := exists_mark (Text.trimChars text.toList)
    split at h
    · cases h
    · next hne =>
      split at h
      · next hdigits =>
        cases h
        have hwritten : IsDigits (dropMark (Text.trimChars text.toList)) :=
          ⟨hne, hdigits.1, List.all_eq_true.1 hdigits.2⟩
        refine ⟨⟨before, mark, _, after, ?_, hbefore, hafter, hmark, rfl⟩,
          isDigits_map_toLower.2 hwritten⟩
        rw [← hcore]
        exact htrim
      · cases h
  · rintro ⟨⟨before, mark, written, after, htext, hbefore, hafter, hmark, rfl⟩, hdigits⟩
    rw [isDigits_map_toLower] at hdigits
    have htrim : Text.trimChars text.toList = mark ++ written := by
      rw [htext]
      exact Text.trimChars_eq hbefore (isBlank_of_mem_append hmark hdigits) hafter
    rw [htrim, dropMark_append hmark hdigits, if_neg hdigits.1,
      if_pos ⟨hdigits.2.1, List.all_eq_true.2 hdigits.2.2⟩]

/-- A text has a normal form just if it writes a hash, and that is the hash in lower case. -/
theorem normalize_eq_ok_iff :
    normalize text = .ok normal ↔ Writes text normal.toList ∧ IsDigits normal.toList := by
  rw [← normalChars_eq_ok_iff, normalize]
  cases normalChars text with
  | error e => simp [Except.map]
  | ok digits =>
    simp only [Except.map, Except.ok.injEq]
    constructor
    · rintro rfl
      exact String.toList_ofList.symm
    · rintro rfl
      exact String.ofList_toList

theorem map_toLower_of_writes (h : Writes text digits) : digits.map Char.toLower = digits := by
  obtain ⟨before, mark, written, after, -, -, -, -, rfl⟩ := h
  simp

theorem exists_encodeHex_of_writes (hwrites : Writes text digits) (hdigits : IsDigits digits) :
    ∃ hash, hash ≠ [] ∧ Text.encodeHex hash = digits := by
  obtain ⟨hne, heven, hall⟩ := hdigits
  obtain ⟨hash, hhash⟩ := Text.exists_encodeHex heven hall
  rw [map_toLower_of_writes hwrites] at hhash
  refine ⟨hash, ?_, hhash⟩
  rintro rfl
  exact hne hhash.symm

/-- The bytes of a hash are found from every text that writes them, and from no other. -/
theorem bytes_eq_ok_iff {hash : Bytes} :
    bytes text = .ok hash ↔ Writes text (Text.encodeHex hash) ∧ hash ≠ [] := by
  unfold bytes
  constructor
  · intro h
    obtain ⟨digits, hnormal, h⟩ := bind_eq_ok.1 h
    obtain ⟨hwrites, hdigits⟩ := normalChars_eq_ok_iff.1 hnormal
    obtain ⟨spelled, hne, rfl⟩ := exists_encodeHex_of_writes hwrites hdigits
    rw [Text.decodeHex_encodeHex] at h
    cases h
    exact ⟨hwrites, hne⟩
  · rintro ⟨hwrites, hne⟩
    have hdigits := normalChars_eq_ok_iff.2 ⟨hwrites, isDigits_encodeHex hne⟩
    rw [hdigits]
    simp only [bind, Except.bind, Text.decodeHex_encodeHex]

theorem exists_normalize_iff : (∃ normal, normalize text = .ok normal) ↔ IsHash text := by
  constructor
  · rintro ⟨normal, h⟩
    exact ⟨_, normalize_eq_ok_iff.1 h⟩
  · rintro ⟨digits, h⟩
    rw [← String.toList_ofList (l := digits)] at h
    exact ⟨String.ofList digits, normalize_eq_ok_iff.2 h⟩

theorem exists_bytes_iff : (∃ hash, bytes text = .ok hash) ↔ IsHash text := by
  constructor
  · rintro ⟨hash, h⟩
    obtain ⟨hwrites, hne⟩ := bytes_eq_ok_iff.1 h
    exact ⟨_, hwrites, isDigits_encodeHex hne⟩
  · rintro ⟨digits, hwrites, hdigits⟩
    obtain ⟨hash, hne, rfl⟩ := exists_encodeHex_of_writes hwrites hdigits
    exact ⟨hash, bytes_eq_ok_iff.2 ⟨hwrites, hne⟩⟩

theorem normalize_eq_error {e : BadArgument} (h : normalize text = .error e) :
    e = .emptyHash ∨ e = .malformedHash text := by
  have hchars : normalChars text = .error e := by
    rw [normalize] at h
    cases hnormal : normalChars text with
    | ok digits =>
      rw [hnormal] at h
      cases h
    | error e' =>
      rw [hnormal] at h
      cases h
      rfl
  simp only [normalChars] at hchars
  split at hchars
  · cases hchars
    exact .inl rfl
  split at hchars
  · cases hchars
  · cases hchars
    exact .inr rfl

end Normal

/-! ## Stored hashes -/

section Stored

variable {text normal hash : String} {digits : List Char}

/-- The digits of a stored hash as blocks show them. -/
def shownDigits (hash : String) : List Char :=
  hash.toList.map Char.toLower

theorem startsWithMark_of_isDigits (h : IsDigits digits) : startsWithMark digits = false := by
  unfold startsWithMark
  split
  · have hx := h.2.2 'x' (by simp)
    exact absurd hx (by decide)
  · rfl

theorem dropMarks_of_isDigits (h : IsDigits digits) : dropMarks digits = digits := by
  unfold dropMarks
  split
  · have hx := h.2.2 'x' (by simp)
    exact absurd hx (by decide)
  · rfl

theorem marked_of_isDigits (h : IsDigits hash.toList) :
    marked hash = String.ofList ('0' :: 'x' :: shownDigits hash) := by
  simp only [marked, startsWithMark_of_isDigits h, Bool.false_eq_true, if_false, shownDigits]

theorem dropMarks_marked (h : IsDigits hash.toList) :
    dropMarks (marked hash).toList = shownDigits hash := by
  rw [marked_of_isDigits h, String.toList_ofList, dropMarks]
  exact dropMarks_of_isDigits (isDigits_map_toLower.2 h)

theorem sameIgnoringCase_normal (h : normalize text = .ok normal) :
    sameIgnoringCase hash normal ↔ shownDigits hash = normal.toList := by
  rw [sameIgnoringCase, map_toLower_of_writes (normalize_eq_ok_iff.1 h).1, beq_iff_eq]
  rfl

theorem normalize_of_spells (h : IsDigits hash.toList) (hspells : Spells text (marked hash)) :
    normalize text = .ok (String.ofList (shownDigits hash)) := by
  obtain ⟨digits, hwrites, hshown⟩ := hspells
  rw [marked_of_isDigits h] at hshown
  cases String.ofList_injective hshown
  rw [normalize_eq_ok_iff, String.toList_ofList]
  exact ⟨hwrites, isDigits_map_toLower.2 h⟩

theorem marked_eq_of_same {other : String} (h : IsDigits hash.toList)
    (hsame : sameIgnoringCase other hash) : marked other = marked hash := by
  have hdigits : shownDigits other = shownDigits hash := beq_iff_eq.1 hsame
  have hother : IsDigits other.toList := by
    rw [← isDigits_map_toLower, ← shownDigits, hdigits]
    exact isDigits_map_toLower.2 h
  rw [marked_of_isDigits hother, marked_of_isDigits h, hdigits]

theorem spells_marked (h : IsDigits hash.toList) : Spells (marked hash) (marked hash) := by
  have hlower : (shownDigits hash).map Char.toLower = shownDigits hash := by
    simp [shownDigits]
  rw [marked_of_isDigits h]
  refine ⟨shownDigits hash, ⟨[], ['0', 'x'], shownDigits hash, [], ?_, ?_, ?_, ?_, hlower⟩, rfl⟩
  · simp
  · simp
  · simp
  · simp [marks]

end Stored

end LedgerView.BlockHash
