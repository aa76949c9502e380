import Mathlib
import LedgerView.Proofs.EntityId.Packing
import LedgerView.Proofs.Text.Decimal
/-!
# The texts of ids

An id is read from three numerals with dots between them. Any number of zeros may stand in front of
each, so an id has many texts, of which one has no zero to spare: the text that is written for it
(`text_eq_iff`).
-/

namespace LedgerView.EntityId

open Text (IsNumeral IsPlain placeValue)

/-- The text is three numerals of these values, with a single dot between each two. -/
def Spells (text : String) (shard realm number : Nat) : Prop :=
  ∃ s r n, text.toList = s ++ '.' :: (r ++ '.' :: n) ∧ (IsNumeral s ∧ placeValue s = shard) ∧
    (IsNumeral r ∧ placeValue r = realm) ∧ IsNumeral n ∧ placeValue n = number

/-- The error names the first of three values that is greater than its part of an id may be. -/
inductive FirstOutOfRange (shard realm number : Nat) : EntityIdError → Prop where
  | shard (above : 32767 < shard) :
    FirstOutOfRange shard realm number (.shardOutOfRange (Int64.ofNat shard))
  | realm (shard_le : shard ≤ 32767) (above : 65535 < realm) :
    FirstOutOfRange shard realm number (.realmOutOfRange (Int64.ofNat realm))
  | number (shard_le : shard ≤ 32767) (realm_le : realm ≤ 65535) (above : 4294967295 < number) :
    FirstOutOfRange shard realm number (.numberOutOfRange (Int64.ofNat number))

variable {text : String} {s r n : List Char} {shard realm number : Nat} {id : EntityId}
  {e : EntityIdError}

/-! ## Fields -/

theorem dot_not_mem (h : IsNumeral s) : '.' ∉ s := by
  intro hdot
  exact absurd (h.2 '.' hdot) (by decide)

theorem fields_eq_three_iff {cs : List Char} :
    Text.fields '.' cs = [s, r, n] ↔
      cs = s ++ '.' :: (r ++ '.' :: n) ∧ '.' ∉ s ∧ '.' ∉ r ∧ '.' ∉ n := by
  have hjoin : Text.joinFields '.' [s, r, n] = s ++ '.' :: (r ++ '.' :: n) := by
    simp [Text.joinFields]
  rw [Text.fields_eq_iff, hjoin, eq_comm]
  simp

theorem fields_of_numerals (htext : text.toList = s ++ '.' :: (r ++ '.' :: n)) (hs : IsNumeral s)
    (hr : IsNumeral r) (hn : IsNumeral n) : Text.fields '.' text.toList = [s, r, n] :=
  fields_eq_three_iff.2 ⟨htext, dot_not_mem hs, dot_not_mem hr, dot_not_mem hn⟩

theorem spells_unique {shard' realm' number' : Nat} (h : Spells text shard realm number)
    (h' : Spells text shard' realm' number') :
    shard = shard' ∧ realm = realm' ∧ number = number' := by
  obtain ⟨s, r, n, htext, ⟨hs, rfl⟩, ⟨hr, rfl⟩, hn, rfl⟩ := h
  obtain ⟨s', r', n', htext', ⟨hs', rfl⟩, ⟨hr', rfl⟩, hn', rfl⟩ := h'
  have hfields := fields_of_numerals htext hs hr hn
  rw [fields_of_numerals htext' hs' hr' hn'] at hfields
  simp only [List.cons.injEq, and_true] at hfields
  obtain ⟨rfl, rfl, rfl⟩ := hfields
  exact ⟨rfl, rfl, rfl⟩

theorem word?_eq_some_iff {run : List Char} {w : Int64} :
    word? run = some w ↔
      IsNumeral run ∧ placeValue run < 2 ^ 63 ∧ Int64.ofNat (placeValue run) = w := by
  unfold word?
  cases hvalue : Text.number? run with
  | none =>
    refine iff_of_false (by simp) fun h => ?_
    rw [Text.number?_eq_some_iff.2 ⟨h.1, rfl⟩] at hvalue
    cases hvalue
  | some value =>
    obtain ⟨hrun, rfl⟩ := Text.number?_eq_some_iff.1 hvalue
    simp [hrun]

/-! ## Reading -/

/-- The values fit signed words. -/
def Fits (shard realm number : Nat) : Prop :=
  shard < 2 ^ 63 ∧ realm < 2 ^ 63 ∧ number < 2 ^ 63

/-- The text has another shape, or it spells a value that does not fit a signed word. -/
def IsMalformed (text : String) : Prop :=
  (¬∃ shard realm number, Spells text shard realm number) ∨
    ∃ shard realm number, Spells text shard realm number ∧
      (2 ^ 63 ≤ shard ∨ 2 ^ 63 ≤ realm ∨ 2 ^ 63 ≤ number)

theorem isMalformed_iff :
    IsMalformed text ↔
      ¬∃ shard realm number, Spells text shard realm number ∧ Fits shard realm number := by
  constructor
  · rintro (hshape | ⟨shard, realm, number, hspells, hlarge⟩) ⟨s, r, n, hspells', hfits⟩
    · exact hshape ⟨s, r, n, hspells'⟩
    · obtain ⟨rfl, rfl, rfl⟩ := spells_unique hspells hspells'
      obtain ⟨hshard, hrealm, hnumber⟩ := hfits
      omega
  · intro h
    by_cases hshape : ∃ shard realm number, Spells text shard realm number
    · obtain ⟨shard, realm, number, hspells⟩ := hshape
      have hlarge : ¬Fits shard realm number :=
        fun hfits => h ⟨shard, realm, number, hspells, hfits⟩
      refine .inr ⟨shard, realm, number, hspells, ?_⟩
      unfold Fits at hlarge
      omega
    · exact .inl hshape

theorem parse_of_spells (h : Spells text shard realm number) (hfits : Fits shard realm number) :
    parse text = ofParts (Int64.ofNat shard) (Int64.ofNat realm) (Int64.ofNat number) := by
  obtain ⟨s, r, n, htext, ⟨hs, rfl⟩, ⟨hr, rfl⟩, hn, rfl⟩ := h
  obtain ⟨hshard, hrealm, hnumber⟩ := hfits
  simp only [parse, fields_of_numerals htext hs hr hn, word?_eq_some_iff.2 ⟨hs, hshard, rfl⟩,
    word?_eq_some_iff.2 ⟨hr, hrealm, rfl⟩, word?_eq_some_iff.2 ⟨hn, hnumber, rfl⟩]

theorem parse_of_isMalformed (h : IsMalformed text) : parse text = .error (.malformed text) := by
  rw [isMalformed_iff] at h
  unfold parse
  split
  · next s r n hfields =>
    split
    · next hs hr hn =>
      obtain ⟨htext, -⟩ := fields_eq_three_iff.1 hfields
      obtain ⟨hs, hshard, -⟩ := word?_eq_some_iff.1 hs
      obtain ⟨hr, hrealm, -⟩ := word?_eq_some_iff.1 hr
      obtain ⟨hn, hnumber, -⟩ := word?_eq_some_iff.1 hn
      exact absurd ⟨_, _, _, ⟨s, r, n, htext, ⟨hs, rfl⟩, ⟨hr, rfl⟩, hn, rfl⟩,
        hshard, hrealm, hnumber⟩ h
    · rfl
  · rfl

/-! ## Ranges -/

theorem part?_ofNat_of_le {bound value : Nat} (hfits : value < 2 ^ 63) (h : bound ≤ value) :
    part? bound (Int64.ofNat value) = none := by
  have hvalue := Int64.toInt_ofNat_of_lt hfits
  rw [part?, dif_neg (by omega)]

theorem ofParts_ofNat_eq_ok_iff (hfits : Fits shard realm number) :
    ofParts (Int64.ofNat shard) (Int64.ofNat realm) (Int64.ofNat number) = .ok id ↔
      id.shard.val = shard ∧ id.realm.val = realm ∧ id.number.val = number := by
  obtain ⟨hshard, hrealm, hnumber⟩ := hfits
  rw [ofParts_eq_ok_iff, Int64.toInt_ofNat_of_lt hshard, Int64.toInt_ofNat_of_lt hrealm,
    Int64.toInt_ofNat_of_lt hnumber]
  omega

theorem ofParts_ofNat_eq_error_iff (hfits : Fits shard realm number) :
    ofParts (Int64.ofNat shard) (Int64.ofNat realm) (Int64.ofNat number) = .error e ↔
      FirstOutOfRange shard realm number e := by
  obtain ⟨hshard, hrealm, hnumber⟩ := hfits
  unfold ofParts
  by_cases hs : shard < 0x8000
  · rw [part?_ofNat hshard hs]
    by_cases hr : realm < 0x10000
    · rw [part?_ofNat hrealm hr]
      by_cases hn : number < 0x100000000
      · rw [part?_ofNat hnumber hn]
        refine iff_of_false (by simp) fun h => ?_
        cases h with
        | shard above => omega
        | realm _ above => omega
        | number _ _ above => omega
      · rw [part?_ofNat_of_le hnumber (by omega), Except.error.injEq]
        constructor
        · rintro rfl
          exact .number (by omega) (by omega) (by omega)
        · intro h
          cases h with
          | shard above => omega
          | realm _ above => omega
          | number _ _ _ => rfl
    · rw [part?_ofNat_of_le hrealm (by omega), Except.error.injEq]
      constructor
      · rintro rfl
        exact .realm (by omega) (by omega)
      · intro h
        cases h with
        | shard above => omega
        | realm _ _ => rfl
        | number _ realm_le _ => omega
  · rw [part?_ofNat_of_le hshard (by omega), Except.error.injEq]
    constructor
    · rintro rfl
      exact .shard (by omega)
    · intro h
      cases h with
      | shard _ => rfl
      | realm shard_le _ => omega
      | number shard_le _ _ => omega

theorem fits_parts (id : EntityId) : Fits id.shard id.realm id.number := by
  have hshard := id.shard.isLt
  have hrealm := id.realm.isLt
  have hnumber := id.number.isLt
  exact ⟨by omega, by omega, by omega⟩

theorem parse_eq_ok_iff : parse text = .ok id ↔ Spells text id.shard id.realm id.number := by
  constructor
  · intro h
    by_cases hmalformed : IsMalformed text
    · rw [parse_of_isMalformed hmalformed] at h
      cases h
    · rw [isMalformed_iff, not_not] at hmalformed
      obtain ⟨shard, realm, number, hspells, hfits⟩ := hmalformed
      rw [parse_of_spells hspells hfits, ofParts_ofNat_eq_ok_iff hfits] at h
      obtain ⟨rfl, rfl, rfl⟩ := h
      exact hspells
  · intro h
    rw [parse_of_spells h id.fits_parts, ofParts_ofNat_eq_ok_iff id.fits_parts]
    exact ⟨rfl, rfl, rfl⟩

theorem parse_eq_error_iff :
    parse text = .error e ↔ IsMalformed text ∧ e = .malformed text ∨
      ∃ shard realm number, Spells text shard realm number ∧ Fits shard realm number ∧
        FirstOutOfRange shard realm number e := by
  by_cases hmalformed : IsMalformed text
  · rw [parse_of_isMalformed hmalformed, Except.error.injEq, and_iff_right hmalformed, eq_comm,
      iff_self_or]
    rintro ⟨shard, realm, number, hspells, hfits, -⟩
    exact absurd ⟨shard, realm, number, hspells, hfits⟩ (isMalformed_iff.1 hmalformed)
  · rw [or_iff_right fun h => hmalformed h.1]
    rw [isMalformed_iff, not_not] at hmalformed
    obtain ⟨shard, realm, number, hspells, hfits⟩ := hmalformed
    rw [parse_of_spells hspells hfits, ofParts_ofNat_eq_error_iff hfits]
    constructor
    · intro h
      exact ⟨shard, realm, number, hspells, hfits, h⟩
    · rintro ⟨shard', realm', number', hspells', -, h⟩
      obtain ⟨rfl, rfl, rfl⟩ := spells_unique hspells hspells'
      exact h

theorem digit_or_dot_of_parse (h : parse text = .ok id) :
    ∀ c ∈ text.toList, ('0' ≤ c ∧ c ≤ '9') ∨ c = '.' := by
  obtain ⟨s, r, n, htext, ⟨hs, -⟩, ⟨hr, -⟩, hn, -⟩ := parse_eq_ok_iff.1 h
  intro c hc
  rw [htext] at hc
  simp only [List.mem_append, List.mem_cons] at hc
  rcases hc with hc | rfl | hc | rfl | hc
  · exact .inl (hs.2 c hc)
  · exact .inr rfl
  · exact .inl (hr.2 c hc)
  · exact .inr rfl
  · exact .inl (hn.2 c hc)

/-! ## Writing -/

/-- The numerals of the text have no zeros to spare. -/
def IsCanonical (text : String) : Prop :=
  ∀ run ∈ Text.fields '.' text.toList, IsPlain run

/-- Of all the texts that are read as an id, the one without zeros to spare is written for it. -/
theorem text_eq_iff : id.text = text ↔ parse text = .ok id ∧ IsCanonical text := by
  constructor
  · rintro rfl
    have hfields : Text.fields '.' id.text.toList =
        [Nat.toDigits 10 id.shard, Nat.toDigits 10 id.realm, Nat.toDigits 10 id.number] := by
      rw [EntityId.text, String.toList_ofList]
      exact fields_eq_three_iff.2
        ⟨rfl, dot_not_mem_toDigits _, dot_not_mem_toDigits _, dot_not_mem_toDigits _⟩
    refine ⟨id.parse_text, ?_⟩
    rw [IsCanonical, hfields]
    simp only [List.forall_mem_cons]
    exact ⟨Text.isPlain_toDigits _, Text.isPlain_toDigits _, Text.isPlain_toDigits _, by simp⟩
  · rintro ⟨hparse, hcanonical⟩
    obtain ⟨s, r, n, htext, ⟨hs, hshard⟩, ⟨hr, hrealm⟩, hn, hnumber⟩ := parse_eq_ok_iff.1 hparse
    rw [IsCanonical, fields_of_numerals htext hs hr hn] at hcanonical
    simp only [List.forall_mem_cons] at hcanonical
    obtain ⟨hsplain, hrplain, hnplain, -⟩ := hcanonical
    rw [EntityId.text, textChars, Text.toDigits_eq_iff.2 ⟨hs, hsplain, hshard⟩,
      Text.toDigits_eq_iff.2 ⟨hr, hrplain, hrealm⟩, Text.toDigits_eq_iff.2 ⟨hn, hnplain, hnumber⟩,
      ← htext, String.ofList_toList]

/-- A text is read as an id just if it is three numerals with single dots between them whose values
are in the ranges of shard, realm and number, and the id has these values. It is malformed if it is
anything else or a value does not fit a signed word, and otherwise refused for the first value that
is out of range. The text of an id is read as the id, and it is the only one of those that are
whose numerals have no zeros to spare. -/
theorem parse_grammar :
    (∀ text id, parse text = .ok id ↔ Spells text id.shard id.realm id.number) ∧
    (∀ text, (∃ id, parse text = .ok id) ↔ ∃ shard realm number,
      Spells text shard realm number ∧ shard ≤ 32767 ∧ realm ≤ 65535 ∧ number ≤ 4294967295) ∧
    (∀ text e, parse text = .error e ↔ IsMalformed text ∧ e = .malformed text ∨
      ∃ shard realm number, Spells text shard realm number ∧ Fits shard realm number ∧
        FirstOutOfRange shard realm number e) ∧
    (∀ id : EntityId, parse id.text = .ok id) ∧
    ∀ (id : EntityId) (text : String),
      id.text = text ↔ parse text = .ok id ∧ IsCanonical text := by
  refine ⟨fun text id => parse_eq_ok_iff, fun text => ?range, fun text e => parse_eq_error_iff,
    parse_text, fun id text => text_eq_iff⟩
  case range =>
    simp only [parse_eq_ok_iff]
    constructor
    · rintro ⟨id, h⟩
      have hshard := id.shard.isLt
      have hrealm := id.realm.isLt
      have hnumber := id.number.isLt
      exact ⟨_, _, _, h, by omega, by omega, by omega⟩
    · rintro ⟨shard, realm, number, h, hshard, hrealm, hnumber⟩
      exact ⟨⟨⟨shard, by omega⟩, ⟨realm, by omega⟩, ⟨number, by omega⟩⟩, h⟩

/-- A value that does not fit a word comes before a part that is out of range. -/
example : parse "32768.0.9223372036854775808" =
    .error (.malformed "32768.0.9223372036854775808") := by decide

end LedgerView.EntityId
