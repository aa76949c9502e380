import Mathlib
import LedgerView.Text.Blank
import LedgerView.Text.Fields
import LedgerView.Text.Hex
/-!
# Trimmed texts, fields and hexadecimal digits

Trimming takes the blanks off both ends and nothing else (`trimChars_eq_iff`), a text has one split
into fields (`fields_eq_iff`), and digits in lower case, two to the byte, are what is written for
some bytes (`exists_encodeHex`).
-/

namespace LedgerView.Text

/-! ## Blanks -/

section Trim

variable {cs before core after : List Char}

theorem exists_trimEnd (cs : List Char) :
    ∃ after, cs = trimEnd cs ++ after ∧ ∀ c ∈ after, isBlank c := by
  induction cs with
  | nil => exact ⟨[], rfl, by simp⟩
  | cons c cs ih =>
    obtain ⟨after, hcs, hafter⟩ := ih
    unfold trimEnd
    split
    · next hnil =>
      rw [hnil, List.nil_append] at hcs
      by_cases hc : isBlank c
      · rw [if_pos hc, hcs]
        refine ⟨c :: after, rfl, fun d hd => ?_⟩
        rcases List.mem_cons.1 hd with rfl | hd
        · exact hc
        · exact hafter d hd
      · rw [if_neg hc, hcs]
        exact ⟨after, rfl, hafter⟩
    · exact ⟨after, by rw [List.cons_append, ← hcs], hafter⟩

theorem exists_trimChars (cs : List Char) :
    ∃ before after, cs = before ++ trimChars cs ++ after ∧
      (∀ c ∈ before, isBlank c) ∧ ∀ c ∈ after, isBlank c := by
  obtain ⟨after, hafter, hblank⟩ := exists_trimEnd (cs.dropWhile isBlank)
  refine ⟨cs.takeWhile isBlank, after, ?_, fun c => List.mem_takeWhile_imp, hblank⟩
  rw [List.append_assoc, trimChars, ← hafter, List.takeWhile_append_dropWhile]

theorem trimEnd_of_blank (h : ∀ c ∈ cs, isBlank c) : trimEnd cs = [] := by
  induction cs with
  | nil => rfl
  | cons c cs ih =>
    rw [List.forall_mem_cons] at h
    rw [trimEnd, ih h.2, if_pos h.1]

/-- Only the last character before the blanks has to be something else. -/
theorem trimEnd_append (hlast : ∀ c ∈ core.getLast?, isBlank c = false)
    (hafter : ∀ c ∈ after, isBlank c) : trimEnd (core ++ after) = core := by
  induction core with
  | nil => exact trimEnd_of_blank hafter
  | cons c core ih =>
    cases core with
    | nil => simp [trimEnd, trimEnd_of_blank hafter, hlast c rfl]
    | cons d core =>
      have hrest : trimEnd (d :: core ++ after) = d :: core := by
        apply ih
        rwa [List.getLast?_cons_cons] at hlast
      rw [List.cons_append, trimEnd, hrest]

/-- What is left of a text without the blanks around it: it neither begins nor ends with one. -/
def IsTrimmed (cs core : List Char) : Prop :=
  ∃ before after, cs = before ++ core ++ after ∧ (∀ c ∈ before, isBlank c) ∧
    (∀ c ∈ after, isBlank c) ∧ (∀ c ∈ core.head?, isBlank c = false) ∧
    ∀ c ∈ core.getLast?, isBlank c = false

theorem getLast?_trimEnd (cs : List Char) : ∀ c ∈ (trimEnd cs).getLast?, isBlank c = false := by
  induction cs with
  | nil => simp [trimEnd]
  | cons c cs ih =>
    unfold trimEnd
    split
    · by_cases hc : isBlank c <;> simp [hc]
    · next hrest => rwa [List.getLast?_cons_of_ne_nil hrest]

theorem head?_trimEnd (h : ∀ c ∈ cs.head?, isBlank c = false) :
    ∀ c ∈ (trimEnd cs).head?, isBlank c = false := by
  obtain ⟨after, hcs, -⟩ := exists_trimEnd cs
  cases htrim : trimEnd cs with
  | nil => simp
  | cons c rest =>
    rw [htrim] at hcs
    rw [hcs] at h
    exact h

theorem trimChars_eq_iff : trimChars cs = core ↔ IsTrimmed cs core := by
  constructor
  · rintro rfl
    obtain ⟨before, after, hcs, hbefore, hafter⟩ := exists_trimChars cs
    refine ⟨before, after, hcs, hbefore, hafter, head?_trimEnd fun c hc => ?_,
      getLast?_trimEnd _⟩
    have hhead := List.head?_dropWhile_not isBlank cs
    rw [Option.mem_def.1 hc] at hhead
    exact hhead
  · rintro ⟨before, after, rfl, hbefore, hafter, hhead, hlast⟩
    rw [trimChars, List.append_assoc, List.dropWhile_append_of_pos hbefore]
    cases core with
    | nil =>
      rw [List.nil_append, List.dropWhile_eq_nil_iff.2 hafter]
      rfl
    | cons c core =>
      rw [List.cons_append, List.dropWhile_cons_of_neg (by simp [hhead c rfl]),
        ← List.cons_append]
      exact trimEnd_append hlast hafter

theorem trimChars_eq (hbefore : ∀ c ∈ before, isBlank c)
    (hcore : ∀ c ∈ core, isBlank c = false) (hafter : ∀ c ∈ after, isBlank c) :
    trimChars (before ++ core ++ after) = core :=
  trimChars_eq_iff.2 ⟨before, after, rfl, hbefore, hafter,
    fun c hc => hcore c (List.mem_of_mem_head? hc),
    fun c hc => hcore c (List.mem_of_mem_getLast? hc)⟩

end Trim

/-! ## Fields -/

theorem fields_of_not_mem {separator : Char} {field : List Char} (h : separator ∉ field) :
    fields separator field = [field] := by
  induction field with
  | nil => rfl
  | cons c cs ih =>
    rw [List.mem_cons, not_or] at h
    rw [fields, if_neg (Ne.symm h.1), ih h.2]

theorem not_mem_of_mem_fields {separator : Char} {cs field : List Char}
    (h : field ∈ fields separator cs) : separator ∉ field := by
  induction cs generalizing field with
  | nil =>
    rw [fields, List.mem_singleton] at h
    simp [h]
  | cons c cs ih =>
    unfold fields at h
    split at h
    · rcases List.mem_cons.1 h with rfl | h
      · exact List.not_mem_nil
      · exact ih h
    · next hc =>
      split at h
      · next hnil => exact absurd hnil (fields_ne_nil _ _)
      · next first others hfields =>
        rw [hfields] at ih
        rcases List.mem_cons.1 h with rfl | h
        · rw [List.mem_cons, not_or]
          exact ⟨Ne.symm hc, ih List.mem_cons_self⟩
        · exact ih (List.mem_cons_of_mem _ h)

/-- A text has one split into fields that are free of the separator. -/
theorem fields_eq_iff {separator : Char} {cs : List Char} {parts : List (List Char)} :
    fields separator cs = parts ↔
      parts ≠ [] ∧ joinFields separator parts = cs ∧ ∀ part ∈ parts, separator ∉ part := by
  constructor
  · rintro rfl
    exact ⟨fields_ne_nil _ _, joinFields_fields _ _, fun _ => not_mem_of_mem_fields⟩
  · rintro ⟨hne, rfl, hparts⟩
    induction parts with
    | nil => exact absurd rfl hne
    | cons part others ih =>
      obtain ⟨hpart, hothers⟩ := List.forall_mem_cons.1 hparts
      cases others with
      | nil => exact fields_of_not_mem hpart
      | cons next others =>
        rw [joinFields, fields_append hpart, ih (by simp) hothers]
        exact List.cons_ne_nil _ _

/-! ## Digits -/

section Digits

variable {c : Char}

/-- What can be checked of the digits among the first characters holds of every digit. -/
theorem of_isHexDigit {P : Char → Prop}
    (h : ∀ n < 128, isHexDigit (Char.ofNat n) → P (Char.ofNat n)) (hc : isHexDigit c) : P c := by
  have hsmall : c.toNat < 128 := by
    simp only [isHexDigit, Bool.or_eq_true, Bool.and_eq_true, decide_eq_true_eq, Char.le_def,
      UInt32.le_iff_toNat_le] at hc
    have hnine : '9'.val.toNat = 57 := rfl
    have hf : 'f'.val.toNat = 102 := rfl
    have hF : 'F'.val.toNat = 70 := rfl
    show c.val.toNat < 128
    omega
  have hchar := h c.toNat hsmall
  rw [Char.ofNat_toNat] at hchar
  exact hchar hc

theorem isBlank_of_isHexDigit (hc : isHexDigit c) : isBlank c = false :=
  of_isHexDigit (P := fun c => isBlank c = false) (by decide) hc

theorem isHexDigit_toLower (c : Char) : isHexDigit c.toLower = isHexDigit c := by
  by_cases hupper : c.isUpper
  · have hall : ∀ n < 128, isHexDigit (Char.ofNat n).toLower = isHexDigit (Char.ofNat n) := by
      decide
    have hsmall : c.toNat < 128 := by
      simp only [Char.isUpper, decide_eq_true_eq] at hupper
      have hle := UInt32.le_iff_toNat_le.1 hupper.2
      have hZ : 'Z'.val.toNat = 90 := rfl
      show c.val.toNat < 128
      omega
    have hchar := hall c.toNat hsmall
    rw [Char.ofNat_toNat] at hchar
    exact hchar
  · rw [Char.toLower_eq_of_not_isUpper hupper]

theorem exists_hexDigit (hc : isHexDigit c) : ∃ n < 16, c.toLower = hexDigit n :=
  of_isHexDigit (P := fun c => ∃ n < 16, c.toLower = hexDigit n) (by decide) hc

theorem length_encodeHex (bytes : Bytes) : (encodeHex bytes).length = 2 * bytes.length := by
  induction bytes with
  | nil => rfl
  | cons b bytes ih =>
    rw [encodeHex, List.length_cons, List.length_cons, List.length_cons, ih]
    omega

theorem isHexDigit_of_mem_encodeHex {bytes : Bytes} (hc : c ∈ encodeHex bytes) :
    isHexDigit c := by
  have hdigit : ∀ n < 16, isHexDigit (hexDigit n) := by decide
  induction bytes with
  | nil => cases hc
  | cons b bytes ih =>
    have hb := b.toNat_lt
    rw [encodeHex, List.mem_cons, List.mem_cons] at hc
    rcases hc with rfl | rfl | hc
    · exact hdigit _ (by omega)
    · exact hdigit _ (by omega)
    · exact ih hc

theorem exists_encodeHex {digits : List Char} (heven : digits.length % 2 = 0)
    (hdigits : ∀ c ∈ digits, isHexDigit c) :
    ∃ bytes, encodeHex bytes = digits.map Char.toLower := by
  match digits with
  | [] => exact ⟨[], rfl⟩
  | [_] => simp at heven
  | high :: low :: rest =>
    simp only [List.mem_cons, forall_eq_or_imp] at hdigits
    obtain ⟨hhigh, hlow, hrest⟩ := hdigits
    obtain ⟨h, hh, hhigh⟩ := exists_hexDigit hhigh
    obtain ⟨l, hl, hlow⟩ := exists_hexDigit hlow
    have hpairs : rest.length % 2 = 0 := by
      simp only [List.length_cons] at heven
      omega
    obtain ⟨bytes, hbytes⟩ := exists_encodeHex hpairs hrest
    refine ⟨UInt8.ofNat (16 * h + l) :: bytes, ?_⟩
    have hbyte : (UInt8.ofNat (16 * h + l)).toNat = 16 * h + l := by
      rw [UInt8.toNat_ofNat']
      omega
    have hdiv : (16 * h + l) / 16 = h := by omega
    have hmod : (16 * h + l) % 16 = l := by omega
    rw [encodeHex, hbyte, hdiv, hmod, hbytes, List.map_cons, List.map_cons, hhigh, hlow]

end Digits

end LedgerView.Text
