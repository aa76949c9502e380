/-!
# Separated fields

A text split at every occurrence of one separator. There is always at least one field, and
joining the fields again gives the text (`joinFields_fields`).
-/

namespace LedgerView.Text

/-- The fields between the separators. -/
def fields (separator : Char) : List Char → List (List Char)
  | [] => [[]]
  | c :: cs =>
    if c = separator then [] :: fields separator cs
    else
      match fields separator cs with
      | [] => [[c]]
      | first :: others => (c :: first) :: others

/-- The fields with one separator between each two. -/
def joinFields (separator : Char) : List (List Char) → List Char
  | [] => []
  | [field] => field
  | field :: others => field ++ separator :: joinFields separator others

theorem fields_ne_nil (separator : Char) (cs : List Char) : fields separator cs ≠ [] := by
  cases cs with
  | nil => simp [fields]
  | cons c cs =>
    unfold fields
    split
    · simp
    · split <;> simp

theorem fields_append {separator : Char} {field rest : List Char} (h : separator ∉ field) :
    fields separator (field ++ separator :: rest) = field :: fields separator rest := by
  induction field with
  | nil => simp [fields]
  | cons c cs ih =>
    rw [List.mem_cons, not_or] at h
    rw [List.cons_append, fields, if_neg (Ne.symm h.1), ih h.2]

theorem joinFields_fields (separator : Char) (cs : List Char) :
    joinFields separator (fields separator cs) = cs := by
  induction cs with
  | nil => rfl
  | cons c cs ih =>
    unfold fields
    split
    · next h =>
      subst h
      cases hf : fields c cs with
      | nil => exact absurd hf (fields_ne_nil _ _)
      | cons first others => simpa [joinFields, hf] using ih
    · split
      · next hf => exact absurd hf (fields_ne_nil _ _)
      · next first others hf =>
        rw [hf] at ih
        cases others <;> simp_all [joinFields]

end LedgerView.Text
