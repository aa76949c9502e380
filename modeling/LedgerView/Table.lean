/-!
# Tables

Finite maps from signed words, kept as their entries in strictly ascending order of key. A map has
one such list, so two tables with the same look-ups are equal (`Table.ext_get?`).
-/

namespace LedgerView

/-- The keys ascend strictly along the entries. -/
def Ascending {ν : Type} (entries : List (Int64 × ν)) : Prop :=
  entries.Pairwise fun a b => a.1 < b.1

structure Table (ν : Type) where
  entries : List (Int64 × ν)
  ascending : Ascending entries
  deriving DecidableEq

namespace Table

variable {ν : Type}

/-- The value under a key of a list of entries. -/
def lookup (k : Int64) : List (Int64 × ν) → Option ν
  | [] => none
  | (k', v) :: rest => if k = k' then some v else lookup k rest

/-- Put a value under a key, in the place of one that is there already. -/
def put (k : Int64) (v : ν) : List (Int64 × ν) → List (Int64 × ν)
  | [] => [(k, v)]
  | (k', v') :: rest =>
    if k < k' then (k, v) :: (k', v') :: rest
    else if k = k' then (k, v) :: rest
    else (k', v') :: put k v rest

theorem mem_put {k : Int64} {v : ν} {entries : List (Int64 × ν)} {e : Int64 × ν}
    (h : e ∈ put k v entries) : e = (k, v) ∨ e ∈ entries := by
  induction entries with
  | nil => simpa [put] using h
  | cons head rest ih =>
    unfold put at h
    split at h
    · simpa using h
    · split at h
      · simp only [List.mem_cons] at h ⊢
        exact h.imp_right Or.inr
      · simp only [List.mem_cons] at h ⊢
        rcases h with h | h
        · exact .inr (.inl h)
        · exact (ih h).imp_right Or.inr

theorem ascending_put {k : Int64} {v : ν} {entries : List (Int64 × ν)}
    (h : Ascending entries) : Ascending (put k v entries) := by
  induction entries with
  | nil => simp [put, Ascending]
  | cons head rest ih =>
    obtain ⟨hhead, hrest⟩ := List.pairwise_cons.1 h
    unfold put
    split
    · next hlt =>
      refine List.pairwise_cons.2 ⟨fun e he => ?_, h⟩
      rcases List.mem_cons.1 he with rfl | he
      · exact hlt
      · exact Int64.lt_trans hlt (hhead e he)
    · next hnlt =>
      split
      · next heq =>
        subst heq
        exact List.pairwise_cons.2 ⟨hhead, hrest⟩
      · next hne =>
        refine List.pairwise_cons.2 ⟨fun e he => ?_, ih hrest⟩
        rcases mem_put he with rfl | he
        · exact Int64.lt_of_le_of_ne (Int64.not_lt.1 hnlt) (fun h => hne h.symm)
        · exact hhead e he

def empty : Table ν := ⟨[], .nil⟩

instance : EmptyCollection (Table ν) := ⟨empty⟩

instance : Inhabited (Table ν) := ⟨empty⟩

def get? (t : Table ν) (k : Int64) : Option ν :=
  lookup k t.entries

def insert (t : Table ν) (k : Int64) (v : ν) : Table ν :=
  ⟨put k v t.entries, ascending_put t.ascending⟩

/-- Put what `f` makes of the value under a key, if there is one. -/
def alter (t : Table ν) (k : Int64) (f : Option ν → ν) : Table ν :=
  t.insert k (f (t.get? k))

/-- The table with these entries; of two for one key the later counts. -/
def ofList (entries : List (Int64 × ν)) : Table ν :=
  entries.foldl (fun t e => t.insert e.1 e.2) empty

def keys (t : Table ν) : List Int64 :=
  t.entries.map Prod.fst

/-- The values, by ascending key. -/
def values (t : Table ν) : List ν :=
  t.entries.map Prod.snd

/-- The value under the greatest key. -/
def last? (t : Table ν) : Option ν :=
  t.values.getLast?

/-- The greatest key up to a bound. -/
def latestKey? (t : Table ν) (bound : Int64) : Option Int64 :=
  (t.keys.filter (· ≤ bound)).getLast?

theorem lookup_put (k k' : Int64) (v : ν) (entries : List (Int64 × ν)) :
    lookup k' (put k v entries) = if k' = k then some v else lookup k' entries := by
  induction entries with
  | nil => simp [put, lookup]
  | cons head rest ih =>
    unfold put
    split
    · simp [lookup]
    · split
      · next heq =>
        subst heq
        simp only [lookup]
        split <;> rfl
      · next hne =>
        simp only [lookup, ih]
        by_cases h : k' = head.1
        · subst h
          simp [Ne.symm hne]
        · simp [h]

@[simp] theorem get?_insert (t : Table ν) (k k' : Int64) (v : ν) :
    (t.insert k v).get? k' = if k' = k then some v else t.get? k' :=
  lookup_put k k' v t.entries

@[simp] theorem get?_empty (k : Int64) : (empty : Table ν).get? k = none := rfl

theorem mem_of_lookup {k : Int64} {v : ν} {entries : List (Int64 × ν)}
    (h : lookup k entries = some v) : (k, v) ∈ entries := by
  induction entries with
  | nil => simp [lookup] at h
  | cons head rest ih =>
    unfold lookup at h
    split at h
    · next heq =>
      subst heq
      cases h
      simp
    · exact List.mem_cons_of_mem _ (ih h)

private theorem lookup_eq_none_of_lt {k : Int64} {entries : List (Int64 × ν)}
    (h : ∀ e ∈ entries, k < e.1) : lookup k entries = none := by
  cases hl : lookup k entries with
  | none => rfl
  | some v => exact absurd (h _ (mem_of_lookup hl)) Int64.lt_irrefl

private theorem entries_eq_of_lookup {a b : List (Int64 × ν)} (ha : Ascending a)
    (hb : Ascending b) (h : ∀ k, lookup k a = lookup k b) : a = b := by
  induction a generalizing b with
  | nil =>
    cases b with
    | nil => rfl
    | cons e b => simpa [lookup] using h e.1
  | cons d a ih =>
    obtain ⟨hd, ha⟩ := List.pairwise_cons.1 ha
    cases b with
    | nil => simpa [lookup] using h d.1
    | cons e b =>
      obtain ⟨he, hb⟩ := List.pairwise_cons.1 hb
      have hkey : d.1 = e.1 := by
        have hde := h d.1
        have hed := h e.1
        simp only [lookup, if_true] at hde hed
        by_cases heq : d.1 = e.1
        · exact heq
        · rw [if_neg heq] at hde
          rw [if_neg (fun h => heq h.symm)] at hed
          have h1 := he _ (mem_of_lookup hde.symm)
          have h2 := hd _ (mem_of_lookup hed)
          exact absurd (Int64.lt_trans h1 h2) Int64.lt_irrefl
      have hval : d.2 = e.2 := by
        have := h d.1
        simpa [lookup, hkey] using this
      have hrest : ∀ k, lookup k a = lookup k b := by
        intro k
        by_cases hk : k = d.1
        · subst hk
          rw [lookup_eq_none_of_lt hd, lookup_eq_none_of_lt (hkey ▸ he)]
        · have := h k
          simpa [lookup, hk, hkey ▸ hk] using this
      rw [ih ha hb hrest, Prod.ext hkey hval]

/-- Two tables with the same look-ups are the same table. -/
theorem ext_get? {s t : Table ν} (h : ∀ k, s.get? k = t.get? k) : s = t := by
  cases s
  cases t
  simp only [mk.injEq]
  exact entries_eq_of_lookup ‹_› ‹_› h

end Table

end LedgerView
