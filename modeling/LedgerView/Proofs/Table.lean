import Mathlib
import LedgerView.Table
/-!
# Tables and their entries

A table holds at most one entry for a key, the one that is looked up under it (`mem_entries_iff`),
and a table that is filled from ascending entries has the look-ups of these entries (`get?_ofList`).
-/

namespace LedgerView

theorem filter_of_filter {α : Type} {items items' : List α} {p q : α → Bool}
    (h : items'.filter q = items.filter q) (hpq : ∀ x, p x → q x) :
    items'.filter p = items.filter p := by
  have hfilter : ∀ l : List α, l.filter p = (l.filter q).filter p := by
    intro l
    rw [List.filter_filter]
    apply List.filter_congr
    intro x _
    cases hx : p x with
    | false => rfl
    | true => rw [hpq x hx, Bool.true_and]
  rw [hfilter, h, ← hfilter]

namespace Table

variable {ν : Type} {entries : List (Int64 × ν)}

theorem lookup_eq_none {k : Int64} (h : ∀ e ∈ entries, e.1 ≠ k) : lookup k entries = none := by
  cases hlookup : lookup k entries with
  | none => rfl
  | some v => exact absurd rfl (h (k, v) (mem_of_lookup hlookup))

theorem lookup_eq_some_iff (h : Ascending entries) {k : Int64} {v : ν} :
    lookup k entries = some v ↔ (k, v) ∈ entries := by
  refine ⟨mem_of_lookup, fun hmem => ?_⟩
  induction entries with
  | nil => cases hmem
  | cons e rest ih =>
    obtain ⟨hhead, hrest⟩ := List.pairwise_cons.1 h
    rcases List.mem_cons.1 hmem with rfl | hmem
    · rw [lookup, if_pos rfl]
    · have hne : k ≠ e.1 := fun heq => Int64.lt_irrefl (heq ▸ hhead _ hmem)
      rw [lookup, if_neg hne, ih hrest hmem]

theorem mem_entries_iff {t : Table ν} {k : Int64} {v : ν} :
    (k, v) ∈ t.entries ↔ t.get? k = some v :=
  (lookup_eq_some_iff t.ascending).symm

theorem mem_values_of_get? {t : Table ν} {k : Int64} {v : ν} (h : t.get? k = some v) :
    v ∈ t.values :=
  List.mem_map.2 ⟨(k, v), mem_entries_iff.2 h, rfl⟩

theorem mem_keys_iff {t : Table ν} {k : Int64} : k ∈ t.keys ↔ ∃ v, t.get? k = some v := by
  simp only [keys, List.mem_map, Prod.exists, exists_and_right, exists_eq_right, mem_entries_iff]

theorem mem_keys_insert {t : Table ν} {k k' : Int64} {v : ν} (h : k ∈ t.keys) :
    k ∈ (t.insert k' v).keys := by
  obtain ⟨w, hw⟩ := mem_keys_iff.1 h
  rw [mem_keys_iff, get?_insert]
  split
  · exact ⟨v, rfl⟩
  · exact ⟨w, hw⟩

theorem head?_keys_eq_some_iff {t : Table ν} {k : Int64} :
    t.keys.head? = some k ↔ k ∈ t.keys ∧ ∀ k' ∈ t.keys, k ≤ k' := by
  obtain ⟨entries, hascending⟩ := t
  simp only [keys]
  cases entries with
  | nil => simp
  | cons e rest =>
    obtain ⟨hhead, -⟩ := List.pairwise_cons.1 hascending
    simp only [List.map_cons, List.head?_cons, Option.some.injEq, List.mem_cons, List.mem_map,
      forall_eq_or_imp, forall_exists_index, and_imp, forall_apply_eq_imp_iff₂]
    constructor
    · rintro rfl
      exact ⟨.inl rfl, Int64.le_refl _, fun e' he' => Int64.le_of_lt (hhead e' he')⟩
    · rintro ⟨rfl | ⟨e', he', rfl⟩, hle, -⟩
      · rfl
      · exact absurd (hhead e' he') (Int64.not_lt.2 hle)

theorem le_of_latestKey? {t : Table ν} {bound k : Int64} (h : t.latestKey? bound = some k) :
    ∀ k' ∈ t.keys, k' ≤ bound → k' ≤ k := by
  intro k' hk' hle
  obtain ⟨init, hinit⟩ := List.getLast?_eq_some_iff.1 h
  have hasc : (init ++ [k]).Pairwise (· < ·) :=
    hinit ▸ (List.pairwise_map.2 t.ascending).sublist List.filter_sublist
  have hmem : k' ∈ init ++ [k] := hinit ▸ List.mem_filter.2 ⟨hk', decide_eq_true hle⟩
  rcases List.mem_append.1 hmem with hmem | hmem
  · exact Int64.le_of_lt ((List.pairwise_append.1 hasc).2.2 k' hmem k (List.mem_singleton_self k))
  · exact Int64.le_of_eq (List.mem_singleton.1 hmem)

theorem find?_values_eq_some_iff {t : Table ν} {kind : ν → Bool} {v : ν} :
    t.values.find? kind = some v ↔
      ∃ k, (k, v) ∈ t.entries ∧ kind v ∧ ∀ e ∈ t.entries, kind e.2 → k ≤ e.1 := by
  obtain ⟨entries, hascending⟩ := t
  simp only [values]
  induction entries with
  | nil => simp
  | cons e rest ih =>
    obtain ⟨hhead, hrest⟩ := List.pairwise_cons.1 hascending
    rw [List.map_cons, List.find?_cons]
    cases hkind : kind e.2 with
    | true =>
      constructor
      · rintro h
        cases h
        refine ⟨e.1, List.mem_cons_self, hkind, fun e' he' _ => ?_⟩
        rcases List.mem_cons.1 he' with rfl | he'
        · exact Int64.le_refl _
        · exact Int64.le_of_lt (hhead e' he')
      · rintro ⟨k, hmem, -, hleast⟩
        rcases List.mem_cons.1 hmem with rfl | hmem
        · rfl
        · have hle := hleast e List.mem_cons_self hkind
          exact absurd (hhead _ hmem) (Int64.not_lt.2 hle)
    | false =>
      simp only [ih hrest]
      constructor
      · rintro ⟨k, hmem, hv, hleast⟩
        refine ⟨k, List.mem_cons_of_mem _ hmem, hv, fun e' he' hkind' => ?_⟩
        rcases List.mem_cons.1 he' with rfl | he'
        · rw [hkind] at hkind'
          cases hkind'
        · exact hleast e' he' hkind'
      · rintro ⟨k, hmem, hv, hleast⟩
        refine ⟨k, ?_, hv, fun e' he' => hleast e' (List.mem_cons_of_mem _ he')⟩
        rcases List.mem_cons.1 hmem with rfl | hmem
        · rw [hkind] at hv
          cases hv
        · exact hmem

theorem get?_foldl_insert (h : Ascending entries) (t : Table ν) (k : Int64) :
    (entries.foldl (fun t e => t.insert e.1 e.2) t).get? k =
      (lookup k entries).or (t.get? k) := by
  induction entries generalizing t with
  | nil => rfl
  | cons e rest ih =>
    obtain ⟨hhead, hrest⟩ := List.pairwise_cons.1 h
    rw [List.foldl_cons, ih hrest, get?_insert, lookup]
    by_cases hkey : k = e.1
    · have hnone : lookup k rest = none := by
        apply lookup_eq_none
        intro e' he' heq
        have hlt := hhead e' he'
        rw [heq, ← hkey] at hlt
        exact Int64.lt_irrefl hlt
      rw [hnone, if_pos hkey, if_pos hkey]
      rfl
    · rw [if_neg hkey, if_neg hkey]

theorem get?_ofList (h : Ascending entries) (k : Int64) :
    (ofList entries).get? k = lookup k entries := by
  rw [ofList, get?_foldl_insert h, get?_empty, Option.or_none]

/-! ## Additions that a reader does not notice -/

section Put

variable {k : Int64} {v : ν}

theorem put_of_forall_lt (h : ∀ e ∈ entries, e.1 < k) : put k v entries = entries ++ [(k, v)] := by
  induction entries with
  | nil => rfl
  | cons e rest ih =>
    obtain ⟨hlt, hrest⟩ := List.forall_mem_cons.1 h
    have hnlt : ¬k < e.1 := Int64.not_lt.2 (Int64.le_of_lt hlt)
    have hne : k ≠ e.1 := fun heq => Int64.lt_irrefl (heq ▸ hlt)
    rw [put, if_neg hnlt, if_neg hne, ih hrest]
    rfl

/-- Who looks at some keys only does not notice what is put under another. -/
theorem filter_put {p : Int64 → Bool} (hk : p k = false) :
    (put k v entries).filter (fun e => p e.1) = entries.filter fun e => p e.1 := by
  induction entries with
  | nil => rw [put, List.filter_cons_of_neg (by simp [hk])]
  | cons e rest ih =>
    unfold put
    split
    · rw [List.filter_cons_of_neg (by simp [hk])]
    · split
      · next heq =>
        rw [List.filter_cons_of_neg (by simp [hk]), List.filter_cons_of_neg (by simp [← heq, hk])]
      · rw [List.filter_cons, ih, List.filter_cons]

theorem lookup_filter {p : Int64 → Bool} (hk : p k) :
    lookup k (entries.filter fun e => p e.1) = lookup k entries := by
  induction entries with
  | nil => rfl
  | cons e rest ih =>
    by_cases hkey : k = e.1
    · rw [List.filter_cons_of_pos (by simpa [← hkey] using hk), lookup, lookup, if_pos hkey,
        if_pos hkey]
    · by_cases hkeep : p e.1
      · rw [List.filter_cons_of_pos (by simpa using hkeep), lookup, lookup, if_neg hkey,
          if_neg hkey, ih]
      · rw [List.filter_cons_of_neg (by simpa using hkeep), lookup, if_neg hkey, ih]

theorem lookup_append_of_eq_some {more : List (Int64 × ν)} (h : lookup k entries = some v) :
    lookup k (entries ++ more) = some v := by
  induction entries with
  | nil => cases h
  | cons e rest ih =>
    rw [List.cons_append]
    unfold lookup at h ⊢
    split
    · next hkey => rwa [if_pos hkey] at h
    · next hkey =>
      rw [if_neg hkey] at h
      exact ih h

/-- What is picked from the entries stays if the new value gives what the old one gave, and gives
nothing if there was no old one. -/
theorem filterMap_put {β : Type} {pick : Int64 × ν → Option β} (hascending : Ascending entries)
    (hpick : pick (k, v) = (lookup k entries).bind fun old => pick (k, old)) :
    (put k v entries).filterMap pick = entries.filterMap pick := by
  induction entries with
  | nil =>
    rw [put, List.filterMap_cons, hpick]
    rfl
  | cons e rest ih =>
    obtain ⟨hhead, hrest⟩ := List.pairwise_cons.1 hascending
    unfold put
    split
    · next hlt =>
      have hnone : lookup k (e :: rest) = none := by
        apply lookup_eq_none
        intro e' he' heq
        rcases List.mem_cons.1 he' with rfl | he'
        · exact Int64.lt_irrefl (heq ▸ hlt)
        · exact Int64.lt_irrefl (heq ▸ Int64.lt_trans hlt (hhead e' he'))
      rw [hnone] at hpick
      rw [List.filterMap_cons, hpick]
      rfl
    · split
      · next heq =>
        rw [lookup, if_pos heq] at hpick
        rw [List.filterMap_cons, List.filterMap_cons, hpick, heq]
        rfl
      · next hne =>
        rw [lookup, if_neg hne] at hpick
        rw [List.filterMap_cons, List.filterMap_cons, ih hrest hpick]

end Put

/-! ## Tables with some entries in common -/

section Common

variable {t t' : Table ν} {p : Int64 → Bool}

theorem get?_of_filter {k : Int64}
    (h : (t'.entries.filter fun e => p e.1) = t.entries.filter fun e => p e.1) (hk : p k) :
    t'.get? k = t.get? k := by
  rw [get?, ← lookup_filter hk, h, lookup_filter hk, get?]

theorem latestKey?_of_filter {bound : Int64}
    (h : (t'.entries.filter fun e => p e.1) = t.entries.filter fun e => p e.1)
    (hbound : ∀ k, k ≤ bound → p k) : t'.latestKey? bound = t.latestKey? bound := by
  have hentries : (t'.entries.filter fun e => e.1 ≤ bound) =
      t.entries.filter fun e => e.1 ≤ bound :=
    filter_of_filter h fun e he => hbound e.1 (of_decide_eq_true he)
  have hkeys : ∀ t : Table ν, t.latestKey? bound =
      ((t.entries.filter fun e => e.1 ≤ bound).map Prod.fst).getLast? := by
    intro t
    rw [latestKey?, keys, List.filter_map]
    rfl
  rw [hkeys, hentries, ← hkeys]

end Common

/-! ## Changes in either order -/

/-- Changes of one table may come in either order, as long as those under one key may. -/
theorem alter_comm {t : Table ν} {k k' : Int64} {f f' : Option ν → ν}
    (h : k = k' → ∀ v?, f' (some (f v?)) = f (some (f' v?))) :
    (t.alter k f).alter k' f' = (t.alter k' f').alter k f := by
  apply ext_get?
  intro other
  simp only [alter, get?_insert]
  by_cases hkey : k = k'
  · subst hkey
    simp only [if_true, h rfl]
    split <;> rfl
  · rw [if_neg hkey, if_neg (Ne.symm hkey)]
    by_cases hother : other = k
    · rw [if_pos hother, if_neg (hother ▸ hkey), if_pos hother]
    · rw [if_neg hother, if_neg hother]

theorem insert_comm {t : Table ν} {k k' : Int64} {v v' : ν} (h : k ≠ k') :
    (t.insert k v).insert k' v' = (t.insert k' v').insert k v := by
  have hcomm : (t.alter k fun _ => v).alter k' (fun _ => v') =
      (t.alter k' fun _ => v').alter k fun _ => v := alter_comm fun heq => absurd heq h
  exact hcomm

end Table

end LedgerView
