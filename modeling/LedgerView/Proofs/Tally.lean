import Mathlib
import LedgerView.Proofs.FirstAppearance
import LedgerView.Proofs.Outcome
import LedgerView.Tally
/-!
# Tallies keep exact sums

`Tally.sumWhere` adds up, in the integers, what a list of pairs has under the keys of some kind,
and `Tally.sumOf` what it has under one key. Tallying moves these sums by exactly the amounts
tallied, and taking away does so for the keys that came up.
-/

namespace LedgerView.Tally

variable {ε : Type} {tally after : Tally} {key amount : Int64}

/-- The exact sum of the amounts under keys that count. -/
def sumWhere (counts : Int64 → Bool) (amounts : List (Int64 × Int64)) : Int :=
  (amounts.map fun e => if counts e.1 then e.2.toInt else 0).sum

/-- The exact sum of the amounts under a key. -/
def sumOf (key : Int64) (amounts : List (Int64 × Int64)) : Int :=
  (amounts.map fun e => if e.1 = key then e.2.toInt else 0).sum

def keys (tally : Tally) : List Int64 :=
  tally.map Prod.fst

section Sums

variable {counts : Int64 → Bool} {k : Int64} {amounts others : List (Int64 × Int64)}

@[simp] theorem sumWhere_nil : sumWhere counts [] = 0 := rfl

@[simp] theorem sumWhere_cons (e : Int64 × Int64) :
    sumWhere counts (e :: amounts) =
      (if counts e.1 then e.2.toInt else 0) + sumWhere counts amounts := by
  simp [sumWhere]

@[simp] theorem sumWhere_append :
    sumWhere counts (amounts ++ others) = sumWhere counts amounts + sumWhere counts others := by
  simp [sumWhere]

theorem sumWhere_eq_zero (h : ∀ e ∈ amounts, counts e.1 = false) :
    sumWhere counts amounts = 0 := by
  have hzero : ∀ e ∈ amounts, (if counts e.1 then e.2.toInt else 0) = 0 := by
    intro e he
    simp [h e he]
  rw [sumWhere, List.map_congr_left hzero]
  simp

theorem sumWhere_and_add_sumWhere (counts kind : Int64 → Bool) (amounts : List (Int64 × Int64)) :
    sumWhere (fun k => counts k && kind k) amounts +
      sumWhere (fun k => counts k && !kind k) amounts = sumWhere counts amounts := by
  induction amounts with
  | nil => rfl
  | cons e amounts ih =>
    rw [sumWhere_cons, sumWhere_cons, sumWhere_cons, ← ih]
    cases counts e.1 <;> cases kind e.1 <;> simp <;> omega

theorem sumOf_eq_sumWhere : sumOf k amounts = sumWhere (fun key => key = k) amounts := by
  simp [sumOf, sumWhere]

theorem sumWhere_and_eq_sumOf {p : Int64 → Bool} (hp : p k = true) :
    sumWhere (fun key => key = k && p key) amounts = sumOf k amounts := by
  have hcounts : (fun key => decide (key = k) && p key) = fun key => decide (key = k) := by
    funext key
    by_cases hkey : key = k
    · simp [hkey, hp]
    · simp [hkey]
  rw [hcounts, sumOf_eq_sumWhere]

@[simp] theorem sumOf_nil (k : Int64) : sumOf k [] = 0 := rfl

@[simp] theorem sumOf_cons (k : Int64) (e : Int64 × Int64) (rest : List (Int64 × Int64)) :
    sumOf k (e :: rest) = (if e.1 = k then e.2.toInt else 0) + sumOf k rest := by
  simp [sumOf]

@[simp] theorem sumOf_append (k : Int64) (amounts others : List (Int64 × Int64)) :
    sumOf k (amounts ++ others) = sumOf k amounts + sumOf k others := by
  simp [sumOf]

theorem sumOf_eq_zero (h : ∀ e ∈ amounts, e.1 ≠ k) : sumOf k amounts = 0 := by
  rw [sumOf_eq_sumWhere]
  exact sumWhere_eq_zero fun e he => decide_eq_false (h e he)

end Sums

/-! ## Adding -/

theorem keys_add (h : add key amount tally = (.ok after : Outcome ε Tally)) :
    after.keys = if key ∈ tally.keys then tally.keys else tally.keys ++ [key] := by
  induction tally generalizing after with
  | nil =>
    simp only [add, bind_eq_ok, pure_eq_ok] at h
    obtain ⟨total, -, rfl⟩ := h
    rfl
  | cons e rest ih =>
    unfold add at h
    split at h
    · next heq =>
      simp only [bind_eq_ok, pure_eq_ok] at h
      obtain ⟨total, -, rfl⟩ := h
      simp [keys, heq]
    · next hne =>
      simp only [bind_eq_ok, pure_eq_ok] at h
      obtain ⟨rest', hrest, rfl⟩ := h
      have hkeys := ih hrest
      simp only [keys, List.map_cons] at hkeys ⊢
      rw [hkeys]
      by_cases hmem : key ∈ rest.map Prod.fst
      · simp [hmem]
      · simp [hmem, Ne.symm hne]

theorem sumWhere_add (h : add key amount tally = (.ok after : Outcome ε Tally))
    (counts : Int64 → Bool) :
    sumWhere counts after = sumWhere counts tally + if counts key then amount.toInt else 0 := by
  induction tally generalizing after with
  | nil =>
    simp only [add, bind_eq_ok, pure_eq_ok] at h
    obtain ⟨total, htotal, rfl⟩ := h
    have hsum := addChecked_eq_ok_iff.1 htotal
    have hzero : (0 : Int64).toInt = 0 := rfl
    simp only [sumWhere_cons, sumWhere_nil]
    split <;> omega
  | cons e rest ih =>
    unfold add at h
    split at h
    · next heq =>
      simp only [bind_eq_ok, pure_eq_ok] at h
      obtain ⟨total, htotal, rfl⟩ := h
      have hsum := addChecked_eq_ok_iff.1 htotal
      rw [sumWhere_cons, sumWhere_cons, heq]
      simp only
      split <;> omega
    · next hne =>
      simp only [bind_eq_ok, pure_eq_ok] at h
      obtain ⟨rest', hrest, rfl⟩ := h
      rw [sumWhere_cons, sumWhere_cons, ih hrest, Int.add_assoc]

theorem addAll_cons_eq_ok {e : Int64 × Int64} {amounts : List (Int64 × Int64)} :
    addAll (e :: amounts) tally = (.ok after : Outcome ε Tally) ↔
      ∃ next, add e.1 e.2 tally = (.ok next : Outcome ε Tally) ∧
        addAll amounts next = (.ok after : Outcome ε Tally) := by
  rw [addAll, List.foldlM_cons, bind_eq_ok]
  rfl

theorem sumWhere_addAll {amounts : List (Int64 × Int64)}
    (h : addAll amounts tally = (.ok after : Outcome ε Tally)) (counts : Int64 → Bool) :
    sumWhere counts after = sumWhere counts tally + sumWhere counts amounts := by
  induction amounts generalizing tally with
  | nil =>
    rw [addAll, List.foldlM_nil, pure_eq_ok] at h
    simp [h]
  | cons e amounts ih =>
    obtain ⟨next, hnext, hrest⟩ := addAll_cons_eq_ok.1 h
    rw [ih hrest, sumWhere_add hnext, sumWhere_cons]
    omega

theorem sumOf_addAll {amounts : List (Int64 × Int64)}
    (h : addAll amounts tally = (.ok after : Outcome ε Tally)) (k : Int64) :
    sumOf k after = sumOf k tally + sumOf k amounts := by
  simp only [sumOf_eq_sumWhere, sumWhere_addAll h]

/-- Tallied from nothing, the keys stand in the order in which they first came up. -/
theorem keys_addAll {amounts : List (Int64 × Int64)}
    (h : addAll amounts [] = (.ok after : Outcome ε Tally)) :
    after.keys = (amounts.map Prod.fst).eraseDups := by
  induction amounts using List.reverseRecOn generalizing after with
  | nil =>
    rw [addAll, List.foldlM_nil, pure_eq_ok] at h
    rw [← h]
    rfl
  | append_singleton amounts e ih =>
    rw [addAll, List.foldlM_append, bind_eq_ok] at h
    obtain ⟨before, hbefore, hlast⟩ := h
    obtain ⟨next, hadd, hnone⟩ := addAll_cons_eq_ok.1 hlast
    rw [addAll, List.foldlM_nil, pure_eq_ok] at hnone
    rw [← hnone, keys_add hadd, ih hbefore, List.map_append, List.map_singleton, eraseDups_concat]
    simp only [List.mem_eraseDups]

/-! ## Taking away -/

theorem keys_takeAway (h : takeAway key amount tally = (.ok after : Outcome ε Tally)) :
    after.keys = tally.keys := by
  induction tally generalizing after with
  | nil =>
    rw [takeAway, pure_eq_ok] at h
    exact h ▸ rfl
  | cons e rest ih =>
    unfold takeAway at h
    split at h <;> simp only [bind_eq_ok, pure_eq_ok] at h
    · obtain ⟨total, -, rfl⟩ := h
      rfl
    · obtain ⟨rest', hrest, rfl⟩ := h
      have hkeys := ih hrest
      simp only [keys, List.map_cons] at hkeys ⊢
      rw [hkeys]

theorem sumWhere_takeAway (h : takeAway key amount tally = (.ok after : Outcome ε Tally))
    (counts : Int64 → Bool) :
    sumWhere counts after =
      sumWhere counts tally - if counts key ∧ key ∈ tally.keys then amount.toInt else 0 := by
  induction tally generalizing after with
  | nil =>
    rw [takeAway, pure_eq_ok] at h
    simp [← h, keys]
  | cons e rest ih =>
    unfold takeAway at h
    split at h <;> simp only [bind_eq_ok, pure_eq_ok] at h
    · next heq =>
      obtain ⟨total, htotal, rfl⟩ := h
      have hdiff := subChecked_eq_ok_iff.1 htotal
      have hmem : key ∈ keys (e :: rest) := by
        simp [keys, heq]
      rw [sumWhere_cons, sumWhere_cons, heq]
      simp only [hmem, and_true]
      split <;> omega
    · next hne =>
      obtain ⟨rest', hrest, rfl⟩ := h
      have hmem : key ∈ keys (e :: rest) ↔ key ∈ keys rest := by
        simp [keys, Ne.symm hne]
      rw [sumWhere_cons, sumWhere_cons, ih hrest]
      simp only [hmem]
      omega

/-- Taking away moves the sums by what is under keys that came up, and leaves the keys alone. -/
theorem takeAwayAll_spec {amounts : List (Int64 × Int64)}
    (h : takeAwayAll amounts tally = (.ok after : Outcome ε Tally)) :
    after.keys = tally.keys ∧ ∀ counts : Int64 → Bool,
      sumWhere counts after = sumWhere counts tally -
        sumWhere (fun k => counts k && decide (k ∈ tally.keys)) amounts := by
  induction amounts generalizing tally with
  | nil =>
    rw [takeAwayAll, List.foldlM_nil, pure_eq_ok] at h
    simp [h]
  | cons e amounts ih =>
    rw [takeAwayAll, List.foldlM_cons, bind_eq_ok] at h
    obtain ⟨next, hnext, hrest⟩ := h
    obtain ⟨hkeys, hsums⟩ := ih hrest
    have hsame := keys_takeAway hnext
    refine ⟨hkeys.trans hsame, fun counts => ?_⟩
    rw [hsums counts, sumWhere_takeAway hnext counts, hsame, sumWhere_cons]
    simp only [Bool.and_eq_true, decide_eq_true_eq]
    omega

/-! ## Reading off -/

theorem sumWhere_remainders (tally : Tally) (counts : Int64 → Bool) :
    sumWhere counts tally.remainders = sumWhere counts tally := by
  induction tally with
  | nil => rfl
  | cons e rest ih =>
    by_cases hzero : e.2 = 0
    · have hint : e.2.toInt = 0 := by
        rw [hzero]
        rfl
      rw [remainders, List.filter_cons_of_neg (by simpa using hzero), sumWhere_cons, hint]
      simpa [remainders] using ih
    · rw [remainders, List.filter_cons_of_pos (by simpa using hzero), sumWhere_cons,
        sumWhere_cons, ← ih]
      rfl

theorem toInt_total {tally : Tally} (hnodup : tally.keys.Nodup) (k : Int64) :
    (tally.total k).toInt = sumOf k tally := by
  induction tally with
  | nil => rfl
  | cons e rest ih =>
    obtain ⟨hhead, hrest⟩ := List.nodup_cons.1 hnodup
    unfold total
    rw [sumOf_cons]
    split
    · next heq =>
      have hnone : sumOf k rest = 0 := by
        apply sumOf_eq_zero
        intro e' he' heq'
        exact hhead (heq ▸ heq' ▸ List.mem_map_of_mem he')
      omega
    · rw [ih hrest]
      omega

theorem toInt_of_mem {tally : Tally} (hnodup : tally.keys.Nodup) {e : Int64 × Int64}
    (he : e ∈ tally) : e.2.toInt = sumOf e.1 tally := by
  obtain ⟨before, rest, rfl⟩ := List.append_of_mem he
  rw [keys, List.map_append, List.map_cons, List.nodup_middle, List.nodup_cons] at hnodup
  have hothers : ∀ e' ∈ before ++ rest, e'.1 ≠ e.1 := by
    intro e' he' heq
    exact hnodup.1 (List.map_append ▸ List.mem_map.2 ⟨e', he', heq⟩)
  have hnone := sumOf_eq_zero hothers
  rw [sumOf_append] at hnone
  rw [sumOf_append, sumOf_cons, if_pos rfl]
  omega

theorem toInt_of_takeAwayAll {amounts : List (Int64 × Int64)}
    (h : takeAwayAll amounts tally = (.ok after : Outcome ε Tally)) (hnodup : tally.keys.Nodup)
    {e : Int64 × Int64} (he : e ∈ after) :
    e.2.toInt = sumOf e.1 tally - sumOf e.1 amounts := by
  obtain ⟨hkeys, hsums⟩ := takeAwayAll_spec h
  have hmem : e.1 ∈ tally.keys := hkeys ▸ List.mem_map_of_mem he
  rw [toInt_of_mem (hkeys ▸ hnodup) he, sumOf_eq_sumWhere, hsums,
    sumWhere_and_eq_sumOf (decide_eq_true hmem), ← sumOf_eq_sumWhere]

theorem toInt_total_addAll {amounts : List (Int64 × Int64)}
    (h : addAll amounts [] = (.ok after : Outcome ε Tally)) (k : Int64) :
    (after.total k).toInt = sumOf k amounts := by
  have hnodup : after.keys.Nodup := keys_addAll h ▸ nodup_eraseDups _
  rw [toInt_total hnodup, sumOf_addAll h, sumOf_nil, Int.zero_add]

end LedgerView.Tally
