import Mathlib
/-!
# Order of first appearance

`List.eraseDups` keeps the first of equal elements, so what is left stands in the order in which it
came up (`pairwise_eraseDups`). The hashes of rows and the accounts of raw transfers are listed in
this way, each by taking in one element after the other (`eraseDups_concat`).
-/

namespace LedgerView

variable {α : Type} [BEq α] [LawfulBEq α]

theorem eraseDups_concat (xs : List α) (x : α) :
    (xs ++ [x]).eraseDups = if x ∈ xs then xs.eraseDups else xs.eraseDups ++ [x] := by
  rw [List.eraseDups_append, List.removeAll]
  by_cases hmem : x ∈ xs
  · rw [if_pos hmem, List.filter_cons_of_neg (by simpa using hmem), List.filter_nil,
      List.eraseDups_nil, List.append_nil]
  · rw [if_neg hmem, List.filter_cons_of_pos (by simpa using hmem), List.filter_nil]
    rfl

theorem pairwise_eraseDups (xs : List α) :
    xs.eraseDups.Pairwise fun x y => xs.idxOf x < xs.idxOf y := by
  induction xs using List.reverseRecOn with
  | nil => exact List.Pairwise.nil
  | append_singleton xs last ih =>
    have hearlier : xs.eraseDups.Pairwise fun x y =>
        (xs ++ [last]).idxOf x < (xs ++ [last]).idxOf y := by
      refine ih.imp_of_mem fun {x y} hx hy hlt => ?_
      rwa [List.idxOf_append_of_mem (List.mem_eraseDups.1 hx),
        List.idxOf_append_of_mem (List.mem_eraseDups.1 hy)]
    rw [eraseDups_concat]
    split
    · exact hearlier
    · next habsent =>
      refine List.pairwise_append.2 ⟨hearlier, List.pairwise_singleton _ _, ?_⟩
      intro x hx y hy
      have hlt : xs.idxOf x < xs.length := List.idxOf_lt_length_iff.2 (List.mem_eraseDups.1 hx)
      rw [List.mem_singleton.1 hy, List.idxOf_append_of_mem (List.mem_eraseDups.1 hx),
        List.idxOf_append, if_neg habsent]
      omega

theorem nodup_eraseDups (xs : List α) : xs.eraseDups.Nodup := by
  refine (pairwise_eraseDups xs).imp fun {x y} hlt heq => ?_
  rw [heq] at hlt
  exact Nat.lt_irrefl _ hlt

end LedgerView
