import Mathlib
import LedgerView.Store.Read
/-!
# Movements and snapshots

What the transactions of a half-open window move, and when the balances of snapshots agree with
it. Balances that agree from each snapshot to the next agree between any two of them, so that a
balance worked out from one snapshot does not hang on which one it was (`moved_between`).
-/

namespace LedgerView

/-- What the transactions after one timestamp and up to another move, if a row moves `f row`. -/
def Store.moved (s : Store) (f : TransactionRow → Int) (after upTo : Int64) : Int :=
  ((s.transactions.after after upTo).map f).sum

/-- What the transactions up to a timestamp move. -/
def Store.movedUpTo (s : Store) (f : TransactionRow → Int) (upTo : Int64) : Int :=
  ((s.transactions.items.filter fun row => row.consensusTimestamp ≤ upTo).map f).sum

/-- Along the snapshots the balance moves, to each one that is usable, by what the transactions
since the one before it move. -/
def Store.Consistent (s : Store) (usable : Int64 → Prop) (balance : Int64 → Int)
    (f : TransactionRow → Int) : Prop :=
  s.snapshots.keys.IsChain fun x y => usable y → balance y = balance x + s.moved f x y

instance (s : Store) (usable : Int64 → Prop) [DecidablePred usable] (balance : Int64 → Int)
    (f : TransactionRow → Int) : Decidable (s.Consistent usable balance f) :=
  inferInstanceAs (Decidable (List.IsChain _ _))

section Windows

variable {s : Store} {f : TransactionRow → Int}

theorem moved_eq_sub {x y : Int64} (h : x ≤ y) :
    s.moved f x y = s.movedUpTo f y - s.movedUpTo f x := by
  rw [Int64.le_iff_toInt_le] at h
  unfold Store.moved Store.movedUpTo Timeline.after
  induction s.transactions.items with
  | nil => rfl
  | cons row rows ih =>
    simp only [List.filter_cons, Timed.timestamp, decide_eq_true_eq, Int64.lt_iff_toInt_lt,
      Int64.le_iff_toInt_le] at ih ⊢
    by_cases hx : row.consensusTimestamp.toInt ≤ x.toInt
    · rw [if_neg (by omega), if_pos (by omega), if_pos hx, ih, List.map_cons, List.map_cons,
        List.sum_cons, List.sum_cons]
      omega
    · by_cases hy : row.consensusTimestamp.toInt ≤ y.toInt
      · rw [if_pos (by omega), if_pos hy, if_neg hx, List.map_cons, List.map_cons,
          List.sum_cons, List.sum_cons, ih]
        omega
      · rw [if_neg (by omega), if_neg hy, if_neg hx, ih]

theorem moved_add {x y z : Int64} (hxy : x ≤ y) (hyz : y ≤ z) :
    s.moved f x y + s.moved f y z = s.moved f x z := by
  rw [moved_eq_sub hxy, moved_eq_sub hyz, moved_eq_sub (Int64.le_trans hxy hyz)]
  omega

theorem moved_self (x : Int64) : s.moved f x x = 0 := by
  rw [moved_eq_sub (Int64.le_refl x), Int.sub_self]

variable {usable : Int64 → Prop} {balance : Int64 → Int}

/-- Consistent snapshots all have the same opening balance, the one before any movement. -/
theorem opening_eq (hconsistent : s.Consistent usable balance f)
    (hdown : ∀ a b, a < b → usable b → usable a) :
    ∀ x ∈ s.snapshots.keys, ∀ y ∈ s.snapshots.keys, usable x → usable y →
      balance x - s.movedUpTo f x = balance y - s.movedUpTo f y := by
  have hasc : s.snapshots.keys.Pairwise (· < ·) := List.pairwise_map.2 s.snapshots.ascending
  unfold Store.Consistent at hconsistent
  generalize s.snapshots.keys = keys at hconsistent hasc
  induction keys with
  | nil =>
    intro x hx
    cases hx
  | cons first keys ih =>
    obtain ⟨hfirst, hrest⟩ := List.pairwise_cons.1 hasc
    have hopening := ih hconsistent.of_cons hrest
    -- the first snapshot against a later one, by way of the second
    have hlater : ∀ y ∈ keys, usable y →
        balance first - s.movedUpTo f first = balance y - s.movedUpTo f y := by
      intro y hy hyusable
      cases keys with
      | nil => cases hy
      | cons second keys =>
        have hsecond : usable second := by
          rcases List.mem_cons.1 hy with rfl | hmem
          · exact hyusable
          · exact hdown second y ((List.pairwise_cons.1 hrest).1 y hmem) hyusable
        have hstep := (List.isChain_cons_cons.1 hconsistent).1 hsecond
        rw [moved_eq_sub (Int64.le_of_lt (hfirst second List.mem_cons_self))] at hstep
        have htail := hopening second List.mem_cons_self y hy hsecond hyusable
        omega
    intro x hx y hy hxusable hyusable
    rcases List.mem_cons.1 hx with rfl | hxrest
    · rcases List.mem_cons.1 hy with rfl | hyrest
      · rfl
      · exact hlater y hyrest hyusable
    · rcases List.mem_cons.1 hy with rfl | hyrest
      · exact (hlater x hxrest hxusable).symm
      · exact hopening x hxrest y hyrest hxusable hyusable

/-- Two balances, each worked out from a usable snapshot, differ by what moved in between. -/
theorem moved_between {x y : Int64} (hconsistent : s.Consistent usable balance f)
    (hdown : ∀ a b, a < b → usable b → usable a) (hx : x ∈ s.snapshots.keys)
    (hy : y ∈ s.snapshots.keys) (hxusable : usable x) (hyusable : usable y)
    {c d : Int64} (hxc : x ≤ c) (hyd : y ≤ d) (hcd : c ≤ d) :
    balance y + s.moved f y d - (balance x + s.moved f x c) = s.moved f c d := by
  have hopening := opening_eq hconsistent hdown x hx y hy hxusable hyusable
  rw [moved_eq_sub hyd, moved_eq_sub hxc, moved_eq_sub hcd]
  omega

theorem moved_between_upTo {x y c d : Int64} (hconsistent : s.Consistent (· ≤ d) balance f)
    (hx : x ∈ s.snapshots.keys) (hy : y ∈ s.snapshots.keys) (hxc : x ≤ c) (hyd : y ≤ d)
    (hcd : c ≤ d) :
    balance y + s.moved f y d - (balance x + s.moved f x c) = s.moved f c d := by
  have hdown : ∀ a b, a < b → b ≤ d → a ≤ d := by
    intro a b hab hbd
    exact Int64.le_trans (Int64.le_of_lt hab) hbd
  exact moved_between hconsistent hdown hx hy (Int64.le_trans hxc hcd) hyd hxc hyd hcd

end Windows

end LedgerView
