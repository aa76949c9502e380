import Mathlib
import LedgerView.Proofs.Balance.Token
/-!
# Serials are neither made nor lost on the way

The net count of an account goes up by one with each serial that it receives and down by one with
each that it sends, so that a serial sent to oneself counts for nothing. Over all accounts a serial
that passes from one to another counts once up and once down. What is left is the serials that were
minted less those that were burnt or wiped (`serials_conserved`).
-/

namespace LedgerView

/-- What transfers change in the number of serials of a token that an account holds. -/
def netSerials (account token : Int64) (transfers : List NftTransfer) : Int :=
  ((netNftCount account transfers).get? token).getD 0

namespace NftTransfer

/-- A serial of the token goes to the account, or to none if it is burnt or wiped. -/
def goesTo (token : Int64) (account? : Option Int64) (t : NftTransfer) : Bool :=
  t.token = token ∧ t.receiver? = account?

/-- A serial of the token comes from the account, or from none if it is minted. -/
def comesFrom (token : Int64) (account? : Option Int64) (t : NftTransfer) : Bool :=
  t.token = token ∧ t.sender? = account?

/-- The sender and the receiver, as far as there are any. -/
def accounts (t : NftTransfer) : List Int64 :=
  t.sender?.toList ++ t.receiver?.toList

/-- What one transfer changes in the number of serials of a token that an account holds. -/
def net (account token : Int64) (t : NftTransfer) : Int :=
  (if t.goesTo token (some account) then 1 else 0) -
    if t.comesFrom token (some account) then 1 else 0

section Net

variable {account token : Int64}

theorem sum_delta_side (t : NftTransfer) (side? : Option Int64) (received : Bool) :
    ((((side?.toList.map fun a => (⟨a, t.token, t.serialNumber, received⟩ : NftLeg)).filter
        fun l => l.account = account).filter fun l => l.token = token).map
          fun l => l.delta.toInt).sum =
      (if received then 1 else -1) *
        if t.token = token ∧ side? = some account then 1 else 0 := by
  cases side? with
  | none => simp
  | some a =>
    by_cases haccount : a = account
    · by_cases htoken : t.token = token
      · cases received <;> simp [NftLeg.delta, haccount, htoken]
      · simp [haccount, htoken]
    · simp [haccount]

theorem sum_delta_legs (t : NftTransfer) :
    (((t.legs.filter fun l => l.account = account).filter fun l => l.token = token).map
      fun l => l.delta.toInt).sum = t.net account token := by
  rw [legs, List.filter_append, List.filter_append, List.map_append, List.sum_append,
    sum_delta_side, sum_delta_side, net, goesTo, comesFrom]
  simp only [decide_eq_true_eq, Bool.false_eq_true, if_true, if_false]
  omega

theorem net_of_self {t : NftTransfer} (h : t.sender? = t.receiver?) : t.net account token = 0 := by
  rw [net, goesTo, comesFrom, h, Int.sub_self]

/-- A serial that passes between accounts changes nothing over all of them. -/
theorem sum_net {accounts : Finset Int64} {t : NftTransfer} (h : ∀ a ∈ t.accounts, a ∈ accounts)
    (token : Int64) :
    ∑ account ∈ accounts, t.net account token =
      (if t.comesFrom token none then 1 else 0) - if t.goesTo token none then 1 else 0 := by
  -- over all accounts a side counts once, unless there is none
  have hside : ∀ side? : Option Int64, (∀ a ∈ side?, a ∈ accounts) →
      ∑ account ∈ accounts, (if t.token = token ∧ side? = some account then (1 : Int) else 0) =
        (if t.token = token then 1 else 0) - if t.token = token ∧ side? = none then 1 else 0 := by
    intro side? hside
    by_cases htoken : t.token = token
    · cases side? with
      | none => simp [htoken]
      | some a => simp [htoken, hside a rfl]
    · simp [htoken]
  have hreceiver := hside t.receiver? fun a ha =>
    h a (List.mem_append_right _ (Option.mem_toList.2 ha))
  have hsender := hside t.sender? fun a ha =>
    h a (List.mem_append_left _ (Option.mem_toList.2 ha))
  simp only [net, goesTo, comesFrom, decide_eq_true_eq, Finset.sum_sub_distrib]
  rw [hreceiver, hsender]
  omega

end Net

end NftTransfer

section Serials

variable {account token : Int64} {transfers others : List NftTransfer}

theorem netSerials_eq_sum (account token : Int64) (transfers : List NftTransfer) :
    netSerials account token transfers =
      (transfers.map (NftTransfer.net account token)).sum := by
  rw [netSerials, getD_netNftCount]
  induction transfers with
  | nil => rfl
  | cons t transfers ih =>
    rw [List.flatMap_cons, List.filter_append, List.filter_append, List.map_append,
      List.sum_append, ih, NftTransfer.sum_delta_legs, List.map_cons, List.sum_cons]

theorem sum_map_net (account token : Int64) (transfers : List NftTransfer) :
    (transfers.map (NftTransfer.net account token)).sum =
      (transfers.countP (NftTransfer.goesTo token (some account)) : Int) -
        transfers.countP (NftTransfer.comesFrom token (some account)) := by
  induction transfers with
  | nil => rfl
  | cons t transfers ih =>
    rw [List.map_cons, List.sum_cons, ih, NftTransfer.net, List.countP_cons, List.countP_cons]
    push_cast
    omega

theorem netSerials_append (account token : Int64) (transfers others : List NftTransfer) :
    netSerials account token (transfers ++ others) =
      netSerials account token transfers + netSerials account token others := by
  rw [netSerials_eq_sum, List.map_append, List.sum_append, ← netSerials_eq_sum,
    ← netSerials_eq_sum]

theorem netNftCount_of_perm (h : transfers.Perm others) :
    netNftCount account transfers = netNftCount account others := by
  have hlegs := (h.flatMap_right NftTransfer.legs).filter fun l => l.account = account
  refine hlegs.foldl_eq' (fun l _ l' _ counts => ?_) ∅
  refine Table.alter_comm fun _ n? => ?_
  simp only [Option.getD_some]
  omega

theorem sum_netSerials {accounts : Finset Int64}
    (h : ∀ t ∈ transfers, ∀ a ∈ t.accounts, a ∈ accounts) (token : Int64) :
    ∑ account ∈ accounts, netSerials account token transfers =
      (transfers.countP (NftTransfer.comesFrom token none) : Int) -
        transfers.countP (NftTransfer.goesTo token none) := by
  induction transfers with
  | nil => simp [netSerials_eq_sum]
  | cons t transfers ih =>
    obtain ⟨ht, hrest⟩ := List.forall_mem_cons.1 h
    have hcons : ∀ account, netSerials account token (t :: transfers) =
        t.net account token + netSerials account token transfers := by
      intro account
      rw [netSerials_eq_sum, List.map_cons, List.sum_cons, ← netSerials_eq_sum]
    simp only [hcons, Finset.sum_add_distrib]
    rw [NftTransfer.sum_net ht, ih hrest, List.countP_cons, List.countP_cons]
    push_cast
    omega

end Serials

/-- The accounts that send or receive any of the transfers. -/
def accountsOf (transfers : List NftTransfer) : Finset Int64 :=
  (transfers.flatMap NftTransfer.accounts).toFinset

/-- The net count of an account and a token is the number of serials received less the number
sent, a serial sent to oneself counting for nothing. It adds up over lists one after the other, and
their order does not matter. Over all accounts that occur in the transfers it comes to what was
minted less what was burnt or wiped. -/
theorem serials_conserved (token : Int64) (transfers : List NftTransfer) :
    (∀ account, netSerials account token transfers =
        (transfers.countP (NftTransfer.goesTo token (some account)) : Int) -
          transfers.countP (NftTransfer.comesFrom token (some account))) ∧
      (∀ account t, t.sender? = t.receiver? →
        netSerials account token (t :: transfers) = netSerials account token transfers) ∧
      (∀ account others, netSerials account token (transfers ++ others) =
        netSerials account token transfers + netSerials account token others) ∧
      (∀ account others, transfers.Perm others →
        netNftCount account transfers = netNftCount account others) ∧
      ∑ account ∈ accountsOf transfers, netSerials account token transfers =
        (transfers.countP (NftTransfer.comesFrom token none) : Int) -
          transfers.countP (NftTransfer.goesTo token none) := by
  refine ⟨fun account => ?_, fun account t hself => ?_, fun account others => ?_,
    fun account others => netNftCount_of_perm, sum_netSerials (fun t ht a ha => ?_) token⟩
  · rw [netSerials_eq_sum, sum_map_net]
  · rw [netSerials_eq_sum, List.map_cons, List.sum_cons, NftTransfer.net_of_self hself,
      Int.zero_add, ← netSerials_eq_sum]
  · exact netSerials_append account token transfers others
  · exact List.mem_toFinset.2 (List.mem_flatMap.2 ⟨t, ht, ha⟩)

/-- Two serials of token 2001 are minted. One of them is passed on, to oneself too, and burnt. -/
private def passedOn : List NftTransfer :=
  [⟨none, some 1001, 1, 2001⟩, ⟨none, some 1001, 2, 2001⟩, ⟨some 1001, some 1002, 1, 2001⟩,
    ⟨some 1001, some 1003, 1, 2002⟩, ⟨some 1002, none, 1, 2001⟩]

theorem serials_conserved_passedOn :
    netSerials 1002 2001 (⟨some 1002, some 1002, 1, 2001⟩ :: passedOn) =
        netSerials 1002 2001 passedOn ∧
      netNftCount 1001 passedOn = netNftCount 1001 passedOn.reverse ∧
      passedOn.countP (NftTransfer.comesFrom 2001 none) = 2 ∧
      passedOn.countP (NftTransfer.goesTo 2001 none) = 1 ∧
      ∑ account ∈ accountsOf passedOn, netSerials account 2001 passedOn = 1 := by
  obtain ⟨-, hself, -, hperm, hsum⟩ := serials_conserved 2001 passedOn
  exact ⟨hself 1002 _ rfl, hperm 1001 _ (List.reverse_perm _).symm, by decide, by decide,
    hsum.trans (by decide)⟩

end LedgerView
