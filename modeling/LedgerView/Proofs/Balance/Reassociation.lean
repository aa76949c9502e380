import Mathlib
import LedgerView.Proofs.Balance.Token
import LedgerView.Proofs.Timeline
/-!
# Associations that come back

While an account is dissociated from a token, it is reported none of what the snapshot holds. Only
the latest association event decides, though: as soon as the account is associated again, it is
reported what the snapshot holds and all that moved since, as if it had never been dissociated
(`value_of_reassociated`).
-/

namespace LedgerView

/-- The account was dissociated, and up to `stop` just one event came after that: it was associated
again. -/
structure Returns (events : Timeline AssociationEvent) (gone back stop : Int64) : Prop where
  dissociated : events.latest? gone = some ⟨gone, false⟩
  associated : events.after gone stop = [⟨back, true⟩]

/-- What an account has of a token at a timestamp, going by a snapshot before it. -/
def Store.heldAt (s : Store) (tokenType : TokenType) (account token snapshot timestamp : Int64) :
    Int :=
  s.snapshotToken account token snapshot +
    s.moved (TransactionRow.movedAs tokenType account token) snapshot timestamp

section Returns

variable {events : Timeline AssociationEvent} {gone back stop : Int64}

theorem Returns.bounds (h : Returns events gone back stop) : gone < back ∧ back ≤ stop := by
  have hmem : (⟨back, true⟩ : AssociationEvent) ∈ events.after gone stop :=
    h.associated ▸ List.mem_singleton_self _
  exact of_decide_eq_true (List.mem_filter.1 hmem).2

theorem Returns.latest?_of_between (h : Returns events gone back stop) {earlier : Int64}
    (hgone : gone ≤ earlier) (hback : earlier < back) :
    events.latest? earlier = some ⟨gone, false⟩ := by
  have hquiet : events.after gone earlier = [] := by
    rw [Timeline.after, List.filter_eq_nil_iff]
    intro event hevent hwithin
    obtain ⟨hlater, hle⟩ := of_decide_eq_true hwithin
    have hbefore : timestamp event < back := Int64.lt_of_le_of_lt hle hback
    have hmem : event ∈ events.after gone stop :=
      List.mem_filter.2 ⟨hevent, decide_eq_true
        ⟨hlater, Int64.le_trans (Int64.le_of_lt hbefore) h.bounds.2⟩⟩
    rw [h.associated, List.mem_singleton] at hmem
    rw [hmem] at hbefore
    exact Int64.lt_irrefl hbefore
  rw [Timeline.latest?_of_after_eq_nil hgone hquiet, h.dissociated]

end Returns

section Balance

variable {s : Store} {settings : Settings} {selector : AccountSelector} {id token : EntityId}
  {state : TokenState} {snapshot gone back stop : Int64} {b : AccountBalance}

/-- An account that was dissociated from a token after the snapshot, and is associated with it
again, is reported what it had before that, by the snapshot, and what moved since; in between it was
reported nothing. -/
theorem value_of_reassociated (hnames : s.Names selector id) (halive : s.AliveAt id.encode stop)
    (hstate : s.tokens.get? token.encode = some state)
    (hsnapshot : s.latestSnapshot? stop = some snapshot) (hlater : snapshot < gone)
    (hreturns : Returns (s.associationEvents id.encode token.encode) gone back stop)
    (h : s.Answers settings (.balance selector stop) (.balance b)) :
    (∃ value, b.valuesOf token = [value] ∧
      value.toInt = s.heldAt state.tokenType id.encode token.encode snapshot gone +
        s.moved (TransactionRow.movedAs state.tokenType id.encode token.encode) gone stop) ∧
      ∀ earlier before, gone ≤ earlier → earlier < back →
        s.Answers settings (.balance selector earlier) (.balance before) →
          before.valuesOf token = [0] := by
  obtain ⟨hgone, hback⟩ := hreturns.bounds
  have hstop : gone ≤ stop := Int64.le_trans (Int64.le_of_lt hgone) hback
  constructor
  · have hlatest := Timeline.latest?_of_after_eq_singleton hstop hreturns.associated
    obtain ⟨_, hsame, hreported⟩ := value_of_latest hnames halive hstate hlatest h
    cases hsnapshot.symm.trans hsame
    obtain ⟨value, hvalues, hvalue⟩ := hreported (.inl rfl)
    rw [if_pos rfl] at hvalue
    refine ⟨value, hvalues, ?_⟩
    calc value.toInt
        = s.snapshotToken id.encode token.encode snapshot +
            s.moved (TransactionRow.movedAs state.tokenType id.encode token.encode) snapshot stop :=
          hvalue
      _ = s.snapshotToken id.encode token.encode snapshot +
            (s.moved (TransactionRow.movedAs state.tokenType id.encode token.encode) snapshot gone +
              s.moved (TransactionRow.movedAs state.tokenType id.encode token.encode) gone stop) := by
          rw [moved_add (Int64.le_of_lt hlater) hstop]
      _ = s.heldAt state.tokenType id.encode token.encode snapshot gone +
            s.moved (TransactionRow.movedAs state.tokenType id.encode token.encode) gone stop :=
          (Int.add_assoc _ _ _).symm
  · intro earlier before hle hlt h'
    have hbefore : earlier < stop := Int64.lt_of_lt_of_le hlt hback
    have halive' : s.AliveAt id.encode earlier := fun e he => aliveAt_of_lt hbefore (halive e he)
    have hlatest := hreturns.latest?_of_between hle hlt
    obtain ⟨snapshot', hsnapshot', hreported⟩ :=
      value_of_latest hnames halive' hstate hlatest h'
    obtain ⟨hkey, hbound⟩ := mem_keys_of_latestSnapshot hsnapshot'
    have hearlier : snapshot' ≤ snapshot :=
      Table.le_of_latestKey? hsnapshot snapshot' hkey
        (Int64.le_trans hbound (Int64.le_of_lt hbefore))
    obtain ⟨value, hvalues, hvalue⟩ := hreported (.inr (Int64.lt_of_le_of_lt hearlier hlater))
    have hzero : value = 0 := Int64.toInt_inj.1 hvalue
    rw [hvalues, hzero]

end Balance

/-- Account 1001 holds 70 units of token 2001 at the snapshot, is then dissociated from the token and
associated with it again, and receives 3. -/
private def returnedStore : Store :=
  Store.ingestAll {} [
    .entity ⟨1001, none, none⟩,
    .token ⟨2001, 0, .fungibleCommon, false, 0⟩,
    .association (.numbered 1001) (.numbered 2001) true 50,
    .tokenBalance 100 (.numbered 1001) (.numbered 2001) 70,
    .association (.numbered 1001) (.numbered 2001) false 150,
    .association (.numbered 1001) (.numbered 2001) true 160,
    .transaction {
      consensusTimestamp := 180, hash := [2], transactionType := 14, result := 22, payer := 1001,
      entity? := none, memo := [], cryptoTransfers := [], itemizedTransfers := [],
      tokenTransfers := [⟨1001, 2001, 3, 0, .fungibleCommon⟩], nftTransfers := [],
      stakingRewards := [], token? := none }]

private def returnedBalance (units : Int64) : AccountBalance :=
  ⟨"0.0.1001", none, [.hbar 0, .token ⟨.numbered 2001, 0, .fungibleCommon, units, []⟩]⟩

theorem value_of_reassociated_returned :
    (73 : Int64).toInt = returnedStore.heldAt .fungibleCommon 1001 2001 100 150 +
        returnedStore.moved (TransactionRow.unitsMoved 1001 2001) 150 200 ∧
      (returnedBalance 0).valuesOf (.numbered 2001) = [0] := by
  have hafter : returnedStore.Answers ⟨.standard, .standard⟩
      (.balance (.byId (.numbered 1001)) 200) (.balance (returnedBalance 73)) :=
    ⟨{ store := returnedStore }, .background, rfl, rfl, by cbv⟩
  have hbetween : returnedStore.Answers ⟨.standard, .standard⟩
      (.balance (.byId (.numbered 1001)) 155) (.balance (returnedBalance 0)) :=
    ⟨{ store := returnedStore }, .background, rfl, rfl, by cbv⟩
  have hnames : returnedStore.Names (.byId (.numbered 1001)) (.numbered 1001) := rfl
  have hstate : returnedStore.tokens.get? (EntityId.numbered 2001).encode =
      some ⟨0, .fungibleCommon, false⟩ := rfl
  have hsnapshot : returnedStore.latestSnapshot? 200 = some 100 := rfl
  have hreturns : Returns (returnedStore.associationEvents (EntityId.numbered 1001).encode
      (EntityId.numbered 2001).encode) 150 160 200 := ⟨rfl, rfl⟩
  obtain ⟨⟨value, hvalues, hvalue⟩, hzero⟩ := value_of_reassociated hnames (by decide) hstate
    hsnapshot (by decide) hreturns hafter
  cases hvalues
  exact ⟨hvalue, hzero 155 (returnedBalance 0) (by decide) (by decide) hbetween⟩

/-- What was held before the dissociation is reported again. -/
theorem reassociated_reports_snapshot :
    returnedStore.AliveAt 1001 200 ∧ returnedStore.latestSnapshot? 200 = some 100 ∧
      Returns (returnedStore.associationEvents 1001 2001) 150 160 200 ∧
      returnedStore.Answers ⟨.standard, .standard⟩ (.balance (.byId (.numbered 1001)) 200)
        (.balance (returnedBalance 73)) ∧
      (returnedBalance 73).valuesOf (.numbered 2001) = [73] ∧
      returnedStore.moved (TransactionRow.unitsMoved 1001 2001) 150 200 = 3 :=
  ⟨by decide, rfl, ⟨rfl, rfl⟩,
    ⟨{ store := returnedStore }, .background, rfl, rfl, by cbv⟩, by decide, by decide +kernel⟩

end LedgerView
