import Mathlib
import LedgerView.Proofs.Balance
import LedgerView.Proofs.Balance.Window
/-!
# Balances over time

Balances at two times differ by what moved in between, whichever snapshots they are worked out
from. For a deleted account time stops at its deletion: what its last transaction moved counts,
nothing later does, and neither does a snapshot from then on.
-/

namespace LedgerView

/-- From the snapshot of either store to a later one of the other, an account's hbar moves by what
the transactions in between move. -/
def Store.Continues (s s' : Store) (account x y : Int64) : Prop :=
  (x ≤ y → s'.snapshotHbar account y =
    s.snapshotHbar account x + s.moved (TransactionRow.hbarMoved account) x y) ∧
  (y ≤ x → s.snapshotHbar account x =
    s'.snapshotHbar account y + s.moved (TransactionRow.hbarMoved account) y x)

/-- The usable snapshots of two stores report balances of one history. -/
def Store.SharesHistory (s s' : Store) (usable : Int64 → Prop) (account : Int64) : Prop :=
  ∀ x ∈ s.snapshots.keys, ∀ y ∈ s'.snapshots.keys, usable x → usable y →
    s.Continues s' account x y

instance (s s' : Store) (account x y : Int64) : Decidable (s.Continues s' account x y) :=
  inferInstanceAs (Decidable (_ ∧ _))

-- by the lists of snapshots, not over all timestamps
instance (s s' : Store) (usable : Int64 → Prop) [DecidablePred usable] (account : Int64) :
    Decidable (s.SharesHistory s' usable account) :=
  @List.decidableBAll _ _
    (fun _ => @List.decidableBAll _ _ (fun _ => inferInstanceAs (Decidable (_ → _ → _))) _) _

section Linearity

variable {s s' : Store} {settings : Settings} {selector : AccountSelector} {id : EntityId}
  {e : Entity}

theorem hbar_of_entity {stop : Int64} {b : AccountBalance} (hnames : s.Names selector id)
    (hentity : s.entity? id.encode = some e)
    (h : s.Answers settings (.balance selector stop) (.balance b)) :
    ∃ snapshot ∈ s.snapshots.keys, ∃ value,
      snapshot ≤ e.pin stop ∧ e.AliveAt snapshot ∧ b.hbar? = some value ∧
      value.toInt = s.snapshotHbar id.encode snapshot +
        s.moved (TransactionRow.hbarMoved id.encode) snapshot (e.pin stop) := by
  obtain ⟨window, snapshot, value, hwindow, hsnapshot, hreported, hvalue⟩ :=
    hbar_of_balance hnames h
  rw [hentity] at hwindow
  obtain ⟨hpin, hends, halive⟩ := window_of_entity hwindow
  obtain ⟨hkey, hbound⟩ := mem_keys_of_latestSnapshot hsnapshot
  refine ⟨snapshot, hkey, value, ?_, ?_, hreported, ?_⟩
  · rw [← hpin]
    exact Int64.le_trans hbound hends
  · by_cases heq : snapshot = window.snapshotEnd
    · rw [heq]
      exact halive
    · exact aliveAt_of_lt (Int64.lt_of_le_of_ne hbound heq) halive
  · rw [← hpin]
    exact hvalue

theorem moved_eq_of_transactions (htransactions : s'.transactions = s.transactions)
    (f : TransactionRow → Int) : s'.moved f = s.moved f := by
  unfold Store.moved
  rw [htransactions]

theorem sharesHistory_self
    (hconsistent : s.Consistent e.AliveAt (s.snapshotHbar id.encode)
      (TransactionRow.hbarMoved id.encode)) :
    s.SharesHistory s e.AliveAt id.encode := by
  have hpair : ∀ x ∈ s.snapshots.keys, ∀ y ∈ s.snapshots.keys, e.AliveAt x → e.AliveAt y →
      x ≤ y → s.snapshotHbar id.encode y = s.snapshotHbar id.encode x +
        s.moved (TransactionRow.hbarMoved id.encode) x y := by
    intro x hx y hy hxalive hyalive hle
    have hbetween := moved_between hconsistent (fun _ _ => aliveAt_of_lt) hx hy hxalive hyalive
      (Int64.le_refl x) (Int64.le_refl y) hle
    rw [moved_self, moved_self] at hbetween
    omega
  intro x hx y hy hxalive hyalive
  exact ⟨hpair x hx y hy hxalive hyalive, hpair y hy x hx hyalive hxalive⟩

/-- A balance of one store and a later balance of another, whose snapshots may be different ones
of the same history. -/
theorem hbar_sub_hbar {t₁ t₂ : Int64} {b₁ b₂ : AccountBalance}
    (hnames : s.Names selector id) (hnames' : s'.Names selector id)
    (hentity : s.entity? id.encode = some e) (hentity' : s'.entity? id.encode = some e)
    (htransactions : s'.transactions = s.transactions)
    (hshared : s.SharesHistory s' e.AliveAt id.encode) (hle : t₁ ≤ t₂)
    (h₁ : s.Answers settings (.balance selector t₁) (.balance b₁))
    (h₂ : s'.Answers settings (.balance selector t₂) (.balance b₂)) :
    ∃ v₁ v₂, b₁.hbar? = some v₁ ∧ b₂.hbar? = some v₂ ∧
      v₂.toInt - v₁.toInt =
        s.moved (TransactionRow.hbarMoved id.encode) (e.pin t₁) (e.pin t₂) := by
  obtain ⟨x, hx, v₁, hxpin, hxalive, hv₁, hvalue₁⟩ := hbar_of_entity hnames hentity h₁
  obtain ⟨y, hy, v₂, hypin, hyalive, hv₂, hvalue₂⟩ := hbar_of_entity hnames' hentity' h₂
  refine ⟨v₁, v₂, hv₁, hv₂, ?_⟩
  obtain ⟨hforward, hbackward⟩ := hshared x hx y hy hxalive hyalive
  rw [moved_eq_of_transactions htransactions, moved_eq_sub hypin] at hvalue₂
  rw [moved_eq_sub hxpin] at hvalue₁
  rw [moved_eq_sub (pin_le_pin hle)]
  by_cases hxy : x ≤ y
  · have hmoved := hforward hxy
    rw [moved_eq_sub hxy] at hmoved
    omega
  · have hyx : y ≤ x := Int64.le_of_lt (Int64.not_le.1 hxy)
    have hmoved := hbackward hyx
    rw [moved_eq_sub hyx] at hmoved
    omega

/-- Between any two times the reported hbar moves by the account's effective transfers, up to its
deletion at most, and it hangs on no particular choice of consistent snapshots. -/
theorem hbar_linear (hnames : s.Names selector id) (hentity : s.entity? id.encode = some e)
    (hconsistent : s.Consistent e.AliveAt (s.snapshotHbar id.encode)
      (TransactionRow.hbarMoved id.encode)) :
    (∀ t₁ t₂ b₁ b₂, t₁ ≤ t₂ →
      s.Answers settings (.balance selector t₁) (.balance b₁) →
      s.Answers settings (.balance selector t₂) (.balance b₂) →
      ∃ v₁ v₂, b₁.hbar? = some v₁ ∧ b₂.hbar? = some v₂ ∧
        v₂.toInt - v₁.toInt =
          s.moved (TransactionRow.hbarMoved id.encode) (e.pin t₁) (e.pin t₂)) ∧
      ∀ (s' : Store) t b b', s'.Names selector id → s'.entity? id.encode = some e →
        s'.transactions = s.transactions → s.SharesHistory s' e.AliveAt id.encode →
        s.Answers settings (.balance selector t) (.balance b) →
        s'.Answers settings (.balance selector t) (.balance b') → b'.hbar? = b.hbar? := by
  constructor
  · intro t₁ t₂ b₁ b₂ hle h₁ h₂
    exact hbar_sub_hbar hnames hnames hentity hentity rfl (sharesHistory_self hconsistent) hle
      h₁ h₂
  · intro s' t b b' hnames' hentity' htransactions hshared h h'
    obtain ⟨v, v', hv, hv', hdiff⟩ := hbar_sub_hbar hnames hnames' hentity hentity' htransactions
      hshared (Int64.le_refl t) h h'
    have hsame : v'.toInt = v.toInt := by
      rw [moved_self] at hdiff
      omega
    rw [hv, hv', Int64.toInt_inj.1 hsame]

end Linearity

/-- Account 1001 is deleted at 30, where the rest of its hbar is swept away. What happens at 35
comes too late to count. -/
private def sweptStore (snapshots : List (Int64 × Int64)) : Store :=
  let row : TransactionRow :=
    { consensusTimestamp := 10, hash := [1], transactionType := 14, result := 22, payer := 98,
      entity? := none, memo := [], cryptoTransfers := [⟨1001, 10, none⟩, ⟨98, -10, none⟩],
      itemizedTransfers := [], tokenTransfers := [], nftTransfers := [], stakingRewards := [],
      token? := none }
  Store.ingestAll {} ([
    .entity ⟨1001, none, some 30⟩,
    .transaction row,
    .transaction { row with consensusTimestamp := 25, cryptoTransfers := [⟨1001, -3, none⟩] },
    .transaction { row with consensusTimestamp := 30, cryptoTransfers := [⟨1001, -107, none⟩] },
    .transaction { row with consensusTimestamp := 35, cryptoTransfers := [⟨1001, 50, none⟩] }] ++
    snapshots.map fun (timestamp, balance) => .hbarBalance timestamp (.numbered 1001) balance)

/-- The snapshot at 20 agrees with the one at 5, the one at 30 with neither. -/
private def sweptFully : Store := sweptStore [(5, 100), (20, 110), (30, 999)]

private def sweptSparsely : Store := sweptStore [(5, 100)]

private def Store.AnswersSwept (s : Store) (stop value : Int64) : Prop :=
  s.Answers ⟨.standard, .standard⟩ (.balance (.byId (.numbered 1001)) stop)
    (.balance ⟨"0.0.1001", none, [.hbar value]⟩)

theorem hbar_linear_swept :
    (∃ v₁ v₂ : Int64, v₁ = 110 ∧ v₂ = 0 ∧
      v₂.toInt - v₁.toInt = sweptFully.moved (TransactionRow.hbarMoved 1001) 15 30) ∧
    sweptFully.AnswersSwept 22 110 ∧
    ∀ value, sweptSparsely.AnswersSwept 22 value → value = 110 := by
  have hconsistent : sweptFully.Consistent (Entity.AliveAt ⟨1001, none, some 30⟩)
      (sweptFully.snapshotHbar 1001) (TransactionRow.hbarMoved 1001) := by decide +kernel
  have hshared : sweptFully.SharesHistory sweptSparsely
      (Entity.AliveAt ⟨1001, none, some 30⟩) 1001 := by decide +kernel
  have hsnapshot : sweptFully.AnswersSwept 15 110 :=
    ⟨{ store := sweptFully }, .background, rfl, rfl, by decide +kernel⟩
  have hearly : sweptFully.AnswersSwept 22 110 :=
    ⟨{ store := sweptFully }, .background, rfl, rfl, by decide +kernel⟩
  have hlate : sweptFully.AnswersSwept 50 0 :=
    ⟨{ store := sweptFully }, .background, rfl, rfl, by decide +kernel⟩
  obtain ⟨hlinear, hindependent⟩ :=
    @hbar_linear sweptFully ⟨.standard, .standard⟩ (.byId (.numbered 1001)) (.numbered 1001)
      ⟨1001, none, some 30⟩ rfl rfl hconsistent
  refine ⟨?_, hearly, ?_⟩
  · obtain ⟨v₁, v₂, hv₁, hv₂, hdiff⟩ := hlinear 15 50 _ _ (by decide) hsnapshot hlate
    cases hv₁
    cases hv₂
    exact ⟨110, 0, rfl, rfl, hdiff⟩
  · intro value hanswer
    have hsame := hindependent sweptSparsely 22 _ _ rfl rfl rfl hshared hearly hanswer
    cases hsame
    rfl

end LedgerView
