import Mathlib
import LedgerView.Balance
import LedgerView.Proofs.Outcome
import LedgerView.Store.Read
/-!
# Windows of deleted accounts

Up to when movements count for an entity. Its deletion pins the time: movements count up to it,
and the snapshot that they are added to was taken while the entity was still alive.
-/

namespace LedgerView

/-- The entity is not deleted at a timestamp. -/
def Entity.AliveAt (e : Entity) (timestamp : Int64) : Prop :=
  ∀ deletedAt ∈ e.deletedAt?, timestamp < deletedAt

instance (e : Entity) : DecidablePred e.AliveAt := fun timestamp =>
  match h : e.deletedAt? with
  | some deletedAt => decidable_of_iff (timestamp < deletedAt) (by simp [Entity.AliveAt, h])
  | none => isTrue (by simp [Entity.AliveAt, h])

/-- The time up to which movements count for an entity. -/
def Entity.pin (e : Entity) (timestamp : Int64) : Int64 :=
  match e.deletedAt? with
  | some deletedAt => min timestamp deletedAt
  | none => timestamp

/-- The account is not deleted at a timestamp, if it has an entity at all. -/
def Store.AliveAt (s : Store) (account timestamp : Int64) : Prop :=
  ∀ e ∈ s.entity? account, e.AliveAt timestamp

instance (s : Store) (account timestamp : Int64) : Decidable (s.AliveAt account timestamp) :=
  inferInstanceAs (Decidable (∀ e ∈ s.entity? account, e.AliveAt timestamp))

section Entity

variable {ε : Type} {e : Entity} {entity? : Option Entity} {stop : Int64} {window : BalanceWindow}

theorem aliveAt_of_lt {x y : Int64} (hlt : x < y) (halive : e.AliveAt y) : e.AliveAt x := by
  intro deletedAt hdeleted
  exact Int64.lt_trans hlt (halive deletedAt hdeleted)

theorem pin_of_alive (halive : e.AliveAt stop) : e.pin stop = stop := by
  unfold Entity.pin
  cases hdeleted : e.deletedAt? with
  | none => rfl
  | some deletedAt => exact if_pos (Int64.le_of_lt (halive deletedAt hdeleted))

theorem pin_of_deleted {deletedAt : Int64} (hdeleted : e.deletedAt? = some deletedAt)
    (hpast : deletedAt ≤ stop) : e.pin stop = deletedAt := by
  simp only [Entity.pin, hdeleted]
  show (if stop ≤ deletedAt then stop else deletedAt) = deletedAt
  by_cases hle : stop ≤ deletedAt
  · rw [if_pos hle, Int64.le_antisymm hle hpast]
  · rw [if_neg hle]

theorem pin_le_pin {x y : Int64} (hle : x ≤ y) : e.pin x ≤ e.pin y := by
  unfold Entity.pin
  cases e.deletedAt? with
  | none => exact hle
  | some deletedAt =>
    show (if x ≤ deletedAt then x else deletedAt) ≤ if y ≤ deletedAt then y else deletedAt
    simp only [Int64.le_iff_toInt_le] at hle ⊢
    by_cases hx : x.toInt ≤ deletedAt.toInt
    · rw [if_pos hx]
      by_cases hy : y.toInt ≤ deletedAt.toInt
      · rw [if_pos hy]
        exact hle
      · rw [if_neg hy]
        exact hx
    · have hy : ¬y.toInt ≤ deletedAt.toInt := by omega
      simp only [if_neg hx, if_neg hy, Int.le_refl]

/-! ## What a window can be -/

theorem window_ne_cause {cause : ε} :
    (BalanceWindow.of entity? stop : Outcome ε _) ≠ .error (.cause cause) := by
  unfold BalanceWindow.of
  split
  · split
    · intro h
      rcases bind_eq_error.1 h with hsub | ⟨snapshotEnd, -, hdone⟩
      · exact fit_ne_cause hsub
      · cases hdone
    · exact fun h => by cases h
  · exact fun h => by cases h

/-- A window ends where it is asked to, unless the entity was deleted by then: its deletion ends it,
and the snapshot is from before that. -/
theorem window_eq_ok_iff :
    (BalanceWindow.of entity? stop : Outcome ε _) = .ok window ↔
      ((∀ e ∈ entity?, e.AliveAt stop) ∧ window = ⟨stop, stop⟩) ∨
        ∃ e ∈ entity?, ∃ deletedAt, e.deletedAt? = some deletedAt ∧ deletedAt ≤ stop ∧
          window.changeEnd = deletedAt ∧ window.snapshotEnd.toInt = deletedAt.toInt - 1 := by
  unfold BalanceWindow.of
  cases hdeleted : entity?.bind Entity.deletedAt? with
  | none =>
    have hnever : ∀ e ∈ entity?, e.deletedAt? = none := Option.bind_eq_none_iff.1 hdeleted
    rw [pure_eq_ok, eq_comm]
    constructor
    · intro hwindow
      refine .inl ⟨fun e he deletedAt hat => ?_, hwindow⟩
      rw [hnever e he] at hat
      cases hat
    · rintro (⟨-, hwindow⟩ | ⟨e, he, deletedAt, hat, -⟩)
      · exact hwindow
      · rw [hnever e he] at hat
        cases hat
  | some deletedAt =>
    obtain ⟨e, rfl, hat⟩ := Option.bind_eq_some_iff.1 hdeleted
    by_cases hpast : deletedAt ≤ stop
    · simp only [if_pos hpast, bind_eq_ok, pure_eq_ok, subChecked_eq_ok_iff]
      constructor
      · rintro ⟨snapshotEnd, hbefore, rfl⟩
        exact .inr ⟨e, rfl, deletedAt, hat, hpast, rfl, hbefore⟩
      · rintro (⟨halive, -⟩ | ⟨_, ⟨⟩, _, hat', -, hends, hbefore⟩)
        · exact absurd hpast (Int64.not_le.2 (halive e rfl deletedAt hat))
        · cases hat.symm.trans hat'
          exact ⟨window.snapshotEnd, hbefore, hends ▸ rfl⟩
    · simp only [if_neg hpast, pure_eq_ok]
      constructor
      · rintro rfl
        refine .inl ⟨?_, rfl⟩
        rintro _ ⟨⟩ _ hat'
        cases hat.symm.trans hat'
        exact Int64.not_le.1 hpast
      · rintro (⟨-, rfl⟩ | ⟨_, ⟨⟩, _, hat', hpast', -⟩)
        · rfl
        · cases hat.symm.trans hat'
          exact absurd hpast' hpast

theorem window_of_alive (halive : ∀ e ∈ entity?, e.AliveAt stop)
    (h : (BalanceWindow.of entity? stop : Outcome ε _) = .ok window) :
    window = ⟨stop, stop⟩ := by
  rcases window_eq_ok_iff.1 h with ⟨-, hwindow⟩ | ⟨e, he, deletedAt, hdeleted, hpast, -⟩
  · exact hwindow
  · exact absurd hpast (Int64.not_le.2 (halive e he deletedAt hdeleted))

theorem window_of_entity (h : (BalanceWindow.of (some e) stop : Outcome ε _) = .ok window) :
    window.changeEnd = e.pin stop ∧ window.snapshotEnd ≤ window.changeEnd ∧
      e.AliveAt window.snapshotEnd := by
  rcases window_eq_ok_iff.1 h with
    ⟨halive, rfl⟩ | ⟨_, ⟨⟩, deletedAt, hdeleted, hpast, hends, hbefore⟩
  · exact ⟨(pin_of_alive (halive e rfl)).symm, Int64.le_refl stop, halive e rfl⟩
  · refine ⟨hends.trans (pin_of_deleted hdeleted hpast).symm, ?_, ?_⟩
    · rw [hends, Int64.le_iff_toInt_le]
      omega
    · intro other hother
      cases hdeleted.symm.trans hother
      rw [Int64.lt_iff_toInt_lt]
      omega

theorem le_of_window (h : (BalanceWindow.of entity? stop : Outcome ε _) = .ok window) :
    window.changeEnd ≤ stop ∧ window.snapshotEnd ≤ stop := by
  rcases window_eq_ok_iff.1 h with ⟨-, rfl⟩ | ⟨_, -, deletedAt, -, hpast, hends, hbefore⟩
  · exact ⟨Int64.le_refl stop, Int64.le_refl stop⟩
  · rw [hends, Int64.le_iff_toInt_le, Int64.le_iff_toInt_le]
    rw [Int64.le_iff_toInt_le] at hpast
    omega

end Entity

end LedgerView
