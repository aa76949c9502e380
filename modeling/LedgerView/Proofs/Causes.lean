import Mathlib
import LedgerView.Assembly
import LedgerView.AddressBook
import LedgerView.Proofs.Outcome
/-!
# Which causes a computation may name

`Outcome.OnlyCauses P` says that a computation has a value, or overflows, or has a cause of the
kind `P`. It is closed under whatever computations are put together with, and arithmetic has no
cause at all. What is worked out from rows blames the rows: assembling transactions and gathering an
address book end with a value, with an overflow or with a corrupt row.
-/

namespace LedgerView

namespace Outcome

variable {ε ε' α β : Type} {P Q : ε → Prop}

/-- If the outcome has a cause, the cause is one of these. -/
def OnlyCauses (P : ε → Prop) (x : Outcome ε α) : Prop :=
  ∀ e, x = .error (.cause e) → P e

theorem onlyCauses_imp {x : Outcome ε α} (h : x.OnlyCauses P) (hPQ : ∀ e, P e → Q e) :
    x.OnlyCauses Q :=
  fun e he => hPQ e (h e he)

theorem onlyCauses_ok (a : α) : OnlyCauses P (.ok a : Outcome ε α) :=
  fun _ he => by cases he

theorem onlyCauses_fail {e : ε} (h : P e) : OnlyCauses P (fail e : Outcome ε α) := by
  intro e' he
  cases he
  exact h

theorem onlyCauses_error {x : Outcome ε α} (h : x.OnlyCauses P) {failure : Failure ε}
    (hx : x = .error failure) : OnlyCauses P (.error failure : Outcome ε β) := by
  intro e he
  cases he
  exact h e hx

theorem onlyCauses_bind {x : Outcome ε α} {f : α → Outcome ε β} (hx : x.OnlyCauses P)
    (hf : ∀ a, x = .ok a → (f a).OnlyCauses P) : (x >>= f).OnlyCauses P := by
  intro e he
  rcases bind_eq_error.1 he with hfirst | ⟨a, ha, hrest⟩
  · exact hx e hfirst
  · exact hf a ha e hrest

theorem onlyCauses_map {x : Outcome ε α} {f : α → β} (hx : x.OnlyCauses P) :
    (f <$> x).OnlyCauses P := by
  rw [map_eq_pure_bind]
  exact onlyCauses_bind hx fun a _ => onlyCauses_ok (f a)

theorem onlyCauses_mapM {f : α → Outcome ε β} (hf : ∀ a, (f a).OnlyCauses P) (xs : List α) :
    (xs.mapM f).OnlyCauses P := by
  induction xs with
  | nil => exact onlyCauses_ok []
  | cons x xs ih =>
    rw [List.mapM_cons]
    exact onlyCauses_bind (hf x) fun y _ => onlyCauses_bind ih fun ys _ => onlyCauses_ok (y :: ys)

theorem onlyCauses_foldlM {f : β → α → Outcome ε β} (hf : ∀ b a, (f b a).OnlyCauses P)
    (xs : List α) (start : β) : (xs.foldlM f start).OnlyCauses P := by
  induction xs generalizing start with
  | nil => exact onlyCauses_ok start
  | cons x xs ih =>
    rw [List.foldlM_cons]
    exact onlyCauses_bind (hf start x) fun next _ => ih next

theorem onlyCauses_optionMapM {f : α → Outcome ε β} (hf : ∀ a, (f a).OnlyCauses P) :
    ∀ x? : Option α, (x?.mapM f).OnlyCauses P
  | none => onlyCauses_ok none
  | some x => onlyCauses_map (hf x)

theorem onlyCauses_ofExcept {f : ε' → ε} (hf : ∀ e, P (f e)) (x : Except ε' α) :
    (ofExcept f x).OnlyCauses P := by
  cases x with
  | ok a => exact onlyCauses_ok a
  | error e => exact onlyCauses_fail (hf e)

theorem onlyCauses_ofOption {e : ε} (h : P e) (x? : Option α) : (ofOption e x?).OnlyCauses P := by
  cases x? with
  | some a => exact onlyCauses_ok a
  | none => exact onlyCauses_fail h

end Outcome

open Outcome

/-! ## Arithmetic -/

section Arithmetic

variable {ε : Type} {P : ε → Prop}

theorem onlyCauses_fit (what : Overflow) (exact : Int) : (fit what exact).OnlyCauses P :=
  fun _ he => absurd he fit_ne_cause

theorem onlyCauses_sumChecked (amounts : List Int64) : (sumChecked amounts).OnlyCauses P :=
  fun _ he => absurd he sumChecked_ne_cause

namespace Tally

variable {key amount : Int64}

theorem onlyCauses_add (tally : Tally) : (add key amount tally).OnlyCauses P := by
  induction tally with
  | nil => exact onlyCauses_bind (onlyCauses_fit _ _) fun total _ => onlyCauses_ok _
  | cons e rest ih =>
    unfold add
    split
    · exact onlyCauses_bind (onlyCauses_fit _ _) fun total _ => onlyCauses_ok _
    · exact onlyCauses_bind ih fun rest _ => onlyCauses_ok _

theorem onlyCauses_takeAway (tally : Tally) : (takeAway key amount tally).OnlyCauses P := by
  induction tally with
  | nil => exact onlyCauses_ok []
  | cons e rest ih =>
    unfold takeAway
    split
    · exact onlyCauses_bind (onlyCauses_fit _ _) fun total _ => onlyCauses_ok _
    · exact onlyCauses_bind ih fun rest _ => onlyCauses_ok _

end Tally

theorem TransactionRow.onlyCauses_fees (row : TransactionRow) (explained : List HbarTransfer) :
    (row.fees explained).OnlyCauses P :=
  onlyCauses_bind (onlyCauses_foldlM (fun tally _ => Tally.onlyCauses_add tally) _ _) fun _ _ =>
    onlyCauses_bind (onlyCauses_foldlM (fun tally _ => Tally.onlyCauses_takeAway tally) _ _)
      fun _ _ => onlyCauses_ok _

theorem Assembler.onlyCauses_rewardTransfers (a : Assembler) (row : TransactionRow) :
    (a.rewardTransfers row).OnlyCauses P := by
  unfold rewardTransfers
  split
  · exact onlyCauses_ok []
  · exact onlyCauses_bind (onlyCauses_sumChecked _) fun _ _ =>
      onlyCauses_bind (onlyCauses_fit _ _) fun _ _ => onlyCauses_ok _

end Arithmetic

/-! ## Rows -/

/-- The error blames what is stored. -/
def LedgerError.IsCorruption (e : LedgerError) : Prop :=
  ∃ what, e = .corrupt what

theorem onlyCauses_decodeColumn (column : Int64) :
    (decodeColumn column).OnlyCauses LedgerError.IsCorruption :=
  onlyCauses_ofExcept (fun e => ⟨.rowId e, rfl⟩) _

theorem Draft.onlyCauses_ofLeg (operationType status : String) (leg : Leg) :
    (Draft.ofLeg operationType status leg).OnlyCauses LedgerError.IsCorruption :=
  onlyCauses_bind (onlyCauses_decodeColumn _) fun _ _ =>
    onlyCauses_bind (onlyCauses_ofExcept (fun e => ⟨.rowId e, rfl⟩) _) fun _ _ => onlyCauses_ok _

namespace Assembler

variable (a : Assembler)

theorem onlyCauses_definitionDrafts (row : TransactionRow) :
    (a.definitionDrafts row).OnlyCauses LedgerError.IsCorruption := by
  unfold definitionDrafts
  split
  · exact onlyCauses_ok []
  · split
    · exact onlyCauses_bind (onlyCauses_decodeColumn _) fun _ _ =>
        onlyCauses_bind (onlyCauses_decodeColumn _) fun _ _ => onlyCauses_ok _
    · exact onlyCauses_ok []

theorem onlyCauses_rowDrafts (row : TransactionRow) :
    (a.rowDrafts row).OnlyCauses LedgerError.IsCorruption := by
  have hlegs : ∀ {α : Type} (operationType status : String) (leg : α → Leg) (xs : List α),
      (xs.mapM fun x => Draft.ofLeg operationType status (leg x)).OnlyCauses
        LedgerError.IsCorruption :=
    fun operationType status leg xs =>
      onlyCauses_mapM (fun x => Draft.onlyCauses_ofLeg operationType status (leg x)) xs
  unfold rowDrafts
  refine onlyCauses_bind (hlegs _ _ _ _) fun itemized _ => ?_
  refine onlyCauses_bind (onlyCauses_rewardTransfers a row) fun rewards _ => ?_
  refine onlyCauses_bind (row.onlyCauses_fees _) fun fees _ => ?_
  refine onlyCauses_bind (hlegs _ _ _ _) fun feeDrafts _ => ?_
  refine onlyCauses_bind (hlegs _ _ _ _) fun rewardDrafts _ => ?_
  refine onlyCauses_bind (hlegs _ _ _ _) fun tokens _ => ?_
  refine onlyCauses_bind (hlegs _ _ _ _) fun serials _ => ?_
  exact onlyCauses_bind (onlyCauses_definitionDrafts a row) fun definition _ => onlyCauses_ok _

theorem onlyCauses_build (rows : List TransactionRow) :
    (a.build rows).OnlyCauses LedgerError.IsCorruption := by
  unfold build
  split
  · exact onlyCauses_fail ⟨.emptyTransaction, rfl⟩
  · have hentity : ∀ entity? : Option Int64,
        (entity?.mapM decodeColumn).OnlyCauses LedgerError.IsCorruption :=
      onlyCauses_optionMapM onlyCauses_decodeColumn
    dsimp only
    split
    · refine onlyCauses_bind (onlyCauses_map ?_) fun drafts _ =>
        onlyCauses_bind (hentity _) fun _ _ => onlyCauses_ok _
      exact onlyCauses_mapM (onlyCauses_rowDrafts a) _
    · refine onlyCauses_bind (onlyCauses_map ?_) fun drafts _ =>
        onlyCauses_bind (hentity _) fun _ _ => onlyCauses_ok _
      exact Draft.onlyCauses_ofLeg _ _ _

theorem onlyCauses_assemble (rows : List TransactionRow) :
    (a.assemble rows).OnlyCauses LedgerError.IsCorruption :=
  onlyCauses_mapM (fun group : Bytes × List TransactionRow => onlyCauses_build a group.2) _

end Assembler

theorem AddressBookEntry.onlyCauses_ofRows (rows : List EndpointRow) :
    (AddressBookEntry.ofRows rows).OnlyCauses LedgerError.IsCorruption := by
  refine onlyCauses_bind (onlyCauses_foldlM (fun nodes row => ?_) rows ∅) fun _ _ =>
    onlyCauses_ok _
  have hstart : (AddressBookEntry.start row).OnlyCauses LedgerError.IsCorruption :=
    onlyCauses_bind (onlyCauses_decodeColumn _) fun _ _ => onlyCauses_ok _
  unfold gather
  split
  · exact onlyCauses_bind (onlyCauses_ok _) fun _ _ => onlyCauses_ok _
  · exact onlyCauses_bind hstart fun _ _ => onlyCauses_ok _

end LedgerView
