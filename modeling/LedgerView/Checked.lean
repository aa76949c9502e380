import LedgerView.Outcome
/-!
# Checked arithmetic

Timestamps, indices and amounts are signed 64-bit words, and no operation on them wraps: a result
is the exact one, or the outcome is an overflow. `addChecked_eq_ok_iff` and its companions say so
in the integers.
-/

namespace LedgerView

variable {ε : Type}

/-- The word that holds an exact integer result, if one does. -/
def fit (what : Overflow) (exact : Int) : Outcome ε Int64 :=
  if Int64.minValue.toInt ≤ exact ∧ exact ≤ Int64.maxValue.toInt then .ok (Int64.ofInt exact)
  else .error (.overflow what)

def addChecked (a b : Int64) : Outcome ε Int64 :=
  fit .add (a.toInt + b.toInt)

def subChecked (a b : Int64) : Outcome ε Int64 :=
  fit .sub (a.toInt - b.toInt)

def negChecked (a : Int64) : Outcome ε Int64 :=
  fit .neg (-a.toInt)

/-- The sum from the left, starting at zero: an overflow on the way counts even where the total
would fit. -/
def sumChecked (amounts : List Int64) : Outcome ε Int64 :=
  amounts.foldlM addChecked 0

theorem fit_eq_ok_iff {what : Overflow} {exact : Int} {c : Int64} :
    (fit what exact : Outcome ε Int64) = .ok c ↔ c.toInt = exact := by
  unfold fit
  split
  · next h =>
    have hfit : (Int64.ofInt exact).toInt = exact :=
      Int64.toInt_ofInt_of_le h.1 (Int.lt_add_one_of_le h.2)
    constructor
    · intro heq
      cases heq
      exact hfit
    · intro heq
      rw [← heq, Int64.ofInt_toInt]
  · next h =>
    constructor
    · intro heq
      cases heq
    · intro heq
      subst heq
      exact absurd ⟨Int64.minValue_le_toInt c, Int64.toInt_le c⟩ h

theorem addChecked_eq_ok_iff {a b c : Int64} :
    (addChecked a b : Outcome ε Int64) = .ok c ↔ c.toInt = a.toInt + b.toInt :=
  fit_eq_ok_iff

theorem subChecked_eq_ok_iff {a b c : Int64} :
    (subChecked a b : Outcome ε Int64) = .ok c ↔ c.toInt = a.toInt - b.toInt :=
  fit_eq_ok_iff

theorem negChecked_eq_ok_iff {a c : Int64} :
    (negChecked a : Outcome ε Int64) = .ok c ↔ c.toInt = -a.toInt :=
  fit_eq_ok_iff

end LedgerView
