/-!
# Outcomes

A computation over ledger words ends in one of three ways: with a value, with a cause that its
caller is told about, or with an arithmetic overflow, which ends the computation whatever the
caller expected. `Outcome ε α` keeps the three apart.
-/

namespace LedgerView

/-- The kind of operation whose exact result did not fit a signed 64-bit word. -/
inductive Overflow where
  | add
  | sub
  | neg
  deriving DecidableEq, Repr

def Overflow.message : Overflow → String
  | .add => "attempt to add with overflow"
  | .sub => "attempt to subtract with overflow"
  | .neg => "attempt to negate with overflow"

/-- Why a computation has no value. -/
inductive Failure (ε : Type) where
  | overflow (what : Overflow)
  | cause (error : ε)
  deriving DecidableEq, Repr

abbrev Outcome (ε α : Type) := Except (Failure ε) α

instance decidableEqExcept {ε α : Type} [DecidableEq ε] [DecidableEq α] : DecidableEq (Except ε α)
  | .ok a, .ok b => decidable_of_iff (a = b) (by simp)
  | .error d, .error e => decidable_of_iff (d = e) (by simp)
  | .ok _, .error _ => isFalse nofun
  | .error _, .ok _ => isFalse nofun

namespace Outcome

variable {ε ε' α β : Type}

/-- The outcome of a computation that has no arithmetic in it. -/
def ofExcept (f : ε' → ε) : Except ε' α → Outcome ε α
  | .ok a => .ok a
  | .error e => .error (.cause (f e))

/-- Rename the cause; an overflow stays what it is. -/
def mapCause (f : ε' → ε) : Outcome ε' α → Outcome ε α
  | .ok a => .ok a
  | .error (.overflow what) => .error (.overflow what)
  | .error (.cause e) => .error (.cause (f e))

/-- End with a cause. -/
def fail (e : ε) : Outcome ε α :=
  .error (.cause e)

/-- The value that is there, or the cause that says it is missing. -/
def ofOption (e : ε) : Option α → Outcome ε α
  | some a => .ok a
  | none => fail e

@[simp] theorem ofExcept_ok (f : ε' → ε) (a : α) : ofExcept f (.ok a) = .ok a := rfl

@[simp] theorem ofExcept_error (f : ε' → ε) (e : ε') :
    ofExcept (α := α) f (.error e) = .error (.cause (f e)) := rfl

@[simp] theorem mapCause_ok (f : ε' → ε) (a : α) : mapCause f (.ok a) = .ok a := rfl

@[simp] theorem ofOption_some (e : ε) (a : α) : ofOption e (some a) = .ok a := rfl

@[simp] theorem ofOption_none (e : ε) : ofOption (α := α) e none = .error (.cause e) := rfl

end Outcome

end LedgerView
