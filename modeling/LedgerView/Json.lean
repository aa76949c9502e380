/-!
# JSON values

Objects keep their fields in the order in which they are written. A number written as a whole one
is an integer of any size; one with a fraction or an exponent is a decimal, kept digit for digit.
-/

namespace LedgerView

inductive Json where
  | null
  | bool (value : Bool)
  | int (value : Int)
  /-- `digits` with the point `places` before the end, or behind it where that is negative. -/
  | decimal (digits : Int) (places : Int)
  | text (value : String)
  | list (items : List Json)
  | object (fields : List (String × Json))
  deriving Repr, Inhabited

namespace Json

mutual

def same : Json → Json → Bool
  | null, null => true
  | bool a, bool b => a = b
  | int a, int b => a = b
  | decimal a m, decimal b n => a = b && m = n
  | text a, text b => a = b
  | list a, list b => sameItems a b
  | object a, object b => sameFields a b
  | _, _ => false

def sameItems : List Json → List Json → Bool
  | [], [] => true
  | a :: as, b :: bs => same a b && sameItems as bs
  | _, _ => false

def sameFields : List (String × Json) → List (String × Json) → Bool
  | [], [] => true
  | (m, a) :: as, (n, b) :: bs => m = n && same a b && sameFields as bs
  | _, _ => false

end

mutual

theorem same_iff : (a b : Json) → (same a b ↔ a = b)
  | null, b => by cases b <;> simp [same]
  | bool _, b => by cases b <;> simp [same]
  | int _, b => by cases b <;> simp [same]
  | decimal _ _, b => by cases b <;> simp [same]
  | text _, b => by cases b <;> simp [same]
  | list xs, b => by
    cases b <;> simp [same]
    exact sameItems_iff xs _
  | object xs, b => by
    cases b <;> simp [same]
    exact sameFields_iff xs _

theorem sameItems_iff : (as bs : List Json) → (sameItems as bs ↔ as = bs)
  | [], bs => by cases bs <;> simp [sameItems]
  | a :: as, bs => by
    cases bs with
    | nil => simp [sameItems]
    | cons b bs => simp [sameItems, same_iff a b, sameItems_iff as bs]

theorem sameFields_iff : (as bs : List (String × Json)) → (sameFields as bs ↔ as = bs)
  | [], bs => by cases bs <;> simp [sameFields]
  | (m, a) :: as, bs => by
    cases bs with
    | nil => simp [sameFields]
    | cons e bs =>
      simp [sameFields, same_iff a e.2, sameFields_iff as bs, Prod.ext_iff]

end

instance : DecidableEq Json := fun a b => decidable_of_iff _ (same_iff a b)

end Json

end LedgerView
