import Mathlib
import LedgerView.Json.Reader
/-!
# Reading what was written

For every part that read models are made of, what it takes for a written value to be read as that
value: words are in their range, a list is written item by item, and a field that was left out is
read as what it was left out for.
-/

namespace LedgerView.Json

variable {α : Type}

/-- Every value is read as it was written. Whatever else is read as a value, the way that value is
written is read in its place. -/
structure RoundTrips (write : α → Json) (read : Json → Option α) : Prop where
  read_write : ∀ a, read (write a) = some a
  settles : ∀ j a, read j = some a → read (write a) = read j

theorem roundTrips_of_read_write {write : α → Json} {read : Json → Option α}
    (h : ∀ a, read (write a) = some a) : RoundTrips write read :=
  ⟨h, fun _ a hread => (h a).trans hread.symm⟩

/-! ## Words and lists -/

@[simp] theorem int64?_ofInt64 (n : Int64) : int64? (ofInt64 n) = some n := by
  have hmin : -0x8000000000000000 ≤ n.toInt := Int64.le_toInt n
  have hmax : n.toInt < 0x8000000000000000 := Int64.toInt_lt n
  rw [ofInt64, int64?, if_pos ⟨hmin, hmax⟩, Int64.ofInt_toInt]

theorem below?_natCast {bound n : Nat} (h : n < bound) : below? bound (int n) = some n := by
  have hlt : (n : Int) < bound := Int.ofNat_lt.2 h
  rw [below?, if_pos ⟨Int.natCast_nonneg n, hlt⟩, Int.toNat_natCast]

@[simp] theorem uint64?_toNat (n : UInt64) : uint64? (int n.toNat) = some n := by
  rw [uint64?, below?_natCast n.toNat_lt, Option.map_some, UInt64.ofNat_toNat]

@[simp] theorem uint32?_toNat (n : UInt32) : uint32? (int n.toNat) = some n := by
  rw [uint32?, below?_natCast n.toNat_lt, Option.map_some, UInt32.ofNat_toNat]

theorem byte?_toNat (b : UInt8) : byte? (int b.toNat) = some b := by
  rw [byte?, below?_natCast b.toNat_lt, Option.map_some, UInt8.ofNat_toNat]

@[simp] theorem text?_text (s : String) : text? (text s) = some s := rfl

theorem list?_map {write : α → Json} {read : Json → Option α} (h : ∀ a, read (write a) = some a)
    (items : List α) : list? read (list (items.map write)) = some items := by
  rw [list?]
  induction items with
  | nil => rfl
  | cons item items ih =>
    rw [List.map_cons, List.mapM_cons, h item, ih]
    rfl

@[simp] theorem list?_ofBytes (bytes : Bytes) : list? byte? (ofBytes bytes) = some bytes :=
  list?_map byte?_toNat bytes

/-! ## Fields -/

@[simp] theorem record?_object (names : List String) (least : Nat)
    (fields : List (String × Json)) :
    record? names least (object fields) = some (names.map fun name => field? name fields) := by
  rw [record?]

@[simp] theorem field?_nil (name : String) : field? name [] = none := rfl

@[simp] theorem field?_cons_self (name : String) (value : Json) (fields : List (String × Json)) :
    field? name ((name, value) :: fields) = some value :=
  if_pos rfl

@[simp] theorem field?_cons_of_ne {name other : String} (h : other ≠ name) (value : Json)
    (fields : List (String × Json)) : field? name ((other, value) :: fields) = field? name fields :=
  if_neg h

@[simp] theorem field?_append (name : String) (fields others : List (String × Json)) :
    field? name (fields ++ others) = (field? name fields).or (field? name others) := by
  induction fields with
  | nil => rfl
  | cons field fields ih =>
    rw [List.cons_append, field?, field?, ih]
    split <;> rfl

@[simp] theorem field?_fieldIf (name other : String) (value? : Option Json) :
    field? name (fieldIf other value?) = if other = name then value? else none := by
  cases value? with
  | none => exact (ite_self none).symm
  | some value => rfl

@[simp] theorem required_some (read : Json → Option α) (value : Json) :
    required read (some value) = read value := by
  rw [required, Option.bind_some]

/-- As a step of rewriting. By computation alone the kernel would go into the bounds of words. -/
theorem some_bind {β : Type} (a : α) (f : α → Option β) : (some a >>= f) = f a := by
  rw [Option.bind_eq_bind, Option.bind_some]

theorem optional_map {write : α → Json} {read : Json → Option α}
    (h : ∀ a, read (write a) = some a) (hnull : ∀ a, write a ≠ null) (a? : Option α) :
    optional read (a?.map write) = some a? := by
  cases a? with
  | none => rfl
  | some a =>
    have hvalue : optional read (some (write a)) = (read (write a)).map some := by
      unfold optional
      split
      · next habsent => cases habsent
      · next hvalue => exact absurd (Option.some.inj hvalue) (hnull a)
      · next hvalue => rw [Option.some.inj hvalue]
    rw [Option.map_some, hvalue, h a, Option.map_some]

theorem optional_getD_null {write : α → Json} {read : Json → Option α}
    (h : ∀ a, read (write a) = some a) (hnull : ∀ a, write a ≠ null) (a? : Option α) :
    optional read (some ((a?.map write).getD null)) = some a? := by
  cases a? with
  | none => rfl
  | some a => exact optional_map h hnull (some a)

theorem defaulted_nil {write : α → Json} {read : Json → Option α} [DecidableEq α]
    (h : ∀ a, read (write a) = some a) (items : List α) :
    defaulted [] (list? read) (if items = [] then none else some (list (items.map write))) =
      some items := by
  by_cases hnil : items = []
  · rw [if_pos hnil, hnil]
    rfl
  · rw [if_neg hnil]
    exact list?_map h items

end LedgerView.Json
