import Mathlib
import LedgerView.Node
import LedgerView.Proofs.Table
/-!
# Entities in any order

An alias is looked for among the entities in an order of which nothing is known. An entity that has
it alone is found in every order (`entityOfAlias?_of_unshared`), so without shared aliases nothing
hangs on the order (`entityOfAlias?_reordered`); of several that share one, each is found in some
order (`entityOfAlias?_first`).
-/

namespace LedgerView

/-- The entity of this id has the alias. -/
def Store.Carries (s : Store) (bytes : Bytes) (k : Int64) : Prop :=
  ∃ row, s.entities.get? k = some row ∧ row.alias? = some bytes

/-- No two entities have the alias. -/
def Store.Unshared (s : Store) (bytes : Bytes) : Prop :=
  ∀ e ∈ s.entities.entries, ∀ e' ∈ s.entities.entries,
    e.2.alias? = some bytes → e'.2.alias? = some bytes → e.1 = e'.1

instance (s : Store) (bytes : Bytes) : Decidable (s.Unshared bytes) :=
  inferInstanceAs (Decidable (∀ e ∈ s.entities.entries, ∀ e' ∈ s.entities.entries, _))

/-- The store with its entities in another order. -/
def Store.reordered (s : Store) (order : EntityOrder) : Store :=
  { s with order }

/-- The node with its entities in another order. -/
def Node.reordered (n : Node) (order : EntityOrder) : Node :=
  { n with store := n.store.reordered order }

theorem perm_first (entities : Table Entity) (k : Int64) :
    (match entities.get? k with
      | some row => row :: entities.values.erase row
      | none => entities.values).Perm entities.values := by
  cases hrow : entities.get? k with
  | some row => exact (List.perm_cons_erase (Table.mem_values_of_get? hrow)).symm
  | none => exact .refl _

/-- The entity of one id first, then the others by ascending id. -/
def EntityOrder.first (k : Int64) : EntityOrder where
  list entities :=
    match entities.get? k with
    | some row => row :: entities.values.erase row
    | none => entities.values
  perm entities := perm_first entities k

section Lookup

variable {s : Store} {bytes : Bytes} {k k' : Int64} {row : Entity} {id : EntityId}

theorem eq_of_unshared (h : s.Unshared bytes) (hk : s.Carries bytes k)
    (hk' : s.Carries bytes k') : k = k' := by
  obtain ⟨row, hrow, hbytes⟩ := hk
  obtain ⟨row', hrow', hbytes'⟩ := hk'
  exact h (k, row) (Table.mem_entries_iff.2 hrow) (k', row') (Table.mem_entries_iff.2 hrow')
    hbytes hbytes'

theorem mem_order_iff : row ∈ s.order.list s.entities ↔ ∃ k, s.entities.get? k = some row := by
  rw [(s.order.perm s.entities).mem_iff, Table.values, List.mem_map]
  constructor
  · rintro ⟨e, he, rfl⟩
    exact ⟨e.1, Table.mem_entries_iff.1 he⟩
  · rintro ⟨k, hrow⟩
    exact ⟨(k, row), Table.mem_entries_iff.2 hrow, rfl⟩

theorem carries_of_entityOfAlias (h : s.entityOfAlias? bytes = some row) :
    ∃ k, s.entities.get? k = some row ∧ row.alias? = some bytes := by
  obtain ⟨k, hrow⟩ := mem_order_iff.1 (List.mem_of_find?_eq_some h)
  exact ⟨k, hrow, by simpa using List.find?_some h⟩

theorem exists_entityOfAlias (h : s.Carries bytes k) :
    ∃ row, s.entityOfAlias? bytes = some row := by
  obtain ⟨row, hrow, hbytes⟩ := h
  refine Option.isSome_iff_exists.1 (List.find?_isSome.2 ⟨row, mem_order_iff.2 ⟨k, hrow⟩, ?_⟩)
  simpa using hbytes

theorem entityOfAlias?_of_unshared (h : s.Unshared bytes) (hrow : s.entities.get? k = some row)
    (hbytes : row.alias? = some bytes) : s.entityOfAlias? bytes = some row := by
  obtain ⟨found, hfound⟩ := exists_entityOfAlias ⟨row, hrow, hbytes⟩
  obtain ⟨k', hk', hbytes'⟩ := carries_of_entityOfAlias hfound
  obtain rfl : k' = k := eq_of_unshared h ⟨found, hk', hbytes'⟩ ⟨row, hrow, hbytes⟩
  rw [hfound, ← hk', hrow]

theorem entityOfAlias?_first (hrow : s.entities.get? k = some row)
    (hbytes : row.alias? = some bytes) :
    (s.reordered (.first k)).entityOfAlias? bytes = some row := by
  simp only [Store.entityOfAlias?, Store.reordered, EntityOrder.first, hrow]
  exact List.find?_cons_of_pos (by simpa using hbytes)

theorem entityOfAlias?_reordered (h : s.Unshared bytes) (order : EntityOrder) :
    (s.reordered order).entityOfAlias? bytes = s.entityOfAlias? bytes := by
  cases hfound : s.entityOfAlias? bytes with
  | some row =>
    obtain ⟨k, hrow, hbytes⟩ := carries_of_entityOfAlias hfound
    exact entityOfAlias?_of_unshared (s := s.reordered order) h hrow hbytes
  | none =>
    cases hother : (s.reordered order).entityOfAlias? bytes with
    | none => rfl
    | some row =>
      obtain ⟨k, hrow, hbytes⟩ := carries_of_entityOfAlias hother
      obtain ⟨found, hfound'⟩ := exists_entityOfAlias (s := s) ⟨row, hrow, hbytes⟩
      cases hfound.symm.trans hfound'

theorem resolveAlias_eq_ok_some_iff :
    s.resolveAlias bytes = .ok (some id) ↔
      ∃ row, s.entityOfAlias? bytes = some row ∧ EntityId.decode row.id = .ok id := by
  unfold Store.resolveAlias
  cases s.entityOfAlias? bytes with
  | none => simp
  | some row => cases hdecode : EntityId.decode row.id <;> simp [hdecode]

end Lookup

end LedgerView
