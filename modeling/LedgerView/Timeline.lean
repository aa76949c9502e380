/-!
# Timelines

Dated things in non-decreasing order of their timestamps. What is added goes behind everything of
the same timestamp, so equal timestamps keep the order in which they were added.
-/

namespace LedgerView

/-- Things that happened at one consensus timestamp. -/
class Timed (α : Type) where
  timestamp : α → Int64

export Timed (timestamp)

variable {α : Type} [Timed α]

/-- No timestamp is less than one before it. -/
def InOrder (items : List α) : Prop :=
  items.Pairwise fun a b => timestamp a ≤ timestamp b

structure Timeline (α : Type) [Timed α] where
  items : List α
  inOrder : InOrder items

namespace Timeline

instance [DecidableEq α] : DecidableEq (Timeline α) := fun a b =>
  if h : a.items = b.items then isTrue (by cases a; cases b; simp_all)
  else isFalse fun hab => h (hab ▸ rfl)

/-- Put an item behind every item that is not later. -/
def place (x : α) : List α → List α
  | [] => [x]
  | y :: rest => if timestamp y ≤ timestamp x then y :: place x rest else x :: y :: rest

theorem mem_place {x y : α} {items : List α} : y ∈ place x items ↔ y = x ∨ y ∈ items := by
  induction items with
  | nil => simp [place]
  | cons head rest ih =>
    unfold place
    split
    · simp only [List.mem_cons, ih]
      constructor
      · rintro (h | h | h)
        · exact .inr (.inl h)
        · exact .inl h
        · exact .inr (.inr h)
      · rintro (h | h | h)
        · exact .inr (.inl h)
        · exact .inl h
        · exact .inr (.inr h)
    · simp

theorem inOrder_place {x : α} {items : List α} (h : InOrder items) : InOrder (place x items) := by
  induction items with
  | nil => simp [place, InOrder]
  | cons head rest ih =>
    obtain ⟨hhead, hrest⟩ := List.pairwise_cons.1 h
    unfold place
    split
    · next hle =>
      refine List.pairwise_cons.2 ⟨fun y hy => ?_, ih hrest⟩
      rcases mem_place.1 hy with rfl | hy
      · exact hle
      · exact hhead y hy
    · next hnle =>
      have hlt : timestamp x < timestamp head := Int64.not_le.1 hnle
      refine List.pairwise_cons.2 ⟨fun y hy => ?_, h⟩
      rcases List.mem_cons.1 hy with rfl | hy
      · exact Int64.le_of_lt hlt
      · exact Int64.le_trans (Int64.le_of_lt hlt) (hhead y hy)

def empty : Timeline α := ⟨[], .nil⟩

instance : EmptyCollection (Timeline α) := ⟨empty⟩

instance : Inhabited (Timeline α) := ⟨empty⟩

def insert (t : Timeline α) (x : α) : Timeline α :=
  ⟨place x t.items, inOrder_place t.inOrder⟩

/-- The items after one timestamp and up to another. -/
def after (t : Timeline α) (start stop : Int64) : List α :=
  t.items.filter fun x => start < timestamp x ∧ timestamp x ≤ stop

/-- The items from one timestamp to another, both included. -/
def between (t : Timeline α) (start stop : Int64) : List α :=
  t.items.filter fun x => start ≤ timestamp x ∧ timestamp x ≤ stop

/-- The last item up to a timestamp. -/
def latest? (t : Timeline α) (bound : Int64) : Option α :=
  (t.items.filter fun x => timestamp x ≤ bound).getLast?

end Timeline

end LedgerView
