import Mathlib
import LedgerView.Checked
/-!
# Successful outcomes

What it takes for a sequence of computations to end with a value, and what a traversal that does
so keeps: a measure that every step keeps is kept by the sum over the whole list.
-/

namespace LedgerView

variable {ε ε' α β : Type}

theorem pure_eq_ok {a b : α} : (pure a : Except ε α) = .ok b ↔ a = b := by
  simp [pure, Except.pure]

theorem bind_eq_ok {x : Except ε α} {f : α → Except ε β} {b : β} :
    (x >>= f) = .ok b ↔ ∃ a, x = .ok a ∧ f a = .ok b := by
  cases x <;> simp [bind, Except.bind]

theorem bind_eq_error {x : Except ε α} {f : α → Except ε β} {e : ε} :
    (x >>= f) = .error e ↔ x = .error e ∨ ∃ a, x = .ok a ∧ f a = .error e := by
  cases x <;> simp [bind, Except.bind]

theorem map_eq_ok {x : Except ε α} {f : α → β} {b : β} :
    (f <$> x) = .ok b ↔ ∃ a, x = .ok a ∧ f a = b := by
  cases x <;> simp [Functor.map, Except.map]

theorem exists_error {x : Except ε α} (h : ¬∃ a, x = .ok a) : ∃ e, x = .error e := by
  cases x with
  | ok a => exact absurd ⟨a, rfl⟩ h
  | error e => exact ⟨e, rfl⟩

namespace Outcome

theorem mapCause_eq_ok {f : ε' → ε} {x : Outcome ε' α} {a : α} :
    mapCause f x = .ok a ↔ x = .ok a := by
  rcases x with (what | e) | b <;> simp [mapCause]

theorem mapCause_eq_cause {f : ε' → ε} {x : Outcome ε' α} {e : ε} :
    mapCause f x = .error (.cause e) ↔ ∃ e', x = .error (.cause e') ∧ f e' = e := by
  rcases x with (what | e') | a <;> simp [mapCause]

theorem ofExcept_eq_ok {f : ε' → ε} {x : Except ε' α} {a : α} :
    ofExcept f x = .ok a ↔ x = .ok a := by
  cases x <;> simp

theorem ofOption_eq_ok {e : ε} {x : Option α} {a : α} :
    ofOption e x = .ok a ↔ x = some a := by
  cases x <;> simp

end Outcome

/-! ## Traversals -/

section Traversal

variable {f : α → Except ε β}

theorem mapM_nil_eq_ok {ys : List β} : [].mapM f = .ok ys ↔ ys = [] := by
  rw [List.mapM_nil, pure_eq_ok, eq_comm]

theorem mapM_cons_eq_ok {x : α} {xs : List α} {ys : List β} :
    (x :: xs).mapM f = .ok ys ↔
      ∃ z zs, f x = .ok z ∧ xs.mapM f = .ok zs ∧ z :: zs = ys := by
  simp only [List.mapM_cons, bind_eq_ok, pure_eq_ok]
  constructor
  · rintro ⟨z, hz, zs, hzs, h⟩
    exact ⟨z, zs, hz, hzs, h⟩
  · rintro ⟨z, zs, hz, hzs, h⟩
    exact ⟨z, hz, zs, hzs, h⟩

theorem mapM_eq_ok_iff {xs : List α} {ys : List β} :
    xs.mapM f = .ok ys ↔ List.Forall₂ (fun x y => f x = .ok y) xs ys := by
  induction xs generalizing ys with
  | nil => rw [mapM_nil_eq_ok, List.forall₂_nil_left_iff]
  | cons x xs ih =>
    rw [mapM_cons_eq_ok, List.forall₂_cons_left_iff]
    simp only [ih]
    constructor
    · rintro ⟨z, zs, hz, hzs, rfl⟩
      exact ⟨z, zs, hz, hzs, rfl⟩
    · rintro ⟨z, zs, hz, hzs, rfl⟩
      exact ⟨z, zs, hz, hzs, rfl⟩

/-- A traversal that fails does so at the first element that fails, and with its error. -/
theorem mapM_eq_error_iff {xs : List α} {e : ε} :
    xs.mapM f = .error e ↔
      ∃ before x after, xs = before ++ x :: after ∧ (∀ y ∈ before, ∃ z, f y = .ok z) ∧
        f x = .error e := by
  induction xs with
  | nil =>
    rw [List.mapM_nil]
    constructor
    · intro h
      cases h
    · rintro ⟨before, x, after, hsplit, -⟩
      simp at hsplit
  | cons first rest ih =>
    have hcons : (first :: rest).mapM f = .error e ↔
        f first = .error e ∨ ∃ z, f first = .ok z ∧ rest.mapM f = .error e := by
      simp only [List.mapM_cons, bind_eq_error]
      refine or_congr Iff.rfl (exists_congr fun z => and_congr Iff.rfl (or_iff_left ?_))
      rintro ⟨zs, -, hdone⟩
      cases hdone
    rw [hcons]
    constructor
    · rintro (hfirst | ⟨z, hz, hrest⟩)
      · exact ⟨[], first, rest, rfl, by simp, hfirst⟩
      · obtain ⟨before, x, after, rfl, hbefore, hx⟩ := ih.1 hrest
        exact ⟨first :: before, x, after, rfl, List.forall_mem_cons.2 ⟨⟨z, hz⟩, hbefore⟩, hx⟩
    · rintro ⟨before, x, after, hsplit, hbefore, hx⟩
      cases before with
      | nil =>
        obtain ⟨rfl, rfl⟩ := List.cons.inj hsplit
        exact .inl hx
      | cons y before =>
        obtain ⟨rfl, rfl⟩ := List.cons.inj hsplit
        obtain ⟨⟨z, hz⟩, hbefore⟩ := List.forall_mem_cons.1 hbefore
        exact .inr ⟨z, hz, ih.2 ⟨before, x, after, rfl, hbefore, hx⟩⟩

theorem forall_mem_of_mapM {P : β → Prop} {xs : List α} {ys : List β} (h : xs.mapM f = .ok ys)
    (hstep : ∀ x ∈ xs, ∀ y, f x = .ok y → P y) : ∀ y ∈ ys, P y := by
  induction xs generalizing ys with
  | nil =>
    rw [mapM_nil_eq_ok.1 h]
    simp
  | cons x xs ih =>
    obtain ⟨z, zs, hz, hzs, rfl⟩ := mapM_cons_eq_ok.1 h
    intro y hy
    rcases List.mem_cons.1 hy with rfl | hy
    · exact hstep x (by simp) y hz
    · exact ih hzs (fun x hx => hstep x (by simp [hx])) y hy

theorem exists_mem_of_mapM {xs : List α} {ys : List β} (h : xs.mapM f = .ok ys) :
    ∀ x ∈ xs, ∃ y ∈ ys, f x = .ok y := by
  induction xs generalizing ys with
  | nil => simp
  | cons x xs ih =>
    obtain ⟨z, zs, hz, hzs, rfl⟩ := mapM_cons_eq_ok.1 h
    intro other hother
    rcases List.mem_cons.1 hother with rfl | hother
    · exact ⟨z, List.mem_cons_self, hz⟩
    · obtain ⟨y, hy, hfy⟩ := ih hzs other hother
      exact ⟨y, List.mem_cons_of_mem _ hy, hfy⟩

theorem mapM_eq_ok_of_imp {f' : α → Except ε β} {xs : List α} {ys : List β}
    (h : xs.mapM f = .ok ys) (hstep : ∀ x y, f x = .ok y → f' x = .ok y) :
    xs.mapM f' = .ok ys := by
  induction xs generalizing ys with
  | nil => exact h
  | cons x xs ih =>
    obtain ⟨z, zs, hz, hzs, rfl⟩ := mapM_cons_eq_ok.1 h
    exact mapM_cons_eq_ok.2 ⟨z, zs, hstep x z hz, ih hzs, rfl⟩

theorem map_of_mapM {γ : Type} {before : α → γ} {after : β → γ} {xs : List α} {ys : List β}
    (h : xs.mapM f = .ok ys) (hstep : ∀ x ∈ xs, ∀ y, f x = .ok y → after y = before x) :
    ys.map after = xs.map before := by
  induction xs generalizing ys with
  | nil =>
    rw [mapM_nil_eq_ok.1 h]
    rfl
  | cons x xs ih =>
    obtain ⟨z, zs, hz, hzs, rfl⟩ := mapM_cons_eq_ok.1 h
    have hrest := ih hzs fun x hx => hstep x (by simp [hx])
    rw [List.map_cons, List.map_cons, hrest, hstep x (by simp) z hz]

theorem sum_map_of_mapM {before : α → Int} {after : β → Int} {xs : List α} {ys : List β}
    (h : xs.mapM f = .ok ys) (hstep : ∀ x ∈ xs, ∀ y, f x = .ok y → after y = before x) :
    (ys.map after).sum = (xs.map before).sum := by
  rw [map_of_mapM h hstep]

end Traversal

/-! ## Folds -/

section Fold

variable {f : β → α → Except ε β} {start : β}

theorem foldlM_concat_eq_ok {xs : List α} {x : α} {last : β} :
    (xs ++ [x]).foldlM f start = .ok last ↔
      ∃ b, xs.foldlM f start = .ok b ∧ f b x = .ok last := by
  rw [List.foldlM_append, bind_eq_ok]
  simp only [List.foldlM_cons, List.foldlM_nil, bind_eq_ok, pure_eq_ok, exists_eq_right]

/-- A fold that fails does so at the first element that it cannot take in, and with the error that
comes up there. -/
theorem foldlM_eq_error_iff {xs : List α} {e : ε} :
    xs.foldlM f start = .error e ↔
      ∃ before x after b, xs = before ++ x :: after ∧ before.foldlM f start = .ok b ∧
        f b x = .error e := by
  induction xs generalizing start with
  | nil =>
    rw [List.foldlM_nil]
    constructor
    · intro h
      cases h
    · rintro ⟨before, x, after, b, hsplit, -⟩
      simp at hsplit
  | cons first rest ih =>
    rw [List.foldlM_cons, bind_eq_error]
    constructor
    · rintro (hfirst | ⟨next, hnext, hrest⟩)
      · exact ⟨[], first, rest, start, rfl, rfl, hfirst⟩
      · obtain ⟨before, x, after, b, rfl, hbefore, hx⟩ := ih.1 hrest
        refine ⟨first :: before, x, after, b, rfl, ?_, hx⟩
        rw [List.foldlM_cons, bind_eq_ok]
        exact ⟨next, hnext, hbefore⟩
    · rintro ⟨before, x, after, b, hsplit, hbefore, hx⟩
      cases before with
      | nil =>
        obtain ⟨rfl, rfl⟩ := List.cons.inj hsplit
        rw [List.foldlM_nil, pure_eq_ok] at hbefore
        exact .inl (hbefore ▸ hx)
      | cons y before =>
        obtain ⟨rfl, rfl⟩ := List.cons.inj hsplit
        rw [List.foldlM_cons, bind_eq_ok] at hbefore
        obtain ⟨next, hnext, hbefore⟩ := hbefore
        exact .inr ⟨next, hnext, ih.2 ⟨before, x, after, b, rfl, hbefore, hx⟩⟩

end Fold

/-! ## Checked sums -/

theorem fit_ne_cause {what : Overflow} {exact : Int} {e : ε} :
    (fit what exact : Outcome ε Int64) ≠ .error (.cause e) := by
  unfold fit
  split <;> simp

theorem sumChecked_ne_cause {amounts : List Int64} {e : ε} :
    (sumChecked amounts : Outcome ε Int64) ≠ .error (.cause e) := by
  rw [sumChecked]
  generalize (0 : Int64) = start
  induction amounts generalizing start with
  | nil => simp [pure, Except.pure]
  | cons amount amounts ih =>
    rw [List.foldlM_cons]
    intro h
    rcases bind_eq_error.1 h with hfirst | ⟨next, -, hrest⟩
    · exact fit_ne_cause hfirst
    · exact ih next hrest

private theorem foldlM_addChecked_eq_ok {amounts : List Int64} {start total : Int64}
    (h : amounts.foldlM addChecked start = (.ok total : Outcome ε Int64)) :
    total.toInt = start.toInt + (amounts.map Int64.toInt).sum := by
  induction amounts generalizing start with
  | nil =>
    rw [List.foldlM_nil, pure_eq_ok] at h
    simp [h]
  | cons amount amounts ih =>
    rw [List.foldlM_cons, bind_eq_ok] at h
    obtain ⟨next, hnext, hrest⟩ := h
    rw [ih hrest, addChecked_eq_ok_iff.1 hnext, List.map_cons, List.sum_cons]
    omega

theorem toInt_of_sumChecked {amounts : List Int64} {total : Int64}
    (h : sumChecked amounts = (.ok total : Outcome ε Int64)) :
    total.toInt = (amounts.map Int64.toInt).sum := by
  have hfold := foldlM_addChecked_eq_ok h
  have hzero : (0 : Int64).toInt = 0 := rfl
  omega

end LedgerView
