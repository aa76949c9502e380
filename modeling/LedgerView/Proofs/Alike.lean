import LedgerView.Node
/-!
# Scripts that run alike

Two scripts over two stores are alike if they wait for the same calls, count the same events,
memoize the same blocks and end in related ways. Neither time nor failures tell them apart: run
under the same deadline they end alike and leave the same behind (`run_of_alike`).
-/

namespace LedgerView

/-- Values that are related, or one and the same failure. -/
inductive Outcome.Alike {ε α β : Type} (R : α → β → Prop) : Outcome ε α → Outcome ε β → Prop where
  | value {a : α} {b : β} (related : R a b) : Alike R (.ok a) (.ok b)
  | failure (e : Failure ε) : Alike R (.error e) (.error e)

/-- The scripts do the same, the one over the first store and the other over the second, and end
with related answers. -/
inductive Script.Alike {α β : Type} (s s' : Store) (R : α → β → Prop) :
    Script α → Script β → Prop where
  | done {x : Outcome LedgerError α} {y : Outcome LedgerError β} (related : Outcome.Alike R x y) :
    Alike s s' R (.done x) (.done y)
  | wait (operation : String) {next : Store → Script α} {next' : Store → Script β}
    (alike : Alike s s' R (next s) (next' s')) :
    Alike s s' R (.wait operation next) (.wait operation next')
  | count (metric : Metric) {next : Script α} {next' : Script β}
    (alike : Alike s s' R next next') :
    Alike s s' R (.count metric next) (.count metric next')
  | consult {next : Option Block → Script α} {next' : Option Block → Script β}
    (alike : ∀ genesis?, Alike s s' R (next genesis?) (next' genesis?)) :
    Alike s s' R (.consult next) (.consult next')
  | memoize (genesis : Block) {next : Script α} {next' : Script β}
    (alike : Alike s s' R next next') :
    Alike s s' R (.memoize genesis next) (.memoize genesis next')

namespace Outcome

variable {ε α β : Type} {R : α → β → Prop}

theorem alike_eq_iff {x y : Outcome ε α} : Alike Eq x y ↔ x = y := by
  constructor
  · rintro (⟨rfl⟩ | _)
    · rfl
    · rfl
  · rintro rfl
    cases x with
    | ok a => exact .value rfl
    | error e => exact .failure e

end Outcome

namespace Script

variable {s s' : Store} {α α' β β' : Type} {R : α → β → Prop} {R' : α' → β' → Prop}

/-! ## Steps -/

theorem alike_ok {a : α} {b : β} (h : R a b) : Alike s s' R (done (.ok a)) (done (.ok b)) :=
  .done (.value h)

theorem alike_done (answer : Outcome LedgerError α) :
    Alike s s' Eq (done answer) (done answer) :=
  .done (Outcome.alike_eq_iff.2 rfl)

theorem alike_ask {operation : String} {look : Store → α} {look' : Store → β}
    (h : R (look s) (look' s')) : Alike s s' R (ask operation look) (ask operation look') :=
  .wait operation (alike_ok h)

theorem alike_find_some {operation : String} {missing : LedgerError}
    {look look' : Store → Option α} (h : look s = look' s') :
    Alike s s' (fun a b => a = b ∧ look s = some a) (find operation missing look)
      (find operation missing look') := by
  refine .wait operation ?_
  rw [← h]
  cases look s with
  | none => exact .done (.failure _)
  | some a => exact alike_ok ⟨rfl, rfl⟩

theorem alike_find {operation : String} {missing : LedgerError} {look look' : Store → Option α}
    (h : look s = look' s') :
    Alike s s' Eq (find operation missing look) (find operation missing look') := by
  refine .wait operation ?_
  rw [h]
  exact alike_done _

theorem alike_askChecked {operation : String} {look look' : Store → Except StoreError α}
    (h : look s = look' s') :
    Alike s s' Eq (askChecked operation look) (askChecked operation look') := by
  refine .wait operation ?_
  rw [h]
  exact alike_done _

theorem alike_bind {x : Script α} {y : Script β} {f : α → Script α'} {f' : β → Script β'}
    (h : Alike s s' R x y) (hf : ∀ a b, R a b → Alike s s' R' (f a) (f' b)) :
    Alike s s' R' (x.bind f) (y.bind f') := by
  induction h with
  | done related =>
    cases related with
    | value hab => exact hf _ _ hab
    | failure e => exact .done (.failure e)
  | wait operation _ ih => exact .wait operation ih
  | count metric _ ih => exact .count metric ih
  | consult _ ih => exact .consult ih
  | memoize genesis _ ih => exact .memoize genesis ih

theorem alike_bind_eq {x y : Script α} {f : α → Script α'} {f' : α → Script β'}
    (h : Alike s s' Eq x y) (hf : ∀ a, Alike s s' R' (f a) (f' a)) :
    Alike s s' R' (x.bind f) (y.bind f') :=
  alike_bind h fun a _ heq => heq ▸ hf a

/-! ## Runs -/

/-- Under the same deadline, alike scripts end alike and leave the same behind. -/
theorem run_of_alike {x : Script α} {y : Script β} (h : Alike s s' R x y)
    (failure? : Option StoreError) (latency deadline : Nat) (p : Progress) :
    Outcome.Alike R (x.run ⟨s, failure?, latency, deadline⟩ p).1
        (y.run ⟨s', failure?, latency, deadline⟩ p).1 ∧
      (x.run ⟨s, failure?, latency, deadline⟩ p).2 =
        (y.run ⟨s', failure?, latency, deadline⟩ p).2 := by
  induction h generalizing p with
  | done related => exact ⟨related, rfl⟩
  | wait operation _ ih =>
    unfold run
    dsimp only
    cases completion? deadline p.clock latency with
    | none => exact ⟨.failure _, rfl⟩
    | some clock =>
      cases failure? with
      | some e => exact ⟨.failure _, rfl⟩
      | none => exact ih _
  | count metric _ ih => exact ih _
  | consult _ ih => exact ih _ _
  | memoize genesis _ ih => exact ih _

end Script

theorem Node.ask_of_alike {n : Node} {s' : Store} {query query' : Query}
    (h : Script.Alike n.store s' Eq (n.settings.script query) (n.settings.script query'))
    (hname : query.name = query'.name) (context : RequestContext) :
    { n with store := s' }.ask context query' =
      ((n.ask context query).1, { (n.ask context query).2 with store := s' }) := by
  obtain ⟨hanswer, hprogress⟩ :=
    Script.run_of_alike h n.failure? n.latency (n.surroundings context).deadline n.progress
  have hrun : ({ n with store := s' }.settings.script query').run
      ({ n with store := s' }.surroundings context) { n with store := s' }.progress =
        (n.settings.script query).run (n.surroundings context) n.progress :=
    Prod.ext (Outcome.alike_eq_iff.1 hanswer).symm hprogress.symm
  unfold ask
  rw [hrun, ← hname]

end LedgerView
