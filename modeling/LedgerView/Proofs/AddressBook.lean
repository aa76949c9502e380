import Mathlib
import LedgerView.AddressBook
import LedgerView.Proofs.EntityId.Packing
import LedgerView.Proofs.Outcome
import LedgerView.Proofs.Table
/-!
# What an address book says of its nodes

A row changes the entry of its own node and no other (`Gathered.gather`), so an entry is made of
the rows of its node as if there were no others: the first decides on the account, and each brings
its endpoint. How the rows of different nodes are interleaved makes no difference to a book that
can be gathered at all (`book_of_rows`).
-/

namespace LedgerView.AddressBookEntry

/-- The rows of one node. -/
def rowsOf (rows : List EndpointRow) (node : Int64) : List EndpointRow :=
  rows.filter fun row => row.node = node

/-- The endpoints of the rows that have one. -/
def endpointsOf (rows : List EndpointRow) : List String :=
  (rows.filter fun row => row.address ≠ "").map fun row =>
    row.address ++ ":" ++ toString row.portNumber.toInt

/-- An entry with the account of the first of these rows and the endpoints of all of them. -/
structure MadeOf (own : List EndpointRow) (entry : AddressBookEntry) : Prop where
  account : ∃ first, own.head? = some first ∧
    EntityId.decode first.nodeAccount = .ok entry.account
  endpoints : entry.endpoints = endpointsOf own

/-- One entry for every node of the rows, by ascending node id, made of the rows of its node. -/
structure IsBookOf (rows : List EndpointRow) (entries : List AddressBookEntry) : Prop where
  ascending : (entries.map nodeId).Pairwise (· < ·)
  covers : ∀ node, node ∈ entries.map nodeId ↔ ∃ row ∈ rows, row.node = node
  made : ∀ entry ∈ entries, MadeOf (rowsOf rows entry.nodeId) entry

/-- A table that holds such entries under their nodes. -/
structure Gathered (rows : List EndpointRow) (nodes : Table AddressBookEntry) : Prop where
  covers : ∀ node, (∃ entry, nodes.get? node = some entry) ↔ ∃ row ∈ rows, row.node = node
  made : ∀ node entry, nodes.get? node = some entry →
    entry.nodeId = node ∧ MadeOf (rowsOf rows node) entry

variable {rows rows' own : List EndpointRow} {row first : EndpointRow} {node : Int64}
  {entry entry' : AddressBookEntry} {entries : List AddressBookEntry}
  {nodes nodes' : Table AddressBookEntry} {f : Failure LedgerError}

/-! ## The rows of a node -/

theorem rowsOf_cons (row : EndpointRow) (rows : List EndpointRow) (node : Int64) :
    rowsOf (row :: rows) node =
      if row.node = node then row :: rowsOf rows node else rowsOf rows node := by
  rw [rowsOf, List.filter_cons]
  simp only [decide_eq_true_eq]
  rfl

theorem rowsOf_append (rows after : List EndpointRow) (node : Int64) :
    rowsOf (rows ++ after) node = rowsOf rows node ++ rowsOf after node :=
  List.filter_append ..

theorem rowsOf_eq_nil_iff : rowsOf rows node = [] ↔ ¬∃ row ∈ rows, row.node = node := by
  simp [rowsOf]

theorem node_of_head? (h : (rowsOf rows node).head? = some first) :
    first ∈ rows ∧ first.node = node := by
  simpa [rowsOf] using List.mem_of_mem_head? h

theorem rowsOf_swap {a b : EndpointRow} (h : a.node ≠ b.node) (before after : List EndpointRow)
    (node : Int64) :
    rowsOf (before ++ a :: b :: after) node = rowsOf (before ++ b :: a :: after) node := by
  simp only [rowsOf_append, rowsOf_cons]
  by_cases ha : a.node = node
  · have hb : b.node ≠ node := fun hb => h (ha.trans hb.symm)
    simp only [if_pos ha, if_neg hb]
  · simp only [if_neg ha]

/-! ## The entry of a node -/

theorem endpointsOf_append (own after : List EndpointRow) :
    endpointsOf (own ++ after) = endpointsOf own ++ endpointsOf after := by
  rw [endpointsOf, List.filter_append, List.map_append]
  rfl

@[simp] theorem nodeId_addRow (entry : AddressBookEntry) (row : EndpointRow) :
    (entry.addRow row).nodeId = entry.nodeId := by
  unfold addRow
  split <;> rfl

@[simp] theorem account_addRow (entry : AddressBookEntry) (row : EndpointRow) :
    (entry.addRow row).account = entry.account := by
  unfold addRow
  split <;> rfl

theorem endpoints_addRow (entry : AddressBookEntry) (row : EndpointRow) :
    (entry.addRow row).endpoints = entry.endpoints ++ endpointsOf [row] := by
  unfold addRow
  split
  · next h => simp [endpointsOf, h]
  · next h => simp [endpointsOf, h]

theorem start_eq_ok_iff :
    start row = .ok entry ↔
      ∃ account, EntityId.decode row.nodeAccount = .ok account ∧
        { nodeId := row.node, account, endpoints := [] } = entry := by
  simp only [start, decodeColumn, bind_eq_ok, pure_eq_ok, Outcome.ofExcept_eq_ok]

theorem start_eq_error_iff :
    start row = .error f ↔
      row.nodeAccount.toInt < 0 ∧ f = .cause (corruptRow (.negativeEncoding row.nodeAccount)) := by
  simp [start, bind_eq_error, EntityId.decodeColumn_eq_error_iff, pure, Except.pure]

theorem MadeOf.of_start (h : start row = .ok entry) : MadeOf [row] (entry.addRow row) := by
  obtain ⟨account, haccount, rfl⟩ := start_eq_ok_iff.1 h
  exact ⟨⟨row, rfl, by rwa [account_addRow]⟩, endpoints_addRow _ _⟩

theorem MadeOf.addRow (h : MadeOf own entry) (row : EndpointRow) :
    MadeOf (own ++ [row]) (entry.addRow row) := by
  obtain ⟨⟨first, hfirst, haccount⟩, hendpoints⟩ := h
  refine ⟨⟨first, ?_, by rwa [account_addRow]⟩, ?_⟩
  · rw [List.head?_append, hfirst]
    rfl
  · rw [endpoints_addRow, hendpoints, endpointsOf_append]

theorem MadeOf.nonneg (h : MadeOf own entry) (hfirst : own.head? = some first) :
    0 ≤ first.nodeAccount.toInt := by
  obtain ⟨first', hfirst', haccount⟩ := h.account
  obtain rfl : first' = first := Option.some.inj (hfirst'.symm.trans hfirst)
  exact EntityId.exists_encode_iff.1 ⟨entry.account, (EntityId.decode_eq_ok_iff.1 haccount).symm⟩

theorem MadeOf.unique (h : MadeOf own entry) (h' : MadeOf own entry')
    (hnode : entry.nodeId = entry'.nodeId) : entry = entry' := by
  obtain ⟨first, hfirst, haccount⟩ := h.account
  obtain ⟨first', hfirst', haccount'⟩ := h'.account
  obtain rfl : first = first' := Option.some.inj (hfirst.symm.trans hfirst')
  have haccounts : entry.account = entry'.account := Except.ok.inj (haccount.symm.trans haccount')
  have hendpoints : entry.endpoints = entry'.endpoints := h.endpoints.trans h'.endpoints.symm
  cases entry
  cases entry'
  simp_all only

/-! ## Gathering

The invariant is kept from row to row, so the induction is on the rows that are in already, with the
next row behind them. -/

theorem gather_eq_ok_iff :
    gather nodes row = .ok nodes' ↔
      ∃ entry, (nodes.get? row.node = some entry ∨
          nodes.get? row.node = none ∧ start row = .ok entry) ∧
        nodes.insert row.node (entry.addRow row) = nodes' := by
  unfold gather
  cases nodes.get? row.node with
  | some old =>
    simp only [bind_eq_ok, pure_eq_ok, Except.ok.injEq, Option.some.injEq, reduceCtorEq, false_and,
      or_false]
  | none => simp only [bind_eq_ok, pure_eq_ok, reduceCtorEq, true_and, false_or]

theorem gather_eq_error_iff :
    gather nodes row = .error f ↔ nodes.get? row.node = none ∧ start row = .error f := by
  unfold gather
  cases nodes.get? row.node with
  | some old => simp [bind, Except.bind, pure, Except.pure]
  | none => simp [bind_eq_error, pure, Except.pure]

theorem Gathered.get?_eq_none_iff (h : Gathered rows nodes) :
    nodes.get? node = none ↔ rowsOf rows node = [] := by
  rw [rowsOf_eq_nil_iff, ← h.covers node]
  simp [Option.eq_none_iff_forall_not_mem]

/-- What one row does: its node has one more row, the others have what they had. -/
theorem Gathered.gather (h : Gathered rows nodes) (hrow : gather nodes row = .ok nodes') :
    Gathered (rows ++ [row]) nodes' := by
  obtain ⟨entry, hentry, rfl⟩ := gather_eq_ok_iff.1 hrow
  have hmade : entry.nodeId = row.node ∧
      MadeOf (rowsOf rows row.node ++ [row]) (entry.addRow row) := by
    rcases hentry with hold | ⟨hnone, hstart⟩
    · obtain ⟨hnode, hmade⟩ := h.made _ _ hold
      exact ⟨hnode, hmade.addRow row⟩
    · obtain ⟨account, -, hnew⟩ := start_eq_ok_iff.1 hstart
      rw [h.get?_eq_none_iff.1 hnone, List.nil_append]
      exact ⟨hnew ▸ rfl, .of_start hstart⟩
  constructor
  · intro node
    have hcovers : (∃ other ∈ rows ++ [row], other.node = node) ↔
        (∃ other ∈ rows, other.node = node) ∨ row.node = node := by
      simp [or_and_right, exists_or]
    rw [hcovers, ← h.covers node, Table.get?_insert]
    by_cases hnode : node = row.node
    · simp [hnode]
    · simp [hnode, Ne.symm hnode]
  · intro node other hother
    rw [rowsOf_append, rowsOf_cons]
    rw [Table.get?_insert] at hother
    split at hother
    · next hnode =>
      subst hnode
      cases hother
      rw [if_pos rfl, nodeId_addRow]
      exact hmade
    · next hnode =>
      rw [if_neg (Ne.symm hnode)]
      simpa [rowsOf] using h.made _ _ hother

theorem gathered_of_foldlM (h : rows.foldlM gather ∅ = .ok nodes) :
    Gathered rows nodes := by
  induction rows using List.reverseRecOn generalizing nodes with
  | nil =>
    rw [List.foldlM_nil, pure_eq_ok] at h
    subst h
    refine ⟨fun node => ?_, fun node entry hentry => ?_⟩
    · exact iff_of_false (fun ⟨entry, hentry⟩ => nomatch hentry) (by simp)
    · exact nomatch hentry
  | append_singleton rows row ih =>
    obtain ⟨before, hbefore, hrow⟩ := foldlM_concat_eq_ok.1 h
    exact (ih hbefore).gather hrow

theorem Gathered.nonneg (h : Gathered rows nodes) (hfirst : (rowsOf rows node).head? = some first) :
    0 ≤ first.nodeAccount.toInt := by
  obtain ⟨entry, hentry⟩ := (h.covers node).2 ⟨first, node_of_head? hfirst⟩
  exact (h.made node entry hentry).2.nonneg hfirst

theorem Gathered.unique (h : Gathered rows nodes) (h' : Gathered rows nodes') : nodes = nodes' := by
  apply Table.ext_get?
  intro node
  cases hentry : nodes.get? node with
  | none => rw [h'.get?_eq_none_iff.2 (h.get?_eq_none_iff.1 hentry)]
  | some entry =>
    obtain ⟨entry', hentry'⟩ := (h'.covers node).2 ((h.covers node).1 ⟨entry, hentry⟩)
    obtain ⟨hnode, hmade⟩ := h.made _ _ hentry
    obtain ⟨hnode', hmade'⟩ := h'.made _ _ hentry'
    rw [hentry', hmade.unique hmade' (hnode.trans hnode'.symm)]

/-! ## Books -/

theorem Gathered.isBookOf (h : Gathered rows nodes) : IsBookOf rows nodes.values := by
  have hkeys : nodes.values.map nodeId = nodes.keys := by
    rw [Table.values, Table.keys, List.map_map]
    apply List.map_congr_left
    intro e he
    exact (h.made e.1 e.2 (Table.mem_entries_iff.1 he)).1
  refine ⟨hkeys ▸ List.pairwise_map.2 nodes.ascending, fun node => ?_, fun entry hentry => ?_⟩
  · rw [hkeys, ← h.covers node, Table.keys, List.mem_map]
    simp [← Table.mem_entries_iff]
  · obtain ⟨⟨node, _⟩, hmem, rfl⟩ := List.mem_map.1 hentry
    obtain ⟨rfl, hmade⟩ := h.made _ _ (Table.mem_entries_iff.1 hmem)
    exact hmade

theorem IsBookOf.exists_gathered (h : IsBookOf rows entries) :
    ∃ nodes, Gathered rows nodes ∧ nodes.values = entries := by
  let nodes : Table AddressBookEntry :=
    ⟨entries.map fun entry => (entry.nodeId, entry),
      List.pairwise_map.2 (List.pairwise_map.1 h.ascending)⟩
  have hget : ∀ node entry, nodes.get? node = some entry ↔
      entry ∈ entries ∧ entry.nodeId = node := by
    intro node entry
    rw [← Table.mem_entries_iff, List.mem_map]
    simp only [Prod.mk.injEq]
    constructor
    · rintro ⟨_, hmem, hnode, rfl⟩
      exact ⟨hmem, hnode⟩
    · rintro ⟨hmem, hnode⟩
      exact ⟨entry, hmem, hnode, rfl⟩
  refine ⟨nodes, ⟨fun node => ?_, fun node entry hentry => ?_⟩, ?_⟩
  · rw [← h.covers node, List.mem_map]
    exact exists_congr (hget node)
  · obtain ⟨hmem, rfl⟩ := (hget node entry).1 hentry
    exact ⟨rfl, h.made entry hmem⟩
  · rw [Table.values, List.map_map]
    exact List.map_id _

theorem ofRows_eq_ok :
    ofRows rows = .ok entries ↔
      ∃ nodes, rows.foldlM gather ∅ = .ok nodes ∧ nodes.values = entries := by
  simp only [ofRows, bind_eq_ok, pure_eq_ok]

theorem ofRows_eq_error :
    ofRows rows = .error f ↔ rows.foldlM gather ∅ = .error f := by
  simp [ofRows, bind_eq_error, pure, Except.pure]

/-- Gathering stops at the first row of all that opens a node and has no account for it. -/
theorem ofRows_eq_error_iff :
    ofRows rows = .error f ↔
      ∃ before row after, rows = before ++ row :: after ∧ (∃ entries, ofRows before = .ok entries) ∧
        rowsOf before row.node = [] ∧ row.nodeAccount.toInt < 0 ∧
        f = .cause (corruptRow (.negativeEncoding row.nodeAccount)) := by
  rw [ofRows_eq_error, foldlM_eq_error_iff]
  simp only [ofRows_eq_ok, gather_eq_error_iff, start_eq_error_iff]
  constructor
  · rintro ⟨before, row, after, nodes, hsplit, hbefore, hnone, hrow⟩
    refine ⟨before, row, after, hsplit, ⟨_, nodes, hbefore, rfl⟩, ?_, hrow⟩
    exact (gathered_of_foldlM hbefore).get?_eq_none_iff.1 hnone
  · rintro ⟨before, row, after, hsplit, ⟨_, nodes, hbefore, rfl⟩, hnone, hrow⟩
    refine ⟨before, row, after, nodes, hsplit, hbefore, ?_, hrow⟩
    exact (gathered_of_foldlM hbefore).get?_eq_none_iff.2 hnone

theorem exists_ofRows_error_iff :
    (∃ f, ofRows rows = .error f) ↔
      ∃ node first, (rowsOf rows node).head? = some first ∧ first.nodeAccount.toInt < 0 := by
  constructor
  · rintro ⟨f, hf⟩
    obtain ⟨before, row, after, rfl, -, hnone, hneg, -⟩ := ofRows_eq_error_iff.1 hf
    refine ⟨row.node, row, ?_, hneg⟩
    rw [rowsOf_append, rowsOf_cons, hnone, if_pos rfl]
    rfl
  · rintro ⟨node, first, hfirst, hneg⟩
    cases hrows : ofRows rows with
    | error f => exact ⟨f, rfl⟩
    | ok entries =>
      obtain ⟨nodes, hnodes, -⟩ := ofRows_eq_ok.1 hrows
      have hnonneg := (gathered_of_foldlM hnodes).nonneg hfirst
      omega

theorem ofRows_eq_ok_iff : ofRows rows = .ok entries ↔ IsBookOf rows entries := by
  constructor
  · intro h
    obtain ⟨nodes, hnodes, rfl⟩ := ofRows_eq_ok.1 h
    exact (gathered_of_foldlM hnodes).isBookOf
  · intro h
    obtain ⟨nodes, hgathered, rfl⟩ := h.exists_gathered
    cases hrows : ofRows rows with
    | error f =>
      obtain ⟨node, first, hfirst, hneg⟩ := exists_ofRows_error_iff.1 ⟨f, hrows⟩
      have hnonneg := hgathered.nonneg hfirst
      omega
    | ok entries =>
      obtain ⟨nodes', hnodes', rfl⟩ := ofRows_eq_ok.1 hrows
      rw [hgathered.unique (gathered_of_foldlM hnodes')]

theorem IsBookOf.of_rowsOf (h : IsBookOf rows entries)
    (hrows : ∀ node, rowsOf rows' node = rowsOf rows node) : IsBookOf rows' entries := by
  refine ⟨h.ascending, fun node => ?_, fun entry hentry => ?_⟩
  · rw [h.covers node, ← not_iff_not, ← rowsOf_eq_nil_iff, ← rowsOf_eq_nil_iff, hrows]
  · rw [hrows]
    exact h.made entry hentry

/-- Rows fail to make a book just if the first row of some node has no account for it, which is an
internal error. All others make the one book that has an entry for each node in their order, with
the account of its first row and its endpoints in row order; it stays the same however the rows of
different nodes are interleaved. -/
theorem book_of_rows (rows : List EndpointRow) :
    ((∃ f, ofRows rows = .error f) ↔
        ∃ node first, (rowsOf rows node).head? = some first ∧ first.nodeAccount.toInt < 0) ∧
      (∀ f, ofRows rows = .error f → ∃ e, f = .cause e ∧ e.kind = .internalServerError) ∧
      (∀ entries, ofRows rows = .ok entries ↔ IsBookOf rows entries) ∧
      ∀ rows', (∀ node, rowsOf rows' node = rowsOf rows node) →
        ∀ entries, ofRows rows = .ok entries ↔ ofRows rows' = .ok entries := by
  refine ⟨exists_ofRows_error_iff, fun f hf => ?_, fun _ => ofRows_eq_ok_iff,
    fun rows' hrows entries => ?_⟩
  · obtain ⟨before, row, after, -, -, -, -, rfl⟩ := ofRows_eq_error_iff.1 hf
    exact ⟨_, rfl, rfl⟩
  · rw [ofRows_eq_ok_iff, ofRows_eq_ok_iff]
    exact ⟨fun h => h.of_rowsOf hrows, fun h => h.of_rowsOf fun node => (hrows node).symm⟩

/-- A node without endpoints between the rows of another, whose second has no account. -/
theorem book_of_rows_interleaved :
    ofRows [⟨1, 4, "10.0.0.2", 50211⟩, ⟨0, 3, "", 0⟩, ⟨1, -1, "10.0.0.3", 50212⟩] =
      .ok [⟨0, ⟨0, 0, 3⟩, []⟩, ⟨1, ⟨0, 0, 4⟩, ["10.0.0.2:50211", "10.0.0.3:50212"]⟩] := by
  have hrows := (book_of_rows
    [⟨1, 4, "10.0.0.2", 50211⟩, ⟨1, -1, "10.0.0.3", 50212⟩, ⟨0, 3, "", 0⟩]).2.2.2
  exact (hrows _ (rowsOf_swap (by decide) [⟨1, 4, "10.0.0.2", 50211⟩] []) _).1 (by decide)

end LedgerView.AddressBookEntry
