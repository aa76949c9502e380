import Mathlib
import LedgerView.Json.ReadModel
import LedgerView.Proofs.EntityId
import LedgerView.Proofs.Json.Reader
/-!
# Read models survive JSON

Every read model is read from its JSON as it was written. What is written is one of many ways to
give the same model: fields may come in any order and among unknown ones, optional ones may be
missing or null, and ids may have leading zeros. Reading such JSON and writing what was read
arrives at the one way, which reads the same (`roundTrips_readModels`).
-/

namespace LedgerView

open Json

theorem EntityId.ofJson?_toJson (id : EntityId) : ofJson? id.toJson = some id := by
  rw [toJson, ofJson?, text?_text, Option.bind_some, parse_text]
  rfl

theorem EntityId.toJson_ne_null (id : EntityId) : id.toJson ≠ null := nofun

theorem AccountId.ofJson?_toJson (account : AccountId) : ofJson? account.toJson = some account := by
  simp [toJson, ofJson?, optional_getD_null EntityId.ofJson?_toJson EntityId.toJson_ne_null,
    optional_getD_null list?_ofBytes (fun _ => nofun)]

theorem Block.ofJson?_toJson (b : Block) : ofJson? b.toJson = some b := by
  simp [toJson, ofJson?]

/-! ## Amounts -/

theorem TokenType.ofTaggedJson?_toJson (t : TokenType) : ofTaggedJson? t.toJson = some t := by
  cases t <;> rfl

theorem TokenType.ofJson?_toJson (t : TokenType) : ofJson? t.toJson = some t := by
  cases t <;> rfl

/-- The currency in front of the fields of an amount is one that it does not know. -/
theorem TokenAmount.ofJson?_fields (a : TokenAmount) (currency : Json) :
    ofJson? (.object (("currency", currency) :: a.fields)) = some a := by
  simp [fields, ofJson?, EntityId.ofJson?_toJson, TokenType.ofTaggedJson?_toJson,
    defaulted_nil int64?_ofInt64, -Option.bind_eq_bind, some_bind]

theorem Amount.ofJson?_toJson (a : Amount) : ofJson? a.toJson = some a := by
  cases a with
  | hbar value => simp [toJson, ofJson?, ofContent?]
  | token amount => simp [toJson, ofJson?, ofContent?, TokenAmount.ofJson?_fields]

/-! ## Transactions and answers -/

theorem Operation.ofJson?_toJson (o : Operation) : ofJson? o.toJson = some o := by
  have hmetadata : ∀ metadata? : Option (List (String × Json)),
      optional object? (metadata?.map Json.object) = some metadata? :=
    optional_map (fun _ => rfl) (fun _ => nofun)
  simp [toJson, ofJson?, EntityId.ofJson?_toJson, Amount.ofJson?_toJson, hmetadata]

theorem Transaction.ofJson?_toJson (t : Transaction) : ofJson? t.toJson = some t := by
  simp [toJson, ofJson?, optional_map EntityId.ofJson?_toJson EntityId.toJson_ne_null,
    list?_map Operation.ofJson?_toJson]

theorem AccountBalance.ofJson?_toJson (b : AccountBalance) : ofJson? b.toJson = some b := by
  simp [toJson, ofJson?, optional_map text?_text (fun _ => nofun),
    list?_map Amount.ofJson?_toJson]

theorem AddressBookEntry.ofJson?_toJson (e : AddressBookEntry) : ofJson? e.toJson = some e := by
  simp [toJson, ofJson?, EntityId.ofJson?_toJson, list?_map text?_text]

theorem LedgerConfig.ofJson?_toJson (c : LedgerConfig) : ofJson? c.toJson = some c := by
  simp [toJson, ofJson?, EntityId.ofJson?_toJson, -Option.bind_eq_bind, some_bind]

/-- Every read model, and the configuration, is read as it was written; and whatever is read as one
is written in a way that is read as the same. -/
theorem roundTrips_readModels :
    RoundTrips EntityId.toJson EntityId.ofJson? ∧
    RoundTrips AccountId.toJson AccountId.ofJson? ∧
    RoundTrips Block.toJson Block.ofJson? ∧
    RoundTrips TokenType.toJson TokenType.ofJson? ∧
    RoundTrips Amount.toJson Amount.ofJson? ∧
    RoundTrips Operation.toJson Operation.ofJson? ∧
    RoundTrips Transaction.toJson Transaction.ofJson? ∧
    RoundTrips AccountBalance.toJson AccountBalance.ofJson? ∧
    RoundTrips AddressBookEntry.toJson AddressBookEntry.ofJson? ∧
    RoundTrips LedgerConfig.toJson LedgerConfig.ofJson? :=
  ⟨roundTrips_of_read_write EntityId.ofJson?_toJson,
    roundTrips_of_read_write AccountId.ofJson?_toJson,
    roundTrips_of_read_write Block.ofJson?_toJson,
    roundTrips_of_read_write TokenType.ofJson?_toJson,
    roundTrips_of_read_write Amount.ofJson?_toJson,
    roundTrips_of_read_write Operation.ofJson?_toJson,
    roundTrips_of_read_write Transaction.ofJson?_toJson,
    roundTrips_of_read_write AccountBalance.ofJson?_toJson,
    roundTrips_of_read_write AddressBookEntry.ofJson?_toJson,
    roundTrips_of_read_write LedgerConfig.ofJson?_toJson⟩

example : Operation.ofJson? (.object [
    ("note", .list []),
    ("amount", .object [("value", .int (-7)), ("currency", .text "hbar")]),
    ("account_id", .text "00.0.01001"),
    ("status", .text "SUCCESS"),
    ("type", .text "FEE"),
    ("index", .int 2),
    ("metadata", .null)]) =
      some ⟨2, "FEE", "SUCCESS", .numbered 1001, .hbar (-7), none⟩ := by
  decide +kernel

end LedgerView
