import LedgerView.Account
import LedgerView.AddressBook
import LedgerView.Block
import LedgerView.Config
import LedgerView.Json.Reader
import LedgerView.Operation
/-!
# Read models in JSON

How each read model is written and read. Ids are texts; an amount is tagged with its currency;
empty lists of serial numbers and absent metadata, entity ids and aliases of answers are left out.
-/

namespace LedgerView

namespace EntityId

def toJson (id : EntityId) : Json :=
  .text id.text

def ofJson? (value : Json) : Option EntityId :=
  value.text?.bind fun s => (parse s).toOption

end EntityId

namespace AccountId

def toJson (account : AccountId) : Json :=
  .object [
    ("entity_id", (account.entityId?.map EntityId.toJson).getD .null),
    ("alias", (account.alias?.map Json.ofBytes).getD .null)]

def ofJson? (value : Json) : Option AccountId := do
  match ← value.record? ["entity_id", "alias"] 2 with
  | [entityId, bytes] =>
    let entityId? ← Json.optional EntityId.ofJson? entityId
    let alias? ← Json.optional (Json.list? Json.byte?) bytes
    return { entityId?, alias? }
  | _ => none

end AccountId

namespace Block

def toJson (b : Block) : Json :=
  .object [
    ("index", .ofInt64 b.index),
    ("hash", .text b.hash),
    ("parent_index", .ofInt64 b.parentIndex),
    ("parent_hash", .text b.parentHash),
    ("consensus_start", .ofInt64 b.consensusStart),
    ("consensus_end", .ofInt64 b.consensusEnd)]

def ofJson? (value : Json) : Option Block := do
  let names :=
    ["index", "hash", "parent_index", "parent_hash", "consensus_start", "consensus_end"]
  match ← value.record? names 6 with
  | [index, hash, parentIndex, parentHash, consensusStart, consensusEnd] =>
    let index ← Json.required Json.int64? index
    let hash ← Json.required Json.text? hash
    let parentIndex ← Json.required Json.int64? parentIndex
    let parentHash ← Json.required Json.text? parentHash
    let consensusStart ← Json.required Json.int64? consensusStart
    let consensusEnd ← Json.required Json.int64? consensusEnd
    return { index, hash, parentIndex, parentHash, consensusStart, consensusEnd }
  | _ => none

end Block

namespace TokenType

def toJson (t : TokenType) : Json :=
  .text t.label

def ofLabel? (label : String) : Option TokenType :=
  if label = "FUNGIBLE_COMMON" then some .fungibleCommon
  else if label = "NON_FUNGIBLE_UNIQUE" then some .nonFungibleUnique
  else none

/-- A type is its label, or an object with the label as its only field and nothing in it. -/
def ofJson? : Json → Option TokenType
  | .text label => ofLabel? label
  | .object [(label, .null)] => ofLabel? label
  | _ => none

/-- Within a tagged amount the only field may also hold an empty object. -/
def ofTaggedJson? : Json → Option TokenType
  | .object [(label, .object [])] => ofLabel? label
  | value => ofJson? value

end TokenType

namespace TokenAmount

def fields (a : TokenAmount) : List (String × Json) :=
  [("token_id", a.tokenId.toJson),
    ("decimals", .int a.decimals.toNat),
    ("token_type", a.tokenType.toJson),
    ("value", .ofInt64 a.value)] ++
  Json.fieldIf "serial_numbers"
    (if a.serialNumbers = [] then none else some (.list (a.serialNumbers.map Json.ofInt64)))

def ofJson? (value : Json) : Option TokenAmount := do
  let names := ["token_id", "decimals", "token_type", "value", "serial_numbers"]
  match ← value.record? names 4 with
  | [tokenId, decimals, tokenType, amount, serialNumbers] =>
    let tokenId ← Json.required EntityId.ofJson? tokenId
    let decimals ← Json.required Json.uint32? decimals
    let tokenType ← Json.required TokenType.ofTaggedJson? tokenType
    let value ← Json.required Json.int64? amount
    let serialNumbers ← Json.defaulted [] (Json.list? Json.int64?) serialNumbers
    return { tokenId, decimals, tokenType, value, serialNumbers }
  | _ => none

end TokenAmount

namespace Amount

def toJson : Amount → Json
  | hbar value => .object [("currency", .text "hbar"), ("value", .ofInt64 value)]
  | token amount => .object (("currency", .text "token") :: amount.fields)

/-- Read what stands beside the currency. -/
def ofContent? (currency : String) (content : Json) : Option Amount := do
  if currency = "hbar" then
    match ← content.record? ["value"] 1 with
    | [value] => return hbar (← Json.required Json.int64? value)
    | _ => none
  else if currency = "token" then
    let amount ← TokenAmount.ofJson? content
    return token amount
  else none

/-- The currency is a field of the object, or the first item of the list. -/
def ofJson? : Json → Option Amount
  | .object fields => do
    let currency ← (Json.field? "currency" fields).bind Json.text?
    ofContent? currency (.object fields)
  | .list (.text currency :: items) => ofContent? currency (.list items)
  | _ => none

end Amount

namespace Operation

def toJson (o : Operation) : Json :=
  .object <|
    [("index", .ofInt64 o.index),
      ("type", .text o.operationType),
      ("status", .text o.status),
      ("account_id", o.account.toJson),
      ("amount", o.amount.toJson)] ++
    Json.fieldIf "metadata" (o.metadata?.map Json.object)

def ofJson? (value : Json) : Option Operation := do
  let names := ["index", "type", "status", "account_id", "amount", "metadata"]
  match ← value.record? names 5 with
  | [index, operationType, status, account, amount, metadata] =>
    let index ← Json.required Json.int64? index
    let operationType ← Json.required Json.text? operationType
    let status ← Json.required Json.text? status
    let account ← Json.required EntityId.ofJson? account
    let amount ← Json.required Amount.ofJson? amount
    let metadata? ← Json.optional Json.object? metadata
    return { index, operationType, status, account, amount, metadata? }
  | _ => none

end Operation

namespace Transaction

def toJson (t : Transaction) : Json :=
  .object <|
    ("hash", .text t.hash) ::
      (Json.fieldIf "entity_id" (t.entityId?.map EntityId.toJson) ++
        [("memo", .ofBytes t.memo),
          ("operations", .list (t.operations.map Operation.toJson))])

def ofJson? (value : Json) : Option Transaction := do
  match ← value.record? ["hash", "entity_id", "memo", "operations"] 4 with
  | [hash, entityId, memo, operations] =>
    let hash ← Json.required Json.text? hash
    let entityId? ← Json.optional EntityId.ofJson? entityId
    let memo ← Json.required (Json.list? Json.byte?) memo
    let operations ← Json.required (Json.list? Operation.ofJson?) operations
    return { hash, entityId?, memo, operations }
  | _ => none

end Transaction

namespace AccountBalance

def toJson (b : AccountBalance) : Json :=
  .object <|
    ("account_id", .text b.account) ::
      (Json.fieldIf "alias" (b.alias?.map Json.text) ++
        [("amounts", .list (b.amounts.map Amount.toJson))])

def ofJson? (value : Json) : Option AccountBalance := do
  match ← value.record? ["account_id", "alias", "amounts"] 3 with
  | [account, label, amounts] =>
    let account ← Json.required Json.text? account
    let alias? ← Json.optional Json.text? label
    let amounts ← Json.required (Json.list? Amount.ofJson?) amounts
    return { account, alias?, amounts }
  | _ => none

end AccountBalance

namespace AddressBookEntry

def toJson (e : AddressBookEntry) : Json :=
  .object [
    ("node_id", .ofInt64 e.nodeId),
    ("account_id", e.account.toJson),
    ("endpoints", .list (e.endpoints.map Json.text))]

def ofJson? (value : Json) : Option AddressBookEntry := do
  match ← value.record? ["node_id", "account_id", "endpoints"] 3 with
  | [nodeId, account, endpoints] =>
    let nodeId ← Json.required Json.int64? nodeId
    let account ← Json.required EntityId.ofJson? account
    let endpoints ← Json.required (Json.list? Json.text?) endpoints
    return { nodeId, account, endpoints }
  | _ => none

end AddressBookEntry

namespace LedgerConfig

def toJson (c : LedgerConfig) : Json :=
  .object [
    ("batch_size", .int c.batchSize.toNat),
    ("statement_timeout_secs", .int c.statementTimeoutSecs.toNat),
    ("staking_reward_account", c.stakingRewardAccount.toJson),
    ("address_book_file", c.addressBookFile.toJson),
    ("address_book_fallback_file", c.fallbackFile.toJson)]

/-- What is read need not be valid. -/
def ofJson? (value : Json) : Option LedgerConfig := do
  let names :=
    ["batch_size", "statement_timeout_secs", "staking_reward_account", "address_book_file",
      "address_book_fallback_file"]
  match ← value.record? names 5 with
  | [batchSize, statementTimeoutSecs, stakingRewardAccount, addressBookFile, fallbackFile] =>
    let batchSize ← Json.required Json.uint64? batchSize
    let statementTimeoutSecs ← Json.required Json.uint64? statementTimeoutSecs
    let stakingRewardAccount ← Json.required EntityId.ofJson? stakingRewardAccount
    let addressBookFile ← Json.required EntityId.ofJson? addressBookFile
    let fallbackFile ← Json.required EntityId.ofJson? fallbackFile
    return { batchSize, statementTimeoutSecs, stakingRewardAccount, addressBookFile, fallbackFile }
  | _ => none

end LedgerConfig

end LedgerView
