import LedgerView.Account
import LedgerView.Error
import LedgerView.Text.Blank
/-!
# Account selectors

The text by which a caller names an account: an entity id, or an alias as `0x` and hexadecimal
digits. Blanks around it do not count.
-/

namespace LedgerView

inductive AccountSelector where
  | byId (entity : EntityId)
  | byAlias (bytes : Bytes)
  deriving DecidableEq, Repr

namespace AccountSelector

/-- What the selector itself says about the account. -/
def account : AccountSelector → AccountId
  | byId entity => ⟨some entity, none⟩
  | byAlias bytes => ⟨none, some bytes⟩

/-- Read what is left of a text without the blanks around it. An error quotes the whole text. -/
def parseTrimmed (text : String) : List Char → Except BadArgument AccountSelector
  | [] => .error .emptyAccount
  | '0' :: 'x' :: digits =>
    match Text.decodeHex (Text.utf8 digits) with
    | .error e => .error (.malformedAlias text e)
    | .ok [] => .error .emptyAlias
    | .ok bytes => .ok (byAlias bytes)
  | cs =>
    match EntityId.parse (String.ofList cs) with
    | .error e => .error (.malformedAccount e)
    | .ok entity => .ok (byId entity)

def parse (text : String) : Except BadArgument AccountSelector :=
  parseTrimmed text (Text.trimChars text.toList)

end AccountSelector

end LedgerView
