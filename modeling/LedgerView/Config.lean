import LedgerView.EntityId
import LedgerView.Text.Blank
/-!
# Configuration

The tunables of the service, their defaults, and reading them from the environment.
-/

namespace LedgerView

/-- The variables that a process is started with. -/
abbrev Environment := List (String × String)

namespace Environment

/-- The value of a variable, if it is set at all. -/
def get? (env : Environment) (name : String) : Option String :=
  (env.find? fun e => e.1 = name).map Prod.snd

/-- A value that has something besides blanks in it. -/
def isFilled (value : String) : Bool :=
  Text.trimChars value.toList ≠ []

/-- The value of a variable that is set to something besides blanks. -/
def filled? (env : Environment) (name : String) : Option String :=
  (env.get? name).filter isFilled

end Environment

structure LedgerConfig where
  /-- Rows per page of a scan. -/
  batchSize : UInt64
  /-- The time that one request may spend on store calls. -/
  statementTimeoutSecs : UInt64
  /-- The account that pays staking rewards. -/
  stakingRewardAccount : EntityId
  addressBookFile : EntityId
  /-- The address book file that is used while the first is empty. -/
  fallbackFile : EntityId
  deriving DecidableEq, Repr

inductive ConfigError where
  | zeroBatchSize
  | zeroStatementTimeout
  | statementTimeoutTooLong (secs : UInt64)
  | duplicateAddressBookFile (file : EntityId)
  | invalidValue (name value : String)
  deriving DecidableEq, Repr

def ConfigError.message : ConfigError → String
  | .zeroBatchSize => "batch size must be greater than zero"
  | .zeroStatementTimeout => "statement timeout must be greater than zero"
  | .statementTimeoutTooLong secs =>
    s!"statement timeout of {secs.toNat}s exceeds the 86400s limit"
  | .duplicateAddressBookFile file =>
    "address book file and fallback file are both " ++ file.text
  | .invalidValue name value => "invalid value for " ++ name ++ ": " ++ Text.quote value

/-- An unsigned number of at most 64 bits, with or without a plus sign. -/
def readUnsigned (value : String) : Option UInt64 :=
  match Text.plusNumber? value.toList with
  | some n => if n < 0x10000000000000000 then some (UInt64.ofNat n) else none
  | none => none

def readEntityId (value : String) : Option EntityId :=
  (EntityId.parse value).toOption

/-- A variable read without the blanks around it. One that is unset or blank has the default. -/
def Environment.read {α : Type} (env : Environment) (name : String) (reader : String → Option α)
    (fallback : α) : Except ConfigError α :=
  match env.filled? name with
  | none => .ok fallback
  | some value =>
    match reader (Text.trim value) with
    | some a => .ok a
    | none => .error (.invalidValue name value)

namespace LedgerConfig

/-- An entity of shard 0 and realm 0. -/
def systemEntity (number : Fin 0x100000000) : EntityId :=
  ⟨0, 0, number⟩

def standard : LedgerConfig where
  batchSize := 2000
  statementTimeoutSecs := 20
  stakingRewardAccount := systemEntity 800
  addressBookFile := systemEntity 101
  fallbackFile := systemEntity 102

/-- The longest statement timeout: one day. -/
def maxStatementTimeoutSecs : UInt64 := 86400

def validate (c : LedgerConfig) : Except ConfigError Unit :=
  if c.batchSize = 0 then .error .zeroBatchSize
  else if c.statementTimeoutSecs = 0 then .error .zeroStatementTimeout
  else if maxStatementTimeoutSecs < c.statementTimeoutSecs then
    .error (.statementTimeoutTooLong c.statementTimeoutSecs)
  else if c.addressBookFile = c.fallbackFile then
    .error (.duplicateAddressBookFile c.addressBookFile)
  else .ok ()

/-- The statement timeout in milliseconds. -/
def statementTimeoutMs (c : LedgerConfig) : Nat :=
  c.statementTimeoutSecs.toNat * 1000

def ofEnvironment (env : Environment) : Except ConfigError LedgerConfig := do
  let batchSize ← env.read "MIRROR_BATCH_SIZE" readUnsigned standard.batchSize
  let statementTimeoutSecs ←
    env.read "MIRROR_STATEMENT_TIMEOUT_SECS" readUnsigned standard.statementTimeoutSecs
  let stakingRewardAccount ←
    env.read "MIRROR_STAKING_REWARD_ACCOUNT" readEntityId standard.stakingRewardAccount
  let addressBookFile ←
    env.read "MIRROR_ADDRESS_BOOK_FILE" readEntityId standard.addressBookFile
  let fallbackFile ←
    env.read "MIRROR_ADDRESS_BOOK_FALLBACK_FILE" readEntityId standard.fallbackFile
  let config :=
    { batchSize, statementTimeoutSecs, stakingRewardAccount, addressBookFile, fallbackFile }
  config.validate
  return config

end LedgerConfig

end LedgerView
