/-!
# Transaction types and results

The numeric codes of rows and their names. Which results mean success and which types define a
token is fixed; the names can be extended or replaced.
-/

namespace LedgerView

/-- The name of a code in a list of entries, of which the last one for a code counts. -/
def lastName? (code : Int32) : List (Int32 × String) → Option String
  | [] => none
  | (c, name) :: rest =>
    match lastName? code rest with
    | some later => some later
    | none => if c = code then some name else none

structure CodeBook where
  transactionTypes : List (Int32 × String)
  results : List (Int32 × String)
  deriving DecidableEq, Repr

namespace CodeBook

def unknown : String := "UNKNOWN"

/-- The operation type of fees. -/
def feeType : String := "FEE"

/-- The operation type of staking rewards. -/
def rewardType : String := "CRYPTOTRANSFER"

/-- The status of fees and staking rewards, which always apply. -/
def successStatus : String := "SUCCESS"

def tokenDissociate : Int32 := 41

/-- The types whose operations carry the definition of a token: creation, deletion, update. -/
def definesToken (transactionType : Int32) : Bool :=
  transactionType = 29 || transactionType = 35 || transactionType = 36

/-- The results that mean that a transaction took effect. -/
def isSuccess (result : Int32) : Bool :=
  result = 22 || result = 104 || result = 220

def standard : CodeBook where
  transactionTypes := [
    (11, "CRYPTOCREATEACCOUNT"),
    (12, "CRYPTODELETE"),
    (14, "CRYPTOTRANSFER"),
    (15, "CRYPTOUPDATEACCOUNT"),
    (27, "CONSENSUSSUBMITMESSAGE"),
    (29, "TOKENCREATION"),
    (31, "TOKENFREEZE"),
    (32, "TOKENUNFREEZE"),
    (33, "TOKENGRANTKYC"),
    (34, "TOKENREVOKEKYC"),
    (35, "TOKENDELETION"),
    (36, "TOKENUPDATE"),
    (37, "TOKENMINT"),
    (38, "TOKENBURN"),
    (39, "TOKENWIPE"),
    (40, "TOKENASSOCIATE"),
    (41, "TOKENDISSOCIATE"),
    (42, "SCHEDULECREATE"),
    (48, "CRYPTOAPPROVEALLOWANCE"),
    (50, "ETHEREUMTRANSACTION"),
    (51, "NODESTAKEUPDATE"),
    (52, "UTILPRNG")]
  results := [
    (7, "INVALID_SIGNATURE"),
    (10, "INSUFFICIENT_PAYER_BALANCE"),
    (11, "INSUFFICIENT_TX_FEE"),
    (15, "INVALID_ACCOUNT_ID"),
    (22, "SUCCESS"),
    (28, "INSUFFICIENT_ACCOUNT_BALANCE"),
    (72, "ACCOUNT_DELETED"),
    (104, "FEE_SCHEDULE_FILE_PART_UPLOADED"),
    (167, "INVALID_TOKEN_ID"),
    (184, "TOKEN_NOT_ASSOCIATED_TO_ACCOUNT"),
    (220, "SUCCESS_BUT_MISSING_EXPECTED_OPERATION")]

/-- The book with more entries, which count before those it has. -/
def extend (book : CodeBook) (transactionTypes results : List (Int32 × String)) : CodeBook where
  transactionTypes := book.transactionTypes ++ transactionTypes
  results := book.results ++ results

def transactionType (book : CodeBook) (code : Int32) : String :=
  (lastName? code book.transactionTypes).getD unknown

def result (book : CodeBook) (code : Int32) : String :=
  (lastName? code book.results).getD unknown

end CodeBook

end LedgerView
