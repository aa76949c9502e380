import LedgerView.HbarTransfers
import LedgerView.Json.Parser
import LedgerView.Json.ReadModel
import LedgerView.Node
import LedgerView.Telemetry
import LedgerView.Telemetry.Exposition
import LedgerView.Proofs.Balance.Linearity
import LedgerView.Proofs.Balance.Reassociation
import LedgerView.Proofs.Balance.Shown
import LedgerView.Proofs.Reconciliation.Hbar
import LedgerView.Proofs.Reconciliation.Token
import LedgerView.Proofs.ByHash
import LedgerView.Proofs.Fees
import LedgerView.Proofs.Selectors
import LedgerView.Proofs.Genesis
import LedgerView.Proofs.Stability
import LedgerView.Proofs.Chain
import LedgerView.Proofs.Ancestry
import LedgerView.Proofs.Tiling
import LedgerView.Proofs.Conservation
import LedgerView.Proofs.Starting
import LedgerView.Proofs.Confluence
import LedgerView.Proofs.Errata
import LedgerView.Proofs.Deletion
import LedgerView.Proofs.Alias
import LedgerView.Proofs.Faults
import LedgerView.Proofs.Arguments
import LedgerView.Proofs.Json.ReadModel
import LedgerView.Proofs.Corruption
import LedgerView.Proofs.Pages
import LedgerView.Proofs.BlockArithmetic
import LedgerView.Proofs.EntityId.Packing
import LedgerView.Proofs.EntityId.Grammar
import LedgerView.Proofs.Text.Hex
import LedgerView.Proofs.Account.Selector
import LedgerView.Proofs.BlockHash.NormalForm
import LedgerView.Proofs.AddressBook
import LedgerView.Proofs.Correction
import LedgerView.Proofs.Balance.Serials
import LedgerView.Proofs.TransactionOrder
