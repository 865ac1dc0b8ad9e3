import Azaka.Proofs.TradeIds
import Azaka.Proofs.TradeDeadline
import Azaka.Proofs.DocumentSigners
import Azaka.Proofs.Settlement
import Azaka.Proofs.EscrowSolvency
import Azaka.Proofs.StuckFunds
import Azaka.Proofs.DepositTerms
import Azaka.Proofs.Stranding
import Azaka.Library.Journal
import Azaka.Library.Latch
import Azaka.Library.Noninterference
import Azaka.Model.Audit
import Azaka.Model.Program
import Azaka.Model.DocumentProgram
import Azaka.Model.EscrowProgram
import Azaka.Model.RegistryProgram
import Azaka.Model.TradeProgram
import Azaka.Proofs.Hosting
import Azaka.Proofs.DocumentStorage
import Azaka.Proofs.EscrowStorage
import Azaka.Proofs.RegistryStorage
import Azaka.Proofs.TradeStorage
import Azaka.Model.Registry
import Azaka.Proofs.RegistrySteps
import Azaka.Proofs.RegistryHistory
import Azaka.Model.Indexer
import Azaka.Proofs.IndexerReplay
import Azaka.Proofs.TradeHistory
import Azaka.Proofs.TradeTerms
import Azaka.Proofs.TradeIndex
import Azaka.Proofs.TradeIsolation
import Azaka.Proofs.DocumentPermanence
import Azaka.Proofs.DocumentVerification
import Azaka.Proofs.HappyPath
import Azaka.Proofs.Revocation
import Azaka.Library.Codec
import Azaka.Model.Interface
import Azaka.Model.Sdk
import Azaka.Proofs.SdkCalls
import Azaka.Library.Roster
import Azaka.Proofs.SignatureCollection
import Azaka.Proofs.Announcements
import Azaka.Library.Auditor
import Azaka.Library.Clock
import Azaka.Library.Image
import Azaka.Proofs.EventLogs
import Azaka.Library.Restriction
import Azaka.Proofs.DocumentIsolation
import Azaka.Proofs.RegistryIsolation
import Azaka.Proofs.TradeOrder
import Azaka.Library.Success
import Azaka.Model.Network
import Azaka.Proofs.NetworkRuns
import Azaka.Proofs.Lifecycle
import Azaka.Proofs.RefundPath
import Azaka.Proofs.Confinement
import Azaka.Library.Rewriting
import Azaka.Library.Erasure
import Azaka.Library.Retry
import Azaka.Proofs.Signatures
import Azaka.Proofs.Retries
import Azaka.Proofs.Panics
import Azaka.Proofs.LedgerNumbers
import Azaka.Proofs.Initialisation
import Azaka.Model.Client
import Azaka.Proofs.ClientRuns
import Azaka.Proofs.TradeChronology
import Azaka.Proofs.DocumentCalls
