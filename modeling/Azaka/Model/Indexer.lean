import Azaka.Model.Document
import Azaka.Model.Escrow
import Azaka.Model.Registry

namespace Azaka
open Keyed

namespace Indexer

/-- What somebody who sees nothing but the published events knows about the
records. -/
structure Trades where
  trades : Store UInt64 Trade
  exporterTrades : Store Address (List UInt64)

def Trades.empty : Trades where
  trades := Store.empty
  exporterTrades := Store.empty

def Trades.amend (r : Trades) (id : UInt64) (f : Trade → Trade) : Trades :=
  { r with trades := r.trades.amend id f }

def Trades.apply (r : Trades) : TradeEvent → Trades
  | .create id trade =>
    { trades := r.trades.set id trade
      exporterTrades := r.exporterTrades.set trade.exporter
        ((r.exporterTrades trade.exporter).getD [] ++ [id]) }
  | .confirm id bank =>
    r.amend id fun trade => { trade with confirmingBank := some bank, status := .active }
  | .escrow id => r.amend id fun trade => { trade with status := .documentsPending }
  | .cancel id _ => r.amend id fun trade => { trade with status := .cancelled }
  | .expire id => r.amend id fun trade => { trade with status := .expired }
  | .settle id _ => r.amend id fun trade => { trade with status := .settled }

abbrev Balances := Store UInt64 I128

def Balances.apply (r : Balances) : EscrowEvent → Balances
  | .deposit id _ amount => r.set id amount
  | .release id _ _ | .refund id _ _ => r.remove id

abbrev Documents := Store DocumentContract.Key Document

def Documents.apply (r : Documents) : DocumentEvent → Documents
  | .subDoc id docType submitter docHash metadataUri =>
    r.set (id, docType) {
      tradeId := id
      docType := docType
      docHash := docHash
      metadataUri := metadataUri
      submitter := submitter
      signers := [submitter]
      verified := false
      requiredSignatures := 2 }
  | .signDoc id docType signer =>
    r.amend (id, docType) fun document => { document with signers := document.signers ++ [signer] }
  | .verDoc id docType => r.amend (id, docType) fun document => { document with verified := true }

abbrev Participants := Store Address Participant

def Participants.apply (r : Participants) : RegistryEvent → Participants
  | .regPart address participant => r.set address participant
  | .revPart address => r.amend address fun participant => { participant with active := false }

def trades (events : List TradeEvent) : Trades := events.foldl Trades.apply .empty

def balances (events : List EscrowEvent) : Balances := events.foldl Balances.apply Store.empty

def documents (events : List DocumentEvent) : Documents :=
  events.foldl Documents.apply Store.empty

def participants (events : List RegistryEvent) : Participants :=
  events.foldl Participants.apply Store.empty

end Indexer
end Azaka
