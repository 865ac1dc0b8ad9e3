import Azaka.Library.Auditor
import Azaka.Model.Indexer

namespace Azaka
open Keyed Stepwise

namespace Audit

/-- What who reads the events of the trades from the deployment on knows: the
records, the last id announced, and a ledger that had been reached. -/
structure Trades where
  records : Indexer.Trades
  last : UInt64
  reached : UInt32

def Trades.deployed : Trades where
  records := .empty
  last := 0
  reached := 0

/-- A trade is announced under the next id and not before a ledger already told
of, and every later event finds it in a status that allows it. -/
def admitsTrade (a : Trades) : TradeEvent → Bool
  | .create id trade =>
    decide (a.last.toNat + 1 < 2 ^ 64) && id == a.last + 1 && trade.tradeId == id &&
      trade.confirmingBank == none && trade.status == .pendingEscrow &&
      decide (a.reached ≤ trade.createdLedger)
  | .confirm id _ => (a.records.trades id).any fun trade => trade.status == .pendingEscrow
  | .escrow id => (a.records.trades id).any fun trade => trade.status == .active
  | .cancel id caller => (a.records.trades id).any fun trade =>
    (caller == trade.exporter || caller == trade.importer) &&
      (trade.status == .pendingEscrow || trade.status == .active)
  | .expire id => (a.records.trades id).any fun trade => trade.status != .settled
  | .settle id exporter => (a.records.trades id).any fun trade =>
    trade.status == .documentsPending && exporter == trade.exporter

/-- The ledger an event tells of. Only a creation names one, and an expiry says
that the deadline has come. -/
def told (r : Indexer.Trades) : TradeEvent → UInt32
  | .create _ trade => trade.createdLedger
  | .expire id => (r.trades id).elim 0 Trade.expiryLedger
  | .confirm .. | .escrow .. | .cancel .. | .settle .. => 0

def trades : Auditor Trades TradeEvent where
  admits := admitsTrade
  apply a e := {
    records := a.records.apply e
    last := match e with
      | .create id _ => id
      | _ => a.last
    reached := max a.reached (told a.records e) }
  closed _ := true

/-- Deposits and payouts take turns, and a payout is of the amount deposited. -/
def admitsTransfer (r : Indexer.Balances) : EscrowEvent → Bool
  | .deposit id _ amount => (r id).isNone && decide (0 ≤ amount.toInt)
  | .release id _ amount | .refund id _ amount => r id == some amount

def balances : Auditor Indexer.Balances EscrowEvent where
  admits := admitsTransfer
  apply := Indexer.Balances.apply
  closed _ := true

/-- A document is submitted once, and nobody signs it twice. With the second
signature it is due for verification, and then with every further one. -/
def admitsDocument (self : Address) (r : Indexer.Documents × Option DocumentContract.Key) :
    DocumentEvent → Bool
  | .subDoc id docType submitter _ _ =>
    r.2 == none && (r.1 (id, docType)).isNone && submitter == self
  | .signDoc id docType signer => r.2 == none &&
    (r.1 (id, docType)).any fun document => !document.signers.contains signer
  | .verDoc id docType => r.2 == some (id, docType)

/-- The document that is due for verification after an event. -/
def due (r : Indexer.Documents) : DocumentEvent → Option DocumentContract.Key
  | .signDoc id docType _ =>
    if (r (id, docType)).any fun document => document.verified || decide (2 ≤ document.signers.length)
    then some (id, docType) else none
  | .subDoc .. | .verDoc .. => none

def documents (self : Address) :
    Auditor (Indexer.Documents × Option DocumentContract.Key) DocumentEvent where
  admits := admitsDocument self
  apply r e := (r.1.apply e, due (r.1.apply e) e)
  closed r := r.2 == none

/-- An address is registered once, and revoked only after that. -/
def admitsParticipant (r : Indexer.Participants) : RegistryEvent → Bool
  | .regPart address participant =>
    (r address).isNone && participant.address == address && participant.active
  | .revPart address => (r address).isSome

def participants : Auditor Indexer.Participants RegistryEvent where
  admits := admitsParticipant
  apply := Indexer.Participants.apply
  closed _ := true

end Audit
end Azaka
