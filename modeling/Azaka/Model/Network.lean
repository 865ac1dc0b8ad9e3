import Azaka.Model.Systems

namespace Azaka.Network
open Keyed Stepwise

/-- Where the four contracts are, and the token. -/
structure Sites where
  trade : Address
  escrow : Address
  document : Address
  registry : Address
  token : Address

/-- A network for the runs below. -/
def testSites : Sites where
  trade := .contract 7
  escrow := .contract 5
  document := .contract 6
  registry := .contract 8
  token := .contract 4

variable (tok : Token)

/-- The trade contract, the escrow with the tokens, the document contract and
the registry. None of them calls another. -/
abbrev State :=
  (TradeContract.State × EscrowContract.World tok) ×
    (DocumentContract.State × RegistryContract.State)

abbrev Label :=
  (Tx TradeContract.Call ⊕ EscrowContract.Label tok) ⊕
    (Tx DocumentContract.Call ⊕ Tx RegistryContract.Call)

abbrev Return :=
  (TradeContract.Return ⊕ EscrowContract.Return) ⊕
    (DocumentContract.Return ⊕ RegistryContract.Return)

abbrev Failure :=
  (Fault TradeError ⊕ Fault EscrowError) ⊕ (Fault DocumentError ⊕ Fault RegistryError)

def machine (sites : Sites) : Machine (State tok) (Label tok) Return Failure :=
  ((TradeContract.machine sites.trade).beside (EscrowContract.machine tok sites.escrow)).beside
    ((DocumentContract.machine sites.document).beside (RegistryContract.machine sites.registry))

variable {tok}

/-- All four contracts right after their `initialize`. -/
def deployed (sites : Sites) (admin : Address) (ledger : tok.Ledger) : State tok :=
  (({ TradeContract.State.empty with
        escrowContract := some sites.escrow
        documentContract := some sites.document
        tradeCounter := some 0 },
      { EscrowContract.State.empty with
        tradeContract := some sites.trade
        tokenContract := some sites.token },
      ledger),
    { DocumentContract.State.empty with
      registryContract := some sites.registry
      requiredSignatures := fun _ => some 2 },
    { RegistryContract.State.empty with admin := some admin })

theorem deployed_ok (sites : Sites) (admin : Address) (ledger : tok.Ledger) :
    TradeContract.init sites.escrow sites.document .empty = .ok (deployed sites admin ledger).1.1 ∧
      EscrowContract.init sites.trade sites.token .empty =
        .ok (deployed sites admin ledger).1.2.1 ∧
      DocumentContract.init sites.registry .empty = .ok (deployed sites admin ledger).2.1 ∧
      RegistryContract.init admin .empty = .ok (deployed sites admin ledger).2.2 :=
  ⟨rfl, rfl, Whitelist.deployed_ok sites.registry, rfl⟩

/-- What a run asks of the trade contract, and so for the others. -/
def trades (ls : List (Label tok)) : List (Tx TradeContract.Call) :=
  (ls.filterMap Sum.getLeft?).filterMap Sum.getLeft?

def escrows (ls : List (Label tok)) : List (EscrowContract.Label tok) :=
  (ls.filterMap Sum.getLeft?).filterMap Sum.getRight?

def documents (ls : List (Label tok)) : List (Tx DocumentContract.Call) :=
  (ls.filterMap Sum.getRight?).filterMap Sum.getLeft?

def registries (ls : List (Label tok)) : List (Tx RegistryContract.Call) :=
  (ls.filterMap Sum.getRight?).filterMap Sum.getRight?

/-- A run of the network is a run of each contract. -/
theorem run_parts (sites : Sites) (s : State tok) (ls : List (Label tok)) :
    (machine tok sites).run s ls =
      (((TradeContract.machine sites.trade).run s.1.1 (trades ls),
          (EscrowContract.machine tok sites.escrow).run s.1.2 (escrows ls)),
        (DocumentContract.machine sites.document).run s.2.1 (documents ls),
        (RegistryContract.machine sites.registry).run s.2.2 (registries ls)) := by
  rw [machine, Machine.beside_run, Machine.beside_run, Machine.beside_run]
  rfl

end Azaka.Network
