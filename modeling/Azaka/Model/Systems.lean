import Azaka.Library.Interleave
import Azaka.Model.Document
import Azaka.Model.Escrow
import Azaka.Model.Registry

namespace Azaka
open Keyed Stepwise

/-- The trade contract and the document contract, called in any order. Neither
calls the other. -/
abbrev Paperwork.State := TradeContract.State × DocumentContract.State

abbrev Paperwork.Label := Tx TradeContract.Call ⊕ Tx DocumentContract.Call

def Paperwork.machine (trade document : Address) :
    Machine Paperwork.State Paperwork.Label (TradeContract.Return ⊕ DocumentContract.Return)
      (Fault TradeError ⊕ Fault DocumentError) :=
  (TradeContract.machine trade).beside (DocumentContract.machine document)

def Paperwork.deployed : Paperwork.State := (.empty, .empty)

/-- The registry and the document contract, called in any order. Neither calls
the other: the call to `is_authorized` is a comment in the source. -/
abbrev Whitelist.State := RegistryContract.State × DocumentContract.State

abbrev Whitelist.Label := Tx RegistryContract.Call ⊕ Tx DocumentContract.Call

def Whitelist.machine (registry document : Address) :
    Machine Whitelist.State Whitelist.Label (RegistryContract.Return ⊕ DocumentContract.Return)
      (Fault RegistryError ⊕ Fault DocumentError) :=
  (RegistryContract.machine registry).beside (DocumentContract.machine document)

/-- The document contract right after its `initialize`. -/
def Whitelist.deployed (registry : Address) : Whitelist.State :=
  (.empty, { DocumentContract.State.empty with
    registryContract := some registry
    requiredSignatures := fun _ => some 2 })

theorem Whitelist.deployed_ok (registry : Address) :
    DocumentContract.init registry .empty = .ok (Whitelist.deployed registry).2 := by
  have hthreshold : ((((((Store.empty : Store DocumentType UInt32).set .billOfLading 2).set
      .certificateOfOrigin 2).set .inspectionCertificate 2).set
      .phytosanitaryCertificate 2).set .customsDeclaration 2) = fun _ => some 2 := by
    funext d
    cases d <;> rfl
  exact congrArg (fun signatures => Except.ok { DocumentContract.State.empty with
    registryContract := some registry
    requiredSignatures := signatures }) hthreshold

/-- Where the contracts of one system are. -/
structure Deployment where
  trade : Address
  escrow : Address
  document : Address
  token : Address
  apart : trade ≠ escrow

/-- A call with its signatures and the contract that makes it, if one does. -/
structure Invocation (κ : Type) where
  signed : Address → Bool
  caller : Option Address
  sequence : UInt32
  call : κ

/-- The host's rule. A contract authorises the calls it makes itself, and no
other, for it has no `__check_auth`; everybody else signs. -/
def Invocation.authorises {κ : Type} (d : Deployment) (i : Invocation κ) (a : Address) : Bool :=
  i.caller == some a || (i.signed a && a != d.trade && a != d.escrow)

def Invocation.tx {κ : Type} (d : Deployment) (i : Invocation κ) : Tx κ :=
  { auth := i.authorises d, sequence := i.sequence, call := i.call }

/-- A call made by a transaction, and signed by the listed addresses. -/
def invoked {κ : Type} (signers : List Address) (sequence : UInt32) (call : κ) : Invocation κ where
  signed a := signers.contains a
  caller := none
  sequence := sequence
  call := call

namespace Custody

/-- The trade contract with its escrow, and the tokens. -/
abbrev State (tok : Token) := TradeContract.State × EscrowContract.World tok

abbrev Return := TradeContract.Return ⊕ EscrowContract.Return

inductive Label (tok : Token) where
  | trade (i : Invocation TradeContract.Call)
  | escrow (i : Invocation EscrowContract.Call)
  | token (ledger : tok.Ledger)

variable {tok : Token}

def Label.caller : Label tok → Option Address
  | .trade i => i.caller
  | .escrow i => i.caller
  | .token _ => none

/-- Neither contract calls an entry point: the trade contract makes no calls at
all, and the escrow calls the token only. -/
def Legal (d : Deployment) (l : Label tok) : Prop :=
  l.caller ≠ some d.trade ∧ l.caller ≠ some d.escrow

def Label.deliver (d : Deployment) : Label tok → Tx TradeContract.Call ⊕ EscrowContract.Label tok
  | .trade i => .inl (i.tx d)
  | .escrow i => .inr (.call (i.tx d))
  | .token ledger => .inr (.token ledger)

def machine (tok : Token) (d : Deployment) :
    Machine (State tok) (Label tok) Return (Fault TradeError ⊕ Fault EscrowError) :=
  ((TradeContract.machine d.trade).beside (EscrowContract.machine tok d.escrow)).relabel
    (Label.deliver d)

/-- Both contracts right after their `initialize`. -/
def deployed (d : Deployment) (ledger : tok.Ledger) : State tok :=
  ({ TradeContract.State.empty with
      escrowContract := some d.escrow
      documentContract := some d.document
      tradeCounter := some 0 },
    { EscrowContract.State.empty with
      tradeContract := some d.trade
      tokenContract := some d.token },
    ledger)

theorem deployed_ok (d : Deployment) (ledger : tok.Ledger) :
    TradeContract.init d.escrow d.document .empty = .ok (deployed d ledger).1 ∧
      EscrowContract.init d.trade d.token .empty = .ok (deployed d ledger).2.1 :=
  ⟨rfl, rfl⟩

end Custody
end Azaka
