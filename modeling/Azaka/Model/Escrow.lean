import Azaka.Library.Machine
import Azaka.Library.Store
import Azaka.Model.Token

namespace Azaka
open Keyed Stepwise

inductive EscrowError where
  | notAuthorized
  | insufficientBalance
  | alreadyDeposited
  | noBalance
  | transferFailed
  deriving DecidableEq, Repr

/-- One constructor per topic, with the trade id of the topic first. -/
inductive EscrowEvent where
  | deposit (tradeId : UInt64) (depositor : Address) (amount : I128)
  | release (tradeId : UInt64) (recipient : Address) (amount : I128)
  | refund (tradeId : UInt64) (recipient : Address) (amount : I128)
  deriving DecidableEq, Repr

namespace EscrowContract

structure State where
  tradeContract : Option Address
  tokenContract : Option Address
  balances : Store UInt64 I128
  events : List EscrowEvent

def State.empty : State where
  tradeContract := none
  tokenContract := none
  balances := Store.empty
  events := []

def State.publish (s : State) (e : EscrowEvent) : State := { s with events := s.events ++ [e] }

/-- `initialize`. -/
def init (tradeContract tokenContract : Address) (s : State) : Except (Fault EscrowError) State :=
  if s.tradeContract.isSome then
    .error (.panicked "Already initialized")
  else
    .ok { s with tradeContract := some tradeContract, tokenContract := some tokenContract }

variable (tok : Token)

/-- The contract's storage and the ledger of the tokens it calls. -/
abbrev World := State × tok.Ledger

variable {tok}

/-- The source's `from` and `to` are keywords in Lean. -/
def deposit (env : Env) (tradeId : UInt64) (depositor : Address) (amount : I128) (w : World tok) :
    Except (Fault EscrowError) (World tok) := do
  env.requireAuth depositor
  ensure (w.1.balances tradeId).isNone .alreadyDeposited
  let tokenContract ← unwrap w.1.tokenContract
  let ledger ← tok.call w.2 tokenContract depositor env.current amount
  let stored : State := { w.1 with balances := w.1.balances.set tradeId amount }
  .ok (stored.publish (.deposit tradeId depositor amount), ledger)

/-- The body that `release` and `refund` share, down to the event. -/
def payOut (env : Env) (tradeId : UInt64) (recipient : Address) (event : I128 → EscrowEvent)
    (w : World tok) : Except (Fault EscrowError) (World tok) := do
  let tradeContract ← unwrap w.1.tradeContract
  env.requireAuth tradeContract
  let amount ← okOr .noBalance (w.1.balances tradeId)
  let tokenContract ← unwrap w.1.tokenContract
  let ledger ← tok.call w.2 tokenContract env.current recipient amount
  let removed : State := { w.1 with balances := w.1.balances.remove tradeId }
  .ok (removed.publish (event amount), ledger)

def release (env : Env) (tradeId : UInt64) (recipient : Address) (w : World tok) :
    Except (Fault EscrowError) (World tok) :=
  payOut env tradeId recipient (.release tradeId recipient) w

def refund (env : Env) (tradeId : UInt64) (recipient : Address) (w : World tok) :
    Except (Fault EscrowError) (World tok) :=
  payOut env tradeId recipient (.refund tradeId recipient) w

def getBalance (tradeId : UInt64) (s : State) : I128 := (s.balances tradeId).getD 0

inductive Call where
  | init (tradeContract tokenContract : Address)
  | deposit (tradeId : UInt64) (depositor : Address) (amount : I128)
  | release (tradeId : UInt64) (recipient : Address)
  | refund (tradeId : UInt64) (recipient : Address)
  | getBalance (tradeId : UInt64)
  deriving DecidableEq, Repr

inductive Return where
  | unit
  | amount (amount : I128)
  deriving DecidableEq, Repr

def exec (env : Env) (w : World tok) : Call → Except (Fault EscrowError) (Return × World tok)
  | .init trade token => (init trade token w.1).map (fun s => (.unit, (s, w.2)))
  | .deposit id a n => (deposit env id a n w).map (.unit, ·)
  | .release id a => (release env id a w).map (.unit, ·)
  | .refund id a => (refund env id a w).map (.unit, ·)
  | .getBalance id => .ok (.amount (getBalance id w.1), w)

/-- A call of the contract, or anything else that happens to the tokens. -/
inductive Label (tok : Token) where
  | call (tx : Tx Call)
  | token (ledger : tok.Ledger)

def machine (tok : Token) (self : Address) :
    Machine (World tok) (Label tok) Return (Fault EscrowError) where
  exec
    | .call tx, w => exec (tx.env self) w tx.call
    | .token ledger, w => .ok (.unit, (w.1, ledger))

end EscrowContract
end Azaka
