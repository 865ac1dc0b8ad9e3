import Azaka.Library.Layout
import Azaka.Library.Machine
import Azaka.Model.Value

namespace Azaka
open Keyed Stepwise Wire

/-- Where an entry is kept: with the contract's instance, or on its own. -/
inductive Durability where
  | ofInstance
  | persistent
  deriving DecidableEq, Repr

/-- What the host keeps for a contract: its entries, the topics and data it has
published, and the contracts beyond it. -/
structure HostState (β : Type) where
  entries : Durability → Store Val Val
  events : List (List Val × Val)
  beyond : β

def HostState.empty {β : Type} (beyond : β) : HostState β where
  entries _ := Store.empty
  events := []
  beyond := beyond

/-- Why the host rolls a call back: the code of the contract's error, a missing
authorisation, or a trap. The message of a panic never leaves the contract. -/
inductive HostError where
  | contract (code : UInt32)
  | unauthorized (a : Address)
  | trapped
  deriving DecidableEq, Repr

/-- The error of a contract that was called is passed on. -/
def Fault.host {ε : Type} (code : ε → UInt32) (subcall : HostError) : Fault ε → HostError
  | .error e => .contract (code e)
  | .unauthorized a => .unauthorized a
  | .panicked _ => .trapped
  | .subcall => subcall

/-- The token contracts, with the errors they fail with. -/
structure HostToken extends Token where
  refusal : Ledger → Address → Address → Address → I128 → HostError

/-- A contract's code as it runs against the host. -/
abbrev Program (β α : Type) := StateT (HostState β) (Except HostError) α

namespace Program
variable {α β : Type}

def trap : Program β α := fun _ => .error .trapped

/-- `return Err(e)`. -/
def fail (code : UInt32) : Program β α := fun _ => .error (.contract code)

def requireAuth (env : Env) (a : Address) : Program β Unit := fun w =>
  if env.auth a then .ok ((), w) else .error (.unauthorized a)

def has (d : Durability) (key : Val) : Program β Bool := fun w =>
  .ok ((w.entries d key).isSome, w)

/-- A value that is not of the type the contract asks for traps. -/
def get (d : Durability) (key : Val) (c : Codec Val α) : Program β (Option α) := fun w =>
  match w.entries d key with
  | none => .ok (none, w)
  | some v =>
    match c.decode v with
    | some a => .ok (some a, w)
    | none => .error .trapped

def set (d : Durability) (key : Val) (c : Codec Val α) (a : α) : Program β Unit := fun w =>
  .ok ((), { w with
    entries := Function.update w.entries d ((w.entries d).set key (c.encode a)) })

def remove (d : Durability) (key : Val) : Program β Unit := fun w =>
  .ok ((), { w with entries := Function.update w.entries d ((w.entries d).remove key) })

def publish (topics : List Val) (data : Val) : Program β Unit := fun w =>
  .ok ((), { w with events := w.events ++ [(topics, data)] })

def unwrap : Option α → Program β α
  | some a => pure a
  | none => trap

def okOr (code : UInt32) : Option α → Program β α
  | some a => pure a
  | none => fail code

/-- `u64` addition, which traps when it overflows. -/
def addU64 (a b : UInt64) : Program β UInt64 :=
  if a.toNat + b.toNat < 2 ^ 64 then pure (a + b) else trap

/-- `token_client.transfer`, which takes the caller with it when it fails. -/
def transfer (tok : HostToken) (token a b : Address) (n : I128) : Program tok.Ledger Unit :=
  fun w =>
    match tok.transfer w.beyond token a b n with
    | some ledger => .ok ((), { w with beyond := ledger })
    | none => .error (tok.refusal w.beyond token a b n)

section Run
variable {γ : Type} {w : HostState β}

theorem run_ok {p : Program β α} {f : α → Program β γ} {a : α} {w' : HostState β}
    (h : p.run w = .ok (a, w')) : (p >>= f).run w = (f a).run w' := by
  rw [StateT.run_bind, h]
  rfl

theorem run_error {p : Program β α} {f : α → Program β γ} {e : HostError}
    (h : p.run w = .error e) : (p >>= f).run w = .error e := by
  rw [StateT.run_bind, h]
  rfl

end Run

end Program

/-- The answer the host makes of what a call came to. -/
def hosted {ε α γ : Type} (fault : Fault ε → HostError) (f : α → γ) (x : Except (Fault ε) α) :
    Except HostError γ :=
  (x.map f).mapError fault

section Hosted
variable {ε α γ : Type} {fault : Fault ε → HostError} {f : α → γ}

@[simp] theorem hosted_ok (a : α) : hosted fault f (.ok a) = .ok (f a) := rfl

@[simp] theorem hosted_error (e : Fault ε) : hosted fault f (.error e) = .error (fault e) := rfl

theorem hosted_cases {ζ : Type} {g : ζ → γ} {x : Except (Fault ε) α} {y : Except HostError ζ}
    (h : y.map g = hosted fault f x) :
    (∃ b a, y = .ok b ∧ x = .ok a ∧ g b = f a) ∨ ∃ e, y = .error (fault e) ∧ x = .error e := by
  cases x with
  | ok a =>
    obtain ⟨b, hb, hg⟩ := map_ok.mp h
    exact .inl ⟨b, a, hb, rfl, hg⟩
  | error e => exact .inr ⟨e, map_error.mp h, rfl⟩

end Hosted

/-- The same transaction with its call read, if it can be read. -/
def Tx.read {κ κ' : Type} (read : κ → Option κ') (tx : Tx κ) : Option (Tx κ') :=
  (read tx.call).map fun call => { auth := tx.auth, sequence := tx.sequence, call := call }

theorem read_bind {κ κ' κ'' : Type} (f : κ → Option κ') (g : κ' → Option κ'') (tx : Tx κ) :
    (Tx.read f tx).bind (Tx.read g) = Tx.read (fun c => (f c).bind g) tx := by
  cases hf : f tx.call with
  | none => simp [Tx.read, hf]
  | some c => simp [Tx.read, hf]

/-- Arguments in full are the kinds the parameters use, or they are refused. -/
def readArgs {κ : Type} (interface : Codec (String × List ScVal) κ) :
    Tx (String × List Val) → Option (Tx κ) :=
  Tx.read fun call => (Val.toElements call.2).bind fun args => interface.decode (call.1, args)

/-- A contract as the host runs it: the arguments are read, and then the entry
point of that name runs. -/
def serve {κ β : Type} (read : Tx (String × List Val) → Option (Tx κ))
    (exec : Env → κ → Program β Val) (self : Address) :
    Machine (HostState β) (Tx (String × List Val)) Val HostError where
  exec tx w :=
    match read tx with
    | some tx => (exec (tx.env self) tx.call).run w
    | none => .error .trapped

end Azaka
