import Azaka.Library.Machine
import Azaka.Library.Store
import Azaka.Model.Host

namespace Azaka
open Keyed Stepwise

inductive ParticipantType where
  | issuingBank
  | confirmingBank
  | freightForwarder
  | inspector
  | portAuthority
  deriving DecidableEq, Repr

structure Participant where
  address : Address
  participantType : ParticipantType
  name : String
  jurisdiction : String
  active : Bool
  deriving DecidableEq, Repr

inductive RegistryError where
  | notAuthorized
  | participantNotFound
  | participantAlreadyExists
  | participantRevoked
  deriving DecidableEq, Repr

/-- One constructor per topic, with the address of the topic first. -/
inductive RegistryEvent where
  | regPart (address : Address) (participant : Participant)
  | revPart (address : Address)
  deriving DecidableEq, Repr

namespace RegistryContract

structure State where
  admin : Option Address
  participants : Store Address Participant
  events : List RegistryEvent

def State.empty : State where
  admin := none
  participants := Store.empty
  events := []

/-- `initialize`. -/
def init (admin : Address) (s : State) : Except (Fault RegistryError) State :=
  if s.admin.isSome then
    .error (.panicked "Already initialized")
  else
    .ok { s with admin := some admin }

def registerParticipant (env : Env) (address : Address) (participantType : ParticipantType)
    (name jurisdiction : String) (s : State) : Except (Fault RegistryError) State := do
  let admin ← unwrap s.admin
  env.requireAuth admin
  ensure (s.participants address).isNone .participantAlreadyExists
  let participant : Participant := {
    address := address
    participantType := participantType
    name := name
    jurisdiction := jurisdiction
    active := true }
  .ok { s with
    participants := s.participants.set address participant
    events := s.events ++ [.regPart address participant] }

def isAuthorised (address : Address) (participantType : ParticipantType) (s : State) : Bool :=
  match s.participants address with
  | some participant => participant.active && participant.participantType == participantType
  | none => false

def revokeParticipant (env : Env) (address : Address) (s : State) :
    Except (Fault RegistryError) State := do
  let admin ← unwrap s.admin
  env.requireAuth admin
  let participant ← okOr .participantNotFound (s.participants address)
  .ok { s with
    participants := s.participants.set address { participant with active := false }
    events := s.events ++ [.revPart address] }

def getParticipant (address : Address) (s : State) : Except (Fault RegistryError) Participant :=
  okOr .participantNotFound (s.participants address)

def getAdmin (s : State) : Except (Fault RegistryError) Address := unwrap s.admin

inductive Call where
  | init (admin : Address)
  | registerParticipant (address : Address) (participantType : ParticipantType)
      (name jurisdiction : String)
  | isAuthorised (address : Address) (participantType : ParticipantType)
  | revokeParticipant (address : Address)
  | getParticipant (address : Address)
  | getAdmin
  deriving DecidableEq, Repr

inductive Return where
  | unit
  | bool (b : Bool)
  | participant (participant : Participant)
  | address (address : Address)
  deriving DecidableEq, Repr

def exec (env : Env) (s : State) : Call → Except (Fault RegistryError) (Return × State)
  | .init a => (init a s).map (.unit, ·)
  | .registerParticipant a p n j => (registerParticipant env a p n j s).map (.unit, ·)
  | .isAuthorised a p => .ok (.bool (isAuthorised a p s), s)
  | .revokeParticipant a => (revokeParticipant env a s).map (.unit, ·)
  | .getParticipant a => (getParticipant a s).map (fun participant => (.participant participant, s))
  | .getAdmin => (getAdmin s).map (fun admin => (.address admin, s))

def machine (self : Address) : Machine State (Tx Call) Return (Fault RegistryError) where
  exec tx s := exec (tx.env self) s tx.call

end RegistryContract
end Azaka
