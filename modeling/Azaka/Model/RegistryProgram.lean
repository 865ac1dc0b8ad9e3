import Azaka.Model.Program

namespace Azaka
open Keyed Stepwise Wire Val

def RegistryError.code : RegistryError → UInt32
  | .notAuthorized => 1
  | .participantNotFound => 2
  | .participantAlreadyExists => 3
  | .participantRevoked => 4

/-- What is published, topics first. -/
def RegistryEvent.published : RegistryEvent → List Val × Val
  | .regPart a p => ([.symbol "reg_part", .address a], Participant.codec.encode p)
  | .revPart a => ([.symbol "rev_part", .address a], .void)

namespace RegistryContract

inductive DataKey where
  | participant (address : Address)
  | admin
  deriving DecidableEq, Repr

def DataKey.encode : DataKey → String × List ScVal
  | .participant a => ("Participant", ScVal.addressCodec.one.encode a)
  | .admin => ("Admin", [])

def DataKey.decode : String × List ScVal → Option DataKey
  | ("Participant", args) => (ScVal.addressCodec.one.decode args).map .participant
  | ("Admin", []) => some .admin
  | _ => none

def DataKey.codec : Codec Val DataKey :=
  ofCodec <| variantCodec.comp {
    encode := DataKey.encode
    decode := DataKey.decode
    exact := by
      intro w k
      constructor
      · intro h
        unfold DataKey.decode at h
        split at h
        case h_3 => cases h
        case h_2 =>
          obtain rfl := Option.some.inj h
          rfl
        all_goals
          obtain ⟨p, rfl, rfl⟩ := Codec.map_decode.mp h
          rfl
      · intro h
        subst h
        cases k <;> simp [DataKey.encode, DataKey.decode] }

def DataKey.val (k : DataKey) : Val := codec.encode k

def Return.val : Return → Val
  | .unit => .void
  | .bool b => .bool b
  | .participant p => Participant.codec.encode p
  | .address a => .address a

end RegistryContract

namespace Program.Registry
open RegistryContract

/-- `initialize`. -/
def init (admin : Address) : Program Unit Unit := do
  if ← has .ofInstance DataKey.admin.val then
    trap
  set .ofInstance DataKey.admin.val addressCodec admin

def registerParticipant (env : Env) (address : Address) (participantType : ParticipantType)
    (name jurisdiction : String) : Program Unit Unit := do
  let admin ← unwrap (← get .ofInstance DataKey.admin.val addressCodec)
  requireAuth env admin
  let key := DataKey.participant address
  if ← has .persistent key.val then
    fail RegistryError.participantAlreadyExists.code
  let participant : Participant := {
    address := address
    participantType := participantType
    name := name
    jurisdiction := jurisdiction
    active := true }
  set .persistent key.val Participant.codec participant
  publish [.symbol "reg_part", .address address] (Participant.codec.encode participant)

def isAuthorised (address : Address) (participantType : ParticipantType) : Program Unit Bool := do
  let key := DataKey.participant address
  if let some participant ← get .persistent key.val Participant.codec then
    return participant.active && participant.participantType == participantType
  else
    return false

def revokeParticipant (env : Env) (address : Address) : Program Unit Unit := do
  let admin ← unwrap (← get .ofInstance DataKey.admin.val addressCodec)
  requireAuth env admin
  let key := DataKey.participant address
  let participant ← okOr RegistryError.participantNotFound.code
    (← get .persistent key.val Participant.codec)
  let participant := { participant with active := false }
  set .persistent key.val Participant.codec participant
  publish [.symbol "rev_part", .address address] .void

def getParticipant (address : Address) : Program Unit Participant := do
  let key := DataKey.participant address
  okOr RegistryError.participantNotFound.code (← get .persistent key.val Participant.codec)

def getAdmin : Program Unit Address := do
  unwrap (← get .ofInstance DataKey.admin.val addressCodec)

def exec (env : Env) : Call → Program Unit Val
  | .init a => do init a; return .void
  | .registerParticipant a p n j => do registerParticipant env a p n j; return .void
  | .isAuthorised a p => return .bool (← isAuthorised a p)
  | .revokeParticipant a => do revokeParticipant env a; return .void
  | .getParticipant a => return Participant.codec.encode (← getParticipant a)
  | .getAdmin => return .address (← getAdmin)

def machine (self : Address) : Machine (HostState Unit) (Tx (String × List Val)) Val HostError :=
  serve (readArgs interface) exec self

end Program.Registry
end Azaka
