import Azaka.Library.Codec
import Azaka.Model.Document
import Azaka.Model.Escrow
import Azaka.Model.Registry

namespace Azaka
open Wire

/-- The host's values, as far as the contracts' types use them. -/
inductive ScVal where
  | u32 (n : UInt32)
  | u64 (n : UInt64)
  | i128 (n : I128)
  | bytes (octets : List UInt8)
  | string (s : String)
  | symbol (s : String)
  | vec (elements : List ScVal)
  | map (entries : List (ScVal × ScVal))
  | address (a : Address)

namespace ScVal

def u32Codec : Codec ScVal UInt32 where
  encode := .u32
  decode
    | .u32 n => some n
    | _ => none
  exact w n := by cases w <;> simp [eq_comm]

def u64Codec : Codec ScVal UInt64 where
  encode := .u64
  decode
    | .u64 n => some n
    | _ => none
  exact w n := by cases w <;> simp [eq_comm]

def i128Codec : Codec ScVal I128 where
  encode := .i128
  decode
    | .i128 n => some n
    | _ => none
  exact w n := by cases w <;> simp [eq_comm]

def stringCodec : Codec ScVal String where
  encode := .string
  decode
    | .string s => some s
    | _ => none
  exact w s := by cases w <;> simp [eq_comm]

def symbolCodec : Codec ScVal String where
  encode := .symbol
  decode
    | .symbol s => some s
    | _ => none
  exact w s := by cases w <;> simp [eq_comm]

def addressCodec : Codec ScVal Address where
  encode := .address
  decode
    | .address a => some a
    | _ => none
  exact w a := by cases w <;> simp [eq_comm]

def vecCodec : Codec ScVal (List ScVal) where
  encode := .vec
  decode
    | .vec elements => some elements
    | _ => none
  exact w elements := by cases w <;> simp [eq_comm]

def mapCodec : Codec ScVal (List (ScVal × ScVal)) where
  encode := .map
  decode
    | .map entries => some entries
    | _ => none
  exact w entries := by cases w <;> simp [eq_comm]

def bytesNCodec (n : Nat) : Codec ScVal (BytesN n) where
  encode v := .bytes v.toList
  decode
    | .bytes octets =>
      if h : octets.length = n then some ⟨octets.toArray, by simpa using h⟩ else none
    | _ => none
  exact w v := by
    cases w with
    | bytes octets =>
      simp only [Option.dite_none_right_eq_some, Option.some.injEq, ScVal.bytes.injEq]
      constructor
      · intro h
        obtain ⟨_, rfl⟩ := h
        rfl
      · intro h
        subst h
        exact ⟨by simp, by simp [Vector.toList]⟩
    | u32 _ | u64 _ | i128 _ | string _ | symbol _ | vec _ | map _ | address _ => simp

/-- A unit variant of an enum: a vector of its one name. -/
def unitCodec : Codec ScVal String := vecCodec.comp symbolCodec.one

/-- An entry of a struct: a field under its name. -/
def entryCodec : Codec (ScVal × ScVal) (String × ScVal) where
  encode e := (.symbol e.1, e.2)
  decode
    | (.symbol name, w) => some (name, w)
    | _ => none
  exact w e := by
    obtain ⟨k, w⟩ := w
    cases k <;> simp [eq_comm, Prod.ext_iff]

/-- A struct: a map from the names of the fields. -/
def structCodec : Codec ScVal (List (String × ScVal)) := mapCodec.comp entryCodec.list

end ScVal

open ScVal

/-- The variant's name, which is also its value in the SDK's enum. -/
def DocumentType.name : DocumentType → String
  | .billOfLading => "BillOfLading"
  | .certificateOfOrigin => "CertificateOfOrigin"
  | .inspectionCertificate => "InspectionCertificate"
  | .phytosanitaryCertificate => "PhytosanitaryCertificate"
  | .customsDeclaration => "CustomsDeclaration"

def DocumentType.variants : List DocumentType :=
  [.billOfLading, .certificateOfOrigin, .inspectionCertificate, .phytosanitaryCertificate,
    .customsDeclaration]

theorem DocumentType.mem_variants (d : DocumentType) : d ∈ variants := by
  cases d <;> simp [variants]

theorem DocumentType.name_inj (d e : DocumentType) (h : d.name = e.name) : d = e := by
  cases d <;> cases e <;> first | rfl | simp [name] at h

def DocumentType.codec : Codec ScVal DocumentType :=
  unitCodec.comp (.named name variants mem_variants name_inj)

def ParticipantType.name : ParticipantType → String
  | .issuingBank => "IssuingBank"
  | .confirmingBank => "ConfirmingBank"
  | .freightForwarder => "FreightForwarder"
  | .inspector => "Inspector"
  | .portAuthority => "PortAuthority"

def ParticipantType.codec : Codec ScVal ParticipantType :=
  unitCodec.comp (.named ParticipantType.name
    [.issuingBank, .confirmingBank, .freightForwarder, .inspector, .portAuthority]
    (fun p => by cases p <;> simp)
    (fun p q h => by cases p <;> cases q <;> first | rfl | simp [ParticipantType.name] at h))

/-- The fields in the order of their names, as the host keeps them. -/
def CreateTradeParams.codec : Codec ScVal CreateTradeParams :=
  structCodec.comp <| Codec.iso
    ((i128Codec.field "amount").cons <|
      (u32Codec.field "expiry_ledger").cons <|
      (addressCodec.field "exporter").cons <|
      (addressCodec.field "importer").cons <|
      (addressCodec.field "issuing_bank").cons <|
      ((vecCodec.comp DocumentType.codec.list).field "required_docs").cons <|
      (addressCodec.field "stablecoin_asset").one)
    (fun (amount, expiryLedger, exporter, importer, issuingBank, requiredDocs, stablecoinAsset) =>
      { exporter, importer, issuingBank, stablecoinAsset, amount, requiredDocs, expiryLedger })
    (fun p => (p.amount, p.expiryLedger, p.exporter, p.importer, p.issuingBank, p.requiredDocs,
      p.stablecoinAsset))
    (fun _ => rfl) (fun _ => rfl)

namespace TradeContract

/-- The entry points by name, each with its declared parameters. -/
def Call.encode : Call → String × List ScVal
  | .init e d => ("initialize", (addressCodec.cons addressCodec.one).encode (e, d))
  | .createTrade p => ("create_trade", CreateTradeParams.codec.one.encode p)
  | .confirmTrade id b => ("confirm_trade", (u64Codec.cons addressCodec.one).encode (id, b))
  | .markEscrowDeposited id => ("mark_escrow_deposited", u64Codec.one.encode id)
  | .cancelTrade id c => ("cancel_trade", (u64Codec.cons addressCodec.one).encode (id, c))
  | .expireTrade id => ("expire_trade", u64Codec.one.encode id)
  | .settleTrade id => ("settle_trade", u64Codec.one.encode id)
  | .getTrade id => ("get_trade", u64Codec.one.encode id)
  | .listTradesByExporter e => ("list_trades_by_exporter", addressCodec.one.encode e)

def Call.decode : String × List ScVal → Option Call
  | ("initialize", args) =>
    ((addressCodec.cons addressCodec.one).decode args).map fun (e, d) => .init e d
  | ("create_trade", args) => (CreateTradeParams.codec.one.decode args).map .createTrade
  | ("confirm_trade", args) =>
    ((u64Codec.cons addressCodec.one).decode args).map fun (id, b) => .confirmTrade id b
  | ("mark_escrow_deposited", args) => (u64Codec.one.decode args).map .markEscrowDeposited
  | ("cancel_trade", args) =>
    ((u64Codec.cons addressCodec.one).decode args).map fun (id, c) => .cancelTrade id c
  | ("expire_trade", args) => (u64Codec.one.decode args).map .expireTrade
  | ("settle_trade", args) => (u64Codec.one.decode args).map .settleTrade
  | ("get_trade", args) => (u64Codec.one.decode args).map .getTrade
  | ("list_trades_by_exporter", args) =>
    (addressCodec.one.decode args).map .listTradesByExporter
  | _ => none

def interface : Codec (String × List ScVal) Call where
  encode := Call.encode
  decode := Call.decode
  exact w c := by
    constructor
    · intro h
      unfold Call.decode at h
      split at h
      case h_10 => cases h
      all_goals
        obtain ⟨p, rfl, rfl⟩ := Codec.map_decode.mp h
        rfl
    · intro h
      subst h
      cases c <;> simp [Call.encode, Call.decode]

end TradeContract
namespace EscrowContract

def Call.encode : Call → String × List ScVal
  | .init trade token => ("initialize", (addressCodec.cons addressCodec.one).encode (trade, token))
  | .deposit id a n =>
    ("deposit", (u64Codec.cons (addressCodec.cons i128Codec.one)).encode (id, a, n))
  | .release id a => ("release", (u64Codec.cons addressCodec.one).encode (id, a))
  | .refund id a => ("refund", (u64Codec.cons addressCodec.one).encode (id, a))
  | .getBalance id => ("get_balance", u64Codec.one.encode id)

def Call.decode : String × List ScVal → Option Call
  | ("initialize", args) =>
    ((addressCodec.cons addressCodec.one).decode args).map fun (trade, token) => .init trade token
  | ("deposit", args) =>
    ((u64Codec.cons (addressCodec.cons i128Codec.one)).decode args).map fun (id, a, n) =>
      .deposit id a n
  | ("release", args) =>
    ((u64Codec.cons addressCodec.one).decode args).map fun (id, a) => .release id a
  | ("refund", args) =>
    ((u64Codec.cons addressCodec.one).decode args).map fun (id, a) => .refund id a
  | ("get_balance", args) => (u64Codec.one.decode args).map .getBalance
  | _ => none

def interface : Codec (String × List ScVal) Call where
  encode := Call.encode
  decode := Call.decode
  exact w c := by
    constructor
    · intro h
      unfold Call.decode at h
      split at h
      case h_6 => cases h
      all_goals
        obtain ⟨p, rfl, rfl⟩ := Codec.map_decode.mp h
        rfl
    · intro h
      subst h
      cases c <;> simp [Call.encode, Call.decode]

end EscrowContract

namespace DocumentContract

def Call.encode : Call → String × List ScVal
  | .init r => ("initialize", addressCodec.one.encode r)
  | .submitDocument id d h u =>
    ("submit_document", (u64Codec.cons (DocumentType.codec.cons
      ((bytesNCodec 32).cons stringCodec.one))).encode (id, d, h, u))
  | .signDocument id d a =>
    ("sign_document", (u64Codec.cons (DocumentType.codec.cons addressCodec.one)).encode (id, d, a))
  | .verifyDocument id d =>
    ("verify_document", (u64Codec.cons DocumentType.codec.one).encode (id, d))
  | .getDocument id d => ("get_document", (u64Codec.cons DocumentType.codec.one).encode (id, d))
  | .allDocsVerified id docs =>
    ("all_docs_verified",
      (u64Codec.cons (vecCodec.comp DocumentType.codec.list).one).encode (id, docs))

def Call.decode : String × List ScVal → Option Call
  | ("initialize", args) => (addressCodec.one.decode args).map .init
  | ("submit_document", args) =>
    ((u64Codec.cons (DocumentType.codec.cons ((bytesNCodec 32).cons stringCodec.one))).decode
      args).map fun (id, d, h, u) => .submitDocument id d h u
  | ("sign_document", args) =>
    ((u64Codec.cons (DocumentType.codec.cons addressCodec.one)).decode args).map
      fun (id, d, a) => .signDocument id d a
  | ("verify_document", args) =>
    ((u64Codec.cons DocumentType.codec.one).decode args).map fun (id, d) => .verifyDocument id d
  | ("get_document", args) =>
    ((u64Codec.cons DocumentType.codec.one).decode args).map fun (id, d) => .getDocument id d
  | ("all_docs_verified", args) =>
    ((u64Codec.cons (vecCodec.comp DocumentType.codec.list).one).decode args).map
      fun (id, docs) => .allDocsVerified id docs
  | _ => none

def interface : Codec (String × List ScVal) Call where
  encode := Call.encode
  decode := Call.decode
  exact w c := by
    constructor
    · intro h
      unfold Call.decode at h
      split at h
      case h_7 => cases h
      all_goals
        obtain ⟨p, rfl, rfl⟩ := Codec.map_decode.mp h
        rfl
    · intro h
      subst h
      cases c <;> simp [Call.encode, Call.decode]

end DocumentContract

namespace RegistryContract

def Call.encode : Call → String × List ScVal
  | .init a => ("initialize", addressCodec.one.encode a)
  | .registerParticipant a p n j =>
    ("register_participant", (addressCodec.cons (ParticipantType.codec.cons
      (stringCodec.cons stringCodec.one))).encode (a, p, n, j))
  | .isAuthorised a p =>
    ("is_authorised", (addressCodec.cons ParticipantType.codec.one).encode (a, p))
  | .revokeParticipant a => ("revoke_participant", addressCodec.one.encode a)
  | .getParticipant a => ("get_participant", addressCodec.one.encode a)
  | .getAdmin => ("get_admin", [])

def Call.decode : String × List ScVal → Option Call
  | ("initialize", args) => (addressCodec.one.decode args).map .init
  | ("register_participant", args) =>
    ((addressCodec.cons (ParticipantType.codec.cons (stringCodec.cons stringCodec.one))).decode
      args).map fun (a, p, n, j) => .registerParticipant a p n j
  | ("is_authorised", args) =>
    ((addressCodec.cons ParticipantType.codec.one).decode args).map fun (a, p) => .isAuthorised a p
  | ("revoke_participant", args) => (addressCodec.one.decode args).map .revokeParticipant
  | ("get_participant", args) => (addressCodec.one.decode args).map .getParticipant
  | ("get_admin", []) => some .getAdmin
  | _ => none

def interface : Codec (String × List ScVal) Call where
  encode := Call.encode
  decode := Call.decode
  exact w c := by
    constructor
    · intro h
      unfold Call.decode at h
      split at h
      case h_7 => cases h
      case h_6 =>
        obtain rfl := Option.some.inj h
        rfl
      all_goals
        obtain ⟨p, rfl, rfl⟩ := Codec.map_decode.mp h
        rfl
    · intro h
      subst h
      cases c <;> simp [Call.encode, Call.decode]

end RegistryContract

/-- The contracts the SDK calls, by the names of its configuration. -/
inductive ContractId where
  | trade
  | escrow
  | document
  deriving DecidableEq, Repr

/-- A contract call on its way to the network. -/
structure Operation where
  contract : ContractId
  function : String
  args : List ScVal

inductive ContractCall where
  | trade (call : TradeContract.Call)
  | escrow (call : EscrowContract.Call)
  | document (call : DocumentContract.Call)
  deriving DecidableEq, Repr

/-- What the entry point of that name makes of an operation. -/
def Operation.decode (op : Operation) : Option ContractCall :=
  match op.contract with
  | .trade => (TradeContract.interface.decode (op.function, op.args)).map .trade
  | .escrow => (EscrowContract.interface.decode (op.function, op.args)).map .escrow
  | .document => (DocumentContract.interface.decode (op.function, op.args)).map .document

def ContractCall.operation : ContractCall → Operation
  | .trade c => ⟨.trade, c.encode.1, c.encode.2⟩
  | .escrow c => ⟨.escrow, c.encode.1, c.encode.2⟩
  | .document c => ⟨.document, c.encode.1, c.encode.2⟩

/-- An entry point accepts the encodings of its own calls and nothing else. -/
theorem decode_operation {op : Operation} {c : ContractCall} :
    op.decode = some c ↔ c.operation = op := by
  constructor
  · intro h
    obtain ⟨contract, function, args⟩ := op
    cases contract with
    | trade =>
      obtain ⟨call, hcall, rfl⟩ := Codec.map_decode.mp h
      have hencode : call.encode = (function, args) := hcall
      rw [ContractCall.operation, hencode]
    | escrow =>
      obtain ⟨call, hcall, rfl⟩ := Codec.map_decode.mp h
      have hencode : call.encode = (function, args) := hcall
      rw [ContractCall.operation, hencode]
    | document =>
      obtain ⟨call, hcall, rfl⟩ := Codec.map_decode.mp h
      have hencode : call.encode = (function, args) := hcall
      rw [ContractCall.operation, hencode]
  · intro h
    subst h
    cases c with
    | trade call => exact Codec.map_decode.mpr ⟨call, rfl, rfl⟩
    | escrow call => exact Codec.map_decode.mpr ⟨call, rfl, rfl⟩
    | document call => exact Codec.map_decode.mpr ⟨call, rfl, rfl⟩

end Azaka
