import Azaka.Model.Program

namespace Azaka
open Keyed Stepwise Wire Val

def DocumentError.code : DocumentError → UInt32
  | .notAuthorized => 1
  | .documentNotFound => 2
  | .documentAlreadyExists => 3
  | .alreadySigned => 4
  | .invalidSignatureCount => 5

def bytes32Codec : Codec Val (BytesN 32) := ofCodec (ScVal.bytesNCodec 32)

def docTypeCodec : Codec Val DocumentType := ofCodec DocumentType.codec

/-- What is published, topics first. -/
def DocumentEvent.published : DocumentEvent → List Val × Val
  | .subDoc id d a h u =>
    ([.symbol "sub_doc", .u64 id, docTypeCodec.encode d],
      .vec [.address a, bytes32Codec.encode h, .string u])
  | .signDoc id d a => ([.symbol "sign_doc", .u64 id, docTypeCodec.encode d], .address a)
  | .verDoc id d => ([.symbol "ver_doc", .u64 id, docTypeCodec.encode d], .void)

namespace DocumentContract

inductive DataKey where
  | document (tradeId : UInt64) (docType : DocumentType)
  | registryContract
  | requiredSignatures (docType : DocumentType)
  deriving DecidableEq, Repr

def DataKey.encode : DataKey → String × List ScVal
  | .document id d => ("Document", (ScVal.u64Codec.cons DocumentType.codec.one).encode (id, d))
  | .registryContract => ("RegistryContract", [])
  | .requiredSignatures d => ("RequiredSignatures", DocumentType.codec.one.encode d)

def DataKey.decode : String × List ScVal → Option DataKey
  | ("Document", args) =>
    ((ScVal.u64Codec.cons DocumentType.codec.one).decode args).map fun (id, d) => .document id d
  | ("RegistryContract", []) => some .registryContract
  | ("RequiredSignatures", args) => (DocumentType.codec.one.decode args).map .requiredSignatures
  | _ => none

def DataKey.codec : Codec Val DataKey :=
  ofCodec <| variantCodec.comp {
    encode := DataKey.encode
    decode := DataKey.decode
    exact := by
      intro w k
      constructor
      · intro h
        unfold DataKey.decode at h
        split at h
        case h_2 =>
          obtain rfl := Option.some.inj h
          rfl
        case h_4 => cases h
        all_goals
          obtain ⟨p, rfl, rfl⟩ := Codec.map_decode.mp h
          rfl
      · intro h
        subst h
        cases k <;> simp [DataKey.encode, DataKey.decode] }

def DataKey.val (k : DataKey) : Val := codec.encode k

def Return.val : Return → Val
  | .unit => .void
  | .bool b => .bool b
  | .document d => Document.codec.encode d

end DocumentContract

namespace Program.Document
open DocumentContract

/-- A call with its arguments converted as the entry point's wrapper does it. The
elements of `required_docs` are converted when they are read. -/
inductive HostCall where
  | init (registryContract : Address)
  | submitDocument (tradeId : UInt64) (docType : DocumentType) (docHash : BytesN 32)
      (metadataUri : String)
  | signDocument (tradeId : UInt64) (docType : DocumentType) (signer : Address)
  | verifyDocument (tradeId : UInt64) (docType : DocumentType)
  | getDocument (tradeId : UInt64) (docType : DocumentType)
  | allDocsVerified (tradeId : UInt64) (requiredDocs : List Val)

def HostCall.encode : HostCall → String × List Val
  | .init r => ("initialize", addressCodec.one.encode r)
  | .submitDocument id d h u =>
    ("submit_document", (u64Codec.cons (docTypeCodec.cons
      (bytes32Codec.cons stringCodec.one))).encode (id, d, h, u))
  | .signDocument id d a =>
    ("sign_document", (u64Codec.cons (docTypeCodec.cons addressCodec.one)).encode (id, d, a))
  | .verifyDocument id d => ("verify_document", (u64Codec.cons docTypeCodec.one).encode (id, d))
  | .getDocument id d => ("get_document", (u64Codec.cons docTypeCodec.one).encode (id, d))
  | .allDocsVerified id docs =>
    ("all_docs_verified", (u64Codec.cons listCodec.one).encode (id, docs))

def HostCall.decode : String × List Val → Option HostCall
  | ("initialize", args) => (addressCodec.one.decode args).map .init
  | ("submit_document", args) =>
    ((u64Codec.cons (docTypeCodec.cons (bytes32Codec.cons stringCodec.one))).decode args).map
      fun (id, d, h, u) => .submitDocument id d h u
  | ("sign_document", args) =>
    ((u64Codec.cons (docTypeCodec.cons addressCodec.one)).decode args).map
      fun (id, d, a) => .signDocument id d a
  | ("verify_document", args) =>
    ((u64Codec.cons docTypeCodec.one).decode args).map fun (id, d) => .verifyDocument id d
  | ("get_document", args) =>
    ((u64Codec.cons docTypeCodec.one).decode args).map fun (id, d) => .getDocument id d
  | ("all_docs_verified", args) =>
    ((u64Codec.cons listCodec.one).decode args).map fun (id, docs) => .allDocsVerified id docs
  | _ => none

def hostInterface : Codec (String × List Val) HostCall where
  encode := HostCall.encode
  decode := HostCall.decode
  exact w c := by
    constructor
    · intro h
      unfold HostCall.decode at h
      split at h
      case h_7 => cases h
      all_goals
        obtain ⟨p, rfl, rfl⟩ := Codec.map_decode.mp h
        rfl
    · intro h
      subst h
      cases c <;> simp [HostCall.encode, HostCall.decode]

/-- An element of a vector, when it is read. -/
def element {α : Type} (c : Codec Val α) (v : Val) : Program Unit α := unwrap (c.decode v)

/-- `initialize`. -/
def init (registryContract : Address) : Program Unit Unit := do
  if ← has .ofInstance DataKey.registryContract.val then
    trap
  set .ofInstance DataKey.registryContract.val addressCodec registryContract
  set .ofInstance (DataKey.requiredSignatures .billOfLading).val u32Codec 2
  set .ofInstance (DataKey.requiredSignatures .certificateOfOrigin).val u32Codec 2
  set .ofInstance (DataKey.requiredSignatures .inspectionCertificate).val u32Codec 2
  set .ofInstance (DataKey.requiredSignatures .phytosanitaryCertificate).val u32Codec 2
  set .ofInstance (DataKey.requiredSignatures .customsDeclaration).val u32Codec 2

def submitDocument (env : Env) (tradeId : UInt64) (docType : DocumentType) (docHash : BytesN 32)
    (metadataUri : String) : Program Unit Unit := do
  let submitter := env.current
  let key := DataKey.document tradeId docType
  if ← has .persistent key.val then
    fail DocumentError.documentAlreadyExists.code
  let requiredSigs := (← get .ofInstance (DataKey.requiredSignatures docType).val u32Codec).getD 2
  let signers := [submitter]
  let document : Azaka.Document := {
    tradeId := tradeId
    docType := docType
    docHash := docHash
    metadataUri := metadataUri
    submitter := submitter
    signers := signers
    verified := false
    requiredSignatures := requiredSigs }
  set .persistent key.val Document.codec document
  publish [.symbol "sub_doc", .u64 tradeId, docTypeCodec.encode docType]
    (.vec [.address submitter, bytes32Codec.encode docHash, .string metadataUri])

def signDocument (env : Env) (tradeId : UInt64) (docType : DocumentType) (signer : Address) :
    Program Unit Unit := do
  requireAuth env signer
  let key := DataKey.document tradeId docType
  let document ← okOr DocumentError.documentNotFound.code (← get .persistent key.val Document.codec)
  for existingSigner in document.signers do
    if existingSigner == signer then
      fail DocumentError.alreadySigned.code
  let mut document := { document with signers := document.signers ++ [signer] }
  if document.signers.length ≥ document.requiredSignatures.toNat then
    document := { document with verified := true }
  set .persistent key.val Document.codec document
  publish [.symbol "sign_doc", .u64 tradeId, docTypeCodec.encode docType] (.address signer)
  if document.verified then
    publish [.symbol "ver_doc", .u64 tradeId, docTypeCodec.encode docType] .void

def verifyDocument (tradeId : UInt64) (docType : DocumentType) : Program Unit Bool := do
  let key := DataKey.document tradeId docType
  if let some document ← get .persistent key.val Document.codec then
    return document.verified
  else
    return false

def getDocument (tradeId : UInt64) (docType : DocumentType) : Program Unit Azaka.Document := do
  let key := DataKey.document tradeId docType
  okOr DocumentError.documentNotFound.code (← get .persistent key.val Document.codec)

def allDocsVerified (tradeId : UInt64) (requiredDocs : List Val) : Program Unit Bool := do
  for v in requiredDocs do
    let docType ← element docTypeCodec v
    if !(← verifyDocument tradeId docType) then
      return false
  return true

def exec (env : Env) : HostCall → Program Unit Val
  | .init r => do init r; return .void
  | .submitDocument id d h u => do submitDocument env id d h u; return .void
  | .signDocument id d a => do signDocument env id d a; return .void
  | .verifyDocument id d => return .bool (← verifyDocument id d)
  | .getDocument id d => return Document.codec.encode (← getDocument id d)
  | .allDocsVerified id docs => return .bool (← allDocsVerified id docs)

def machine (self : Address) : Machine (HostState Unit) (Tx (String × List Val)) Val HostError :=
  serve (Tx.read hostInterface.decode) exec self

end Program.Document
end Azaka
