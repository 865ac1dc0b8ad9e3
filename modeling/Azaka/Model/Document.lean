import Azaka.Model.Trade

namespace Azaka
open Keyed Stepwise

/-- `BytesN<n>`. -/
abbrev BytesN (n : Nat) := Vector UInt8 n

structure Document where
  tradeId : UInt64
  docType : DocumentType
  docHash : BytesN 32
  metadataUri : String
  submitter : Address
  signers : List Address
  verified : Bool
  requiredSignatures : UInt32
  deriving DecidableEq, Repr

/-- Append the signature; the document is verified once enough have signed. -/
def Document.sign (document : Document) (signer : Address) : Document :=
  let signers := document.signers ++ [signer]
  { document with
    signers := signers
    verified := document.verified || decide (document.requiredSignatures.toNat ≤ signers.length) }

inductive DocumentError where
  | notAuthorized
  | documentNotFound
  | documentAlreadyExists
  | alreadySigned
  | invalidSignatureCount
  deriving DecidableEq, Repr

/-- One constructor per topic, with the trade id and document type of the topic
first. -/
inductive DocumentEvent where
  | subDoc (tradeId : UInt64) (docType : DocumentType) (submitter : Address) (docHash : BytesN 32)
      (metadataUri : String)
  | signDoc (tradeId : UInt64) (docType : DocumentType) (signer : Address)
  | verDoc (tradeId : UInt64) (docType : DocumentType)
  deriving DecidableEq, Repr

namespace DocumentContract

/-- What `DataKey::Document` is made of. -/
abbrev Key := UInt64 × DocumentType

structure State where
  registryContract : Option Address
  requiredSignatures : Store DocumentType UInt32
  documents : Store Key Document
  events : List DocumentEvent

def State.empty : State where
  registryContract := none
  requiredSignatures := Store.empty
  documents := Store.empty
  events := []

/-- `initialize`. -/
def init (registryContract : Address) (s : State) : Except (Fault DocumentError) State :=
  if s.registryContract.isSome then
    .error (.panicked "Already initialized")
  else
    .ok { s with
      registryContract := some registryContract
      requiredSignatures := ((((s.requiredSignatures.set .billOfLading 2).set
        .certificateOfOrigin 2).set .inspectionCertificate 2).set
        .phytosanitaryCertificate 2).set .customsDeclaration 2 }

/-- The submitter on record is the contract itself; nobody is asked for an
authorisation, and the registry is not consulted. -/
def submitDocument (env : Env) (tradeId : UInt64) (docType : DocumentType) (docHash : BytesN 32)
    (metadataUri : String) (s : State) : Except (Fault DocumentError) State := do
  let submitter := env.current
  ensure (s.documents (tradeId, docType)).isNone .documentAlreadyExists
  let document : Document := {
    tradeId := tradeId
    docType := docType
    docHash := docHash
    metadataUri := metadataUri
    submitter := submitter
    signers := [submitter]
    verified := false
    requiredSignatures := (s.requiredSignatures docType).getD 2 }
  .ok { s with
    documents := s.documents.set (tradeId, docType) document
    events := s.events ++ [.subDoc tradeId docType submitter docHash metadataUri] }

def signDocument (env : Env) (tradeId : UInt64) (docType : DocumentType) (signer : Address)
    (s : State) : Except (Fault DocumentError) State := do
  env.requireAuth signer
  let document ← okOr .documentNotFound (s.documents (tradeId, docType))
  ensure (!document.signers.any (fun existing => existing == signer)) .alreadySigned
  let signed := document.sign signer
  .ok { s with
    documents := s.documents.set (tradeId, docType) signed
    events := s.events ++ .signDoc tradeId docType signer ::
      if signed.verified then [.verDoc tradeId docType] else [] }

def verifyDocument (tradeId : UInt64) (docType : DocumentType) (s : State) : Bool :=
  match s.documents (tradeId, docType) with
  | some document => document.verified
  | none => false

def getDocument (tradeId : UInt64) (docType : DocumentType) (s : State) :
    Except (Fault DocumentError) Document :=
  okOr .documentNotFound (s.documents (tradeId, docType))

def allDocsVerified (tradeId : UInt64) : List DocumentType → State → Bool
  | [], _ => true
  | docType :: docs, s =>
    if !verifyDocument tradeId docType s then false else allDocsVerified tradeId docs s

inductive Call where
  | init (registryContract : Address)
  | submitDocument (tradeId : UInt64) (docType : DocumentType) (docHash : BytesN 32)
      (metadataUri : String)
  | signDocument (tradeId : UInt64) (docType : DocumentType) (signer : Address)
  | verifyDocument (tradeId : UInt64) (docType : DocumentType)
  | getDocument (tradeId : UInt64) (docType : DocumentType)
  | allDocsVerified (tradeId : UInt64) (requiredDocs : List DocumentType)
  deriving DecidableEq, Repr

inductive Return where
  | unit
  | bool (b : Bool)
  | document (document : Document)
  deriving DecidableEq, Repr

def exec (env : Env) (s : State) : Call → Except (Fault DocumentError) (Return × State)
  | .init r => (init r s).map (.unit, ·)
  | .submitDocument id d h u => (submitDocument env id d h u s).map (.unit, ·)
  | .signDocument id d a => (signDocument env id d a s).map (.unit, ·)
  | .verifyDocument id d => .ok (.bool (verifyDocument id d s), s)
  | .getDocument id d => (getDocument id d s).map (fun document => (.document document, s))
  | .allDocsVerified id docs => .ok (.bool (allDocsVerified id docs s), s)

def machine (self : Address) : Machine State (Tx Call) Return (Fault DocumentError) where
  exec tx s := exec (tx.env self) s tx.call

end DocumentContract
end Azaka
