import Azaka.Model.Document

namespace Azaka.DocumentContract
open Keyed Stepwise

/-- The record a successful `submit_document` stores. -/
def submitted (env : Env) (s : State) (id : UInt64) (d : DocumentType) (h : BytesN 32)
    (u : String) : Document where
  tradeId := id
  docType := d
  docHash := h
  metadataUri := u
  submitter := env.current
  signers := [env.current]
  verified := false
  requiredSignatures := (s.requiredSignatures d).getD 2

def State.configured (s : State) (registry : Address) : State :=
  { s with
    registryContract := some registry
    requiredSignatures := ((((s.requiredSignatures.set .billOfLading 2).set
      .certificateOfOrigin 2).set .inspectionCertificate 2).set
      .phytosanitaryCertificate 2).set .customsDeclaration 2 }

/-- Write a record and publish the events about it. -/
def State.put (s : State) (k : Key) (document : Document) (events : List DocumentEvent) : State :=
  { s with documents := s.documents.set k document, events := s.events ++ events }

def signEvents (id : UInt64) (d : DocumentType) (signer : Address) (verified : Bool) :
    List DocumentEvent :=
  .signDoc id d signer :: if verified then [.verDoc id d] else []

/-- Everything a successful call can do. -/
inductive Step (env : Env) (s : State) : Call → Return → State → Prop
  | init {registry : Address} (unset : s.registryContract = none) :
      Step env s (.init registry) .unit (s.configured registry)
  | submit {id : UInt64} {d : DocumentType} {h : BytesN 32} {u : String}
      (absent : s.documents (id, d) = none) :
      Step env s (.submitDocument id d h u) .unit
        (s.put (id, d) (submitted env s id d h u) [.subDoc id d env.current h u])
  | sign {id : UInt64} {d : DocumentType} {signer : Address} {document : Document}
      (auth : env.auth signer = true) (found : s.documents (id, d) = some document)
      (unsigned : signer ∉ document.signers) :
      Step env s (.signDocument id d signer) .unit
        (s.put (id, d) (document.sign signer)
          (signEvents id d signer (document.sign signer).verified))
  | verify {id : UInt64} {d : DocumentType} :
      Step env s (.verifyDocument id d) (.bool (verifyDocument id d s)) s
  | get {id : UInt64} {d : DocumentType} {document : Document}
      (found : s.documents (id, d) = some document) :
      Step env s (.getDocument id d) (.document document) s
  | all {id : UInt64} {docs : List DocumentType} :
      Step env s (.allDocsVerified id docs) (.bool (allDocsVerified id docs s)) s

theorem init_ok {r : Address} {s t : State} :
    init r s = .ok t ↔ s.registryContract = none ∧ t = s.configured r := by
  unfold init
  cases h : s.registryContract with
  | some a => simp
  | none => simp [State.configured, eq_comm]

theorem submitDocument_ok {env : Env} {id : UInt64} {d : DocumentType} {h : BytesN 32} {u : String}
    {s t : State} : submitDocument env id d h u s = .ok t ↔ s.documents (id, d) = none ∧
      t = s.put (id, d) (submitted env s id d h u) [.subDoc id d env.current h u] := by
  simp only [submitDocument, bind_ok, ensure_ok, Option.isNone_iff_eq_none, Except.ok.injEq]
  constructor
  · intro hok
    obtain ⟨_, absent, rfl⟩ := hok
    exact ⟨absent, rfl⟩
  · intro hok
    obtain ⟨absent, rfl⟩ := hok
    exact ⟨(), absent, rfl⟩

theorem scan_unsigned {signers : List Address} {signer : Address} :
    (!signers.any (fun existing => existing == signer)) = true ↔ signer ∉ signers := by
  simp only [Bool.not_eq_true', List.any_eq_false, beq_iff_eq]
  constructor
  · intro h hm
    exact h signer hm rfl
  · intro h a ha he
    exact h (he ▸ ha)

theorem signDocument_ok {env : Env} {id : UInt64} {d : DocumentType} {signer : Address}
    {s t : State} : signDocument env id d signer s = .ok t ↔ env.auth signer = true ∧
      ∃ document, s.documents (id, d) = some document ∧ signer ∉ document.signers ∧
        t = s.put (id, d) (document.sign signer)
          (signEvents id d signer (document.sign signer).verified) := by
  simp only [signDocument, bind_ok, requireAuth_ok, okOr_ok, ensure_ok, scan_unsigned,
    Except.ok.injEq]
  constructor
  · intro hok
    obtain ⟨_, auth, document, found, _, unsigned, rfl⟩ := hok
    exact ⟨auth, document, found, unsigned, rfl⟩
  · intro hok
    obtain ⟨auth, document, found, unsigned, rfl⟩ := hok
    exact ⟨(), auth, document, found, (), unsigned, rfl⟩

/-- The step relation is exactly the successful calls. -/
theorem exec_ok {env : Env} {s t : State} {c : Call} {r : Return} :
    exec env s c = .ok (r, t) ↔ Step env s c r t := by
  constructor
  · intro h
    cases c with
    | init a =>
      obtain ⟨t, ht, ⟨⟩⟩ := map_ok.mp h
      obtain ⟨unset, rfl⟩ := init_ok.mp ht
      exact .init unset
    | submitDocument id d hash u =>
      obtain ⟨t, ht, ⟨⟩⟩ := map_ok.mp h
      obtain ⟨absent, rfl⟩ := submitDocument_ok.mp ht
      exact .submit absent
    | signDocument id d a =>
      obtain ⟨t, ht, ⟨⟩⟩ := map_ok.mp h
      obtain ⟨auth, document, found, unsigned, rfl⟩ := signDocument_ok.mp ht
      exact .sign auth found unsigned
    | verifyDocument id d =>
      cases h
      exact .verify
    | getDocument id d =>
      obtain ⟨document, ht, ⟨⟩⟩ := map_ok.mp h
      exact .get (okOr_ok.mp ht)
    | allDocsVerified id docs =>
      cases h
      exact .all
  · intro h
    cases h with
    | init unset => exact map_ok.mpr ⟨_, init_ok.mpr ⟨unset, rfl⟩, rfl⟩
    | submit absent => exact map_ok.mpr ⟨_, submitDocument_ok.mpr ⟨absent, rfl⟩, rfl⟩
    | sign auth found unsigned =>
      exact map_ok.mpr ⟨_, signDocument_ok.mpr ⟨auth, _, found, unsigned, rfl⟩, rfl⟩
    | get found => exact map_ok.mpr ⟨_, okOr_ok.mpr found, rfl⟩
    | verify | all => rfl

theorem machine_ok {self : Address} {tx : Tx Call} {s t : State} {r : Return} :
    (machine self).exec tx s = .ok (r, t) ↔ Step (tx.env self) s tx.call r t := exec_ok

end Azaka.DocumentContract
