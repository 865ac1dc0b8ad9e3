import Azaka.Proofs.DocumentSteps

namespace Azaka

/-- The later document is the same one, with as many signatures or more. -/
def Document.Grows (old new : Document) : Prop :=
  new.tradeId = old.tradeId ∧ new.docType = old.docType ∧ new.docHash = old.docHash ∧
    new.metadataUri = old.metadataUri ∧ new.submitter = old.submitter ∧
    new.requiredSignatures = old.requiredSignatures ∧ old.signers <+: new.signers ∧
    (old.verified = true → new.verified = true)

theorem Document.Grows.refl (document : Document) : document.Grows document :=
  ⟨rfl, rfl, rfl, rfl, rfl, rfl, List.prefix_rfl, fun h => h⟩

theorem Document.Grows.trans {a b c : Document} (hab : a.Grows b) (hbc : b.Grows c) :
    a.Grows c := by
  obtain ⟨h₁, h₂, h₃, h₄, h₅, h₆, hsigners, hverified⟩ := hab
  obtain ⟨g₁, g₂, g₃, g₄, g₅, g₆, gsigners, gverified⟩ := hbc
  exact ⟨g₁.trans h₁, g₂.trans h₂, g₃.trans h₃, g₄.trans h₄, g₅.trans h₅, g₆.trans h₆,
    hsigners.trans gsigners, fun h => gverified (hverified h)⟩

theorem Document.sign_grows (document : Document) (signer : Address) :
    document.Grows (document.sign signer) :=
  ⟨rfl, rfl, rfl, rfl, rfl, rfl, List.prefix_append _ _, fun h => by simp [sign, h]⟩

namespace DocumentContract
open Keyed Stepwise

/-- No call deletes a document. -/
theorem Step.stored {env : Env} {s t : State} {c : Call} {r : Return} (h : Step env s c r t)
    {k : Key} (hs : (s.documents k).isSome) : (t.documents k).isSome := by
  cases h with
  | submit _ | sign _ _ _ =>
    simp only [State.put, Store.set_apply]
    split
    · rfl
    · exact hs
  | init _ | verify | get _ | all => exact hs

theorem verify_document_iff {id : UInt64} {d : DocumentType} {s : State} :
    verifyDocument id d s = true ↔
      ∃ document, s.documents (id, d) = some document ∧ document.verified = true := by
  unfold verifyDocument
  cases s.documents (id, d) <;> simp

theorem all_docs_verified_iff {id : UInt64} {docs : List DocumentType} {s : State} :
    allDocsVerified id docs s = true ↔ ∀ d ∈ docs, verifyDocument id d s = true := by
  induction docs with
  | nil => simp [allDocsVerified]
  | cons d docs ih => cases h : verifyDocument id d s <;> simp [allDocsVerified, h, ih]

/-- No document is replaced, and a signature only adds to it. -/
theorem Step.grows {env : Env} {s t : State} {c : Call} {r : Return} (h : Step env s c r t)
    {k : Key} {document : Document} (found : s.documents k = some document) :
    ∃ document', t.documents k = some document' ∧ document.Grows document' := by
  cases h with
  | init _ | verify | get _ | all => exact ⟨document, found, .refl document⟩
  | @submit id d _ _ absent =>
    have hne : k ≠ (id, d) := by
      intro he
      rw [he, absent] at found
      cases found
    exact ⟨document, by simp only [State.put, Store.set_of_ne hne, found], .refl document⟩
  | @sign id d signer old _ hold _ =>
    by_cases he : k = (id, d)
    · subst he
      obtain rfl := Option.some.inj (found.symm.trans hold)
      exact ⟨document.sign signer, Store.set_same _ _ _, document.sign_grows signer⟩
    · exact ⟨document, by simp only [State.put, Store.set_of_ne he, found], .refl document⟩

theorem Step.verified {env : Env} {s t : State} {c : Call} {r : Return} (h : Step env s c r t)
    {id : UInt64} {d : DocumentType} (hs : verifyDocument id d s = true) :
    verifyDocument id d t = true := by
  obtain ⟨document, found, verified⟩ := verify_document_iff.mp hs
  obtain ⟨document', found', -, -, -, -, -, -, -, hkeep⟩ := h.grows found
  exact verify_document_iff.mpr ⟨document', found', hkeep verified⟩

theorem Step.all_verified {env : Env} {s t : State} {c : Call} {r : Return} (h : Step env s c r t)
    {id : UInt64} {docs : List DocumentType} (hs : allDocsVerified id docs s = true) :
    allDocsVerified id docs t = true := by
  rw [all_docs_verified_iff] at hs ⊢
  intro d hd
  exact h.verified (hs d hd)

end DocumentContract
end Azaka
