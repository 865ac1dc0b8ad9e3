import Azaka.Proofs.DocumentRuns

namespace Azaka.DocumentContract
open Keyed Stepwise

/-- What is true of a document at one point after its submission and at a later
one: it has all it was submitted with, it cannot be submitted again, and its
signatures were given on the hash it has. -/
structure Permanent (contract : Address) (k : Key) (first : Document) (ls ks : List (Tx Call)) :
    Prop where
  stored : ∃ a b, ((machine contract).run .empty ls).documents k = some a ∧
    ((machine contract).run .empty ks).documents k = some b ∧ first.Grows a ∧ a.Grows b
  closed : ∀ tx h u, tx.call = .submitDocument k.1 k.2 h u →
    (machine contract).exec tx ((machine contract).run .empty ks) =
      .error (.error .documentAlreadyExists)
  signed : ∀ b, ((machine contract).run .empty ks).documents k = some b →
    b.signers = b.submitter :: signatures ((machine contract).log .empty ks) k ∧
      ∀ e ∈ (machine contract).log .empty ks, ∀ a, e.label.call.signature k = some a →
        ∃ old, e.before.documents k = some old ∧ old.docHash = b.docHash

theorem Call.of_signature {c : Call} {id : UInt64} {d : DocumentType} {a : Address}
    (h : c.signature (id, d) = some a) : c = .signDocument id d a := by
  cases c with
  | signDocument id' d' signer =>
    simp only [signature, Prod.mk.injEq, Option.ite_none_right_eq_some, Option.some.injEq] at h
    obtain ⟨⟨rfl, rfl⟩, rfl⟩ := h
    rfl
  | submitDocument _ _ _ _ | init _ | verifyDocument _ _ | getDocument _ _ | allDocsVerified _ _ =>
    cases h

variable (self : Address)

theorem run_grows {s : State} (ls : List (Tx Call)) {k : Key} {document : Document}
    (found : s.documents k = some document) :
    ∃ document', ((machine self).run s ls).documents k = some document' ∧
      document.Grows document' := by
  refine Machine.run_invariant
    (P := fun t : State => ∃ new, t.documents k = some new ∧ document.Grows new) ?_ ls
    ⟨document, found, .refl document⟩
  intro a tx r b ha he
  obtain ⟨old, hold, hgrown⟩ := ha
  obtain ⟨new, hnew, hgrows⟩ := (machine_ok.mp he).grows hold
  exact ⟨new, hnew, hgrown.trans hgrows⟩

theorem run_all_verified {s : State} (ls : List (Tx Call)) {id : UInt64}
    {docs : List DocumentType} (h : allDocsVerified id docs s = true) :
    allDocsVerified id docs ((machine self).run s ls) = true :=
  Machine.run_invariant (P := fun t => allDocsVerified id docs t = true)
    (fun _ _ _ _ ha he => (machine_ok.mp he).all_verified ha) ls h

/-- A document on record is not submitted again. -/
theorem resubmission_refused {s : State} {tx : Tx Call} {id : UInt64} {d : DocumentType}
    {h : BytesN 32} {u : String} (hc : tx.call = .submitDocument id d h u)
    {document : Document} (found : s.documents (id, d) = some document) :
    (machine self).exec tx s = .error (.error .documentAlreadyExists) := by
  simp only [machine, hc, exec, map_error, submitDocument, bind_error, ensure_error]
  left
  simp [found]

/-- Whoever signed, signed the hash that is on record in the end. -/
theorem run_signed_hash {ls : List (Tx Call)} {e : Done State (Tx Call) Return}
    (he : e ∈ (machine self).log .empty ls) {k : Key} {a : Address}
    (hsig : e.label.call.signature k = some a) {document : Document}
    (found : ((machine self).run .empty ls).documents k = some document) :
    ∃ old, e.before.documents k = some old ∧ old.docHash = document.docHash := by
  obtain ⟨pre, post, t, rfl, hbefore, hexec⟩ := Machine.log_mem he
  obtain ⟨id, d⟩ := k
  have hstep := machine_ok.mp hexec
  rw [Call.of_signature hsig] at hstep
  generalize e.result = r at hstep
  cases hstep with
  | @sign _ _ _ old _ hold _ =>
    have hlater := run_grows self (e.label :: post) (hbefore ▸ hold)
    rw [← Machine.run_append, found] at hlater
    obtain ⟨document', hsame, -, -, hhash, -⟩ := hlater
    obtain rfl := Option.some.inj hsame
    exact ⟨old, hold, hhash.symm⟩

theorem submit_next {s : State} {tx : Tx Call} {id : UInt64} {d : DocumentType} {h : BytesN 32}
    {u : String} (hc : tx.call = .submitDocument id d h u) (ha : (machine self).Accepts s tx) :
    ((machine self).next s tx).documents (id, d) = some (submitted (tx.env self) s id d h u) := by
  obtain ⟨r, t, hexec⟩ := ha
  have hstep := machine_ok.mp hexec
  rw [hc] at hstep
  rw [Machine.next_ok hexec]
  cases hstep with
  | submit _ => exact Store.set_same _ _ _

/-- A document on record is permanent. -/
theorem run_permanent {ls ys : List (Tx Call)} {k : Key} {first a : Document}
    (found : ((machine self).run .empty ls).documents k = some a) (grown : first.Grows a) :
    Permanent self k first ls (ls ++ ys) := by
  obtain ⟨b, found', grows⟩ := run_grows self ys found
  rw [← Machine.run_append] at found'
  refine ⟨⟨a, b, found, found', grown, grows⟩, ?_, ?_⟩
  · intro tx h u hc
    exact resubmission_refused self hc found'
  · intro c hfound
    obtain ⟨hsubmitter, hsigners⟩ := (run_recorded self (ls ++ ys)).signers k c hfound
    refine ⟨hsubmitter ▸ hsigners, ?_⟩
    intro e he signer hsig
    exact run_signed_hash self he hsig hfound

/-- Documents are written once: what a successful `submit_document` records is
permanent, and once all of a list are verified they stay so. -/
theorem documents_written_once :
    (∀ (pre : List (Tx Call)) (tx : Tx Call) (id : UInt64) (d : DocumentType) (h : BytesN 32)
      (u : String), tx.call = .submitDocument id d h u →
      (machine self).Accepts ((machine self).run .empty pre) tx → ∀ xs ys,
        Permanent self (id, d)
          (submitted (tx.env self) ((machine self).run .empty pre) id d h u)
          (pre ++ tx :: xs) (pre ++ tx :: xs ++ ys)) ∧
    ∀ (xs ys : List (Tx Call)) (id : UInt64) (docs : List DocumentType),
      allDocsVerified id docs ((machine self).run .empty xs) = true →
        allDocsVerified id docs ((machine self).run .empty (xs ++ ys)) = true := by
  refine ⟨?_, ?_⟩
  · intro pre tx id d h u hc ha xs ys
    obtain ⟨a, found, grown⟩ := run_grows self xs (submit_next self hc ha)
    apply run_permanent self (a := a) ?_ grown
    rw [Machine.run_append, Machine.run_cons, found]
  · intro xs ys id docs h
    rw [Machine.run_append]
    exact run_all_verified self ys h

/-- Another hash for a document that has been signed already. -/
def resubmittedRun : List (Tx Call) :=
  [signed [.account 1] 2 (.signDocument 1 .billOfLading (.account 1)),
   signed [] 3 (.submitDocument 1 .billOfLading (Vector.replicate 32 2) "ipfs://QmTest456")]

theorem resubmitted_run_permanent :
    let submission : Tx Call :=
      signed [] 1 (.submitDocument 1 .billOfLading (Vector.replicate 32 1) "ipfs://QmTest123")
    Permanent (.contract 6) (1, .billOfLading)
      (submitted (submission.env (.contract 6)) .empty 1 .billOfLading (Vector.replicate 32 1)
        "ipfs://QmTest123")
      [submission] ([submission] ++ resubmittedRun) :=
  (documents_written_once (.contract 6)).1 [] _ 1 .billOfLading _ _ rfl ⟨_, _, rfl⟩ []
    resubmittedRun

end Azaka.DocumentContract
