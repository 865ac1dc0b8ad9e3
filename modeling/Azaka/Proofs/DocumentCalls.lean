import Azaka.Proofs.DocumentSigners
import Azaka.Proofs.DocumentVerification

namespace Azaka.DocumentContract
open Keyed Stepwise

/-- A call that submits this document, whether it is accepted or not. -/
def Call.submits (k : Key) : Call → Prop
  | .submitDocument id d _ _ => (id, d) = k
  | _ => False

/-- A call that signs this document with the signer's authorisation, and not as
the contract itself. -/
def Countersigns (contract : Address) (k : Key) (tx : Tx Call) : Prop :=
  ∃ a, tx.call = .signDocument k.1 k.2 a ∧ tx.auth a = true ∧ a ≠ contract

/-- Among the calls of the run, the document is submitted, and signed later. -/
def Called (contract : Address) (ls : List (Tx Call)) (k : Key) : Prop :=
  ∃ pre sub mid sig post, ls = pre ++ sub :: (mid ++ sig :: post) ∧ sub.call.submits k ∧
    Countersigns contract k sig

variable (self : Address)

theorem submits_stores {s : State} {tx : Tx Call} {k : Key} (h : tx.call.submits k) :
    (((machine self).next s tx).documents k).isSome := by
  cases hc : tx.call with
  | submitDocument id d hash u =>
    rw [hc] at h
    obtain rfl : (id, d) = k := h
    exact submit_stores self hc
  | init _ | signDocument _ _ _ | verifyDocument _ _ | getDocument _ _ | allDocsVerified _ _ =>
    rw [hc] at h
    cases h

/-- Whoever signs a document on record is one of its signers afterwards. -/
theorem signs_joins {s : State} {tx : Tx Call} {k : Key} {a : Address}
    (hc : tx.call = .signDocument k.1 k.2 a) (auth : tx.auth a = true) {document : Document}
    (found : s.documents k = some document) :
    ∃ signed, ((machine self).next s tx).documents k = some signed ∧ a ∈ signed.signers := by
  by_cases known : a ∈ document.signers
  · obtain ⟨signed, hsigned, hgrows⟩ := run_grows self [tx] found
    obtain ⟨-, -, -, -, -, -, hprefix, -⟩ := hgrows
    exact ⟨signed, hsigned, hprefix.subset known⟩
  · have hstep : Step (tx.env self) s (.signDocument k.1 k.2 a) .unit _ :=
      .sign auth found known
    rw [Machine.next_ok (machine_ok.mpr (hc ▸ hstep))]
    exact ⟨document.sign a, by simp [State.put], by simp [Document.sign]⟩

/-- One signer besides the contract is enough. -/
theorem run_joined_verified {ls : List (Tx Call)} {k : Key} {document : Document} {a : Address}
    (found : ((machine self).run .empty ls).documents k = some document)
    (joined : a ∈ document.signers) (other : a ≠ self) : document.verified = true := by
  refine (run_verified self found).mpr ?_
  have hsigners := ((run_recorded self ls).signers k document found).2
  rw [hsigners] at joined ⊢
  obtain hself | hsigned := List.mem_cons.mp joined
  · exact absurd hself other
  · exact Nat.succ_le_succ (List.length_pos_of_mem hsigned)

theorem called_verified {ls : List (Tx Call)} {id : UInt64} {d : DocumentType}
    (h : Called self ls (id, d)) : verifyDocument id d ((machine self).run .empty ls) = true := by
  obtain ⟨pre, sub, mid, sig, post, rfl, hsub, a, hcall, auth, other⟩ := h
  have hstored : (((machine self).run .empty (pre ++ sub :: mid)).documents (id, d)).isSome := by
    rw [Machine.run_append, Machine.run_cons]
    exact run_stored self _ mid (submits_stores self hsub)
  obtain ⟨document, found⟩ := Option.isSome_iff_exists.mp hstored
  obtain ⟨signed, hsigned, joined⟩ := signs_joins self hcall auth found
  rw [← Machine.run_concat] at hsigned
  have hverified := run_joined_verified self hsigned joined other
  obtain ⟨final, hfinal, hgrows⟩ := run_grows self post hsigned
  obtain ⟨-, -, -, -, -, -, -, hstays⟩ := hgrows
  refine verify_document_iff.mpr ⟨final, ?_, hstays hverified⟩
  simpa using hfinal

theorem verified_called {ls : List (Tx Call)} {id : UInt64} {d : DocumentType}
    (h : verifyDocument id d ((machine self).run .empty ls) = true) : Called self ls (id, d) := by
  obtain ⟨document, found, hverified⟩ := verify_document_iff.mp h
  have hone := (run_signatures self ls found).2.mp hverified
  obtain ⟨a, hmem⟩ := List.exists_mem_of_length_pos hone
  obtain ⟨e, hlog, hsignature⟩ := List.mem_filterMap.mp hmem
  obtain ⟨pre, post, t, rfl, hbefore, hexec⟩ := Machine.log_mem hlog
  have hcall := Call.of_signature hsignature
  have hstep := machine_ok.mp hexec
  rw [hcall, ← hbefore] at hstep
  generalize e.result = r at hstep
  cases hstep with
  | sign auth stored unsigned =>
    -- what is signed has been submitted before, and the contract is a signer since then
    have hsome : (((machine self).run .empty pre).documents (id, d)).isSome :=
      Option.isSome_iff_exists.mpr ⟨_, stored⟩
    obtain ⟨e', hlog', hsubmit⟩ := run_submitted self pre hsome
    obtain ⟨xs, ys, -, rfl, -⟩ := Machine.log_mem hlog'
    obtain ⟨hash, u, hsub⟩ := hsubmit.call
    refine ⟨xs, e'.label, ys, e.label, post, by simp, ?_, a, hcall, auth, ?_⟩
    · rw [hsub]
      rfl
    · intro hself
      have hsigners := ((run_recorded self _).signers (id, d) _ stored).2
      rw [hsigners, hself] at unsigned
      exact unsigned List.mem_cons_self

/-- The calls alone decide what is verified. All documents of a list are
verified at the end of a run exactly if each was submitted, by anybody, and later
signed by somebody other than the contract. No other call can prevent it. -/
theorem verified_iff_called (ls : List (Tx Call)) (id : UInt64) (docs : List DocumentType) :
    allDocsVerified id docs ((machine self).run .empty ls) = true ↔
      ∀ d ∈ docs, Called self ls (id, d) := by
  rw [all_docs_verified_iff]
  constructor
  · intro h d hd
    exact verified_called self (h d hd)
  · intro h d hd
    exact called_verified self (h d hd)

end Azaka.DocumentContract
