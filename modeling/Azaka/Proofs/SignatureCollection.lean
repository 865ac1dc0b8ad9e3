import Azaka.Library.Noninterference
import Azaka.Library.Roster
import Azaka.Proofs.DocumentPermanence

namespace Azaka.DocumentContract
open Keyed Stepwise

/-- A signer's own call, whatever else it authorises. -/
structure Signature where
  signer : Address
  auth : Address → Bool
  sequence : UInt32
  authorised : auth signer = true

def Signature.tx (k : Key) (g : Signature) : Tx Call where
  auth := g.auth
  sequence := g.sequence
  call := .signDocument k.1 k.2 g.signer

/-- What becomes of a document that is signed again and again: the newcomers
join the signers, the others are refused, and the order does not matter. -/
structure Collected (contract : Address) (s : State) (k : Key) (document : Document)
    (gs : List Signature) : Prop where
  signers : ∃ signed, ((machine contract).run s (gs.map (Signature.tx k))).documents k =
    some signed ∧ signed.signers =
      document.signers ++ Roster.newcomers document.signers (gs.map Signature.signer)
  results : ∀ pre g post, gs = pre ++ g :: post →
    (machine contract).result ((machine contract).run s (pre.map (Signature.tx k))) (g.tx k) =
      if g.signer ∈ document.signers ∨ g.signer ∈ pre.map Signature.signer then
        .error (.error .alreadySigned)
      else .ok .unit
  unordered : ∀ gs' : List Signature, (gs'.map Signature.signer).Perm (gs.map Signature.signer) →
    ((machine contract).log s (gs'.map (Signature.tx k))).length =
      ((machine contract).log s (gs.map (Signature.tx k))).length ∧
    ∃ a b, ((machine contract).run s (gs'.map (Signature.tx k))).documents k = some a ∧
      ((machine contract).run s (gs.map (Signature.tx k))).documents k = some b ∧
      a.signers.Perm b.signers ∧ a.verified = b.verified

variable (self : Address)

theorem signature_refused {s : State} {k : Key} {document : Document} (g : Signature)
    (found : s.documents k = some document) (known : g.signer ∈ document.signers) :
    (machine self).exec (g.tx k) s = .error (.error .alreadySigned) := by
  simp only [machine, Signature.tx, exec, map_error, signDocument, bind_error]
  refine .inr ⟨(), requireAuth_ok.mpr g.authorised, .inr ⟨document, okOr_ok.mpr found, .inl ?_⟩⟩
  simpa using known

theorem signature_accepted {s : State} {k : Key} {document : Document} (g : Signature)
    (found : s.documents k = some document) (fresh : g.signer ∉ document.signers) :
    (machine self).exec (g.tx k) s = .ok (.unit, s.put k (document.sign g.signer)
      (signEvents k.1 k.2 g.signer (document.sign g.signer).verified)) := by
  apply machine_ok.mpr
  exact .sign g.authorised found fresh

theorem signature_result {s : State} {k : Key} {document : Document} (g : Signature)
    (found : s.documents k = some document) :
    (machine self).result s (g.tx k) =
      if g.signer ∈ document.signers then .error (.error .alreadySigned) else .ok .unit := by
  split
  · rename_i known
    rw [Machine.result, signature_refused self g found known]
    rfl
  · rename_i fresh
    rw [Machine.result, signature_accepted self g found fresh]
    rfl

/-- The signers join one after the other, and each accepted call is one of them. -/
theorem run_joined {s : State} {k : Key} {document : Document} (gs : List Signature)
    (found : s.documents k = some document) :
    ∃ signed, ((machine self).run s (gs.map (Signature.tx k))).documents k = some signed ∧
      signed.signers = (gs.map Signature.signer).foldl Roster.join document.signers ∧
      document.signers.length + ((machine self).log s (gs.map (Signature.tx k))).length =
        signed.signers.length := by
  induction gs generalizing s document with
  | nil => exact ⟨document, found, rfl, rfl⟩
  | cons g gs ih =>
    simp only [List.map_cons, Machine.run_cons, List.foldl_cons]
    by_cases h : g.signer ∈ document.signers
    · have hexec := signature_refused self g found h
      rw [Machine.next_error hexec, Machine.log_cons_error hexec, Roster.join, if_pos h]
      exact ih found
    · have hexec := signature_accepted self g found h
      rw [Machine.next_ok hexec, Machine.log_cons_ok hexec, Roster.join, if_neg h]
      have hstored : (s.put k (document.sign g.signer) (signEvents k.1 k.2 g.signer
          (document.sign g.signer).verified)).documents k = some (document.sign g.signer) :=
        Store.set_same _ _ _
      obtain ⟨signed, hfound, hsigners, hlength⟩ := ih hstored
      refine ⟨signed, hfound, hsigners, ?_⟩
      simp only [Document.sign, List.length_append, List.length_cons, List.length_nil] at hlength ⊢
      omega

/-- Signatures are collected as into a set: whatever run led to the document,
the signers list grows by the newcomers in the order of their first call,
repeated signatures are refused, and no reordering changes who signed, how many
calls succeeded and whether the document is verified. -/
theorem signatures_collected (ls : List (Tx Call)) {k : Key} {document : Document}
    (found : ((machine self).run .empty ls).documents k = some document) (gs : List Signature) :
    Collected self ((machine self).run .empty ls) k document gs := by
  refine ⟨?_, ?_, ?_⟩
  · obtain ⟨signed, hfound, hsigners, -⟩ := run_joined self gs found
    rw [Roster.foldl_join] at hsigners
    exact ⟨signed, hfound, hsigners⟩
  · intro pre g post he
    obtain ⟨signed, hfound, hsigners, -⟩ := run_joined self pre found
    rw [signature_result self g hfound, hsigners]
    simp only [Roster.mem_foldl_join]
  · intro gs' hperm
    obtain ⟨b, hb, hsigners, hlength⟩ := run_joined self gs found
    obtain ⟨a, ha, hsigners', hlength'⟩ := run_joined self gs' found
    rw [Roster.foldl_join] at hsigners hsigners'
    have hsame : a.signers.Perm b.signers := by
      rw [hsigners, hsigners']
      exact (Roster.newcomers_perm _ hperm).append_left _
    have hcount := hsame.length_eq
    refine ⟨by omega, a, b, ha, hb, hsame, Bool.eq_iff_iff.mpr ?_⟩
    rw [← Machine.run_append] at ha hb
    rw [run_verified self ha, run_verified self hb, hcount]

/-- Anybody submits a bill of lading. -/
def billRun : List (Tx Call) :=
  [signed [] 1 (.submitDocument 1 .billOfLading (Vector.replicate 32 1) "ipfs://QmTest123")]

def inspectorSignature : Signature where
  signer := .account 1
  auth a := a == .account 1
  sequence := 2
  authorised := rfl

theorem repeated_signature_collected :
    ∃ document, ((machine (.contract 6)).run .empty billRun).documents (1, .billOfLading) =
        some document ∧
      Collected (.contract 6) ((machine (.contract 6)).run .empty billRun) (1, .billOfLading)
        document [inspectorSignature, inspectorSignature] :=
  ⟨_, rfl, signatures_collected (.contract 6) _ rfl _⟩

end Azaka.DocumentContract
