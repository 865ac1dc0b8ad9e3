import Azaka.Proofs.DocumentPermanence

namespace Azaka.DocumentContract
open Keyed Stepwise

/-- The entry is a submission under the key. -/
def Submits (k : Key) (d : Done State (Tx Call) Return) : Prop :=
  d.label.call.isSubmit = true ∧ d.label.call.key = some k

/-- The document was submitted, and enough have signed it since to make up, with
the submitter, the number it was submitted with. -/
def Attested (contract : Address) (log : List (Done State (Tx Call) Return)) (k : Key) : Prop :=
  ∃ pre sub post document, log = pre ++ sub :: post ∧ Submits k sub ∧
    ((machine contract).next sub.before sub.label).documents k = some document ∧
    document.requiredSignatures.toNat - 1 ≤ (signatures post k).length

theorem Submits.call {k : Key} {d : Done State (Tx Call) Return} (h : Submits k d) :
    ∃ hash u, d.label.call = .submitDocument k.1 k.2 hash u := by
  obtain ⟨hsubmit, hkey⟩ := h
  cases hc : d.label.call with
  | submitDocument id t hash u =>
    rw [hc] at hkey
    obtain rfl := Option.some.inj hkey
    exact ⟨hash, u, rfl⟩
  | signDocument _ _ _ | init _ | verifyDocument _ _ | getDocument _ _ | allDocsVerified _ _ =>
    rw [hc] at hsubmit
    cases hsubmit

variable (self : Address)

/-- Documents come from submissions. -/
theorem run_submitted (ls : List (Tx Call)) {k : Key}
    (h : (((machine self).run .empty ls).documents k).isSome) :
    ∃ d ∈ (machine self).log .empty ls, Submits k d := by
  refine Machine.log_invariant (m := machine self) (C := fun _ _ => True)
    (P := fun log s => (s.documents k).isSome → ∃ d ∈ log, Submits k d) ?_
    (by intro h; cases h) (fun _ _ _ _ => trivial) h
  intro log s tx r t hs _ he ht
  have hmore : (s.documents k).isSome → ∃ d ∈ log ++ [⟨s, tx, r⟩], Submits k d := by
    intro hsome
    obtain ⟨d, hd, hsub⟩ := hs hsome
    exact ⟨d, List.mem_append_left _ hd, hsub⟩
  have hstep := machine_ok.mp he
  generalize hc : tx.call = c at hstep
  cases hstep with
  | @submit id d _ _ _ =>
    by_cases hk : k = (id, d)
    · exact ⟨⟨s, tx, .unit⟩, by simp, by simp [Submits, hc, Call.isSubmit, Call.key, hk]⟩
    · exact hmore (by simpa [State.put, hk] using ht)
  | @sign id d _ _ _ found _ =>
    by_cases hk : k = (id, d)
    · exact hmore (by simp [hk, found])
    · exact hmore (by simpa [State.put, hk] using ht)
  | init _ | verify | get _ | all => exact hmore ht

/-- What a submission finds and what becomes of it: nobody has signed before,
and the document ends with the contract and the later signatures. -/
theorem submission_history {ls : List (Tx Call)} {pre post : List (Done State (Tx Call) Return)}
    {sub : Done State (Tx Call) Return} (hlog : (machine self).log .empty ls = pre ++ sub :: post)
    {k : Key} (hsub : Submits k sub) :
    ∃ first document, ((machine self).next sub.before sub.label).documents k = some first ∧
      ((machine self).run .empty ls).documents k = some document ∧ first.Grows document ∧
      document.signers = first.submitter :: signatures post k ∧ signatures pre k = [] := by
  obtain ⟨xs, ys, t, rfl, hpre, hbefore, hexec, -⟩ := Machine.log_split hlog
  obtain ⟨hash, u, hc⟩ := hsub.call
  obtain ⟨id, d⟩ := k
  have hfirst := submit_next self hc ⟨_, _, hexec⟩
  obtain ⟨document, found, grows⟩ := run_grows self ys hfirst
  rw [← hbefore, ← Machine.run_cons, ← Machine.run_append] at found
  have habsent : sub.before.documents (id, d) = none := by
    have hstep := machine_ok.mp hexec
    rw [hc] at hstep
    generalize sub.result = r at hstep
    cases hstep with
    | submit absent => exact absent
  have hbefore_none : signatures pre (id, d) = [] := by
    rw [← hpre]
    exact (run_recorded self xs).absent _ (hbefore ▸ habsent)
  obtain ⟨hsubmitter, hsigners⟩ := (run_recorded self _).signers _ _ found
  refine ⟨_, document, hfirst, found, grows, ?_, hbefore_none⟩
  have hall : signatures (pre ++ sub :: post) (id, d) = signatures post (id, d) := by
    have hnone : sub.label.call.signature (id, d) = none := by simp [hc, Call.signature]
    simp only [signatures] at hbefore_none ⊢
    simp [hbefore_none, hnone]
  rw [hsigners, hlog, hall]
  rfl

theorem verified_iff_attested (ls : List (Tx Call)) (id : UInt64) (d : DocumentType) :
    verifyDocument id d ((machine self).run .empty ls) = true ↔
      Attested self ((machine self).log .empty ls) (id, d) := by
  rw [verify_document_iff]
  constructor
  · intro h
    obtain ⟨document, found, verified⟩ := h
    obtain ⟨sub, hmem, hsub⟩ := run_submitted self ls (k := (id, d)) (by simp [found])
    obtain ⟨pre, post, hlog⟩ := List.append_of_mem hmem
    obtain ⟨first, last, hfirst, hlast, hgrows, hsigners, -⟩ := submission_history self hlog hsub
    obtain rfl := Option.some.inj (found.symm.trans hlast)
    obtain ⟨-, -, -, -, -, hrequired, -⟩ := hgrows
    have henough := ((run_recorded self ls).verified _ _ found).mp verified
    rw [hrequired, hsigners, List.length_cons] at henough
    exact ⟨pre, sub, post, first, hlog, hsub, hfirst, by omega⟩
  · intro h
    obtain ⟨pre, sub, post, first, hlog, hsub, hfirst, henough⟩ := h
    obtain ⟨first', last, hfirst', hlast, hgrows, hsigners, -⟩ := submission_history self hlog hsub
    obtain rfl := Option.some.inj (hfirst.symm.trans hfirst')
    obtain ⟨-, -, -, -, -, hrequired, -⟩ := hgrows
    refine ⟨last, hlast, ((run_recorded self ls).verified _ _ hlast).mpr ?_⟩
    rw [hrequired, hsigners, List.length_cons]
    omega

/-- Verified means exactly enough distinct signatures on that very document:
all of a list are verified when each was submitted and then signed often enough,
and the signers are different from each other and from the submitter. -/
theorem all_verified_iff_attested (ls : List (Tx Call)) :
    (∀ id docs, allDocsVerified id docs ((machine self).run .empty ls) = true ↔
      ∀ d ∈ docs, Attested self ((machine self).log .empty ls) (id, d)) ∧
    (∀ pre sub post k, (machine self).log .empty ls = pre ++ sub :: post → Submits k sub →
      ∃ first, ((machine self).next sub.before sub.label).documents k = some first ∧
        (signatures post k).Nodup ∧ first.submitter ∉ signatures post k ∧
        signatures pre k = []) ∧
    ∀ k document, ((machine self).run .empty ls).documents k = some document →
      document.signers.Nodup ∧ document.signers.head? = some document.submitter ∧
        (document.verified = true ↔
          document.requiredSignatures.toNat ≤ document.signers.length) := by
  have hrec := run_recorded self ls
  refine ⟨?_, ?_, ?_⟩
  · intro id docs
    rw [all_docs_verified_iff]
    simp only [verified_iff_attested]
  · intro pre sub post k hlog hsub
    obtain ⟨first, last, hfirst, hlast, -, hsigners, hbefore⟩ :=
      submission_history self hlog hsub
    have hdistinct := hrec.distinct k last hlast
    rw [hsigners] at hdistinct
    obtain ⟨hnot, hnodup⟩ := List.nodup_cons.mp hdistinct
    exact ⟨first, hfirst, hnodup, hnot, hbefore⟩
  · intro k document found
    obtain ⟨hsubmitter, hsigners⟩ := hrec.signers k document found
    refine ⟨hrec.distinct k document found, ?_, hrec.verified k document found⟩
    rw [hsigners, hsubmitter]
    rfl

/-- A bill of lading that two inspectors sign, the second one twice. -/
def attestedRun : List (Tx Call) :=
  [signed [] 1 (.submitDocument 1 .billOfLading (Vector.replicate 32 1) "ipfs://QmTest123"),
   signed [.account 1] 2 (.signDocument 1 .billOfLading (.account 1)),
   signed [.account 2] 3 (.signDocument 1 .billOfLading (.account 2)),
   signed [.account 2] 3 (.signDocument 1 .billOfLading (.account 2))]

theorem attested_run_verified :
    Attested (.contract 6) ((machine (.contract 6)).log .empty attestedRun) (1, .billOfLading) :=
  ((all_verified_iff_attested (.contract 6) attestedRun).1 1 [.billOfLading]).mp rfl _
    List.mem_cons_self

end Azaka.DocumentContract
