import Azaka.Proofs.DocumentRuns

namespace Azaka.DocumentContract
open Keyed Stepwise

/-- The address passed `require_auth` in a successful call on the document. -/
def Vouched (log : List (Done State (Tx Call) Return)) (k : Key) (a : Address) : Prop :=
  ∃ d ∈ log, d.label.call.key = some k ∧ a ∈ d.label.call.requires

def State.signers (s : State) (k : Key) : List Address :=
  ((s.documents k).map Document.signers).getD []

/-- The address passed `require_auth` in the call that put it on the signers
list. -/
def Added (contract : Address) (log : List (Done State (Tx Call) Return)) (k : Key)
    (a : Address) : Prop :=
  ∃ d ∈ log, d.label.call.key = some k ∧ a ∈ d.label.call.requires ∧
    a ∉ d.before.signers k ∧ a ∈ ((machine contract).next d.before d.label).signers k

/-- Two different addresses vouch for the document. -/
def TwoVouched (log : List (Done State (Tx Call) Return)) (k : Key) : Prop :=
  ∃ a b, a ≠ b ∧ Vouched log k a ∧ Vouched log k b

/-- No single party verifies a document: two vouch for every verified one, and
every signer vouched for itself. -/
structure TwoParties (contract : Address) (ls : List (Tx Call)) : Prop where
  two : ∀ k document, ((machine contract).run .empty ls).documents k = some document →
    document.verified = true → TwoVouched ((machine contract).log .empty ls) k
  each : ∀ k document, ((machine contract).run .empty ls).documents k = some document →
    ∀ a ∈ document.signers, Added contract ((machine contract).log .empty ls) k a

theorem Call.signature_iff {c : Call} {k : Key} {a : Address} :
    c.signature k = some a ↔ c.key = some k ∧ a ∈ c.requires := by
  cases c with
  | signDocument id d signer => simp [signature, key, requires, eq_comm]
  | submitDocument id d h u => simp [signature, requires]
  | init r | verifyDocument id d | getDocument id d | allDocsVerified id docs =>
    simp [signature, requires]

/-- To vouch for a document is to sign it: `submit_document` asks nobody. -/
theorem vouched_iff {log : List (Done State (Tx Call) Return)} {k : Key} {a : Address} :
    Vouched log k a ↔ a ∈ signatures log k := by
  simp only [Vouched, signatures, List.mem_filterMap, Call.signature_iff]

theorem two_vouched_iff {log : List (Done State (Tx Call) Return)} {k : Key}
    (distinct : (signatures log k).Nodup) : TwoVouched log k ↔ 2 ≤ (signatures log k).length := by
  unfold TwoVouched
  simp only [vouched_iff]
  constructor
  · intro h
    obtain ⟨a, b, hne, ha, hb⟩ := h
    have hpair : [a, b].Nodup := by simp [hne]
    exact hpair.length_le_of_subset (List.cons_subset.mpr ⟨ha, List.cons_subset.mpr ⟨hb, by simp⟩⟩)
  · intro h
    match hs : signatures log k with
    | [] | [_] => simp [hs] at h
    | a :: b :: rest =>
      rw [hs] at distinct
      have hne := (List.nodup_cons.mp distinct).1
      exact ⟨a, b, fun he => hne (by simp [he]), by simp, by simp⟩

variable (self : Address)

/-- The contract itself, first on every signers list, never vouched for
anything. -/
theorem self_not_added (ls : List (Tx Call)) {k : Key} :
    ¬ Added self ((machine self).log .empty ls) k self := by
  intro h
  obtain ⟨d, hd, hkey, hreq, hnot, -⟩ := h
  obtain ⟨pre, post, t, -, hbefore, hexec⟩ := Machine.log_mem hd
  have hstep := machine_ok.mp hexec
  have hrec := run_recorded self pre
  rw [hbefore] at hrec
  generalize d.label.call = c at hstep hkey hreq
  generalize d.result = r at hstep
  cases hstep with
  | @sign id dt signer document auth found unsigned =>
    have hk : (id, dt) = k := Option.some.inj hkey
    subst hk
    simp [State.signers, found, (hrec.signers _ _ found).2] at hnot
  | submit _ | init _ | verify | get _ | all => cases hreq

theorem submit_stores {s : State} {tx : Tx Call} {id : UInt64} {d : DocumentType} {h : BytesN 32}
    {u : String} (hc : tx.call = .submitDocument id d h u) :
    (((machine self).next s tx).documents (id, d)).isSome := by
  cases found : s.documents (id, d) with
  | some document => exact run_stored self s [tx] (by simp [found])
  | none =>
    have hstep : Step (tx.env self) s (.submitDocument id d h u) .unit _ := .submit found
    simp [Machine.next_ok (machine_ok.mpr (hc ▸ hstep)), State.put]

/-- Without submissions there are no documents. -/
theorem run_vacant {ls : List (Tx Call)} (hno : ∀ tx ∈ ls, tx.call.isSubmit = false) (k : Key) :
    ((machine self).run .empty ls).documents k = none := by
  refine Machine.run_invariant_along (P := fun s => s.documents k = none) ?_ rfl
    (Machine.along_of_mem State.empty hno)
  intro s tx r t hs hx he
  have hstep := machine_ok.mp he
  generalize hc : tx.call = c at hstep
  cases hstep with
  | submit _ => simp [hc, Call.isSubmit] at hx
  | @sign id d _ _ _ found _ =>
    have hne : k ≠ (id, d) := by
      intro he
      rw [he, found] at hs
      cases hs
    simp [State.put, hne, hs]
  | init _ | verify | get _ | all => exact hs

/-- A submission leaves a document behind, accepted or not. -/
theorem submit_remains {ls : List (Tx Call)} {tx : Tx Call} (hmem : tx ∈ ls)
    (hc : tx.call.isSubmit = true) :
    ∃ k document, ((machine self).run .empty ls).documents k = some document := by
  cases hcall : tx.call with
  | submitDocument id d h u =>
    obtain ⟨pre, post, rfl⟩ := List.append_of_mem hmem
    have hstored := run_stored self _ post
      (submit_stores self (s := (machine self).run .empty pre) hcall)
    obtain ⟨document, found⟩ := Option.isSome_iff_exists.mp hstored
    exact ⟨(id, d), document, by simpa using found⟩
  | init r | signDocument id d a | verifyDocument id d | getDocument id d
  | allDocsVerified id docs =>
    rw [hcall] at hc
    cases hc

/-- In every run the signatures on a stored document are pairwise distinct, and
one of them verifies it. -/
theorem run_signatures (ls : List (Tx Call)) {k : Key} {document : Document}
    (found : ((machine self).run .empty ls).documents k = some document) :
    (signatures ((machine self).log .empty ls) k).Nodup ∧
      (document.verified = true ↔ 1 ≤ (signatures ((machine self).log .empty ls) k).length) := by
  have hrec := run_recorded self ls
  have hsigners := (hrec.signers k document found).2
  have hdistinct := hrec.distinct k document found
  have hverified := run_verified self found
  rw [hsigners] at hdistinct hverified
  rw [List.length_cons] at hverified
  refine ⟨(List.nodup_cons.mp hdistinct).2, hverified.trans ?_⟩
  exact Nat.succ_le_succ_iff

/-- The law of two parties holds in no run that submits a document. Without its
second half, it fails for the documents signed exactly once. -/
theorem two_parties_iff (ls : List (Tx Call)) :
    (TwoParties self ls ↔ ∀ tx ∈ ls, tx.call.isSubmit = false) ∧
    ((∀ k document, ((machine self).run .empty ls).documents k = some document →
        document.verified = true → TwoVouched ((machine self).log .empty ls) k) ↔
      ∀ k, (signatures ((machine self).log .empty ls) k).length ≠ 1) := by
  have hrec := run_recorded self ls
  refine ⟨⟨?_, ?_⟩, ⟨?_, ?_⟩⟩
  · intro h tx hmem
    cases hc : tx.call.isSubmit with
    | false => rfl
    | true =>
      obtain ⟨k, document, found⟩ := submit_remains self hmem hc
      have hself : self ∈ document.signers := by simp [(hrec.signers k document found).2]
      exact absurd (h.each k document found self hself) (self_not_added self ls)
  · intro hno
    have hvacant := run_vacant self hno
    exact ⟨fun k document found => by simp [hvacant k] at found,
      fun k document found => by simp [hvacant k] at found⟩
  · intro h k hone
    cases found : ((machine self).run .empty ls).documents k with
    | none => simp [hrec.absent k found] at hone
    | some document =>
      obtain ⟨hdistinct, hverified⟩ := run_signatures self ls found
      have htwo := (two_vouched_iff hdistinct).mp
        (h k document found (hverified.mpr (by omega)))
      omega
  · intro h k document found hver
    obtain ⟨hdistinct, hverified⟩ := run_signatures self ls found
    have hpos := hverified.mp hver
    have hne := h k
    exact (two_vouched_iff hdistinct).mpr (by omega)

/-- Anybody submits, and one inspector signs. -/
def oneSignerRun : List (Tx Call) :=
  [signed [] 1 (.submitDocument 1 .billOfLading (Vector.replicate 32 1) "ipfs://QmTest123"),
   signed [.account 1] 2 (.signDocument 1 .billOfLading (.account 1))]

theorem one_signer_verifies : ¬ TwoParties (.contract 6) oneSignerRun := by
  intro h
  obtain ⟨a, b, hne, ha, hb⟩ := h.two (1, .billOfLading) _ rfl rfl
  rw [vouched_iff] at ha hb
  have hsig : signatures ((machine (.contract 6)).log .empty oneSignerRun) (1, .billOfLading) =
      [.account 1] := rfl
  rw [hsig, List.mem_singleton] at ha hb
  exact hne (ha.trans hb.symm)

end Azaka.DocumentContract
