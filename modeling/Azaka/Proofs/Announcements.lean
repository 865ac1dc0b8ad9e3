import Azaka.Proofs.DocumentRuns

namespace Azaka.DocumentContract
open Keyed Stepwise

/-- The `ver_doc` events published for a document. -/
def announcements (s : State) (k : Key) : Nat := s.events.count (.verDoc k.1 k.2)

/-- The call is about to put a new signature under the document. -/
structure Signs (s : State) (tx : Tx Call) (k : Key) (a : Address) (document : Document) :
    Prop where
  call : tx.call = .signDocument k.1 k.2 a
  auth : tx.auth a = true
  found : s.documents k = some document
  fresh : a ∉ document.signers

/-- The signature that brings the count to the number required. -/
def Completes (s : State) (tx : Tx Call) (k : Key) : Prop :=
  ∃ a document, Signs s tx k a document ∧
    document.signers.length + 1 = document.requiredSignatures.toNat

/-- A signature under a document that is verified already. -/
def Late (s : State) (tx : Tx Call) (k : Key) : Prop :=
  ∃ a document, Signs s tx k a document ∧ document.verified = true

/-- The verification of the document is announced exactly once: by the call
that completes the signatures, and by no other. -/
structure AnnouncedOnce (contract : Address) (k : Key) (ls : List (Tx Call)) : Prop where
  count : announcements ((machine contract).run .empty ls) k =
    if verifyDocument k.1 k.2 ((machine contract).run .empty ls) then 1 else 0
  single : ∀ pre tx post, ls = pre ++ tx :: post →
    (announcements ((machine contract).next ((machine contract).run .empty pre) tx) k ≠
        announcements ((machine contract).run .empty pre) k ↔
      Completes ((machine contract).run .empty pre) tx k)

theorem count_sign_events (k : Key) (id : UInt64) (d : DocumentType) (a : Address) (v : Bool) :
    (signEvents id d a v).count (.verDoc k.1 k.2) = if v ∧ (id, d) = k then 1 else 0 := by
  obtain ⟨i, e⟩ := k
  cases v <;> simp [signEvents, List.count_cons]

theorem announcements_put {s : State} {j k : Key} {document : Document}
    {events : List DocumentEvent} : announcements (s.put j document events) k =
      announcements s k + events.count (.verDoc k.1 k.2) := by
  simp [announcements, State.put]

theorem verify_put {s : State} {j k : Key} {document : Document} {events : List DocumentEvent} :
    verifyDocument k.1 k.2 (s.put j document events) =
      if k = j then document.verified else verifyDocument k.1 k.2 s := by
  by_cases h : k = j
  · subst h
    simp [verifyDocument, State.put]
  · simp [verifyDocument, State.put, h]

variable (self : Address)

theorem next_signs {s : State} {tx : Tx Call} {k : Key} {a : Address} {document : Document}
    (h : Signs s tx k a document) :
    ((machine self).next s tx).documents k = some (document.sign a) ∧
      announcements ((machine self).next s tx) k =
        announcements s k + if (document.sign a).verified then 1 else 0 := by
  have hstep : Step (tx.env self) s (.signDocument k.1 k.2 a) .unit _ :=
    .sign h.auth h.found h.fresh
  rw [Machine.next_ok (machine_ok.mpr (h.call ▸ hstep))]
  refine ⟨Store.set_same _ _ _, ?_⟩
  simp [announcements_put, count_sign_events]

theorem next_other {s : State} {tx : Tx Call} {k : Key}
    (h : ∀ a document, ¬ Signs s tx k a document) :
    announcements ((machine self).next s tx) k = announcements s k ∧
      verifyDocument k.1 k.2 ((machine self).next s tx) = verifyDocument k.1 k.2 s := by
  rcases (machine self).next_cases s tx with ⟨r, t, hexec, hnext⟩ | hsame
  · rw [hnext]
    have hstep := machine_ok.mp hexec
    generalize hc : tx.call = c at hstep
    cases hstep with
    | init _ | verify | get _ | all => exact ⟨rfl, rfl⟩
    | @submit id d _ _ absent =>
      rw [announcements_put, verify_put]
      refine ⟨by simp, ?_⟩
      split
      · rename_i hk
        subst hk
        simp [submitted, verifyDocument, absent]
      · rfl
    | @sign id d a document auth found unsigned =>
      have hne : k ≠ (id, d) := by
        intro he
        subst he
        exact h a document ⟨hc, auth, found, unsigned⟩
      rw [announcements_put, verify_put, count_sign_events, if_neg hne]
      simp [Ne.symm hne]
  · rw [hsame]
    exact ⟨rfl, rfl⟩

/-- Whoever signs in time finds the document unverified. -/
theorem Signs.unverified {s : State} {tx : Tx Call} {k : Key} {a : Address} {document : Document}
    (h : Signs s tx k a document) (hno : ¬ Late s tx k) : document.verified = false := by
  cases hv : document.verified with
  | false => rfl
  | true => exact absurd ⟨a, document, h, hv⟩ hno

theorem Signs.completes_iff {s : State} {tx : Tx Call} {k : Key} {a : Address}
    {document : Document} (h : Signs s tx k a document) :
    Completes s tx k ↔ document.signers.length + 1 = document.requiredSignatures.toNat := by
  constructor
  · intro hcompletes
    obtain ⟨_, document', h', hlast⟩ := hcompletes
    obtain rfl := Option.some.inj (h.found.symm.trans h'.found)
    exact hlast
  · intro hlast
    exact ⟨a, document, h, hlast⟩

/-- Without late signatures, what has been announced is what is verified. -/
theorem run_announcements {ls : List (Tx Call)} {k : Key}
    (along : (machine self).Along (fun s tx => ¬ Late s tx k) .empty ls) :
    announcements ((machine self).run .empty ls) k =
      if verifyDocument k.1 k.2 ((machine self).run .empty ls) then 1 else 0 := by
  refine Machine.run_invariant_along (P := fun s => announcements s k =
    if verifyDocument k.1 k.2 s then 1 else 0) ?_ rfl along
  intro s tx r t hs hno hexec
  rw [← Machine.next_ok hexec]
  by_cases h : ∃ a document, Signs s tx k a document
  · obtain ⟨a, document, hsigns⟩ := h
    obtain ⟨hnew, hcount⟩ := next_signs self hsigns
    have hbefore : verifyDocument k.1 k.2 s = false := by
      simp [verifyDocument, hsigns.found, hsigns.unverified hno]
    rw [hcount, hs, hbefore]
    simp [verifyDocument, hnew]
  · obtain ⟨hcount, hverify⟩ := next_other self (by simpa using h)
    rw [hcount, hverify, hs]

/-- A signature in time is announced if it completes the number required. -/
theorem announces_iff {ls : List (Tx Call)} {tx : Tx Call} {k : Key}
    (hno : ¬ Late ((machine self).run .empty ls) tx k) :
    announcements ((machine self).next ((machine self).run .empty ls) tx) k ≠
        announcements ((machine self).run .empty ls) k ↔
      Completes ((machine self).run .empty ls) tx k := by
  by_cases h : ∃ a document, Signs ((machine self).run .empty ls) tx k a document
  · obtain ⟨a, document, hsigns⟩ := h
    have hunverified := hsigns.unverified hno
    have hshort : ¬ document.requiredSignatures.toNat ≤ document.signers.length := by
      rw [← (run_recorded self ls).verified k document hsigns.found, hunverified]
      exact Bool.false_ne_true
    have hreached : (document.sign a).verified = true ↔
        document.signers.length + 1 = document.requiredSignatures.toNat := by
      simp only [Document.sign, hunverified, Bool.false_or, decide_eq_true_eq, List.length_append,
        List.length_cons, List.length_nil]
      omega
    rw [(next_signs self hsigns).2, hsigns.completes_iff, ← hreached]
    cases (document.sign a).verified <;> simp
  · obtain ⟨hcount, -⟩ := next_other self (by simpa using h)
    rw [hcount]
    constructor
    · intro hne
      exact absurd rfl hne
    · intro hcompletes
      obtain ⟨a, document, hsigns, -⟩ := hcompletes
      exact absurd ⟨a, document, hsigns⟩ h

/-- The verification of a document is announced exactly once in the runs in
which nobody signs it after that. -/
theorem announced_once_iff (k : Key) (ls : List (Tx Call)) :
    AnnouncedOnce self k ls ↔ (machine self).Along (fun s tx => ¬ Late s tx k) .empty ls := by
  constructor
  · intro h pre tx post he hlate
    obtain ⟨a, document, hsigns, hverified⟩ := hlate
    have hagain : announcements ((machine self).next ((machine self).run .empty pre) tx) k ≠
        announcements ((machine self).run .empty pre) k := by
      rw [(next_signs self hsigns).2]
      simp [Document.sign, hverified]
    have hlast := hsigns.completes_iff.mp ((h.single pre tx post he).mp hagain)
    have henough := ((run_recorded self pre).verified k document hsigns.found).mp hverified
    omega
  · intro along
    refine ⟨run_announcements self along, ?_⟩
    intro pre tx post he
    exact announces_iff self (along pre tx post he)

/-- Two inspectors sign, one more than it takes. -/
def thirdSignerRun : List (Tx Call) :=
  [signed [] 1 (.submitDocument 1 .billOfLading (Vector.replicate 32 1) "ipfs://QmTest123"),
   signed [.account 1] 2 (.signDocument 1 .billOfLading (.account 1)),
   signed [.account 2] 3 (.signDocument 1 .billOfLading (.account 2))]

theorem third_signer_announces_again :
    ¬ AnnouncedOnce (.contract 6) (1, .billOfLading) thirdSignerRun := by
  intro h
  have count : 2 = 1 := h.count
  omega

end Azaka.DocumentContract
