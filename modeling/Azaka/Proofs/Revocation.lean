import Azaka.Model.Systems
import Azaka.Proofs.DocumentPermanence
import Azaka.Proofs.DocumentSigners
import Azaka.Proofs.RegistryHistory

namespace Azaka
open Keyed Stepwise

/-- An active participant, of whatever type. -/
def RegistryContract.State.Active (s : RegistryContract.State) (a : Address) : Prop :=
  ∃ p, RegistryContract.isAuthorised a p s = true

namespace DocumentContract

/-- The call passes the guards of the contract and is about to put the address
on the signers list. -/
inductive Adds (contract : Address) (s : State) (tx : Tx Call) : Key → Address → Prop
  | submit {id : UInt64} {d : DocumentType} {h : BytesN 32} {u : String}
      (call : tx.call = .submitDocument id d h u) (absent : s.documents (id, d) = none) :
      Adds contract s tx (id, d) contract
  | sign {id : UInt64} {d : DocumentType} {a : Address} {document : Document}
      (call : tx.call = .signDocument id d a) (auth : tx.auth a = true)
      (found : s.documents (id, d) = some document) (unsigned : a ∉ document.signers) :
      Adds contract s tx (id, d) a

theorem signers_put {s : State} {k j : Key} {document : Document} {events : List DocumentEvent} :
    (s.put k document events).signers j = if j = k then document.signers else s.signers j := by
  simp only [State.signers, State.put, Store.set_apply]
  split <;> rfl

variable (self : Address)

/-- The guards are all there is to it. -/
theorem adds_iff {s : State} {tx : Tx Call} {k : Key} {a : Address} :
    Adds self s tx k a ↔ a ∉ s.signers k ∧ a ∈ ((machine self).next s tx).signers k := by
  constructor
  · intro h
    cases h with
    | @submit id d h u call absent =>
      have hstep : Step (tx.env self) s (.submitDocument id d h u) .unit _ := .submit absent
      rw [Machine.next_ok (machine_ok.mpr (call ▸ hstep)), signers_put]
      simp [State.signers, absent, submitted, Tx.env]
    | @sign id d _ document call auth found unsigned =>
      have hstep : Step (tx.env self) s (.signDocument id d a) .unit _ :=
        .sign auth found unsigned
      rw [Machine.next_ok (machine_ok.mpr (call ▸ hstep)), signers_put]
      simp [State.signers, found, unsigned, Document.sign]
  · intro h
    obtain ⟨hnot, hin⟩ := h
    rcases (machine self).next_cases s tx with ⟨r, t, hexec, hnext⟩ | hsame
    · rw [hnext] at hin
      have hstep := machine_ok.mp hexec
      generalize hc : tx.call = c at hstep
      cases hstep with
      | submit absent =>
        rw [signers_put] at hin
        split at hin
        · rename_i hk
          subst hk
          obtain rfl := List.mem_singleton.mp hin
          exact .submit hc absent
        · exact absurd hin hnot
      | sign auth found unsigned =>
        rw [signers_put] at hin
        split at hin
        · rename_i hk
          subst hk
          rcases List.mem_append.mp hin with hold | hnew
          · simp [State.signers, found, hold] at hnot
          · obtain rfl := List.mem_singleton.mp hnew
            exact .sign hc auth found unsigned
        · exact absurd hin hnot
      | init _ | verify | get _ | all => exact absurd hin hnot
    · rw [hsame] at hin
      exact absurd hin hnot

theorem sign_accepted {s : State} {tx : Tx Call} {id : UInt64} {d : DocumentType} {a : Address}
    (hc : tx.call = .signDocument id d a) (h : (machine self).Accepts s tx) :
    Adds self s tx (id, d) a := by
  obtain ⟨r, t, hexec⟩ := h
  have hstep := machine_ok.mp hexec
  rw [hc] at hstep
  cases hstep with
  | sign auth found unsigned => exact .sign hc auth found unsigned

theorem run_signers_grow (s : State) (ls : List (Tx Call)) (k : Key) :
    s.signers k <+: ((machine self).run s ls).signers k := by
  cases found : s.documents k with
  | none => simp [State.signers, found]
  | some document =>
    obtain ⟨new, hnew, -, -, -, -, -, -, hprefix, -⟩ := run_grows self ls found
    simpa [State.signers, found, hnew] using hprefix

end DocumentContract

namespace Whitelist

/-- Every signer was an active participant when it was put on the list, revoked
participants do not sign any more, and their earlier signatures stay. -/
structure Honoured (registry document : Address) (ls : List Label) : Prop where
  active : ∀ pre l post, ls = pre ++ l :: post → ∀ k a,
    a ∉ ((machine registry document).run (deployed registry) pre).2.signers k →
    a ∈ ((machine registry document).run (deployed registry) (pre ++ [l])).2.signers k →
    ((machine registry document).run (deployed registry) pre).1.Active a
  barred : ∀ pre tx mid tx' post a id d, ls = pre ++ .inl tx :: mid ++ .inr tx' :: post →
    tx.call = .revokeParticipant a →
    (machine registry document).Accepts
      ((machine registry document).run (deployed registry) pre) (.inl tx) →
    tx'.call = .signDocument id d a →
    ¬ (machine registry document).Accepts
      ((machine registry document).run (deployed registry) (pre ++ .inl tx :: mid)) (.inr tx')
  kept : ∀ pre post, ls = pre ++ post → ∀ k,
    ((machine registry document).run (deployed registry) pre).2.signers k <+:
      ((machine registry document).run (deployed registry) ls).2.signers k

/-- A call that is about to add a signer finds it active. -/
def Vetted (document : Address) (s : State) (l : Label) : Prop :=
  ∀ tx k a, l = .inr tx → DocumentContract.Adds document s.2 tx k a → s.1.Active a

variable (registry document : Address)

theorem next_adds {s : State} {l : Label} {k : DocumentContract.Key} {a : Address} :
    (a ∉ s.2.signers k ∧ a ∈ ((machine registry document).next s l).2.signers k) ↔
      ∃ tx, l = .inr tx ∧ DocumentContract.Adds document s.2 tx k a := by
  cases l with
  | inl tx => simp [machine]
  | inr tx => simp [machine, DocumentContract.adds_iff]

theorem run_signers_grow (s : State) (ls : List Label) (k : DocumentContract.Key) :
    s.2.signers k <+: ((machine registry document).run s ls).2.signers k := by
  rw [machine, Machine.beside_run]
  exact DocumentContract.run_signers_grow document s.2 _ k

/-- Once revoked, an address is never active again. -/
theorem revoked_inactive {s : State} {tx : Tx RegistryContract.Call} {a : Address}
    (hc : tx.call = .revokeParticipant a)
    (h : (machine registry document).Accepts s (.inl tx)) (mid : List Label) :
    ¬ ((machine registry document).run s (.inl tx :: mid)).1.Active a := by
  obtain ⟨r, t, hexec⟩ := h
  obtain ⟨_, hregistry, -⟩ := Machine.beside_inl_ok.mp hexec
  rw [Machine.run_cons, Machine.next_ok hexec, machine, Machine.beside_run]
  intro hactive
  obtain ⟨p, hp⟩ := hactive
  rw [RegistryContract.revoked_barred registry hc hregistry _ p] at hp
  cases hp

/-- Revocation is honoured in exactly the runs in which whoever is about to be
put on a signers list, the document contract itself included, happens to be an
active participant. Nothing in the code asks. -/
theorem revocation_honoured_iff (ls : List Label) :
    Honoured registry document ls ↔
      (machine registry document).Along (Vetted document) (deployed registry) ls := by
  constructor
  · intro h pre l post he tx k a hl hadds
    obtain ⟨hnot, hin⟩ := (next_adds registry document).mpr ⟨tx, hl, hadds⟩
    rw [← Machine.run_concat] at hin
    exact h.active pre l post he k a hnot hin
  · intro h
    refine ⟨?_, ?_, ?_⟩
    · intro pre l post he k a hnot hin
      rw [Machine.run_concat] at hin
      obtain ⟨tx, hl, hadds⟩ := (next_adds registry document).mp ⟨hnot, hin⟩
      exact h pre l post he tx k a hl hadds
    · intro pre tx mid tx' post a id d he hc haccepts hc' hsigned
      obtain ⟨r, t, hexec⟩ := hsigned
      obtain ⟨_, hdocument, -⟩ := Machine.beside_inr_ok.mp hexec
      have hadds := DocumentContract.sign_accepted document hc' ⟨_, _, hdocument⟩
      have hactive := h (pre ++ .inl tx :: mid) (.inr tx') post (by simpa using he) tx' _ a rfl
        hadds
      rw [Machine.run_append] at hactive
      exact revoked_inactive registry document hc haccepts mid hactive
    · intro pre post he k
      rw [he, Machine.run_append]
      exact run_signers_grow registry document _ post k

/-- A forwarder is registered and revoked, and signs a bill of lading. -/
def forwarderRun : List Label :=
  [.inl (signed [] 1 (.init (.account 1))),
   .inl (signed [.account 1] 2
    (.registerParticipant (.account 9) .freightForwarder "DHL Freight" "Kenya")),
   .inr (signed [] 3
    (.submitDocument 1 .billOfLading (Vector.replicate 32 1) "ipfs://QmTest123")),
   .inl (signed [.account 1] 4 (.revokeParticipant (.account 9))),
   .inr (signed [.account 9] 5 (.signDocument 1 .billOfLading (.account 9)))]

theorem revoked_forwarder_signs : ¬ Honoured (.contract 8) (.contract 6) forwarderRun := by
  intro h
  exact h.barred (forwarderRun.take 3) (signed [.account 1] 4 (.revokeParticipant (.account 9))) []
    (signed [.account 9] 5 (.signDocument 1 .billOfLading (.account 9))) [] (.account 9) 1
    .billOfLading rfl rfl ⟨_, _, rfl⟩ rfl ⟨_, _, rfl⟩

end Whitelist
end Azaka
