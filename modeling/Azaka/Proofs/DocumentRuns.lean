import Azaka.Proofs.DocumentRecords

namespace Azaka.DocumentContract
open Keyed Stepwise

/-- The document a call is about, for the two calls that write one. -/
def Call.key : Call → Option Key
  | .submitDocument id d _ _ | .signDocument id d _ => some (id, d)
  | _ => none

def Call.isSubmit : Call → Bool
  | .submitDocument _ _ _ _ => true
  | _ => false

/-- The addresses a call asks an authorisation of. -/
def Call.requires : Call → List Address
  | .signDocument _ _ signer => [signer]
  | _ => []

/-- Whose signature a call puts under a document. -/
def Call.signature (k : Key) : Call → Option Address
  | .signDocument id d signer => if (id, d) = k then some signer else none
  | _ => none

/-- The signatures the successful `sign_document` calls gave, in order. -/
def signatures (log : List (Done State (Tx Call) Return)) (k : Key) : List Address :=
  log.filterMap fun d => d.label.call.signature k

/-- What a run leaves behind: each stored document was submitted by the contract
itself, has been signed by exactly the signatures given since, and is verified
as soon as there is one. -/
structure Recorded (contract : Address) (log : List (Done State (Tx Call) Return))
    (s : State) : Prop where
  threshold : ∀ d, (s.requiredSignatures d).getD 2 = 2
  absent : ∀ k, s.documents k = none → signatures log k = []
  key : ∀ k document, s.documents k = some document → (document.tradeId, document.docType) = k
  signers : ∀ k document, s.documents k = some document →
    document.submitter = contract ∧ document.signers = contract :: signatures log k
  distinct : ∀ k document, s.documents k = some document → document.signers.Nodup
  required : ∀ k document, s.documents k = some document → document.requiredSignatures = 2
  verified : ∀ k document, s.documents k = some document →
    (document.verified = true ↔ document.requiredSignatures.toNat ≤ document.signers.length)

theorem Step.requires_authorised {env : Env} {s t : State} {c : Call} {r : Return}
    (h : Step env s c r t) : ∀ a ∈ c.requires, env.auth a = true := by
  cases h with
  | sign auth _ _ =>
    intro a ha
    obtain rfl := List.mem_singleton.mp ha
    exact auth
  | init _ | submit _ | verify | get _ | all =>
    intro a ha
    cases ha

/-- No other authorisation than the required ones makes a difference. -/
theorem exec_requires {env env' : Env} {s : State} {c : Call} (current : env.current = env'.current)
    (agree : ∀ a ∈ c.requires, env.auth a = env'.auth a) : exec env s c = exec env' s c := by
  cases c with
  | signDocument id d signer =>
    have hauth := agree signer (List.mem_singleton.mpr rfl)
    simp only [exec, signDocument, Env.requireAuth, hauth]
  | submitDocument id d h u => simp only [exec, submitDocument, current]
  | init r | verifyDocument id d | getDocument id d | allDocsVerified id docs => rfl

theorem configured_threshold {s : State} (hs : ∀ d, (s.requiredSignatures d).getD 2 = 2)
    (registry : Address) (d : DocumentType) :
    ((s.configured registry).requiredSignatures d).getD 2 = 2 := by
  simp only [State.configured, Store.set_apply]
  repeat' split
  all_goals first | rfl | exact hs d

theorem signatures_append (log : List (Done State (Tx Call) Return))
    (d : Done State (Tx Call) Return) (k : Key) :
    signatures (log ++ [d]) k = signatures log k ++ (d.label.call.signature k).toList := by
  cases h : d.label.call.signature k <;> simp [signatures, h]

variable {self : Address}

theorem Recorded.submit {log : List (Done State (Tx Call) Return)} {s : State}
    (h : Recorded self log s) {tx : Tx Call} {r : Return} {id : UInt64} {d : DocumentType}
    {hash : BytesN 32} {u : String} (hc : tx.call = .submitDocument id d hash u)
    (absent : s.documents (id, d) = none) (events : List DocumentEvent) :
    Recorded self (log ++ [⟨s, tx, r⟩])
      (s.put (id, d) (submitted (tx.env self) s id d hash u) events) := by
  have hsig : ∀ k, signatures (log ++ [⟨s, tx, r⟩]) k = signatures log k := by
    intro k
    simp [signatures_append, hc, Call.signature]
  refine ⟨h.threshold, ?_, ?_, ?_, ?_, ?_, ?_⟩
  · intro k hk
    rw [hsig]
    apply h.absent
    simp only [State.put, Store.set_apply] at hk
    split at hk
    · cases hk
    · exact hk
  all_goals
    intro k document found
    rcases Store.set_eq_some found with ⟨rfl, rfl⟩ | ⟨-, hold⟩
  · rfl
  · exact h.key k document hold
  · rw [hsig, h.absent _ absent]
    exact ⟨rfl, rfl⟩
  · rw [hsig]
    exact h.signers k document hold
  · simp [submitted]
  · exact h.distinct k document hold
  · exact h.threshold d
  · exact h.required k document hold
  · simp [submitted, h.threshold d]
  · exact h.verified k document hold

theorem Recorded.sign {log : List (Done State (Tx Call) Return)} {s : State}
    (h : Recorded self log s) {tx : Tx Call} {r : Return} {id : UInt64} {d : DocumentType}
    {signer : Address} {document : Document} (hc : tx.call = .signDocument id d signer)
    (found : s.documents (id, d) = some document) (unsigned : signer ∉ document.signers)
    (events : List DocumentEvent) :
    Recorded self (log ++ [⟨s, tx, r⟩]) (s.put (id, d) (document.sign signer) events) := by
  have hsame : signatures (log ++ [⟨s, tx, r⟩]) (id, d) = signatures log (id, d) ++ [signer] := by
    simp [signatures_append, hc, Call.signature]
  have hother : ∀ k, k ≠ (id, d) → signatures (log ++ [⟨s, tx, r⟩]) k = signatures log k := by
    intro k hk
    simp [signatures_append, hc, Call.signature, Ne.symm hk]
  have hrequired := h.required _ _ found
  have hsigners := h.signers _ _ found
  refine ⟨h.threshold, ?_, ?_, ?_, ?_, ?_, ?_⟩
  · intro k hk
    by_cases he : k = (id, d)
    · subst he
      simp [State.put] at hk
    · rw [hother k he]
      exact h.absent k (by simpa [State.put, he] using hk)
  all_goals
    intro k doc hdoc
    rcases Store.set_eq_some hdoc with ⟨rfl, rfl⟩ | ⟨hne, hold⟩
  · exact h.key _ document found
  · exact h.key k doc hold
  · rw [hsame]
    exact ⟨hsigners.1, by simp [Document.sign, hsigners.2]⟩
  · rw [hother k hne]
    exact h.signers k doc hold
  · refine List.nodup_append.mpr ⟨h.distinct _ _ found, by simp, ?_⟩
    intro a ha b hb hab
    obtain rfl := List.mem_singleton.mp hb
    exact unsigned (hab ▸ ha)
  · exact h.distinct k doc hold
  · exact hrequired
  · exact h.required k doc hold
  · simp [Document.sign, hrequired, hsigners.2]
  · exact h.verified k doc hold

/-- Calls that write no document add nothing to what is on record. -/
theorem Recorded.pass {log : List (Done State (Tx Call) Return)} {s t : State}
    (h : Recorded self log s) {tx : Tx Call} {r : Return}
    (hc : ∀ k, tx.call.signature k = none) (documents : t.documents = s.documents)
    (threshold : ∀ d, (t.requiredSignatures d).getD 2 = 2) :
    Recorded self (log ++ [⟨s, tx, r⟩]) t := by
  have hsig : ∀ k, signatures (log ++ [⟨s, tx, r⟩]) k = signatures log k := by
    intro k
    simp [signatures_append, hc k]
  exact ⟨threshold, fun k => by rw [documents, hsig]; exact h.absent k,
    fun k => by rw [documents]; exact h.key k,
    fun k => by rw [documents, hsig]; exact h.signers k,
    fun k => by rw [documents]; exact h.distinct k,
    fun k => by rw [documents]; exact h.required k,
    fun k => by rw [documents]; exact h.verified k⟩

variable (self)

theorem run_recorded (ls : List (Tx Call)) :
    Recorded self ((machine self).log .empty ls) ((machine self).run .empty ls) := by
  refine Machine.log_invariant (m := machine self) (C := fun _ _ => True)
    (P := fun log s => Recorded self log s) ?_ ?_ (fun _ _ _ _ => trivial)
  · intro log s tx r t h _ he
    have hstep := machine_ok.mp he
    generalize hc : tx.call = c at hstep
    cases hstep with
    | init unset =>
      exact h.pass (fun k => by simp [hc, Call.signature]) rfl (configured_threshold h.threshold _)
    | submit absent => exact h.submit hc absent _
    | sign auth found unsigned => exact h.sign hc found unsigned _
    | verify | get _ | all =>
      exact h.pass (fun k => by simp [hc, Call.signature]) rfl h.threshold
  · refine ⟨fun _ => rfl, fun _ _ => rfl, ?_, ?_, ?_, ?_, ?_⟩
    all_goals
      intro k document found
      cases found

theorem run_verified {ls : List (Tx Call)} {k : Key} {document : Document}
    (found : ((machine self).run .empty ls).documents k = some document) :
    document.verified = true ↔ 2 ≤ document.signers.length := by
  have hrec := run_recorded self ls
  have hverified := hrec.verified k document found
  rw [hrec.required k document found] at hverified
  exact hverified

theorem run_stored (s : State) (ls : List (Tx Call)) {k : Key} (hs : (s.documents k).isSome) :
    (((machine self).run s ls).documents k).isSome :=
  Machine.run_invariant (P := fun t => (t.documents k).isSome)
    (fun _ _ _ _ ha he => (machine_ok.mp he).stored ha) ls hs

end Azaka.DocumentContract
