import Azaka.Library.Restriction
import Azaka.Proofs.DocumentRuns

namespace Azaka

/-- The document an event is about. -/
def DocumentEvent.key : DocumentEvent → DocumentContract.Key
  | .subDoc id d _ _ _ | .signDoc id d _ | .verDoc id d => (id, d)

namespace DocumentContract
open Keyed Stepwise

/-- The documents a call reads or writes. -/
def Call.keys : Call → List Key
  | .init _ => []
  | .submitDocument id d _ _ | .signDocument id d _ | .verifyDocument id d | .getDocument id d =>
    [(id, d)]
  | .allDocsVerified id docs => docs.map fun d => (id, d)

/-- `initialize` is for none of the documents. -/
def Call.isInit : Call → Bool
  | .init _ => true
  | _ => false

/-- Calls on these documents only. -/
def shows (K : Key → Bool) (tx : Tx Call) : Bool := !tx.call.isInit && tx.call.keys.all K

/-- These documents and what has been published about them, without the
configuration. -/
def State.only (K : Key → Bool) (s : State) : State where
  registryContract := none
  requiredSignatures := Store.empty
  documents := s.documents.only K
  events := s.events.filter fun e => K e.key

/-- The threshold is two, before and after `initialize`. -/
def State.TwoEach (s : State) : Prop := ∀ d, (s.requiredSignatures d).getD 2 = 2

theorem empty_two_each : State.empty.TwoEach := fun _ => rfl

theorem put_only_of_not_mem {K : Key → Bool} {k : Key} (hk : K k = false) (s : State)
    (document : Document) {events : List DocumentEvent} (hevents : ∀ e ∈ events, e.key = k) :
    (s.put k document events).only K = s.only K := by
  have hnone : events.filter (fun e => K e.key) = [] := by
    refine List.filter_eq_nil_iff.mpr ?_
    intro e he
    simp [hevents e he, hk]
  simp [State.only, State.put, Store.only_set_of_not_mem hk, hnone]

/-- Writing to the documents in view is the same with and without the rest. -/
theorem put_only (K : Key → Bool) (s : State) (k : Key) (document : Document)
    (events : List DocumentEvent) :
    ((s.only K).put k document events).only K = (s.put k document events).only K := by
  simp [State.only, State.put]

theorem only_only (K : Key → Bool) (s : State) : (s.only K).only K = s.only K := by
  simp [State.only]

theorem sign_events_key {id : UInt64} {d : DocumentType} {a : Address} {verified : Bool} :
    ∀ e ∈ signEvents id d a verified, e.key = (id, d) := by
  cases verified <;> simp [signEvents, DocumentEvent.key]

theorem Step.two_each {env : Env} {s t : State} {c : Call} {r : Return} (h : Step env s c r t)
    (hs : s.TwoEach) : t.TwoEach := by
  cases h with
  | init _ => exact configured_threshold hs _
  | submit _ | sign _ _ _ | verify | get _ | all => exact hs

theorem Step.out_of_view {env : Env} {s t : State} {c : Call} {r : Return} (h : Step env s c r t)
    {K : Key → Bool} (hc : ∀ k, c.key = some k → K k = false) : t.only K = s.only K := by
  cases h with
  | init _ => simp [State.only, State.configured]
  | @submit id d hash u _ =>
    exact put_only_of_not_mem (hc (id, d) rfl) s _ (by simp [DocumentEvent.key])
  | @sign id d a document _ _ _ =>
    exact put_only_of_not_mem (hc (id, d) rfl) s _ sign_events_key
  | verify | get _ | all => rfl

variable {K : Key → Bool} {s : State}

theorem only_documents {k : Key} (hk : K k = true) : (s.only K).documents k = s.documents k := by
  simp [State.only, hk]

theorem verify_only {id : UInt64} {d : DocumentType} (hk : K (id, d) = true) :
    verifyDocument id d (s.only K) = verifyDocument id d s := by
  rw [verifyDocument, only_documents hk, verifyDocument]

theorem all_verified_only {id : UInt64} {docs : List DocumentType}
    (hk : (docs.map fun d => (id, d)).all K = true) :
    allDocsVerified id docs (s.only K) = allDocsVerified id docs s := by
  induction docs with
  | nil => rfl
  | cons d docs ih =>
    obtain ⟨hd, hdocs⟩ := Bool.and_eq_true_iff.mp hk
    simp only [allDocsVerified, verify_only hd, ih hdocs]

theorem submit_only (hs : s.TwoEach) (env : Env) {id : UInt64} {d : DocumentType}
    (hk : K (id, d) = true) (hash : BytesN 32) (u : String) :
    (submitDocument env id d hash u (s.only K)).map (State.only K) =
      (submitDocument env id d hash u s).map (State.only K) := by
  have hthreshold : ((s.only K).requiredSignatures d).getD 2 = (s.requiredSignatures d).getD 2 := by
    rw [hs d]
    rfl
  unfold submitDocument
  rw [only_documents hk, hthreshold]
  refine bind_map fun _ => ?_
  exact congrArg Except.ok (put_only K s (id, d) _ [_])

theorem sign_only (env : Env) {id : UInt64} {d : DocumentType} (hk : K (id, d) = true)
    (a : Address) :
    (signDocument env id d a (s.only K)).map (State.only K) =
      (signDocument env id d a s).map (State.only K) := by
  unfold signDocument
  rw [only_documents hk]
  refine bind_map fun _ => bind_map fun document => bind_map fun _ => ?_
  exact congrArg Except.ok (put_only K s (id, d) _ _)

/-- A call in view returns the same, errors included, and does the same to what
is in view, whatever else is stored. -/
theorem exec_only (hs : s.TwoEach) (env : Env) {c : Call}
    (hc : (!c.isInit && c.keys.all K) = true) :
    (exec env (s.only K) c).map (Prod.map id (State.only K)) =
      (exec env s c).map (Prod.map id (State.only K)) := by
  cases c with
  | init _ => cases hc
  | submitDocument id d hash u =>
    have hk : K (id, d) = true := by simpa [Call.isInit, Call.keys] using hc
    exact map_agree (submit_only hs env hk hash u) (fun v => (Return.unit, v)) (fun _ => rfl)
  | signDocument id d a =>
    have hk : K (id, d) = true := by simpa [Call.isInit, Call.keys] using hc
    exact map_agree (sign_only env hk a) (fun v => (Return.unit, v)) (fun _ => rfl)
  | verifyDocument id d =>
    have hk : K (id, d) = true := by simpa [Call.isInit, Call.keys] using hc
    simp [exec, Except.map, verify_only hk, only_only]
  | getDocument id d =>
    have hk : K (id, d) = true := by simpa [Call.isInit, Call.keys] using hc
    simp only [exec, getDocument, only_documents hk]
    cases s.documents (id, d) with
    | some document => simp [okOr, Except.map, only_only]
    | none => rfl
  | allDocsVerified id docs =>
    have hk : (docs.map fun d => (id, d)).all K = true := by
      simpa [Call.isInit, Call.keys] using hc
    simp [exec, Except.map, all_verified_only hk, only_only]

theorem key_mem_keys {c : Call} {k : Key} (h : c.key = some k) :
    c.keys = [k] ∧ c.isInit = false := by
  cases c with
  | submitDocument id d _ _ | signDocument id d _ =>
    obtain rfl := Option.some.inj h
    exact ⟨rfl, rfl⟩
  | init _ | verifyDocument _ _ | getDocument _ _ | allDocsVerified _ _ => cases h

variable (self : Address)

theorem documents_restrict (K : Key → Bool) :
    (machine self).Restricts State.TwoEach (shows K) (State.only K) where
  closed _ _ _ _ h hs := (machine_ok.mp h).two_each hs
  hidden s tx r t _ h hl := by
    refine (machine_ok.mp h).out_of_view ?_
    intro k hk
    obtain ⟨hkeys, hinit⟩ := key_mem_keys hk
    simpa [shows, hkeys, hinit] using hl
  seen _ tx hs hl := exec_only hs (tx.env self) hl

/-- Documents do not interfere, and the configuration does not matter. Without
any of the calls that are about other documents or configure the contract, the
calls about these documents alone get the same answers, and the documents and
what is published about them end the same. -/
theorem documents_isolated (K : Key → Bool) {ls ks : List (Tx Call)}
    (h : Purged (fun tx => shows K tx = false) ls ks) :
    (machine self).observed (shows K) .empty ks = (machine self).observed (shows K) .empty ls ∧
      (∀ k, K k = true →
        ((machine self).run .empty ks).documents k = ((machine self).run .empty ls).documents k) ∧
      ((machine self).run .empty ks).events.filter (fun e => K e.key) =
        ((machine self).run .empty ls).events.filter (fun e => K e.key) := by
  have hfilter := h.filter_eq (fun _ hl => hl)
  obtain ⟨hseen, hend⟩ := (documents_restrict self K).noninterference empty_two_each hfilter
  refine ⟨hseen, ?_, congrArg State.events hend⟩
  intro k hk
  have hdocuments := congrArg (fun t => State.documents t k) hend
  simpa only [only_documents hk] using hdocuments

/-- Two parties sign the bill of lading of trade 1. -/
def lone : List (Tx Call) :=
  [signed [] 1 (.submitDocument 1 .billOfLading (Vector.replicate 32 1) "ipfs://QmTest123"),
   signed [.account 1] 3 (.signDocument 1 .billOfLading (.account 1))]

/-- The same among other calls. -/
def crowded : List (Tx Call) :=
  [signed [] 1 (.submitDocument 1 .billOfLading (Vector.replicate 32 1) "ipfs://QmTest123"),
   signed [] 2 (.init (.contract 9)),
   signed [] 2 (.submitDocument 2 .billOfLading (Vector.replicate 32 2) "ipfs://QmTest456"),
   signed [.account 1] 3 (.signDocument 1 .billOfLading (.account 1)),
   signed [.account 1] 3 (.signDocument 2 .billOfLading (.account 1))]

theorem crowded_run_isolated :
    ((machine (.contract 6)).run .empty lone).documents (1, .billOfLading) =
      ((machine (.contract 6)).run .empty crowded).documents (1, .billOfLading) :=
  (documents_isolated (.contract 6) (fun k => k.1 == 1)
    (.keep (.drop rfl (.drop rfl (.keep (.drop rfl .nil)))))).2.1 _ rfl

/-- The trade a call is about, if it is not `initialize`. -/
def Call.trade : Call → Option UInt64
  | .init _ => none
  | .submitDocument id _ _ _ | .signDocument id _ _ | .verifyDocument id _ | .getDocument id _
  | .allDocsVerified id _ => some id

/-- The configuration alone. -/
def State.configuration (s : State) : State :=
  { State.empty with
    registryContract := s.registryContract
    requiredSignatures := s.requiredSignatures }

/-- What the calls about a trade, or `initialize`, work on. -/
def State.part : Option UInt64 → State → State
  | none => State.configuration
  | some id => State.only fun k => k.1 == id

theorem trade_keys {c : Call} {id : UInt64} (h : c.trade = some id) :
    (!c.isInit && c.keys.all fun k => k.1 == id) = true := by
  cases c with
  | init _ => cases h
  | submitDocument j _ _ _ | signDocument j _ _ | verifyDocument j _ | getDocument j _
  | allDocsVerified j _ =>
    obtain rfl := Option.some.inj h
    simp [Call.isInit, Call.keys]

theorem key_trade {c : Call} {k : Key} (h : c.key = some k) : c.trade = some k.1 := by
  cases c with
  | submitDocument id d _ _ | signDocument id d _ =>
    obtain rfl := Option.some.inj h
    rfl
  | init _ | verifyDocument _ _ | getDocument _ _ | allDocsVerified _ _ => cases h

theorem Step.configuration {env : Env} {s t : State} {c : Call} {r : Return}
    (h : Step env s c r t) (hc : c.trade ≠ none) : t.configuration = s.configuration := by
  cases h with
  | init _ => exact absurd rfl hc
  | submit _ | sign _ _ _ | verify | get _ | all => rfl

theorem init_configuration (r : Address) (s : State) :
    (init r s.configuration).map State.configuration = (init r s).map State.configuration := by
  have hregistry : s.configuration.registryContract = s.registryContract := rfl
  unfold init
  rw [hregistry]
  split
  · rfl
  · rfl

theorem part_restrict (p : Option UInt64) :
    (machine self).Restricts State.TwoEach (fun tx => tx.call.trade == p) (State.part p) where
  closed _ _ _ _ h hs := (machine_ok.mp h).two_each hs
  hidden s tx r t _ h hl := by
    have hne : tx.call.trade ≠ p := by simpa using hl
    cases p with
    | none => exact (machine_ok.mp h).configuration hne
    | some id =>
      refine (machine_ok.mp h).out_of_view ?_
      intro k hk
      rw [key_trade hk] at hne
      simpa using hne
  seen s tx hs hl := by
    have heq : tx.call.trade = p := by simpa using hl
    cases p with
    | some id => exact exec_only hs (tx.env self) (trade_keys heq)
    | none =>
      obtain ⟨auth, sequence, call⟩ := tx
      cases call with
      | init r =>
        exact map_agree (init_configuration r s) (fun v => (Return.unit, v)) (fun _ => rfl)
      | submitDocument _ _ _ _ | signDocument _ _ _ | verifyDocument _ _ | getDocument _ _
      | allDocsVerified _ _ => cases heq

/-- Nothing but the order of events about different trades tells the states
apart. -/
structure State.Agrees (s t : State) : Prop where
  registryContract : s.registryContract = t.registryContract
  requiredSignatures : s.requiredSignatures = t.requiredSignatures
  documents : s.documents = t.documents
  told : ∀ id, s.events.filter (fun e => e.key.1 == id) = t.events.filter (fun e => e.key.1 == id)
  events : s.events.Perm t.events

theorem agrees_of_parts {s t : State} (h : ∀ p, State.part p s = State.part p t) :
    s.Agrees t := by
  have hpart : ∀ id, s.only (fun k => k.1 == id) = t.only fun k => k.1 == id :=
    fun id => h (some id)
  have hevents : ∀ id, s.events.filter (fun e => e.key.1 == id) =
      t.events.filter fun e => e.key.1 == id :=
    fun id => congrArg State.events (hpart id)
  have hdocuments : s.documents = t.documents := by
    funext k
    have hk := congrArg (fun u => State.documents u k) (hpart k.1)
    have hin := @only_documents (fun j => j.1 == k.1)
    simpa only [hin (beq_self_eq_true k.1)] using hk
  have hconf : s.configuration = t.configuration := h none
  refine ⟨?_, ?_, hdocuments, hevents, ?_⟩
  · exact (congrArg State.registryContract hconf :)
  · exact (congrArg State.requiredSignatures hconf :)
  · exact perm_of_filters (fun e => ⟨e.key.1, beq_self_eq_true _⟩) hevents

/-- Calls about different trades, and `initialize`, may come in any order. Runs
in which the calls about each trade come in the same order give every call the
same answer, trade by trade, and leave the same behind. -/
theorem document_order_immaterial {ls ks : List (Tx Call)}
    (h : ∀ p : Option UInt64, ks.filter (fun tx => tx.call.trade == p) =
      ls.filter fun tx => tx.call.trade == p) :
    ((machine self).outcomes .empty ks).Perm ((machine self).outcomes .empty ls) ∧
      (∀ p, (machine self).observed (fun tx => tx.call.trade == p) .empty ks =
        (machine self).observed (fun tx => tx.call.trade == p) .empty ls) ∧
      ((machine self).run .empty ks).Agrees ((machine self).run .empty ls) := by
  obtain ⟨houtcomes, hseen, hparts⟩ := Machine.outcomes_perm (part_restrict self)
    (fun tx => ⟨tx.call.trade, beq_self_eq_true _⟩) empty_two_each h
  exact ⟨houtcomes, hseen, agrees_of_parts hparts⟩

/-- The calls of `crowded`, trade after trade. -/
def sorted : List (Tx Call) :=
  lone ++ [signed [] 2 (.submitDocument 2 .billOfLading (Vector.replicate 32 2) "ipfs://QmTest456"),
    signed [.account 1] 3 (.signDocument 2 .billOfLading (.account 1)),
    signed [] 2 (.init (.contract 9))]

theorem sorted_run_agrees :
    ((machine (.contract 6)).run .empty sorted).Agrees
      ((machine (.contract 6)).run .empty crowded) := by
  refine (document_order_immaterial (.contract 6) ?_).2.2
  intro p
  cases p with
  | none => rfl
  | some id =>
    by_cases hone : id = 1
    · subst hone
      rfl
    · by_cases htwo : id = 2
      · subst htwo
        rfl
      · simp [sorted, lone, crowded, signed, Call.trade, Ne.symm hone, Ne.symm htwo]

end DocumentContract
end Azaka
