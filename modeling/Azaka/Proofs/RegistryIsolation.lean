import Azaka.Library.Restriction
import Azaka.Proofs.RegistrySteps

namespace Azaka

/-- The participant an event is about. -/
def RegistryEvent.subject : RegistryEvent → Address
  | .regPart a _ | .revPart a => a

namespace RegistryContract
open Keyed Stepwise

/-- The participant a call is about, to change it or to read it. -/
def Call.subject : Call → Option Address
  | .registerParticipant a _ _ _ | .isAuthorised a _ | .revokeParticipant a | .getParticipant a =>
    some a
  | .init _ | .getAdmin => none

/-- Calls that are about no other participants. -/
def shows (K : Address → Bool) (tx : Tx Call) : Bool := tx.call.subject.all K

/-- These participants, what has been published about them, and the admin. -/
def State.only (K : Address → Bool) (s : State) : State where
  admin := s.admin
  participants := s.participants.only K
  events := s.events.filter fun e => K e.subject

variable {K : Address → Bool} {s : State}

theorem only_participants {a : Address} (ha : K a = true) :
    (s.only K).participants a = s.participants a := by
  simp [State.only, ha]

theorem only_only (K : Address → Bool) (s : State) : (s.only K).only K = s.only K := by
  simp [State.only]

theorem put_only_of_not_mem {a : Address} (ha : K a = false) (s : State)
    (participant : Participant) {event : RegistryEvent} (hevent : event.subject = a) :
    (s.put a participant event).only K = s.only K := by
  simp [State.only, State.put, Store.only_set_of_not_mem ha, hevent, ha]

/-- Writing to the participants in view is the same with and without the rest. -/
theorem put_only (K : Address → Bool) (s : State) (a : Address) (participant : Participant)
    (event : RegistryEvent) :
    ((s.only K).put a participant event).only K = (s.put a participant event).only K := by
  simp [State.only, State.put]

theorem Step.out_of_view {env : Env} {t : State} {c : Call} {r : Return} (h : Step env s c r t)
    (hc : c.subject.all K = false) : t.only K = s.only K := by
  cases h with
  | init _ => cases hc
  | register _ _ _ | revoke _ _ _ => exact put_only_of_not_mem hc s _ rfl
  | authorised | get _ | admin _ => rfl

theorem register_only (env : Env) {a : Address} (ha : K a = true) (p : ParticipantType)
    (name jurisdiction : String) :
    (registerParticipant env a p name jurisdiction (s.only K)).map (State.only K) =
      (registerParticipant env a p name jurisdiction s).map (State.only K) := by
  unfold registerParticipant
  rw [only_participants ha]
  refine bind_map fun _ => bind_map fun _ => bind_map fun _ => ?_
  exact congrArg Except.ok (put_only K s a _ _)

theorem revoke_only (env : Env) {a : Address} (ha : K a = true) :
    (revokeParticipant env a (s.only K)).map (State.only K) =
      (revokeParticipant env a s).map (State.only K) := by
  unfold revokeParticipant
  rw [only_participants ha]
  refine bind_map fun _ => bind_map fun _ => bind_map fun participant => ?_
  exact congrArg Except.ok (put_only K s a _ _)

theorem init_only (a : Address) : (init a (s.only K)).map (State.only K) =
    (init a s).map (State.only K) := by
  have hadmin : (s.only K).admin = s.admin := rfl
  unfold init
  rw [hadmin]
  split
  · rfl
  · simp [Except.map, State.only]

/-- A call in view returns the same, errors included, and does the same to what
is in view, whoever else takes part. -/
theorem exec_only (env : Env) {c : Call} (hc : c.subject.all K = true) :
    (exec env (s.only K) c).map (Prod.map id (State.only K)) =
      (exec env s c).map (Prod.map id (State.only K)) := by
  cases c with
  | init a => exact map_agree (init_only a) (fun v => (Return.unit, v)) (fun _ => rfl)
  | registerParticipant a p name jurisdiction =>
    exact map_agree (register_only env hc p name jurisdiction) (fun v => (Return.unit, v))
      (fun _ => rfl)
  | revokeParticipant a =>
    exact map_agree (revoke_only env hc) (fun v => (Return.unit, v)) (fun _ => rfl)
  | isAuthorised a p =>
    have ha : K a = true := hc
    simp [exec, Except.map, isAuthorised, only_participants ha, only_only]
  | getParticipant a =>
    have ha : K a = true := hc
    simp only [exec, getParticipant, only_participants ha]
    cases s.participants a with
    | some participant => simp [okOr, Except.map, only_only]
    | none => rfl
  | getAdmin =>
    have hadmin : (s.only K).admin = s.admin := rfl
    simp only [exec, getAdmin, hadmin]
    cases s.admin with
    | some admin => simp [unwrap, Except.map, only_only]
    | none => rfl

variable (self : Address)

theorem participants_restrict (K : Address → Bool) :
    (machine self).Restricts (fun _ => True) (shows K) (State.only K) where
  closed _ _ _ _ _ _ := trivial
  hidden _ _ _ _ _ h hl := (machine_ok.mp h).out_of_view hl
  seen _ tx _ hl := exec_only (tx.env self) hl

/-- Participants do not interfere. Without any of the registrations, revocations
and queries of others, the calls about these and those about nobody get the same
answers, and the participants and what is published about them end the same. -/
theorem participants_isolated (K : Address → Bool) {ls ks : List (Tx Call)}
    (h : Purged (fun tx => shows K tx = false) ls ks) :
    (machine self).observed (shows K) .empty ks = (machine self).observed (shows K) .empty ls ∧
      (∀ a, K a = true → ((machine self).run .empty ks).participants a =
        ((machine self).run .empty ls).participants a) ∧
      ((machine self).run .empty ks).events.filter (fun e => K e.subject) =
        ((machine self).run .empty ls).events.filter (fun e => K e.subject) := by
  have hfilter := h.filter_eq (fun _ hl => hl)
  obtain ⟨hseen, hend⟩ := (participants_restrict self K).noninterference trivial hfilter
  refine ⟨hseen, ?_, congrArg State.events hend⟩
  intro a ha
  have hparticipants := congrArg (fun t => State.participants t a) hend
  simpa only [only_participants ha] using hparticipants

/-- The admin registers an inspector. -/
def inspectorAlone : List (Tx Call) :=
  [signed [] 1 (.init (.account 0)),
   signed [.account 0] 2 (.registerParticipant (.account 1) .inspector "SGS" "CH")]

/-- A port authority is registered and revoked on the way. -/
def inspectorAmongOthers : List (Tx Call) :=
  [signed [] 1 (.init (.account 0)),
   signed [.account 0] 2
     (.registerParticipant (.account 2) .portAuthority "Port of Rotterdam" "NL"),
   signed [.account 0] 2 (.registerParticipant (.account 1) .inspector "SGS" "CH"),
   signed [.account 0] 3 (.revokeParticipant (.account 2))]

theorem inspector_isolated :
    ((machine (.contract 8)).run .empty inspectorAlone).participants (.account 1) =
      ((machine (.contract 8)).run .empty inspectorAmongOthers).participants (.account 1) :=
  (participants_isolated (.contract 8) (fun a => a == .account 1)
    (.keep (.drop rfl (.keep (.drop rfl .nil))))).2.1 _ rfl

/-- Nothing but the order of events about different participants tells the
states apart. -/
structure State.Agrees (s t : State) : Prop where
  admin : s.admin = t.admin
  participants : s.participants = t.participants
  told : ∀ a, s.events.filter (fun e => e.subject == a) = t.events.filter (fun e => e.subject == a)
  events : s.events.Perm t.events

theorem agrees_of_parts {s t : State}
    (h : ∀ a, s.only (fun b => b == a) = t.only fun b => b == a) : s.Agrees t := by
  have hevents : ∀ a, s.events.filter (fun e => e.subject == a) =
      t.events.filter fun e => e.subject == a :=
    fun a => congrArg State.events (h a)
  refine ⟨?_, ?_, hevents, ?_⟩
  · exact (congrArg State.admin (h (.account 0)) :)
  · funext a
    have ha := congrArg (fun u => State.participants u a) (h a)
    have hin := @only_participants (fun b => b == a)
    simpa only [hin (beq_self_eq_true a)] using ha
  · exact perm_of_filters (fun e => ⟨e.subject, beq_self_eq_true _⟩) hevents

/-- Calls about different participants may come in any order. Runs in which the
calls about each participant come in the same order, among those that are about
nobody, give every call the same answer, participant by participant, and leave
the same behind. -/
theorem participant_order_immaterial {ls ks : List (Tx Call)}
    (h : ∀ a, ks.filter (shows fun b => b == a) = ls.filter (shows fun b => b == a)) :
    ((machine self).outcomes .empty ks).Perm ((machine self).outcomes .empty ls) ∧
      (∀ a, (machine self).observed (shows fun b => b == a) .empty ks =
        (machine self).observed (shows fun b => b == a) .empty ls) ∧
      ((machine self).run .empty ks).Agrees ((machine self).run .empty ls) := by
  have hcovered : ∀ tx : Tx Call, ∃ a, shows (fun b => b == a) tx = true := by
    intro tx
    cases hc : tx.call.subject with
    | some a => exact ⟨a, by simp [shows, hc]⟩
    | none => exact ⟨.account 0, by simp [shows, hc]⟩
  obtain ⟨houtcomes, hseen, hparts⟩ := Machine.outcomes_perm
    (fun a => participants_restrict self fun b => b == a) hcovered trivial h
  exact ⟨houtcomes, hseen, agrees_of_parts hparts⟩

/-- The same calls, the port authority's last. -/
def inspectorFirst : List (Tx Call) :=
  inspectorAlone ++
    [signed [.account 0] 2
      (.registerParticipant (.account 2) .portAuthority "Port of Rotterdam" "NL"),
     signed [.account 0] 3 (.revokeParticipant (.account 2))]

theorem inspector_first_agrees :
    ((machine (.contract 8)).run .empty inspectorFirst).Agrees
      ((machine (.contract 8)).run .empty inspectorAmongOthers) := by
  refine (participant_order_immaterial (.contract 8) ?_).2.2
  intro a
  by_cases hone : a = .account 1
  · subst hone
    rfl
  · by_cases htwo : a = .account 2
    · subst htwo
      rfl
    · have hfirst : ¬ Address.account 1#256 = a := Ne.symm hone
      have hsecond : ¬ Address.account 2#256 = a := Ne.symm htwo
      simp [inspectorFirst, inspectorAlone, inspectorAmongOthers, signed, List.filter_cons, shows,
        Call.subject, hfirst, hsecond]

end RegistryContract
end Azaka
