import Azaka.Model.RegistryProgram
import Azaka.Proofs.Hosting

namespace Azaka.RegistryContract
open Keyed Stepwise Wire

/-- The admin is kept with the instance, a participant under its address. -/
def cells (s : State) : Durability → Store DataKey Val
  | .ofInstance, .admin => s.admin.map Val.addressCodec.encode
  | .persistent, .participant a => (s.participants a).map Participant.codec.encode
  | _, _ => none

def hosting : Hosting State DataKey Unit where
  key := DataKey.codec
  cells := cells
  events s := s.events.map RegistryEvent.published
  beyond _ := ()

def State.stored (s : State) : HostState Unit := hosting.stored s

variable {s : State}

theorem has_admin :
    (Program.has .ofInstance DataKey.admin.val).run s.stored = .ok (s.admin.isSome, s.stored) :=
  Hosting.has_run (H := hosting) (o := s.admin) (c := Val.addressCodec) rfl

theorem get_admin :
    (Program.get .ofInstance DataKey.admin.val Val.addressCodec).run s.stored =
      .ok (s.admin, s.stored) :=
  Hosting.get_run (H := hosting) rfl

theorem has_participant (a : Address) :
    (Program.has .persistent (DataKey.participant a).val).run s.stored =
      .ok ((s.participants a).isSome, s.stored) :=
  Hosting.has_run (H := hosting) (o := s.participants a) (c := Participant.codec) rfl

theorem get_participant (a : Address) :
    (Program.get .persistent (DataKey.participant a).val Participant.codec).run s.stored =
      .ok (s.participants a, s.stored) :=
  Hosting.get_run (H := hosting) rfl

theorem set_admin (a : Address) :
    (Program.set .ofInstance DataKey.admin.val Val.addressCodec a).run s.stored =
      .ok ((), { s with admin := some a }.stored) := by
  refine Hosting.set_run (H := hosting) (s := s) (k := .admin) ?_ rfl rfl
  funext d k
  cases d <;> cases k <;> rfl

theorem set_participant (a : Address) (p : Participant) :
    (Program.set .persistent (DataKey.participant a).val Participant.codec p).run s.stored =
      .ok ((), { s with participants := s.participants.set a p }.stored) := by
  refine Hosting.set_run (H := hosting) (s := s) (k := .participant a) ?_ rfl rfl
  funext d k
  cases d with
  | ofInstance => cases k <;> rfl
  | persistent =>
    cases k with
    | admin => rfl
    | participant b =>
      by_cases h : b = a
      · subst h
        simp [hosting, cells]
      · simp [hosting, cells, h]

theorem publish_event (e : RegistryEvent) :
    (Program.publish e.published.1 e.published.2).run s.stored =
      .ok ((), { s with events := s.events ++ [e] }.stored) :=
  Hosting.publish_run (H := hosting) (s := s) rfl (by simp [hosting]) rfl

theorem init_follows (a : Address) :
    hosting.Keeps RegistryError.code .trapped ((), ·) (Program.Registry.init a) s (init a s) := by
  unfold init
  refine Hosting.Follows.step has_admin ?_
  cases s.admin with
  | none => exact .done (set_admin a) rfl
  | some b => rfl

theorem register_participant_follows (env : Env) (a : Address) (p : ParticipantType)
    (n j : String) :
    hosting.Keeps RegistryError.code .trapped ((), ·)
      (Program.Registry.registerParticipant env a p n j) s
      (registerParticipant env a p n j s) := by
  refine .step get_admin ?_
  refine .look (Hosting.looks_unwrap s.admin) ?_
  intro admin _
  refine .look (Hosting.looks_require_auth env admin) ?_
  intro _ _
  refine .step (has_participant a) ?_
  cases s.participants a with
  | some _ => rfl
  | none =>
    refine .step (set_participant a _) ?_
    exact .done (publish_event (.regPart a _)) rfl

theorem revoke_participant_follows (env : Env) (a : Address) :
    hosting.Keeps RegistryError.code .trapped ((), ·) (Program.Registry.revokeParticipant env a) s
      (revokeParticipant env a s) := by
  refine .step get_admin ?_
  refine .look (Hosting.looks_unwrap s.admin) ?_
  intro admin _
  refine .look (Hosting.looks_require_auth env admin) ?_
  intro _ _
  refine .step (get_participant a) ?_
  refine .look (Hosting.looks_ok_or RegistryError.participantNotFound (s.participants a)) ?_
  intro participant _
  refine .step (set_participant a _) ?_
  exact .done (publish_event (.revPart a)) rfl

theorem get_participant_looks (a : Address) :
    Hosting.Looks (Fault.host RegistryError.code .trapped) id (Program.Registry.getParticipant a)
      s.stored (getParticipant a s) :=
  .step (get_participant a) (Hosting.looks_ok_or RegistryError.participantNotFound _)

theorem get_admin_looks :
    Hosting.Looks (Fault.host RegistryError.code .trapped) id Program.Registry.getAdmin s.stored
      (getAdmin s) :=
  .step get_admin (Hosting.looks_unwrap _)

theorem is_authorised_looks (a : Address) (p : ParticipantType) :
    Hosting.Looks (Fault.host RegistryError.code .trapped) id (Program.Registry.isAuthorised a p)
      s.stored (.ok (isAuthorised a p s)) := by
  unfold isAuthorised
  refine .step (get_participant a) ?_
  cases s.participants a <;> rfl

theorem exec_follows (env : Env) (c : Call) (s : State) :
    hosting.Keeps RegistryError.code .trapped (Prod.map Return.val id)
      (Program.Registry.exec env c) s (exec env s c) := by
  cases c with
  | init a => exact (init_follows a).returns fun _ => rfl
  | registerParticipant a p n j =>
    exact (register_participant_follows env a p n j).returns fun _ => rfl
  | isAuthorised a p =>
    exact (is_authorised_looks a p).returns (H := hosting) (s := s)
      (f := fun b => (Return.bool b, s)) rfl fun _ => rfl
  | revokeParticipant a => exact (revoke_participant_follows env a).returns fun _ => rfl
  | getParticipant a =>
    exact (get_participant_looks a).returns (H := hosting) (s := s) rfl fun _ => rfl
  | getAdmin => exact get_admin_looks.returns (H := hosting) (s := s) rfl fun _ => rfl

theorem stored_empty : State.empty.stored = .empty () :=
  hosting.stored_empty (fun d k => by cases d <;> cases k <;> rfl) rfl

theorem published_inj {e f : RegistryEvent} (h : e.published = f.published) : e = f := by
  cases e <;> cases f <;> simp [RegistryEvent.published] at h
  · obtain ⟨rfl, h⟩ := h
    rw [Participant.codec.encode_inj h]
  · rw [h]

theorem stored_inj : Function.Injective State.stored := by
  intro s t h
  refine hosting.stored_inj ?_ h
  intro s t hcells hevents _
  have hadmin : s.admin = t.admin :=
    Option.map_injective (fun _ _ => Val.addressCodec.encode_inj)
      (congrFun (congrFun hcells .ofInstance) .admin)
  have hparticipants : s.participants = t.participants := by
    funext a
    exact Option.map_injective (fun _ _ => Participant.codec.encode_inj)
      (congrFun (congrFun hcells .persistent) (.participant a))
  have hpublished : s.events = t.events :=
    (List.map_inj_right fun _ _ => published_inj).mp hevents
  cases s
  cases t
  simp_all

/-- The registry behind its interface. -/
def served (self : Address) : Machine State (Tx (String × List Val)) Val HostError :=
  ((machine self).translated Return.val fun _ _ => Fault.host RegistryError.code .trapped).behind
    (readArgs interface) .trapped

theorem participants_image (self : Address) :
    (served self).Image (Program.Registry.machine self) State.stored id id :=
  Hosting.keeps_image (readArgs interface) self exec_follows

/-- The contract against the host's storage answers every run of calls as the
model does, malformed calls included, and what the host keeps in the end is the
model's state, which can be read off it. -/
theorem participants_kept_by_host (self : Address) (calls : List (Tx (String × List Val))) :
    (Program.Registry.machine self).outcomes (.empty ()) calls =
        (served self).outcomes .empty calls ∧
      (Program.Registry.machine self).run (.empty ()) calls =
        ((machine self).run .empty (calls.filterMap (readArgs interface))).stored ∧
      Function.Injective State.stored := by
  obtain ⟨hrun, houtcomes⟩ := (participants_image self).run_exact stored_empty.symm calls
  refine ⟨houtcomes, hrun.trans ?_, stored_inj⟩
  rw [served, Machine.behind_run, Machine.translated_run]

end Azaka.RegistryContract
