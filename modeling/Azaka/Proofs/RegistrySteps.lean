import Azaka.Library.Latch
import Azaka.Model.Registry

namespace Azaka

def Participant.revoked (participant : Participant) : Participant :=
  { participant with active := false }

namespace RegistryContract
open Keyed Stepwise

/-- The record a successful `register_participant` stores. -/
def registered (a : Address) (p : ParticipantType) (name jurisdiction : String) : Participant where
  address := a
  participantType := p
  name := name
  jurisdiction := jurisdiction
  active := true

/-- Write a record and publish the event about it. -/
def State.put (s : State) (a : Address) (participant : Participant) (event : RegistryEvent) :
    State :=
  { s with participants := s.participants.set a participant, events := s.events ++ [event] }

/-- Everything a successful call can do. -/
inductive Step (env : Env) (s : State) : Call → Return → State → Prop
  | init {admin : Address} (unset : s.admin = none) :
      Step env s (.init admin) .unit { s with admin := some admin }
  | register {admin a : Address} {p : ParticipantType} {name jurisdiction : String}
      (governed : s.admin = some admin) (auth : env.auth admin = true)
      (absent : s.participants a = none) :
      Step env s (.registerParticipant a p name jurisdiction) .unit
        (s.put a (registered a p name jurisdiction)
          (.regPart a (registered a p name jurisdiction)))
  | revoke {admin a : Address} {participant : Participant} (governed : s.admin = some admin)
      (auth : env.auth admin = true) (found : s.participants a = some participant) :
      Step env s (.revokeParticipant a) .unit
        (s.put a participant.revoked (.revPart a))
  | authorised {a : Address} {p : ParticipantType} :
      Step env s (.isAuthorised a p) (.bool (isAuthorised a p s)) s
  | get {a : Address} {participant : Participant} (found : s.participants a = some participant) :
      Step env s (.getParticipant a) (.participant participant) s
  | admin {admin : Address} (governed : s.admin = some admin) :
      Step env s .getAdmin (.address admin) s

theorem init_ok {a : Address} {s t : State} :
    init a s = .ok t ↔ s.admin = none ∧ t = { s with admin := some a } := by
  unfold init
  cases h : s.admin with
  | some b => simp
  | none => simp [eq_comm]

theorem registerParticipant_ok {env : Env} {a : Address} {p : ParticipantType}
    {name jurisdiction : String} {s t : State} :
    registerParticipant env a p name jurisdiction s = .ok t ↔ ∃ admin,
      s.admin = some admin ∧ env.auth admin = true ∧ s.participants a = none ∧
      t = s.put a (registered a p name jurisdiction)
        (.regPart a (registered a p name jurisdiction)) := by
  simp only [registerParticipant, bind_ok, unwrap_ok, requireAuth_ok, ensure_ok,
    Option.isNone_iff_eq_none, Except.ok.injEq]
  constructor
  · intro h
    obtain ⟨admin, governed, _, auth, _, absent, rfl⟩ := h
    exact ⟨admin, governed, auth, absent, rfl⟩
  · intro h
    obtain ⟨admin, governed, auth, absent, rfl⟩ := h
    exact ⟨admin, governed, (), auth, (), absent, rfl⟩

theorem revokeParticipant_ok {env : Env} {a : Address} {s t : State} :
    revokeParticipant env a s = .ok t ↔ ∃ admin participant,
      s.admin = some admin ∧ env.auth admin = true ∧ s.participants a = some participant ∧
      t = s.put a participant.revoked (.revPart a) := by
  simp only [revokeParticipant, bind_ok, unwrap_ok, requireAuth_ok, okOr_ok, Except.ok.injEq]
  constructor
  · intro h
    obtain ⟨admin, governed, _, auth, participant, found, rfl⟩ := h
    exact ⟨admin, participant, governed, auth, found, rfl⟩
  · intro h
    obtain ⟨admin, participant, governed, auth, found, rfl⟩ := h
    exact ⟨admin, governed, (), auth, participant, found, rfl⟩

/-- The step relation is exactly the successful calls. -/
theorem exec_ok {env : Env} {s t : State} {c : Call} {r : Return} :
    exec env s c = .ok (r, t) ↔ Step env s c r t := by
  constructor
  · intro h
    cases c with
    | init a =>
      obtain ⟨t, ht, ⟨⟩⟩ := map_ok.mp h
      obtain ⟨unset, rfl⟩ := init_ok.mp ht
      exact .init unset
    | registerParticipant a p name jurisdiction =>
      obtain ⟨t, ht, ⟨⟩⟩ := map_ok.mp h
      obtain ⟨admin, governed, auth, absent, rfl⟩ := registerParticipant_ok.mp ht
      exact .register governed auth absent
    | isAuthorised a p =>
      cases h
      exact .authorised
    | revokeParticipant a =>
      obtain ⟨t, ht, ⟨⟩⟩ := map_ok.mp h
      obtain ⟨admin, participant, governed, auth, found, rfl⟩ := revokeParticipant_ok.mp ht
      exact .revoke governed auth found
    | getParticipant a =>
      obtain ⟨participant, ht, ⟨⟩⟩ := map_ok.mp h
      exact .get (okOr_ok.mp ht)
    | getAdmin =>
      obtain ⟨admin, ht, ⟨⟩⟩ := map_ok.mp h
      exact .admin (unwrap_ok.mp ht)
  · intro h
    cases h with
    | init unset => exact map_ok.mpr ⟨_, init_ok.mpr ⟨unset, rfl⟩, rfl⟩
    | register governed auth absent =>
      exact map_ok.mpr ⟨_, registerParticipant_ok.mpr ⟨_, governed, auth, absent, rfl⟩, rfl⟩
    | revoke governed auth found =>
      exact map_ok.mpr ⟨_, revokeParticipant_ok.mpr ⟨_, _, governed, auth, found, rfl⟩, rfl⟩
    | authorised => rfl
    | get found => exact map_ok.mpr ⟨_, okOr_ok.mpr found, rfl⟩
    | admin governed => exact map_ok.mpr ⟨_, unwrap_ok.mpr governed, rfl⟩

theorem machine_ok {self : Address} {tx : Tx Call} {s t : State} {r : Return} :
    (machine self).exec tx s = .ok (r, t) ↔ Step (tx.env self) s tx.call r t := exec_ok

/-- The address a call wants to make the admin. -/
def Call.appoints : Call → Option Address
  | .init admin => some admin
  | _ => none

/-- The admin is set by the first `initialize` and by nothing else. -/
theorem admin_latch (self : Address) :
    Latch (machine self) State.admin (fun tx => tx.call.appoints) where
  set s tx r t a h harms := by
    have hstep := machine_ok.mp h
    generalize tx.call = c at hstep harms
    cases hstep with
    | init unset => exact ⟨unset, harms⟩
    | register _ _ _ | revoke _ _ _ | authorised | get _ | admin _ => cases harms
  keep s tx r t h harms := by
    have hstep := machine_ok.mp h
    generalize tx.call = c at hstep harms
    cases hstep with
    | init _ => cases harms
    | register _ _ _ | revoke _ _ _ | authorised | get _ | admin _ => rfl

end RegistryContract
end Azaka
