import Azaka.Proofs.RegistrySteps

namespace Azaka

/-- The later record is of the same participant, and no more active. -/
def Participant.Fades (old new : Participant) : Prop :=
  new.address = old.address ∧ new.participantType = old.participantType ∧
    new.name = old.name ∧ new.jurisdiction = old.jurisdiction ∧
    (new.active = true → old.active = true)

theorem Participant.Fades.refl (q : Participant) : q.Fades q := ⟨rfl, rfl, rfl, rfl, id⟩

theorem Participant.Fades.trans {a b c : Participant} (hab : a.Fades b) (hbc : b.Fades c) :
    a.Fades c := by
  obtain ⟨h₁, h₂, h₃, h₄, h₅⟩ := hbc
  obtain ⟨g₁, g₂, g₃, g₄, g₅⟩ := hab
  exact ⟨h₁.trans g₁, h₂.trans g₂, h₃.trans g₃, h₄.trans g₄, fun h => g₅ (h₅ h)⟩

theorem Participant.Fades.inactive {old new : Participant} (h : old.Fades new)
    (hold : old.active = false) : new.active = false := by
  obtain ⟨-, -, -, -, hactive⟩ := h
  cases hnew : new.active with
  | false => rfl
  | true =>
    rw [hactive hnew] at hold
    cases hold

namespace RegistryContract
open Keyed Stepwise

/-- The address whose standing the call is about to change. -/
def Call.governs : Call → Option Address
  | .registerParticipant a _ _ _ | .revokeParticipant a => some a
  | _ => none

/-- The address was registered under the type, and has not been revoked since. -/
def Standing (log : List (Done State (Tx Call) Return)) (a : Address) (p : ParticipantType) :
    Prop :=
  ∃ pre reg post name jurisdiction, log = pre ++ reg :: post ∧
    reg.label.call = .registerParticipant a p name jurisdiction ∧
    ∀ d ∈ post, d.label.call ≠ .revokeParticipant a

theorem is_authorised_iff {a : Address} {p : ParticipantType} {s : State} :
    isAuthorised a p s = true ↔
      ∃ q, s.participants a = some q ∧ q.active = true ∧ q.participantType = p := by
  unfold isAuthorised
  cases s.participants a <;> simp

/-- What a step can do to one address: register it, revoke it, or nothing. -/
theorem Step.participant {env : Env} {s t : State} {c : Call} {r : Return} (h : Step env s c r t)
    (a : Address) :
    (∃ p name jurisdiction, c = .registerParticipant a p name jurisdiction ∧
      s.participants a = none ∧ t.participants a = some (registered a p name jurisdiction)) ∨
    (∃ q, c = .revokeParticipant a ∧ s.participants a = some q ∧
      t.participants a = some q.revoked) ∨
    (c.governs ≠ some a ∧ t.participants a = s.participants a) := by
  cases h with
  | @register _ b p name jurisdiction _ _ absent =>
    by_cases he : a = b
    · subst he
      exact .inl ⟨p, name, jurisdiction, rfl, absent, Store.set_same _ _ _⟩
    · exact .inr (.inr ⟨by simpa [Call.governs] using Ne.symm he, Store.set_of_ne he⟩)
  | @revoke _ b q _ _ found =>
    by_cases he : a = b
    · subst he
      exact .inr (.inl ⟨q, rfl, found, Store.set_same _ _ _⟩)
    · exact .inr (.inr ⟨by simpa [Call.governs] using Ne.symm he, Store.set_of_ne he⟩)
  | init _ | authorised | get _ | admin _ => exact .inr (.inr ⟨by simp [Call.governs], rfl⟩)

theorem Step.fades {env : Env} {s t : State} {c : Call} {r : Return} (h : Step env s c r t)
    {a : Address} {q : Participant} (found : s.participants a = some q) :
    ∃ q', t.participants a = some q' ∧ q.Fades q' := by
  rcases h.participant a with ⟨_, _, _, -, absent, -⟩ | ⟨old, -, hold, hnew⟩ | ⟨-, hsame⟩
  · rw [absent] at found
    cases found
  · obtain rfl := Option.some.inj (hold.symm.trans found)
    exact ⟨_, hnew, rfl, rfl, rfl, rfl, by simp [Participant.revoked]⟩
  · exact ⟨q, hsame.trans found, .refl q⟩

theorem Step.revoked {env : Env} {s t : State} {a : Address} {r : Return}
    (h : Step env s (.revokeParticipant a) r t) :
    ∃ q, t.participants a = some q ∧ q.active = false := by
  cases h with
  | @revoke _ _ q _ _ found => exact ⟨q.revoked, Store.set_same _ _ _, rfl⟩

variable (self : Address)

theorem run_fades {s : State} (ls : List (Tx Call)) {a : Address} {q : Participant}
    (found : s.participants a = some q) :
    ∃ q', ((machine self).run s ls).participants a = some q' ∧ q.Fades q' := by
  refine Machine.run_invariant
    (P := fun t : State => ∃ q', t.participants a = some q' ∧ q.Fades q') ?_
    ls ⟨q, found, .refl q⟩
  intro b tx r t hb he
  obtain ⟨q', hq', hfades⟩ := hb
  obtain ⟨q'', hq'', hfades'⟩ := (machine_ok.mp he).fades hq'
  exact ⟨q'', hq'', hfades.trans hfades'⟩

/-- A record changes only by a revocation of its address. -/
theorem run_unrevoked {s : State} (ls : List (Tx Call)) {a : Address} {q : Participant}
    (found : s.participants a = some q)
    (hno : ∀ d ∈ (machine self).log s ls, d.label.call ≠ .revokeParticipant a) :
    ((machine self).run s ls).participants a = some q := by
  refine Machine.log_invariant (m := machine self) (C := fun _ _ => True)
    (P := fun log t => (∀ d ∈ log, d.label.call ≠ .revokeParticipant a) →
      t.participants a = some q) ?_ (fun _ => found) (fun _ _ _ _ => trivial) hno
  intro log b tx r t hb _ he hlog
  have hold := hb (fun d hd => hlog d (List.mem_append_left _ hd))
  have hlast : tx.call ≠ .revokeParticipant a := hlog ⟨b, tx, r⟩ (by simp)
  rcases (machine_ok.mp he).participant a with ⟨_, _, _, -, absent, -⟩ | ⟨_, hc, -⟩ | ⟨-, hsame⟩
  · rw [absent] at hold
    cases hold
  · exact absurd hc hlast
  · rw [hsame, hold]

/-- A revoked address is never authorised again. -/
theorem revoked_barred {s t : State} {tx : Tx Call} {r : Return} {a : Address}
    (hc : tx.call = .revokeParticipant a) (h : (machine self).exec tx s = .ok (r, t))
    (ls : List (Tx Call)) (p : ParticipantType) :
    isAuthorised a p ((machine self).run t ls) = false := by
  have hstep := machine_ok.mp h
  rw [hc] at hstep
  obtain ⟨q, hq, hinactive⟩ := hstep.revoked
  obtain ⟨q', hq', hfades⟩ := run_fades self ls hq
  simp [isAuthorised, hq', hfades.inactive hinactive]

theorem run_revoked {ls : List (Tx Call)} {a : Address}
    (h : ∃ d ∈ (machine self).log .empty ls, d.label.call = .revokeParticipant a)
    (p : ParticipantType) : isAuthorised a p ((machine self).run .empty ls) = false := by
  obtain ⟨d, hd, hc⟩ := h
  obtain ⟨pre, post, t, rfl, hbefore, hexec⟩ := Machine.log_mem hd
  rw [Machine.run_append, Machine.run_cons, hbefore, Machine.next_ok hexec]
  exact revoked_barred self hc hexec post p

/-- Authorisations come from registrations. -/
theorem run_standing (ls : List (Tx Call)) {a : Address} {p : ParticipantType}
    (h : isAuthorised a p ((machine self).run .empty ls) = true) :
    Standing ((machine self).log .empty ls) a p := by
  refine Machine.log_invariant (m := machine self) (C := fun _ _ => True)
    (P := fun log s => isAuthorised a p s = true → Standing log a p) ?_ ?_
    (fun _ _ _ _ => trivial) h
  · intro log s tx r t hs _ he hauth
    obtain ⟨q, found, hactive, htype⟩ := is_authorised_iff.mp hauth
    rcases (machine_ok.mp he).participant a with
      ⟨p', name, jurisdiction, hc, -, hnew⟩ | ⟨old, -, -, hnew⟩ | ⟨hc, hsame⟩
    · obtain rfl := Option.some.inj (hnew.symm.trans found)
      obtain rfl : p' = p := htype
      exact ⟨log, ⟨s, tx, r⟩, [], name, jurisdiction, rfl, hc, by simp⟩
    · obtain rfl := Option.some.inj (hnew.symm.trans found)
      cases hactive
    · rw [hsame] at found
      obtain ⟨pre, reg, post, name, jurisdiction, rfl, hreg, hpost⟩ :=
        hs (is_authorised_iff.mpr ⟨q, found, hactive, htype⟩)
      refine ⟨pre, reg, post ++ [⟨s, tx, r⟩], name, jurisdiction, by simp, hreg, ?_⟩
      intro d hd
      rcases List.mem_append.mp hd with hd | hd
      · exact hpost d hd
      · obtain rfl := List.mem_singleton.mp hd
        intro hrevoke
        have hrevoke : tx.call = .revokeParticipant a := hrevoke
        exact hc (by rw [hrevoke, Call.governs])
  · intro hauth
    cases hauth

theorem standing_authorised {ls : List (Tx Call)} {a : Address} {p : ParticipantType}
    (h : Standing ((machine self).log .empty ls) a p) :
    isAuthorised a p ((machine self).run .empty ls) = true := by
  obtain ⟨pre, reg, post, name, jurisdiction, hlog, hreg, hpost⟩ := h
  obtain ⟨xs, ys, t, rfl, -, hbefore, hexec, rfl⟩ := Machine.log_split hlog
  have hnew : t.participants a = some (registered a p name jurisdiction) := by
    have hstep := machine_ok.mp hexec
    rw [hreg] at hstep
    generalize reg.result = r at hstep
    cases hstep with
    | register _ _ _ => exact Store.set_same _ _ _
  rw [Machine.run_append, Machine.run_cons, hbefore, Machine.next_ok hexec]
  exact is_authorised_iff.mpr ⟨_, run_unrevoked self ys hnew hpost, rfl, rfl⟩

/-- Every registration and every revocation of the run has the authorisation of
the admin named by the only successful `initialize`. -/
theorem run_governed (ls : List (Tx Call)) {d : Done State (Tx Call) Return}
    (hd : d ∈ (machine self).log .empty ls) {a : Address} (hc : d.label.call.governs = some a) :
    ∃ admin, Latch.armed (fun tx : Tx Call => tx.call.appoints) ((machine self).log .empty ls) =
      [admin] ∧ d.label.auth admin = true := by
  obtain ⟨pre, post, t, -, -, hexec⟩ := Machine.log_mem hd
  have hgov : ∃ admin, d.before.admin = some admin ∧ d.label.auth admin = true := by
    have hstep := machine_ok.mp hexec
    generalize d.label.call = c at hstep hc
    generalize d.result = r at hstep
    cases hstep with
    | register governed auth _ | revoke governed auth _ => exact ⟨_, governed, auth⟩
    | init _ | authorised | get _ | admin _ => cases hc
  obtain ⟨admin, hadmin, hauth⟩ := hgov
  exact ⟨admin, (admin_latch self).armed_of_mem_log rfl hd hadmin, hauth⟩

/-- Authorisation follows the history of the run: who was registered and not
revoked since, all of it under one admin, each address once and for all. -/
theorem authorisation_follows_history (ls : List (Tx Call)) :
    (∀ a p, isAuthorised a p ((machine self).run .empty ls) = true ↔
      Standing ((machine self).log .empty ls) a p) ∧
    (∀ d ∈ (machine self).log .empty ls, ∀ a, d.label.call.governs = some a →
      ∃ admin, Latch.armed (fun tx : Tx Call => tx.call.appoints)
        ((machine self).log .empty ls) = [admin] ∧ d.label.auth admin = true) ∧
    ∀ xs ys, ls = xs ++ ys → ∀ a,
      (∀ p q, isAuthorised a p ((machine self).run .empty xs) = true →
        isAuthorised a q ((machine self).run .empty ls) = true → p = q) ∧
      ((∃ d ∈ (machine self).log .empty xs, d.label.call = .revokeParticipant a) →
        ∀ p, isAuthorised a p ((machine self).run .empty ls) = false) ∧
      ∀ q, ((machine self).run .empty xs).participants a = some q →
        ∃ q', ((machine self).run .empty ls).participants a = some q' ∧ q.Fades q' := by
  refine ⟨?_, ?_, ?_⟩
  · intro a p
    exact ⟨run_standing self ls, standing_authorised self⟩
  · intro d hd a hc
    exact run_governed self ls hd hc
  · intro xs ys he a
    subst he
    have hlater : ∀ q, ((machine self).run .empty xs).participants a = some q →
        ∃ q', ((machine self).run .empty (xs ++ ys)).participants a = some q' ∧ q.Fades q' := by
      intro q found
      rw [Machine.run_append]
      exact run_fades self ys found
    refine ⟨?_, ?_, hlater⟩
    · intro p q hp hq
      obtain ⟨x, hx, -, rfl⟩ := is_authorised_iff.mp hp
      obtain ⟨y, hy, -, rfl⟩ := is_authorised_iff.mp hq
      obtain ⟨y', hy', -, htype, -⟩ := hlater x hx
      obtain rfl := Option.some.inj (hy.symm.trans hy')
      exact htype.symm
    · intro hrevoked p
      obtain ⟨d, hd, hc⟩ := hrevoked
      apply run_revoked self _ p
      exact ⟨d, by simp [hd], hc⟩

/-- A forwarder and an inspector are registered, and the forwarder is revoked. -/
def revokedRun : List (Tx Call) :=
  [signed [] 1 (.init (.account 0)),
   signed [.account 0] 2
     (.registerParticipant (.account 9) .freightForwarder "DHL Freight" "Kenya"),
   signed [.account 0] 2 (.registerParticipant (.account 1) .inspector "SGS Inspection" "Nigeria"),
   signed [.account 0] 3 (.revokeParticipant (.account 9))]

theorem revoked_run_history :
    Standing ((machine (.contract 8)).log .empty revokedRun) (.account 1) .inspector ∧
      ∀ p, ¬ Standing ((machine (.contract 8)).log .empty revokedRun) (.account 9) p := by
  have hhistory := (authorisation_follows_history (.contract 8) revokedRun).1
  refine ⟨(hhistory (.account 1) .inspector).mp rfl, ?_⟩
  intro p hstanding
  cases (hhistory (.account 9) p).mpr hstanding

end RegistryContract
end Azaka
