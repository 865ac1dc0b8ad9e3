import Azaka.Library.Retry
import Azaka.Model.Network
import Azaka.Proofs.DocumentSteps
import Azaka.Proofs.EscrowSteps
import Azaka.Proofs.RegistrySteps
import Azaka.Proofs.TradeSteps

namespace Azaka
open Keyed Stepwise

namespace TradeContract

/-- The records and the configuration, whatever has been published. -/
def State.quiet (s : State) : State := { s with events := [] }

theorem update_quiet (s : State) (id : UInt64) (check : Trade → Except (Fault TradeError) Unit)
    (edit : Trade → Trade) (event : Trade → TradeEvent) :
    (updateTrade id check edit event s.quiet).map State.quiet =
      (updateTrade id check edit event s).map State.quiet :=
  bind_map fun _ => bind_map fun _ => rfl

theorem init_quiet (s : State) (escrow document : Address) :
    (init escrow document s.quiet).map State.quiet = (init escrow document s).map State.quiet := by
  have hescrow : s.quiet.escrowContract = s.escrowContract := rfl
  unfold init
  rw [hescrow]
  split
  · rfl
  · rfl

theorem create_quiet (env : Env) (s : State) (p : CreateTradeParams) :
    (createTrade env p s.quiet).map (Prod.map id State.quiet) =
      (createTrade env p s).map (Prod.map id State.quiet) :=
  bind_map fun _ => bind_map fun _ => rfl

/-- No call reads what has been published. -/
theorem exec_quiet (env : Env) (s : State) (c : Call) :
    (exec env s.quiet c).map (Prod.map id State.quiet) =
      (exec env s c).map (Prod.map id State.quiet) := by
  cases c with
  | init escrow document =>
    exact map_agree (init_quiet s escrow document) (fun v => (Return.unit, v)) (fun _ => rfl)
  | createTrade p =>
    exact map_agree (create_quiet env s p) (fun v => (Return.tradeId v.1, v.2)) (fun _ => rfl)
  | confirmTrade id bank =>
    exact map_agree (bind_map fun _ => update_quiet s id _ _ _) (fun v => (Return.unit, v))
      (fun _ => rfl)
  | markEscrowDeposited id =>
    refine map_agree ?_ (fun v => (Return.unit, v)) (fun _ => rfl)
    exact bind_map fun _ => bind_map fun _ => update_quiet s id _ _ _
  | cancelTrade id caller =>
    exact map_agree (bind_map fun _ => update_quiet s id _ _ _) (fun v => (Return.unit, v))
      (fun _ => rfl)
  | expireTrade id | settleTrade id =>
    exact map_agree (update_quiet s id _ _ _) (fun v => (Return.unit, v)) (fun _ => rfl)
  | getTrade id =>
    have htrade : s.quiet.trades id = s.trades id := rfl
    simp only [exec, getTrade, htrade]
    cases s.trades id <;> rfl
  | listTradesByExporter _ => rfl

/-- A status call is refused the second time, or writes what it has written. -/
theorem Edit.again {env : Env} {escrow : Option Address} {c : Call} {id j : UInt64}
    {trade trade' other after : Trade} {event event' : TradeEvent}
    (h : Edit env escrow c id trade trade' event)
    (h' : Edit env escrow c j other after event') : j = id ∧ (other = trade' → after = trade') := by
  cases h with
  | confirm _ _ =>
    cases h' with
    | confirm _ status =>
      refine ⟨rfl, ?_⟩
      intro he
      subst he
      cases status
  | mark _ _ _ =>
    cases h' with
    | mark _ _ status =>
      refine ⟨rfl, ?_⟩
      intro he
      subst he
      cases status
  | cancel _ _ _ =>
    cases h' with
    | cancel _ _ status =>
      refine ⟨rfl, ?_⟩
      intro he
      subst he
      rcases status with status | status <;> cases status
  | expire _ _ =>
    cases h' with
    | expire _ _ =>
      refine ⟨rfl, ?_⟩
      intro he
      rw [he]
  | settle _ =>
    cases h' with
    | settle status =>
      refine ⟨rfl, ?_⟩
      intro he
      subst he
      cases status

theorem Step.again {env : Env} {s t u : State} {c : Call} {r r' : Return} (h : Step env s c r t)
    (h' : Step env t c r' u) (hc : ∀ p, c ≠ .createTrade p) : u.quiet = t.quiet := by
  cases h with
  | init _ =>
    cases h' with
    | init unset => cases unset
    | edit _ edit => cases edit
  | create _ _ => exact absurd rfl (hc _)
  | get _ | list =>
    cases h' with
    | edit _ edit => cases edit
    | _ => rfl
  | @edit _ id _ trade' _ found edit =>
    cases h' with
    | init _ | create _ _ | get _ | list => cases edit
    | edit found' edit' =>
      obtain ⟨rfl, hafter⟩ := edit.again edit'
      obtain rfl := Option.some.inj ((Store.set_same _ _ _).symm.trans found')
      obtain rfl := hafter rfl
      simp only [State.quiet, State.edited, Store.set_set]

end TradeContract

namespace EscrowContract
variable {tok : Token}

def quiet (w : World tok) : World tok := ({ w.1 with events := [] }, w.2)

theorem init_quiet (w : World tok) (trade token : Address) :
    (init trade token (quiet w).1).map (fun s => quiet (s, w.2)) =
      (init trade token w.1).map (fun s => quiet (s, w.2)) := by
  have htrade : (quiet w).1.tradeContract = w.1.tradeContract := rfl
  unfold init
  rw [htrade]
  split
  · rfl
  · rfl

theorem deposit_quiet (env : Env) (w : World tok) (id : UInt64) (depositor : Address)
    (amount : I128) :
    (deposit env id depositor amount (quiet w)).map quiet =
      (deposit env id depositor amount w).map quiet :=
  bind_map fun _ => bind_map fun _ => bind_map fun _ => bind_map fun _ => rfl

theorem pay_out_quiet (env : Env) (w : World tok) (id : UInt64) (recipient : Address)
    (event : I128 → EscrowEvent) :
    (payOut env id recipient event (quiet w)).map quiet =
      (payOut env id recipient event w).map quiet :=
  bind_map fun _ => bind_map fun _ => bind_map fun _ => bind_map fun _ => bind_map fun _ => rfl

theorem exec_quiet (env : Env) (w : World tok) (c : Call) :
    (exec env (quiet w) c).map (Prod.map id quiet) = (exec env w c).map (Prod.map id quiet) := by
  cases c with
  | init trade token =>
    exact map_agree (init_quiet w trade token) (fun v => (Return.unit, v)) (fun _ => rfl)
  | deposit id a n =>
    exact map_agree (deposit_quiet env w id a n) (fun v => (Return.unit, v)) (fun _ => rfl)
  | release id a | refund id a =>
    exact map_agree (pay_out_quiet env w id a _) (fun v => (Return.unit, v)) (fun _ => rfl)
  | getBalance _ => rfl

/-- There is nothing left to pay out. -/
theorem pay_out_again {env : Env} {id : UInt64} {recipient : Address}
    {event : I128 → EscrowEvent} {w v u : World tok} (h : payOut env id recipient event w = .ok v) :
    payOut env id recipient event v ≠ .ok u := by
  intro h'
  obtain ⟨_, _, _, _, _, _, _, _, _, rfl⟩ := payOut_ok.mp h
  obtain ⟨_, _, _, _, _, _, found, _⟩ := payOut_ok.mp h'
  simp [State.paid] at found

theorem exec_again {env : Env} {w v u : World tok} {c : Call} {r r' : Return}
    (h : exec env w c = .ok (r, v)) (h' : exec env v c = .ok (r', u)) : quiet u = quiet v := by
  cases c with
  | init trade token =>
    obtain ⟨_, hfirst, ⟨⟩⟩ := map_ok.mp h
    obtain ⟨_, hsecond, ⟨⟩⟩ := map_ok.mp h'
    obtain ⟨-, rfl⟩ := init_ok.mp hfirst
    obtain ⟨unset, -⟩ := init_ok.mp hsecond
    cases unset
  | deposit id a n =>
    obtain ⟨_, hfirst, ⟨⟩⟩ := map_ok.mp h
    obtain ⟨_, hsecond, ⟨⟩⟩ := map_ok.mp h'
    obtain ⟨-, -, _, _, -, -, rfl⟩ := deposit_ok.mp hfirst
    obtain ⟨-, vacant, -⟩ := deposit_ok.mp hsecond
    simp [State.deposited] at vacant
  | release id a | refund id a =>
    obtain ⟨_, hfirst, ⟨⟩⟩ := map_ok.mp h
    obtain ⟨_, hsecond, ⟨⟩⟩ := map_ok.mp h'
    exact absurd hsecond (pay_out_again hfirst)
  | getBalance _ =>
    cases h
    cases h'
    rfl

theorem label_quiet (self : Address) (w : World tok) (l : Label tok) :
    ((machine tok self).exec l (quiet w)).map (Prod.map id quiet) =
      ((machine tok self).exec l w).map (Prod.map id quiet) := by
  cases l with
  | call tx => exact exec_quiet (tx.env self) w tx.call
  | token ledger => rfl

theorem label_again {self : Address} {l : Label tok} :
    (machine tok self).Repeatable quiet l := by
  intro w r v r' u hfirst hsecond
  cases l with
  | call tx => exact exec_again (c := tx.call) hfirst hsecond
  | token ledger =>
    cases hfirst
    cases hsecond
    rfl

end EscrowContract

namespace DocumentContract

def State.quiet (s : State) : State := { s with events := [] }

theorem init_quiet (s : State) (registry : Address) :
    (init registry s.quiet).map State.quiet = (init registry s).map State.quiet := by
  have hregistry : s.quiet.registryContract = s.registryContract := rfl
  unfold init
  rw [hregistry]
  split
  · rfl
  · rfl

theorem submit_quiet (env : Env) (s : State) (id : UInt64) (d : DocumentType) (hash : BytesN 32)
    (u : String) :
    (submitDocument env id d hash u s.quiet).map State.quiet =
      (submitDocument env id d hash u s).map State.quiet :=
  bind_map fun _ => rfl

theorem sign_quiet (env : Env) (s : State) (id : UInt64) (d : DocumentType) (a : Address) :
    (signDocument env id d a s.quiet).map State.quiet =
      (signDocument env id d a s).map State.quiet :=
  bind_map fun _ => bind_map fun _ => bind_map fun _ => rfl

theorem all_verified_quiet (s : State) (id : UInt64) (docs : List DocumentType) :
    allDocsVerified id docs s.quiet = allDocsVerified id docs s := by
  induction docs with
  | nil => rfl
  | cons d docs ih =>
    have hverify : verifyDocument id d s.quiet = verifyDocument id d s := rfl
    simp only [allDocsVerified, hverify, ih]

theorem exec_quiet (env : Env) (s : State) (c : Call) :
    (exec env s.quiet c).map (Prod.map id State.quiet) =
      (exec env s c).map (Prod.map id State.quiet) := by
  cases c with
  | init registry =>
    exact map_agree (init_quiet s registry) (fun v => (Return.unit, v)) (fun _ => rfl)
  | submitDocument id d hash u =>
    exact map_agree (submit_quiet env s id d hash u) (fun v => (Return.unit, v)) (fun _ => rfl)
  | signDocument id d a =>
    exact map_agree (sign_quiet env s id d a) (fun v => (Return.unit, v)) (fun _ => rfl)
  | getDocument id d =>
    have hdocument : s.quiet.documents (id, d) = s.documents (id, d) := rfl
    simp only [exec, getDocument, hdocument]
    cases s.documents (id, d) <;> rfl
  | verifyDocument _ _ => rfl
  | allDocsVerified id docs =>
    simp only [exec, all_verified_quiet]
    rfl

theorem Step.again {env : Env} {s t u : State} {c : Call} {r r' : Return} (h : Step env s c r t)
    (h' : Step env t c r' u) : u.quiet = t.quiet := by
  cases h with
  | init _ =>
    cases h' with
    | init unset => cases unset
  | submit _ =>
    cases h' with
    | submit absent => simp [State.put] at absent
  | sign _ _ _ =>
    cases h' with
    | sign _ found unsigned =>
      obtain rfl := Option.some.inj ((Store.set_same _ _ _).symm.trans found)
      simp [Document.sign] at unsigned
  | verify | get _ | all =>
    cases h' with
    | _ => rfl

end DocumentContract

namespace RegistryContract

def State.quiet (s : State) : State := { s with events := [] }

theorem init_quiet (s : State) (admin : Address) :
    (init admin s.quiet).map State.quiet = (init admin s).map State.quiet := by
  have hadmin : s.quiet.admin = s.admin := rfl
  unfold init
  rw [hadmin]
  split
  · rfl
  · rfl

theorem register_quiet (env : Env) (s : State) (a : Address) (p : ParticipantType)
    (name jurisdiction : String) :
    (registerParticipant env a p name jurisdiction s.quiet).map State.quiet =
      (registerParticipant env a p name jurisdiction s).map State.quiet :=
  bind_map fun _ => bind_map fun _ => bind_map fun _ => rfl

theorem revoke_quiet (env : Env) (s : State) (a : Address) :
    (revokeParticipant env a s.quiet).map State.quiet =
      (revokeParticipant env a s).map State.quiet :=
  bind_map fun _ => bind_map fun _ => bind_map fun _ => rfl

theorem exec_quiet (env : Env) (s : State) (c : Call) :
    (exec env s.quiet c).map (Prod.map id State.quiet) =
      (exec env s c).map (Prod.map id State.quiet) := by
  cases c with
  | init admin =>
    exact map_agree (init_quiet s admin) (fun v => (Return.unit, v)) (fun _ => rfl)
  | registerParticipant a p name jurisdiction =>
    exact map_agree (register_quiet env s a p name jurisdiction) (fun v => (Return.unit, v))
      (fun _ => rfl)
  | revokeParticipant a =>
    exact map_agree (revoke_quiet env s a) (fun v => (Return.unit, v)) (fun _ => rfl)
  | isAuthorised _ _ => rfl
  | getParticipant a =>
    have hparticipant : s.quiet.participants a = s.participants a := rfl
    simp only [exec, getParticipant, hparticipant]
    cases s.participants a <;> rfl
  | getAdmin =>
    have hadmin : s.quiet.admin = s.admin := rfl
    simp only [exec, getAdmin, hadmin]
    cases s.admin <;> rfl

theorem Step.again {env : Env} {s t u : State} {c : Call} {r r' : Return} (h : Step env s c r t)
    (h' : Step env t c r' u) : u.quiet = t.quiet := by
  cases h with
  | init _ =>
    cases h' with
    | init unset => cases unset
  | register _ _ _ =>
    cases h' with
    | register _ _ absent => simp [State.put] at absent
  | revoke _ _ _ =>
    cases h' with
    | revoke _ _ found =>
      obtain rfl := Option.some.inj ((Store.set_same _ _ _).symm.trans found)
      simp only [State.quiet, State.put, Store.set_set, Participant.revoked]
  | authorised | get _ | admin _ =>
    cases h' with
    | _ => rfl

end RegistryContract

namespace Network

/-- The network, whatever has been published. -/
def quiet {tok : Token} : State tok → State tok :=
  Prod.map (Prod.map TradeContract.State.quiet EscrowContract.quiet)
    (Prod.map DocumentContract.State.quiet RegistryContract.State.quiet)

/-- Anything but the opening of another trade. -/
def Harmless {tok : Token} : Label tok → Prop
  | .inl (.inl tx) => ∀ p, tx.call ≠ .createTrade p
  | _ => True

variable (tok : Token) (sites : Sites)

theorem quiet_erases : (machine tok sites).Erases id id quiet := by
  have htrade : (TradeContract.machine sites.trade).Erases id id TradeContract.State.quiet :=
    ⟨fun _ => rfl, fun _ => rfl,
      fun s tx => TradeContract.exec_quiet (tx.env sites.trade) s tx.call⟩
  have hescrow : (EscrowContract.machine tok sites.escrow).Erases id id EscrowContract.quiet :=
    ⟨fun _ => rfl, fun _ => rfl, EscrowContract.label_quiet sites.escrow⟩
  have hdocument :
      (DocumentContract.machine sites.document).Erases id id DocumentContract.State.quiet :=
    ⟨fun _ => rfl, fun _ => rfl,
      fun s tx => DocumentContract.exec_quiet (tx.env sites.document) s tx.call⟩
  have hregistry :
      (RegistryContract.machine sites.registry).Erases id id RegistryContract.State.quiet :=
    ⟨fun _ => rfl, fun _ => rfl,
      fun s tx => RegistryContract.exec_quiet (tx.env sites.registry) s tx.call⟩
  have hall := (htrade.beside hescrow).beside (hdocument.beside hregistry)
  simp only [Sum.map_id_id] at hall
  exact hall

theorem harmless_again {l : Label tok} (h : Harmless l) :
    (machine tok sites).Repeatable quiet l := by
  rcases l with (tx | l) | (tx | tx)
  · refine Machine.Repeatable.left _ (Machine.Repeatable.left _ ?_)
    intro s r t r' u hfirst hsecond
    exact (TradeContract.machine_ok.mp hfirst).again (TradeContract.machine_ok.mp hsecond) h
  · exact Machine.Repeatable.left _ (Machine.Repeatable.right _ EscrowContract.label_again)
  · refine Machine.Repeatable.right _ (Machine.Repeatable.left _ ?_)
    intro s r t r' u hfirst hsecond
    exact (DocumentContract.machine_ok.mp hfirst).again (DocumentContract.machine_ok.mp hsecond)
  · refine Machine.Repeatable.right _ (Machine.Repeatable.right _ ?_)
    intro s r t r' u hfirst hsecond
    exact (RegistryContract.machine_ok.mp hfirst).again (RegistryContract.machine_ok.mp hsecond)

/-- A call that arrives several times in a row in the same ledger does what it
does once, unless it opens a trade. The answers of the run without the
repetitions are among those of the run with them, and all four contracts and the
tokens end the same, but for what has been published. -/
theorem retries_harmless {ls ks : List (Label tok)} (h : Retried Harmless ls ks) (s : State tok) :
    ((machine tok sites).outcomes s ls).Sublist ((machine tok sites).outcomes s ks) ∧
      quiet ((machine tok sites).run s ks) = quiet ((machine tok sites).run s ls) :=
  (quiet_erases tok sites).retries (fun _ => harmless_again tok sites) h s

/-- A deposit and its release, each delivered twice. -/
theorem doubled_release_harmless :
    let deposit : Label plainToken :=
      .inl (.inr (.call (signed [.account 2] 3 (.deposit 1 (.account 2) 1000))))
    let release : Label plainToken :=
      .inl (.inr (.call (signed [.contract 7] 5 (.release 1 (.account 1)))))
    let start : State plainToken := deployed testSites (.account 9) fun _ _ => 1000
    quiet ((machine plainToken testSites).run start [deposit, deposit, release, release]) =
      quiet ((machine plainToken testSites).run start [deposit, release]) := by
  intro deposit release start
  have hdeposit : Harmless deposit := trivial
  have hrelease : Harmless release := trivial
  exact (retries_harmless plainToken testSites
    (.again hdeposit (.once (.again hrelease (.once .nil)))) start).2

end Network
end Azaka
