import Azaka.Library.Rewriting
import Azaka.Model.Network

namespace Azaka
open Keyed Stepwise

/-- The address whose authorisation is missing. -/
def Fault.missing {ε : Type} : Fault ε → Option Address
  | .unauthorized a => some a
  | _ => none

/-- The same environment, with this signature or none. -/
def Env.trim (asked : Option Address) (env : Env) : Env :=
  { env with auth := fun a => env.auth a && asked == some a }

/-- The same call, with this signature or none. -/
def Tx.trim {κ : Type} (asked : Option Address) (tx : Tx κ) : Tx κ :=
  { tx with auth := fun a => tx.auth a && asked == some a }

variable {ε : Type}

/-- The computation fails for want of a signature exactly when it asks for one
that is missing. -/
def Wants {α : Type} (env : Env) (asked : Option Address) (x : Except (Fault ε) α) : Prop :=
  ∀ a, (∃ f, x = .error f ∧ f.missing = some a) ↔ asked = some a ∧ env.auth a = false

/-- The computation fails for other reasons only. -/
def Silent {α : Type} (x : Except (Fault ε) α) : Prop := ∀ f, x = .error f → f.missing = none

theorem Silent.bind {α β : Type} {x : Except (Fault ε) α} {g : α → Except (Fault ε) β}
    (hx : Silent x) (hg : ∀ a, Silent (g a)) : Silent (x >>= g) := by
  intro f h
  rcases bind_error.mp h with hfirst | ⟨a, -, hsecond⟩
  · exact hx f hfirst
  · exact hg a f hsecond

theorem Silent.map {α β : Type} {x : Except (Fault ε) α} (hx : Silent x) (g : α → β) :
    Silent (x.map g) := fun f h => hx f (map_error.mp h)

theorem silent_ok {α : Type} (a : α) : Silent (.ok a : Except (Fault ε) α) := by
  intro f h
  cases h

theorem silent_unwrap {α : Type} (o : Option α) : Silent (unwrap o : Except (Fault ε) α) := by
  intro f h
  cases o <;> cases h
  rfl

theorem silent_okOr {α : Type} (e : ε) (o : Option α) : Silent (okOr e o) := by
  intro f h
  rw [(okOr_error.mp h).2]
  rfl

theorem silent_ensure (b : Bool) (e : ε) : Silent (ensure b e) := by
  intro f h
  rw [(ensure_error.mp h).2]
  rfl

theorem silent_checkedAdd (a b : UInt64) : Silent (checkedAdd a b : Except (Fault ε) UInt64) := by
  intro f h
  unfold checkedAdd at h
  split at h <;> cases h
  rfl

theorem silent_call {tok : Token} (l : tok.Ledger) (token a b : Address) (n : I128) :
    Silent (tok.call l token a b n : Except (Fault ε) tok.Ledger) := by
  intro f h
  unfold Token.call at h
  split at h <;> cases h
  rfl

theorem Silent.wants {α : Type} {x : Except (Fault ε) α} (h : Silent x) (env : Env) :
    Wants env none x := by
  intro a
  constructor
  · intro hmissing
    obtain ⟨f, hf, ha⟩ := hmissing
    rw [h f hf] at ha
    cases ha
  · intro hnone
    cases hnone.1

theorem Wants.map {α β : Type} {env : Env} {asked : Option Address} {x : Except (Fault ε) α}
    (h : Wants env asked x) (g : α → β) : Wants env asked (x.map g) := by
  intro a
  rw [← h a]
  exact exists_congr fun f => and_congr_left fun _ => map_error

/-- A signature is asked for before anything else can go wrong. -/
theorem wants_requireAuth {α : Type} {env : Env} {a : Address} {g : Unit → Except (Fault ε) α}
    (hg : Silent (g ())) : Wants env (some a) (env.requireAuth a >>= g) := by
  intro b
  constructor
  · intro hmissing
    obtain ⟨f, hf, hb⟩ := hmissing
    rcases bind_error.mp hf with hfirst | ⟨u, -, hsecond⟩
    · obtain ⟨hauth, rfl⟩ := requireAuth_error.mp hfirst
      obtain rfl := Option.some.inj hb
      exact ⟨rfl, hauth⟩
    · rw [hg f hsecond] at hb
      cases hb
  · intro h
    obtain ⟨ha, hauth⟩ := h
    obtain rfl := Option.some.inj ha
    exact ⟨.unauthorized a, bind_error.mpr (.inl (requireAuth_error.mpr ⟨hauth, rfl⟩)), rfl⟩

/-- Or after the one thing it depends on has been looked up. -/
theorem wants_configured {α : Type} {env : Env} (o : Option Address)
    {g : Address → Unit → Except (Fault ε) α} (hg : ∀ a, Silent (g a ())) :
    Wants env o (unwrap o >>= fun a => env.requireAuth a >>= g a) := by
  cases o with
  | some a => exact wants_requireAuth (hg a)
  | none =>
    refine Silent.wants ?_ env
    intro f h
    cases h
    rfl

theorem trim_requireAuth (env : Env) (a : Address) :
    ((env.trim (some a)).requireAuth a : Except (Fault ε) Unit) = env.requireAuth a := by
  have hauth : (env.trim (some a)).auth a = env.auth a := by simp [Env.trim]
  unfold Env.requireAuth
  rw [hauth]

/-- The same for an address that is looked up first. -/
theorem trim_configured {α : Type} (env : Env) (o : Option Address)
    {g g' : Address → Unit → Except (Fault ε) α} (hg : g = g') :
    (unwrap o >>= fun a => (env.trim o).requireAuth a >>= g a) =
      (unwrap o >>= fun a => env.requireAuth a >>= g' a) := by
  subst hg
  cases o with
  | some a => exact congrArg (fun x => x >>= g a) (trim_requireAuth env a)
  | none => rfl

namespace TradeContract

/-- The signature a call asks for. -/
def asks (s : State) : Call → Option Address
  | .createTrade p => some p.issuingBank
  | .confirmTrade _ bank => some bank
  | .markEscrowDeposited _ => s.escrowContract
  | .cancelTrade _ caller => some caller
  | .init _ _ | .expireTrade _ | .settleTrade _ | .getTrade _ | .listTradesByExporter _ => none

theorem silent_update (id : UInt64) {check : Trade → Except (Fault TradeError) Unit}
    (hcheck : ∀ trade, Silent (check trade)) (edit : Trade → Trade) (event : Trade → TradeEvent)
    (s : State) : Silent (updateTrade id check edit event s) :=
  (silent_okOr _ _).bind fun trade => (hcheck trade).bind fun _ => silent_ok _

theorem exec_wants (env : Env) (s : State) (c : Call) : Wants env (asks s c) (exec env s c) := by
  cases c with
  | init e d =>
    refine Wants.map (Silent.wants ?_ env) _
    intro f h
    unfold init at h
    split at h <;> cases h
    rfl
  | createTrade p =>
    refine Wants.map (wants_requireAuth ?_) _
    exact (silent_checkedAdd _ _).bind fun _ => silent_ok _
  | confirmTrade id bank =>
    refine Wants.map (wants_requireAuth ?_) _
    exact silent_update id (fun _ => silent_ensure _ _) _ _ s
  | markEscrowDeposited id =>
    refine Wants.map (wants_configured s.escrowContract ?_) _
    exact fun _ => silent_update id (fun _ => silent_ensure _ _) _ _ s
  | cancelTrade id caller =>
    refine Wants.map (wants_requireAuth ?_) _
    exact silent_update id (fun _ => (silent_ensure _ _).bind fun _ => silent_ensure _ _) _ _ s
  | expireTrade id | settleTrade id =>
    refine Wants.map (Silent.wants ?_ env) _
    exact silent_update id (fun _ => (silent_ensure _ _).bind fun _ => silent_ensure _ _) _ _ s
  | getTrade id => exact Wants.map ((silent_okOr _ _).wants env) _
  | listTradesByExporter e => exact (silent_ok _).wants env

/-- No other signature makes a difference. -/
theorem exec_trim (env : Env) (s : State) (c : Call) :
    exec (env.trim (asks s c)) s c = exec env s c := by
  cases c with
  | createTrade p =>
    simp only [exec, asks, createTrade, trim_requireAuth]
    rfl
  | confirmTrade id bank => simp only [exec, asks, confirmTrade, trim_requireAuth]
  | cancelTrade id caller => simp only [exec, asks, cancelTrade, trim_requireAuth]
  | markEscrowDeposited id =>
    exact congrArg (Except.map (Return.unit, ·)) (trim_configured env s.escrowContract rfl)
  | init _ _ | expireTrade _ | settleTrade _ | getTrade _ | listTradesByExporter _ => rfl

end TradeContract

namespace EscrowContract
variable {tok : Token}

def asks (s : State) : Call → Option Address
  | .deposit _ depositor _ => some depositor
  | .release _ _ | .refund _ _ => s.tradeContract
  | .init _ _ | .getBalance _ => none

theorem wants_payOut (env : Env) (id : UInt64) (recipient : Address) (event : I128 → EscrowEvent)
    (w : World tok) : Wants env w.1.tradeContract (payOut env id recipient event w) := by
  refine wants_configured w.1.tradeContract ?_
  exact fun _ => (silent_okOr _ _).bind fun _ => (silent_unwrap _).bind fun _ =>
    (silent_call _ _ _ _ _).bind fun _ => silent_ok _

theorem exec_wants (env : Env) (w : World tok) (c : Call) :
    Wants env (asks w.1 c) (exec env w c) := by
  cases c with
  | init trade token =>
    refine Wants.map (Silent.wants ?_ env) _
    intro f h
    unfold init at h
    split at h <;> cases h
    rfl
  | deposit id depositor amount =>
    refine Wants.map (wants_requireAuth ?_) _
    exact (silent_ensure _ _).bind fun _ => (silent_unwrap _).bind fun _ =>
      (silent_call _ _ _ _ _).bind fun _ => silent_ok _
  | release id recipient | refund id recipient =>
    exact Wants.map (wants_payOut env id recipient _ w) _
  | getBalance id => exact (silent_ok _).wants env

theorem exec_trim (env : Env) (w : World tok) (c : Call) :
    exec (env.trim (asks w.1 c)) w c = exec env w c := by
  cases c with
  | deposit id depositor amount =>
    simp only [exec, asks, deposit, trim_requireAuth]
    rfl
  | release id recipient | refund id recipient =>
    exact congrArg (Except.map (Return.unit, ·)) (trim_configured env w.1.tradeContract rfl)
  | init _ _ | getBalance _ => rfl

end EscrowContract

namespace DocumentContract

def asks : Call → Option Address
  | .signDocument _ _ signer => some signer
  | .init _ | .submitDocument _ _ _ _ | .verifyDocument _ _ | .getDocument _ _
  | .allDocsVerified _ _ => none

theorem exec_wants (env : Env) (s : State) (c : Call) : Wants env (asks c) (exec env s c) := by
  cases c with
  | init r =>
    refine Wants.map (Silent.wants ?_ env) _
    intro f h
    unfold init at h
    split at h <;> cases h
    rfl
  | submitDocument id d hash u =>
    refine Wants.map (Silent.wants ?_ env) _
    exact (silent_ensure _ _).bind fun _ => silent_ok _
  | signDocument id d signer =>
    refine Wants.map (wants_requireAuth ?_) _
    exact (silent_okOr _ _).bind fun _ => (silent_ensure _ _).bind fun _ => silent_ok _
  | getDocument id d => exact Wants.map ((silent_okOr _ _).wants env) _
  | verifyDocument id d | allDocsVerified id docs => exact (silent_ok _).wants env

theorem exec_trim (env : Env) (s : State) (c : Call) :
    exec (env.trim (asks c)) s c = exec env s c := by
  cases c with
  | signDocument id d signer => simp only [exec, asks, signDocument, trim_requireAuth]
  | init _ | submitDocument _ _ _ _ | verifyDocument _ _ | getDocument _ _ | allDocsVerified _ _ =>
    rfl

end DocumentContract

namespace RegistryContract

def asks (s : State) : Call → Option Address
  | .registerParticipant _ _ _ _ | .revokeParticipant _ => s.admin
  | .init _ | .isAuthorised _ _ | .getParticipant _ | .getAdmin => none

theorem exec_wants (env : Env) (s : State) (c : Call) : Wants env (asks s c) (exec env s c) := by
  cases c with
  | init a =>
    refine Wants.map (Silent.wants ?_ env) _
    intro f h
    unfold init at h
    split at h <;> cases h
    rfl
  | registerParticipant a p name jurisdiction =>
    refine Wants.map (wants_configured s.admin ?_) _
    exact fun _ => (silent_ensure _ _).bind fun _ => silent_ok _
  | revokeParticipant a =>
    refine Wants.map (wants_configured s.admin ?_) _
    exact fun _ => (silent_okOr _ _).bind fun _ => silent_ok _
  | isAuthorised a p => exact (silent_ok _).wants env
  | getParticipant a => exact Wants.map ((silent_okOr _ _).wants env) _
  | getAdmin => exact Wants.map ((silent_unwrap _).wants env) _

theorem exec_trim (env : Env) (s : State) (c : Call) :
    exec (env.trim (asks s c)) s c = exec env s c := by
  cases c with
  | registerParticipant _ _ _ _ | revokeParticipant _ =>
    exact congrArg (Except.map (Return.unit, ·)) (trim_configured env s.admin rfl)
  | init _ | isAuthorised _ _ | getParticipant _ | getAdmin => rfl

end RegistryContract

namespace Network
variable {tok : Token}

def asks (s : State tok) : Label tok → Option Address
  | .inl (.inl tx) => TradeContract.asks s.1.1 tx.call
  | .inl (.inr (.call tx)) => EscrowContract.asks s.1.2.1 tx.call
  | .inl (.inr (.token _)) => none
  | .inr (.inl tx) => DocumentContract.asks tx.call
  | .inr (.inr tx) => RegistryContract.asks s.2.2 tx.call

def signs : Label tok → Address → Bool
  | .inl (.inl tx) => tx.auth
  | .inl (.inr (.call tx)) => tx.auth
  | .inl (.inr (.token _)) => fun _ => false
  | .inr (.inl tx) => tx.auth
  | .inr (.inr tx) => tx.auth

/-- The label without the signatures nobody asks for. -/
def trim (s : State tok) : Label tok → Label tok
  | .inl (.inl tx) => .inl (.inl (tx.trim (TradeContract.asks s.1.1 tx.call)))
  | .inl (.inr (.call tx)) => .inl (.inr (.call (tx.trim (EscrowContract.asks s.1.2.1 tx.call))))
  | .inl (.inr (.token ledger)) => .inl (.inr (.token ledger))
  | .inr (.inl tx) => .inr (.inl (tx.trim (DocumentContract.asks tx.call)))
  | .inr (.inr tx) => .inr (.inr (tx.trim (RegistryContract.asks s.2.2 tx.call)))

def missing : Failure → Option Address
  | .inl (.inl f) => f.missing
  | .inl (.inr f) => f.missing
  | .inr (.inl f) => f.missing
  | .inr (.inr f) => f.missing

variable (sites : Sites)

theorem exec_trim (s : State tok) (l : Label tok) :
    (machine tok sites).exec (trim s l) s = (machine tok sites).exec l s := by
  match l with
  | .inl (.inl tx) =>
    exact Machine.beside_inl_congr
      (Machine.beside_inl_congr (TradeContract.exec_trim (tx.env sites.trade) s.1.1 tx.call))
  | .inl (.inr (.call tx)) =>
    exact Machine.beside_inl_congr
      (Machine.beside_inr_congr (EscrowContract.exec_trim (tx.env sites.escrow) s.1.2 tx.call))
  | .inl (.inr (.token ledger)) => rfl
  | .inr (.inl tx) =>
    exact Machine.beside_inr_congr
      (Machine.beside_inl_congr (DocumentContract.exec_trim (tx.env sites.document) s.2.1 tx.call))
  | .inr (.inr tx) =>
    exact Machine.beside_inr_congr
      (Machine.beside_inr_congr (RegistryContract.exec_trim (tx.env sites.registry) s.2.2 tx.call))

theorem exec_wants (s : State tok) (l : Label tok) (a : Address) :
    (∃ f, (machine tok sites).exec l s = .error f ∧ missing f = some a) ↔
      asks s l = some a ∧ signs l a = false := by
  match l with
  | .inl (.inl tx) =>
    exact Machine.beside_inl_fails.trans (Machine.beside_inl_fails.trans
      (TradeContract.exec_wants (tx.env sites.trade) s.1.1 tx.call a))
  | .inl (.inr (.call tx)) =>
    exact Machine.beside_inl_fails.trans (Machine.beside_inr_fails.trans
      (EscrowContract.exec_wants (tx.env sites.escrow) s.1.2 tx.call a))
  | .inl (.inr (.token ledger)) =>
    refine Machine.beside_inl_fails.trans (Machine.beside_inr_fails.trans ?_)
    simp [EscrowContract.machine, asks]
  | .inr (.inl tx) =>
    exact Machine.beside_inr_fails.trans (Machine.beside_inl_fails.trans
      (DocumentContract.exec_wants (tx.env sites.document) s.2.1 tx.call a))
  | .inr (.inr tx) =>
    exact Machine.beside_inr_fails.trans (Machine.beside_inr_fails.trans
      (RegistryContract.exec_wants (tx.env sites.registry) s.2.2 tx.call a))

/-- The signature that a call asks for decides, and no other counts. A run in
which each call keeps at most that one goes the same way, answer for answer, and
a call is turned away as unauthorised exactly when it is missing. -/
theorem signatures_decide (s : State tok) (ls : List (Label tok)) :
    ((machine tok sites).outcomes s ((machine tok sites).rewritten trim s ls)).map Prod.snd =
        ((machine tok sites).outcomes s ls).map Prod.snd ∧
      (machine tok sites).run s ((machine tok sites).rewritten trim s ls) =
        (machine tok sites).run s ls ∧
      ∀ pre l post, ls = pre ++ l :: post → ∀ a,
        ((∃ f, (machine tok sites).exec l ((machine tok sites).run s pre) = .error f ∧
            missing f = some a) ↔
          asks ((machine tok sites).run s pre) l = some a ∧ signs l a = false) := by
  obtain ⟨houtcomes, hrun⟩ := Machine.rewritten_same (exec_trim sites) s ls
  refine ⟨houtcomes, hrun, ?_⟩
  intro pre l post _ a
  exact exec_wants sites _ l a

end Network
end Azaka
