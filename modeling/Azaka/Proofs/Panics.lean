import Azaka.Proofs.NetworkRuns

namespace Azaka
open Keyed Stepwise

def Fault.panics {ε : Type} : Fault ε → Prop
  | .panicked _ => True
  | _ => False

section
variable {ε α β : Type}

/-- The computation may fail, but it does not panic. -/
def Calm (x : Except (Fault ε) α) : Prop := ∀ f, x = .error f → ¬ f.panics

theorem calm_ok (a : α) : Calm (.ok a : Except (Fault ε) α) := by
  intro f h
  cases h

theorem Calm.bind {x : Except (Fault ε) α} {g : α → Except (Fault ε) β} (hx : Calm x)
    (hg : ∀ a, Calm (g a)) : Calm (x >>= g) := by
  intro f h
  rcases bind_error.mp h with hfirst | ⟨a, -, hsecond⟩
  · exact hx f hfirst
  · exact hg a f hsecond

theorem Calm.map {x : Except (Fault ε) α} (hx : Calm x) (g : α → β) : Calm (x.map g) :=
  fun f h => hx f (map_error.mp h)

theorem calm_requireAuth (env : Env) (a : Address) :
    Calm (env.requireAuth a : Except (Fault ε) Unit) := by
  intro f h
  rw [(requireAuth_error.mp h).2]
  exact id

theorem calm_okOr (e : ε) (o : Option α) : Calm (okOr e o) := by
  intro f h
  rw [(okOr_error.mp h).2]
  exact id

theorem calm_ensure (b : Bool) (e : ε) : Calm (ensure b e) := by
  intro f h
  rw [(ensure_error.mp h).2]
  exact id

theorem calm_unwrap {o : Option α} {a : α} (h : o = some a) :
    Calm (unwrap o : Except (Fault ε) α) := by
  subst h
  exact calm_ok a

theorem calm_checkedAdd {a b : UInt64} (room : a.toNat + b.toNat < 2 ^ 64) :
    Calm (checkedAdd a b : Except (Fault ε) UInt64) := by
  rw [checkedAdd, if_pos room]
  exact calm_ok _

theorem calm_call {tok : Token} (l : tok.Ledger) (token a b : Address) (n : I128) :
    Calm (tok.call l token a b n : Except (Fault ε) tok.Ledger) := by
  intro f h
  unfold Token.call at h
  split at h <;> cases h
  exact id

/-- A call that does not panic fails in no state for a panic. -/
theorem Calm.not_panics {x : Except (Fault ε) α} (h : Calm x) : ¬ ∃ f, x = .error f ∧ f.panics :=
  fun hf => hf.elim fun f hf => h f hf.1 hf.2

end

namespace TradeContract

theorem calm_update (id : UInt64) {check : Trade → Except (Fault TradeError) Unit}
    (hcheck : ∀ trade, Calm (check trade)) (edit : Trade → Trade) (event : Trade → TradeEvent)
    (s : State) : Calm (updateTrade id check edit event s) :=
  (calm_okOr _ _).bind fun trade => (hcheck trade).bind fun _ => calm_ok _

/-- A configured contract that can count on panics at `initialize` only. -/
theorem panics_iff {s : State} {escrow : Address} (hs : s.escrowContract = some escrow)
    (room : s.counter.toNat + 1 < 2 ^ 64) (env : Env) (c : Call) :
    (∃ f, exec env s c = .error f ∧ f.panics) ↔ c.isInit = true := by
  cases c with
  | init e d =>
    refine iff_of_true ⟨.panicked "Already initialized", ?_, trivial⟩ rfl
    simp [exec, init, hs, Except.map]
  | createTrade p =>
    refine iff_of_false (Calm.not_panics (Calm.map ?_ _)) Bool.false_ne_true
    exact (calm_requireAuth _ _).bind fun _ => (calm_checkedAdd room).bind fun _ => calm_ok _
  | confirmTrade id bank =>
    refine iff_of_false (Calm.not_panics (Calm.map ?_ _)) Bool.false_ne_true
    exact (calm_requireAuth _ _).bind fun _ => calm_update id (fun _ => calm_ensure _ _) _ _ s
  | markEscrowDeposited id =>
    refine iff_of_false (Calm.not_panics (Calm.map ?_ _)) Bool.false_ne_true
    exact (calm_unwrap hs).bind fun _ => (calm_requireAuth _ _).bind fun _ =>
      calm_update id (fun _ => calm_ensure _ _) _ _ s
  | cancelTrade id caller =>
    refine iff_of_false (Calm.not_panics (Calm.map ?_ _)) Bool.false_ne_true
    exact (calm_requireAuth _ _).bind fun _ =>
      calm_update id (fun _ => (calm_ensure _ _).bind fun _ => calm_ensure _ _) _ _ s
  | expireTrade id | settleTrade id =>
    refine iff_of_false (Calm.not_panics (Calm.map ?_ _)) Bool.false_ne_true
    exact calm_update id (fun _ => (calm_ensure _ _).bind fun _ => calm_ensure _ _) _ _ s
  | getTrade id =>
    exact iff_of_false (Calm.not_panics ((calm_okOr _ _).map _)) Bool.false_ne_true
  | listTradesByExporter e => exact iff_of_false (Calm.not_panics (calm_ok _)) Bool.false_ne_true

/-- Every call opens one trade at most. -/
theorem Step.counter_le {env : Env} {s t : State} {c : Call} {r : Return} (h : Step env s c r t)
    (hs : s.escrowContract.isSome) : t.counter.toNat ≤ s.counter.toNat + 1 := by
  cases h with
  | init unset =>
    rw [unset] at hs
    cases hs
  | create _ room =>
    rw [created_counter, counter_succ room]
  | edit _ _ =>
    rw [edited_counter]
    exact Nat.le_succ _
  | get _ | list => exact Nat.le_succ _

theorem run_counter_le (self : Address) {s : State} {escrow : Address}
    (hs : s.escrowContract = some escrow) (hb : Bounded s) (ls : List (Tx Call)) :
    ((machine self).run s ls).counter.toNat ≤ s.counter.toNat + ls.length := by
  induction ls using List.reverseRecOn with
  | nil => exact Nat.le_refl _
  | append_singleton ls tx ih =>
    rw [Machine.run_concat, List.length_append, List.length_singleton]
    rcases (machine self).next_cases ((machine self).run s ls) tx with ⟨r, t, hexec, hnext⟩ | hsame
    · have hset := (run_configured self hs hb ls).1
      have hstep := (machine_ok.mp hexec).counter_le (by simp [hset])
      rw [hnext]
      omega
    · rw [hsame]
      omega

end TradeContract

namespace EscrowContract
variable {tok : Token}

def Call.isInit : Call → Bool
  | .init _ _ => true
  | _ => false

theorem calm_payOut {w : World tok} {trade token : Address}
    (htrade : w.1.tradeContract = some trade) (htoken : w.1.tokenContract = some token) (env : Env)
    (id : UInt64) (recipient : Address) (event : I128 → EscrowEvent) :
    Calm (payOut env id recipient event w) :=
  (calm_unwrap htrade).bind fun _ => (calm_requireAuth _ _).bind fun _ =>
    (calm_okOr _ _).bind fun _ => (calm_unwrap htoken).bind fun _ =>
      (calm_call _ _ _ _ _).bind fun _ => calm_ok _

theorem panics_iff {w : World tok} {trade token : Address}
    (htrade : w.1.tradeContract = some trade) (htoken : w.1.tokenContract = some token) (env : Env)
    (c : Call) : (∃ f, exec env w c = .error f ∧ f.panics) ↔ c.isInit = true := by
  cases c with
  | init e d =>
    refine iff_of_true ⟨.panicked "Already initialized", ?_, trivial⟩ rfl
    simp [exec, init, htrade, Except.map]
  | deposit id depositor amount =>
    refine iff_of_false (Calm.not_panics (Calm.map ?_ _)) Bool.false_ne_true
    exact (calm_requireAuth _ _).bind fun _ => (calm_ensure _ _).bind fun _ =>
      (calm_unwrap htoken).bind fun _ => (calm_call _ _ _ _ _).bind fun _ => calm_ok _
  | release id recipient | refund id recipient =>
    exact iff_of_false (Calm.not_panics ((calm_payOut htrade htoken env id recipient _).map _))
      Bool.false_ne_true
  | getBalance id => exact iff_of_false (Calm.not_panics (calm_ok _)) Bool.false_ne_true

end EscrowContract

namespace DocumentContract

theorem panics_iff {s : State} {registry : Address} (hs : s.registryContract = some registry)
    (env : Env) (c : Call) : (∃ f, exec env s c = .error f ∧ f.panics) ↔ c.isInit = true := by
  cases c with
  | init r =>
    refine iff_of_true ⟨.panicked "Already initialized", ?_, trivial⟩ rfl
    simp [exec, init, hs, Except.map]
  | submitDocument id d hash u =>
    refine iff_of_false (Calm.not_panics (Calm.map ?_ _)) Bool.false_ne_true
    exact (calm_ensure _ _).bind fun _ => calm_ok _
  | signDocument id d signer =>
    refine iff_of_false (Calm.not_panics (Calm.map ?_ _)) Bool.false_ne_true
    exact (calm_requireAuth _ _).bind fun _ => (calm_okOr _ _).bind fun _ =>
      (calm_ensure _ _).bind fun _ => calm_ok _
  | getDocument id d =>
    exact iff_of_false (Calm.not_panics ((calm_okOr _ _).map _)) Bool.false_ne_true
  | verifyDocument id d | allDocsVerified id docs =>
    exact iff_of_false (Calm.not_panics (calm_ok _)) Bool.false_ne_true

end DocumentContract

namespace RegistryContract

def Call.isInit : Call → Bool
  | .init _ => true
  | _ => false

theorem panics_iff {s : State} {admin : Address} (hs : s.admin = some admin) (env : Env)
    (c : Call) : (∃ f, exec env s c = .error f ∧ f.panics) ↔ c.isInit = true := by
  cases c with
  | init a =>
    refine iff_of_true ⟨.panicked "Already initialized", ?_, trivial⟩ rfl
    simp [exec, init, hs, Except.map]
  | registerParticipant a p name jurisdiction =>
    refine iff_of_false (Calm.not_panics (Calm.map ?_ _)) Bool.false_ne_true
    exact (calm_unwrap hs).bind fun _ => (calm_requireAuth _ _).bind fun _ =>
      (calm_ensure _ _).bind fun _ => calm_ok _
  | revokeParticipant a =>
    refine iff_of_false (Calm.not_panics (Calm.map ?_ _)) Bool.false_ne_true
    exact (calm_unwrap hs).bind fun _ => (calm_requireAuth _ _).bind fun _ =>
      (calm_okOr _ _).bind fun _ => calm_ok _
  | isAuthorised a p => exact iff_of_false (Calm.not_panics (calm_ok _)) Bool.false_ne_true
  | getParticipant a =>
    exact iff_of_false (Calm.not_panics ((calm_okOr _ _).map _)) Bool.false_ne_true
  | getAdmin =>
    exact iff_of_false (Calm.not_panics ((calm_unwrap hs).map _)) Bool.false_ne_true

end RegistryContract

namespace Network
variable {tok : Token}

/-- A contract's `initialize`. -/
def isInit : Label tok → Bool
  | .inl (.inl tx) => tx.call.isInit
  | .inl (.inr (.call tx)) => tx.call.isInit
  | .inl (.inr (.token _)) => false
  | .inr (.inl tx) => tx.call.isInit
  | .inr (.inr tx) => tx.call.isInit

def Panics : Failure → Prop
  | .inl (.inl f) => f.panics
  | .inl (.inr f) => f.panics
  | .inr (.inl f) => f.panics
  | .inr (.inr f) => f.panics

theorem panics_iff {sites : Sites} {admin : Address} {s : State tok} (h : Configured sites admin s)
    (room : s.1.1.counter.toNat + 1 < 2 ^ 64) (l : Label tok) :
    (∃ f, (machine tok sites).exec l s = .error f ∧ Panics f) ↔ isInit l = true := by
  match l with
  | .inl (.inl tx) =>
    exact Machine.beside_inl_fails.trans (Machine.beside_inl_fails.trans
      (TradeContract.panics_iff h.escrow room (tx.env sites.trade) tx.call))
  | .inl (.inr (.call tx)) =>
    exact Machine.beside_inl_fails.trans (Machine.beside_inr_fails.trans
      (EscrowContract.panics_iff h.trade h.token (tx.env sites.escrow) tx.call))
  | .inl (.inr (.token ledger)) =>
    refine Machine.beside_inl_fails.trans (Machine.beside_inr_fails.trans ?_)
    simp [EscrowContract.machine, isInit]
  | .inr (.inl tx) =>
    exact Machine.beside_inr_fails.trans (Machine.beside_inl_fails.trans
      (DocumentContract.panics_iff h.registry (tx.env sites.document) tx.call))
  | .inr (.inr tx) =>
    exact Machine.beside_inr_fails.trans (Machine.beside_inr_fails.trans
      (RegistryContract.panics_iff h.admin (tx.env sites.registry) tx.call))

theorem trades_length_le (ls : List (Label tok)) : (trades ls).length ≤ ls.length :=
  (List.length_filterMap_le _ _).trans (List.length_filterMap_le _ _)

variable (sites : Sites) (admin : Address) (ledger : tok.Ledger)

/-- Once deployed, the contracts panic when they are initialised again, and at no
other call whose arguments have been decoded. Whatever was called before, no
`unwrap` meets a `None`, and no trade id overflows in fewer calls than there are
ids. -/
theorem only_initialize_panics {ls : List (Label tok)} (short : ls.length + 1 < 2 ^ 64)
    (l : Label tok) :
    (∃ f, (machine tok sites).exec l
        ((machine tok sites).run (deployed sites admin ledger) ls) = .error f ∧ Panics f) ↔
      isInit l = true := by
  have hstart := deployed_configured sites admin ledger
  refine panics_iff (run_configured hstart ls) ?_ l
  have hcounter := TradeContract.run_counter_le sites.trade hstart.escrow hstart.bounded (trades ls)
  have hzero : (deployed sites admin ledger).1.1.counter.toNat = 0 := rfl
  have hlength := trades_length_le ls
  have hroom : ((TradeContract.machine sites.trade).run (deployed sites admin ledger).1.1
      (trades ls)).counter.toNat ≤ ls.length := by omega
  rw [run_parts]
  exact Nat.lt_of_le_of_lt (Nat.succ_le_succ hroom) short

/-- Somebody tries to take over an escrow that is in use. -/
theorem second_initialize_panics :
    let deposit : Label plainToken :=
      .inl (.inr (.call (signed [.account 2] 3 (.deposit 1 (.account 2) 1000))))
    let takeover : Label plainToken :=
      .inl (.inr (.call (signed [.account 6] 4 (.init (.account 6) (.contract 4)))))
    ∃ f, (machine plainToken testSites).exec takeover ((machine plainToken testSites).run
      (deployed testSites (.account 9) fun _ _ => 1000) [deposit]) = .error f ∧ Panics f := by
  intro deposit takeover
  have hshort : [deposit].length + 1 < 2 ^ 64 := by decide
  exact (only_initialize_panics testSites (.account 9) _ hshort takeover).mpr rfl

end Network
end Azaka
