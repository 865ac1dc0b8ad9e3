import Azaka.Model.Escrow

namespace Azaka.EscrowContract
open Keyed Stepwise

/-- The two ways out. -/
inductive Payout where
  | release
  | refund

def Payout.call : Payout → UInt64 → Address → Call
  | .release => .release
  | .refund => .refund

def Payout.event : Payout → UInt64 → Address → I128 → EscrowEvent
  | .release => .release
  | .refund => .refund

def State.configured (s : State) (trade token : Address) : State :=
  { s with tradeContract := some trade, tokenContract := some token }

def State.deposited (s : State) (id : UInt64) (depositor : Address) (amount : I128) : State :=
  { s with
    balances := s.balances.set id amount
    events := s.events ++ [.deposit id depositor amount] }

def State.paid (s : State) (id : UInt64) (event : EscrowEvent) : State :=
  { s with balances := s.balances.remove id, events := s.events ++ [event] }

variable {tok : Token}

/-- Everything a successful call can do. -/
inductive Step (env : Env) (s : State) (l : tok.Ledger) : Call → Return → World tok → Prop
  | init {trade token : Address} (unset : s.tradeContract = none) :
      Step env s l (.init trade token) .unit (s.configured trade token, l)
  | deposit {id : UInt64} {depositor token : Address} {amount : I128} {l' : tok.Ledger}
      (auth : env.auth depositor = true) (vacant : s.balances id = none)
      (configured : s.tokenContract = some token)
      (moved : tok.transfer l token depositor env.current amount = some l') :
      Step env s l (.deposit id depositor amount) .unit (s.deposited id depositor amount, l')
  | payOut (kind : Payout) {id : UInt64} {recipient trade token : Address} {amount : I128}
      {l' : tok.Ledger} (arbiter : s.tradeContract = some trade) (auth : env.auth trade = true)
      (found : s.balances id = some amount) (configured : s.tokenContract = some token)
      (moved : tok.transfer l token env.current recipient amount = some l') :
      Step env s l (kind.call id recipient) .unit (s.paid id (kind.event id recipient amount), l')
  | get {id : UInt64} : Step env s l (.getBalance id) (.amount (getBalance id s)) (s, l)

theorem init_ok {trade token : Address} {s t : State} :
    init trade token s = .ok t ↔ s.tradeContract = none ∧ t = s.configured trade token := by
  unfold init
  cases h : s.tradeContract with
  | some a => simp
  | none => simp [State.configured, eq_comm]

theorem deposit_ok {env : Env} {id : UInt64} {depositor : Address} {amount : I128}
    {w v : World tok} : deposit env id depositor amount w = .ok v ↔
      env.auth depositor = true ∧ w.1.balances id = none ∧ ∃ token l',
        w.1.tokenContract = some token ∧
        tok.transfer w.2 token depositor env.current amount = some l' ∧
        v = (w.1.deposited id depositor amount, l') := by
  simp only [deposit, bind_ok, requireAuth_ok, ensure_ok, unwrap_ok, call_ok,
    Option.isNone_iff_eq_none, Except.ok.injEq]
  refine ⟨?_, ?_⟩
  · intro h
    obtain ⟨_, auth, _, vacant, token, configured, l', moved, rfl⟩ := h
    exact ⟨auth, vacant, token, l', configured, moved, rfl⟩
  · intro h
    obtain ⟨auth, vacant, token, l', configured, moved, rfl⟩ := h
    exact ⟨(), auth, (), vacant, token, configured, l', moved, rfl⟩

theorem payOut_ok {env : Env} {id : UInt64} {recipient : Address} {event : I128 → EscrowEvent}
    {w v : World tok} : payOut env id recipient event w = .ok v ↔ ∃ trade amount token l',
      w.1.tradeContract = some trade ∧ env.auth trade = true ∧ w.1.balances id = some amount ∧
      w.1.tokenContract = some token ∧
      tok.transfer w.2 token env.current recipient amount = some l' ∧
      v = (w.1.paid id (event amount), l') := by
  simp only [payOut, bind_ok, requireAuth_ok, okOr_ok, unwrap_ok, call_ok, Except.ok.injEq]
  refine ⟨?_, ?_⟩
  · intro h
    obtain ⟨trade, arbiter, _, auth, amount, found, token, configured, l', moved, rfl⟩ := h
    exact ⟨trade, amount, token, l', arbiter, auth, found, configured, moved, rfl⟩
  · intro h
    obtain ⟨trade, amount, token, l', arbiter, auth, found, configured, moved, rfl⟩ := h
    exact ⟨trade, arbiter, (), auth, amount, found, token, configured, l', moved, rfl⟩

/-- The step relation is exactly the successful calls. -/
theorem exec_ok {env : Env} {w v : World tok} {c : Call} {r : Return} :
    exec env w c = .ok (r, v) ↔ Step env w.1 w.2 c r v := by
  refine ⟨?_, ?_⟩
  · intro h
    cases c with
    | init trade token =>
      obtain ⟨t, ht, ⟨⟩⟩ := map_ok.mp h
      obtain ⟨unset, rfl⟩ := init_ok.mp ht
      exact .init unset
    | deposit id a n =>
      obtain ⟨t, ht, ⟨⟩⟩ := map_ok.mp h
      obtain ⟨auth, vacant, token, l', configured, moved, rfl⟩ := deposit_ok.mp ht
      exact .deposit auth vacant configured moved
    | release id a =>
      obtain ⟨t, ht, ⟨⟩⟩ := map_ok.mp h
      obtain ⟨trade, amount, token, l', arbiter, auth, found, configured, moved, rfl⟩ :=
        payOut_ok.mp ht
      exact .payOut .release arbiter auth found configured moved
    | refund id a =>
      obtain ⟨t, ht, ⟨⟩⟩ := map_ok.mp h
      obtain ⟨trade, amount, token, l', arbiter, auth, found, configured, moved, rfl⟩ :=
        payOut_ok.mp ht
      exact .payOut .refund arbiter auth found configured moved
    | getBalance id =>
      cases h
      exact .get
  · intro h
    cases h with
    | init unset => exact map_ok.mpr ⟨_, init_ok.mpr ⟨unset, rfl⟩, rfl⟩
    | deposit auth vacant configured moved =>
      exact map_ok.mpr ⟨_, deposit_ok.mpr ⟨auth, vacant, _, _, configured, moved, rfl⟩, rfl⟩
    | payOut kind arbiter auth found configured moved =>
      cases kind with
      | release | refund =>
        exact map_ok.mpr
          ⟨_, payOut_ok.mpr ⟨_, _, _, _, arbiter, auth, found, configured, moved, rfl⟩, rfl⟩
    | get => rfl

theorem machine_ok {self : Address} {tx : Tx Call} {w v : World tok} {r : Return} :
    (machine tok self).exec (.call tx) w = .ok (r, v) ↔ Step (tx.env self) w.1 w.2 tx.call r v :=
  exec_ok

end Azaka.EscrowContract
