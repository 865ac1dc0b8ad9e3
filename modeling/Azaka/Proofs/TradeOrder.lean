import Azaka.Library.Restriction
import Azaka.Proofs.TradeIsolation

namespace Azaka

/-- The trade an event is about. -/
def TradeEvent.subject : TradeEvent → UInt64
  | .create id _ | .confirm id _ | .escrow id | .cancel id _ | .expire id | .settle id _ => id

namespace TradeContract
open Keyed Stepwise

/-- These trades and what has been published about them, with the counter, the
exporters' lists and the configuration. -/
def State.only (K : UInt64 → Bool) (s : State) : State :=
  { s with trades := s.trades.only K, events := s.events.filter fun e => K e.subject }

theorem Edit.subject {env : Env} {escrow : Option Address} {c : Call} {id : UInt64}
    {trade trade' : Trade} {event : TradeEvent} (h : Edit env escrow c id trade trade' event) :
    event.subject = id := by
  cases h <;> rfl

variable {K : UInt64 → Bool} {s : State}

theorem only_trades {id : UInt64} (hk : K id = true) : (s.only K).trades id = s.trades id := by
  simp [State.only, hk]

theorem only_only (K : UInt64 → Bool) (s : State) : (s.only K).only K = s.only K := by
  simp [State.only]

theorem edited_only_of_not_mem {id : UInt64} (hk : K id = false) (s : State) (trade : Trade)
    {event : TradeEvent} (hevent : event.subject = id) :
    (s.edited id trade event).only K = s.only K := by
  simp [State.only, State.edited, Store.only_set_of_not_mem hk, hevent, hk]

/-- Writing to the trades in view is the same with and without the rest. -/
theorem edited_only (K : UInt64 → Bool) (s : State) (id : UInt64) (trade : Trade)
    (event : TradeEvent) :
    ((s.only K).edited id trade event).only K = (s.edited id trade event).only K := by
  simp [State.only, State.edited]

theorem Step.out_of_view {env : Env} {t : State} {c : Call} {r : Return} (h : Step env s c r t)
    (hc : c.named.all K = false) : t.only K = s.only K := by
  cases h with
  | init _ | create _ _ | list => cases hc
  | get _ => rfl
  | edit _ edit =>
    refine edited_only_of_not_mem ?_ s _ edit.subject
    cases edit <;> exact hc

theorem init_only (escrow document : Address) :
    (init escrow document (s.only K)).map (State.only K) =
      (init escrow document s).map (State.only K) := by
  have hescrow : (s.only K).escrowContract = s.escrowContract := rfl
  unfold init
  rw [hescrow]
  split
  · rfl
  · simp [Except.map, State.only]

theorem create_only (env : Env) (p : CreateTradeParams) :
    (createTrade env p (s.only K)).map (Prod.map id (State.only K)) =
      (createTrade env p s).map (Prod.map id (State.only K)) := by
  have hcounter : (s.only K).counter = s.counter := rfl
  unfold createTrade
  rw [hcounter]
  refine bind_map fun _ => bind_map fun counter => ?_
  simp [Except.map, State.only, State.publish]

theorem update_only {id : UInt64} (hk : K id = true)
    (check : Trade → Except (Fault TradeError) Unit) (edit : Trade → Trade)
    (event : Trade → TradeEvent) :
    (updateTrade id check edit event (s.only K)).map (State.only K) =
      (updateTrade id check edit event s).map (State.only K) := by
  unfold updateTrade
  rw [only_trades hk]
  refine bind_map fun trade => bind_map fun _ => ?_
  exact congrArg Except.ok (edited_only K s id _ _)

/-- A call in view returns the same, errors included, and does the same to what
is in view, whatever the other trades are. -/
theorem exec_only (env : Env) {c : Call} (hc : c.named.all K = true) :
    (exec env (s.only K) c).map (Prod.map id (State.only K)) =
      (exec env s c).map (Prod.map id (State.only K)) := by
  cases c with
  | init escrow document =>
    exact map_agree (init_only escrow document) (fun v => (Return.unit, v)) (fun _ => rfl)
  | createTrade p =>
    exact map_agree (create_only env p) (fun v => (Return.tradeId v.1, v.2)) (fun _ => rfl)
  | confirmTrade id bank =>
    exact map_agree (bind_map fun _ => update_only hc _ _ _) (fun v => (Return.unit, v))
      (fun _ => rfl)
  | markEscrowDeposited id =>
    refine map_agree ?_ (fun v => (Return.unit, v)) (fun _ => rfl)
    exact bind_map fun _ => bind_map fun _ => update_only hc _ _ _
  | cancelTrade id caller =>
    exact map_agree (bind_map fun _ => update_only hc _ _ _) (fun v => (Return.unit, v))
      (fun _ => rfl)
  | expireTrade id | settleTrade id =>
    exact map_agree (update_only hc _ _ _) (fun v => (Return.unit, v)) (fun _ => rfl)
  | getTrade id =>
    have hk : K id = true := hc
    simp only [exec, getTrade, only_trades hk]
    cases s.trades id with
    | some trade => simp [okOr, Except.map, only_only]
    | none => rfl
  | listTradesByExporter e =>
    simp [exec, Except.map, listTradesByExporter, State.only]

variable (self : Address)

theorem trades_restrict (id : UInt64) :
    (machine self).Restricts (fun _ => True) (shows id) (State.only fun j => j == id) where
  closed _ _ _ _ _ _ := trivial
  hidden _ _ _ _ _ h hl := (machine_ok.mp h).out_of_view hl
  seen _ tx _ hl := exec_only (tx.env self) hl

/-- Nothing but the order of events about different trades tells the states
apart. -/
structure State.Agrees (s t : State) : Prop where
  escrowContract : s.escrowContract = t.escrowContract
  documentContract : s.documentContract = t.documentContract
  tradeCounter : s.tradeCounter = t.tradeCounter
  trades : s.trades = t.trades
  exporterTrades : s.exporterTrades = t.exporterTrades
  told : ∀ id,
    s.events.filter (fun e => e.subject == id) = t.events.filter (fun e => e.subject == id)
  events : s.events.Perm t.events

theorem agrees_of_parts {s t : State}
    (h : ∀ id, s.only (fun j => j == id) = t.only fun j => j == id) : s.Agrees t := by
  have hevents : ∀ id, s.events.filter (fun e => e.subject == id) =
      t.events.filter fun e => e.subject == id :=
    fun id => congrArg State.events (h id)
  refine ⟨?_, ?_, ?_, ?_, ?_, hevents, ?_⟩
  · exact (congrArg State.escrowContract (h 0) :)
  · exact (congrArg State.documentContract (h 0) :)
  · exact (congrArg State.tradeCounter (h 0) :)
  · funext id
    have htrades := congrArg (fun u => State.trades u id) (h id)
    have hin := @only_trades (fun j => j == id)
    simpa only [hin (beq_self_eq_true id)] using htrades
  · exact (congrArg State.exporterTrades (h 0) :)
  · exact perm_of_filters (fun e => ⟨e.subject, beq_self_eq_true _⟩) hevents

/-- Calls on different trades may come in any order. Runs in which the calls on
each trade come in the same order, among those that name no trade, give every
call the same answer, trade by trade, and leave the same behind. -/
theorem trade_order_immaterial {ls ks : List (Tx Call)}
    (h : ∀ id, ks.filter (shows id) = ls.filter (shows id)) :
    ((machine self).outcomes .empty ks).Perm ((machine self).outcomes .empty ls) ∧
      (∀ id, (machine self).observed (shows id) .empty ks =
        (machine self).observed (shows id) .empty ls) ∧
      ((machine self).run .empty ks).Agrees ((machine self).run .empty ls) := by
  have hcovered : ∀ tx : Tx Call, ∃ id, shows id tx = true := by
    intro tx
    cases hc : tx.call.named with
    | some id => exact ⟨id, by simp [shows, hc]⟩
    | none => exact ⟨0, by simp [shows, hc]⟩
  obtain ⟨houtcomes, hseen, hparts⟩ :=
    Machine.outcomes_perm (trades_restrict self) hcovered trivial h
  exact ⟨houtcomes, hseen, agrees_of_parts hparts⟩

/-- Two trades are opened, and the calls on the one come after those on the
other or before. -/
def twoTrades (calls : List (Tx Call)) : List (Tx Call) :=
  [signed [] 1 (.init (.contract 5) (.contract 6)),
   signed [.account 3] 2 (.createTrade letterOfCredit),
   signed [.account 3] 3 (.createTrade letterOfCredit)] ++ calls

theorem two_trades_agree :
    ((machine (.contract 7)).run .empty (twoTrades
        [signed [.account 8] 4 (.confirmTrade 1 (.account 8)),
         signed [.account 1] 5 (.cancelTrade 2 (.account 1))])).Agrees
      ((machine (.contract 7)).run .empty (twoTrades
        [signed [.account 1] 5 (.cancelTrade 2 (.account 1)),
         signed [.account 8] 4 (.confirmTrade 1 (.account 8))])) := by
  refine (trade_order_immaterial (.contract 7) ?_).2.2
  intro id
  by_cases hone : id = 1
  · subst hone
    rfl
  · have hfirst : ¬ (1 : UInt64) = id := Ne.symm hone
    simp [twoTrades, signed, List.filter_cons, shows, Call.named, Call.target, hfirst]

end TradeContract
end Azaka
