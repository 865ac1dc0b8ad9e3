import Azaka.Library.Noninterference
import Azaka.Proofs.TradeFinality

namespace Azaka.TradeContract
open Keyed Stepwise

/-- The trade a call names, to change it or to read it. -/
def Call.named : Call → Option UInt64
  | .getTrade id => some id
  | c => c.target

/-- Calls that name no other trade. -/
def shows (id : UInt64) (tx : Tx Call) : Bool := tx.call.named.all (· == id)

/-- A status call on another trade. -/
def Elsewhere (id : UInt64) (tx : Tx Call) : Prop := ∃ j, tx.call.target = some j ∧ j ≠ id

/-- All that matters to one trade and to those not opened yet. -/
structure View where
  escrowContract : Option Address
  documentContract : Option Address
  tradeCounter : Option UInt64
  exporterTrades : Store Address (List UInt64)
  trade : Option Trade

def State.view (id : UInt64) (s : State) : View where
  escrowContract := s.escrowContract
  documentContract := s.documentContract
  tradeCounter := s.tradeCounter
  exporterTrades := s.exporterTrades
  trade := s.trades id

theorem Elsewhere.hidden {id : UInt64} {tx : Tx Call} (h : Elsewhere id tx) :
    shows id tx = false := by
  obtain ⟨j, hj, hne⟩ := h
  cases hc : tx.call with
  | confirmTrade _ _ | markEscrowDeposited _ | cancelTrade _ _ | expireTrade _ | settleTrade _ =>
    obtain rfl := Option.some.inj (hc ▸ hj)
    simp [shows, hc, Call.named, Call.target, hne]
  | init _ _ | createTrade _ | getTrade _ | listTradesByExporter _ =>
    rw [hc] at hj
    cases hj

/-- Writing another trade leaves the view alone. -/
theorem edited_view {s : State} {id j : UInt64} (hne : id ≠ j) (trade : Trade)
    (event : TradeEvent) : (s.edited j trade event).view id = s.view id := by
  simp [State.view, State.edited, hne]

theorem Step.hidden {env : Env} {s t : State} {c : Call} {r : Return} (h : Step env s c r t)
    {id : UInt64} (hc : c.named.all (· == id) = false) : t.view id = s.view id := by
  cases h with
  | init _ | create _ _ | list => cases hc
  | get _ => rfl
  | @edit _ j _ _ _ _ edit =>
    apply edited_view
    intro he
    subst he
    cases edit <;> simp [Call.named, Call.target] at hc

variable {s s' : State} {id : UInt64}

theorem view_eq (h : s.view id = s'.view id) : s.escrowContract = s'.escrowContract ∧
    s.documentContract = s'.documentContract ∧ s.tradeCounter = s'.tradeCounter ∧
    s.exporterTrades = s'.exporterTrades ∧ s.trades id = s'.trades id := by
  simpa [State.view] using h

/-- From states with the same view an operation returns the same, errors
included, and leads to the same view. -/
theorem updateTrade_view (h : s.view id = s'.view id)
    (check : Trade → Except (Fault TradeError) Unit) (edit : Trade → Trade)
    (event : Trade → TradeEvent) :
    (updateTrade id check edit event s).map (State.view id) =
      (updateTrade id check edit event s').map (State.view id) := by
  obtain ⟨hescrow, hdocument, hcounter, hlists, htrade⟩ := view_eq h
  unfold updateTrade
  rw [htrade]
  apply bind_map
  intro trade
  apply bind_map
  intro _
  simp [Except.map, State.view, State.publish, hescrow, hdocument, hcounter, hlists]

theorem init_view (h : s.view id = s'.view id) (escrow document : Address) :
    (init escrow document s).map (State.view id) =
      (init escrow document s').map (State.view id) := by
  obtain ⟨hescrow, -, -, hlists, htrade⟩ := view_eq h
  unfold init
  rw [hescrow]
  split
  · rfl
  · simp [Except.map, State.view, hlists, htrade]

theorem createTrade_view (h : s.view id = s'.view id) (env : Env) (p : CreateTradeParams) :
    (createTrade env p s).map (Prod.map (fun i => i) (State.view id)) =
      (createTrade env p s').map (Prod.map (fun i => i) (State.view id)) := by
  obtain ⟨hescrow, hdocument, hcounter, hlists, htrade⟩ := view_eq h
  have hnext : s.counter = s'.counter := by rw [State.counter, hcounter, State.counter]
  unfold createTrade
  rw [hnext, hlists]
  apply bind_map
  intro _
  apply bind_map
  intro counter
  simp [Except.map, State.view, State.publish, hescrow, hdocument, Store.set_apply, htrade]

theorem status_view (h : s.view id = s'.view id) (env : Env) {c : Call}
    (hc : c.target = some id) :
    (exec env s c).map (Prod.map (fun r => r) (State.view id)) =
      (exec env s' c).map (Prod.map (fun r => r) (State.view id)) := by
  obtain ⟨hescrow, -⟩ := view_eq h
  cases c with
  | confirmTrade j b =>
    obtain rfl := Option.some.inj hc
    exact map_agree (bind_map fun _ => updateTrade_view h _ _ _) (fun v => (Return.unit, v))
      (fun _ => rfl)
  | markEscrowDeposited j =>
    obtain rfl := Option.some.inj hc
    refine map_agree ?_ (fun v => (Return.unit, v)) (fun _ => rfl)
    unfold markEscrowDeposited
    rw [hescrow]
    exact bind_map fun _ => bind_map fun _ => updateTrade_view h _ _ _
  | cancelTrade j a =>
    obtain rfl := Option.some.inj hc
    exact map_agree (bind_map fun _ => updateTrade_view h _ _ _) (fun v => (Return.unit, v))
      (fun _ => rfl)
  | expireTrade j | settleTrade j =>
    obtain rfl := Option.some.inj hc
    exact map_agree (updateTrade_view h _ _ _) (fun v => (Return.unit, v)) (fun _ => rfl)
  | init _ _ | createTrade _ | getTrade _ | listTradesByExporter _ => cases hc

theorem exec_view (h : s.view id = s'.view id) (env : Env) {c : Call}
    (hc : c.named.all (· == id) = true) :
    (exec env s c).map (Prod.map (fun r => r) (State.view id)) =
      (exec env s' c).map (Prod.map (fun r => r) (State.view id)) := by
  cases c with
  | init escrow document =>
    exact map_agree (init_view h escrow document) (fun v => (Return.unit, v)) (fun _ => rfl)
  | createTrade p =>
    exact map_agree (createTrade_view h env p) (fun v => (Return.tradeId v.1, v.2)) (fun _ => rfl)
  | confirmTrade j _ | markEscrowDeposited j | cancelTrade j _ | expireTrade j | settleTrade j =>
    apply status_view h env
    simpa [Call.named, Call.target] using hc
  | getTrade j =>
    obtain ⟨-, -, -, -, htrade⟩ := view_eq h
    obtain rfl : j = id := by simpa [Call.named] using hc
    simp only [exec, getTrade, htrade]
    cases s'.trades j with
    | some trade => exact congrArg (fun v => Except.ok (Return.trade trade, v)) h
    | none => rfl
  | listTradesByExporter e =>
    obtain ⟨-, -, -, hlists, -⟩ := view_eq h
    simp [exec, Except.map, listTradesByExporter, hlists, h]

variable (self : Address) (id : UInt64)

/-- For one trade the calls on other trades might as well not be there. -/
theorem unwinding : (machine self).Unwinding (shows id) (State.view id) where
  respects s tx hc := by
    rcases (machine self).next_cases s tx with ⟨r, t, hexec, hnext⟩ | hsame
    · rw [hnext]
      exact (machine_ok.mp hexec).hidden hc
    · rw [hsame]
  consistent s t tx hc h := Machine.consistent_of_map h (exec_view h (tx.env self) hc)

/-- Trades do not interfere: without any of the status calls on other trades,
the calls that remain get the same results, and the trade and all exporters'
lists end the same. -/
theorem trades_isolated {ls ks : List (Tx Call)} (h : Purged (Elsewhere id) ls ks) :
    (machine self).observed (shows id) .empty ks = (machine self).observed (shows id) .empty ls ∧
      ((machine self).run .empty ks).trades id = ((machine self).run .empty ls).trades id ∧
      ∀ e, listTradesByExporter e ((machine self).run .empty ks) =
        listTradesByExporter e ((machine self).run .empty ls) := by
  have hfilter := h.filter_eq (fun _ hl => Elsewhere.hidden hl)
  obtain ⟨hseen, hview⟩ := (unwinding self id).noninterference .empty hfilter
  obtain ⟨-, -, -, hlists, htrade⟩ := view_eq hview
  refine ⟨hseen, htrade, ?_⟩
  intro e
  rw [listTradesByExporter, hlists, listTradesByExporter]

/-- Trade 1 on its way, and calls on its neighbour in between. -/
def neighbourRun (between : List (Tx Call)) : List (Tx Call) :=
  [signed [] 1 (.init (.contract 5) (.contract 6)),
   signed [.account 3] 2 (.createTrade letterOfCredit),
   signed [.account 3] 3 (.createTrade letterOfCredit),
   signed [.account 8] 4 (.confirmTrade 1 (.account 8))] ++ between ++
  [signed [.contract 5] 6 (.markEscrowDeposited 1)]

theorem neighbour_cancelled_isolated :
    ((machine (.contract 7)).run .empty (neighbourRun [])).trades 1 =
      ((machine (.contract 7)).run .empty
        (neighbourRun [signed [.account 1] 5 (.cancelTrade 2 (.account 1))])).trades 1 :=
  (trades_isolated (.contract 7) 1
    (.keep (.keep (.keep (.keep (.drop ⟨2, rfl, by decide⟩ (.keep .nil))))))).2.1

end Azaka.TradeContract
