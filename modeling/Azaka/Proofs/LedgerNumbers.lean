import Azaka.Library.Erasure
import Azaka.Proofs.NetworkRuns

namespace Azaka
open Keyed Stepwise

/-- The call, whenever it is made. -/
def Tx.undated {κ : Type} (tx : Tx κ) : Tx κ := { tx with sequence := 0 }

/-- The record, whenever it was opened. -/
def Trade.undated (trade : Trade) : Trade := { trade with createdLedger := 0 }

def TradeEvent.undated : TradeEvent → TradeEvent
  | .create id trade => .create id trade.undated
  | e => e

namespace TradeContract

def Return.undated : Return → Return
  | .trade record => .trade record.undated
  | r => r

def State.undated (s : State) : State :=
  { s with trades := s.trades.mapped Trade.undated, events := s.events.map TradeEvent.undated }

/-- `expire_trade` keeps its ledger number. -/
def untimed (tx : Tx Call) : Tx Call :=
  match tx.call with
  | .expireTrade _ => tx
  | _ => tx.undated

theorem events_undated (events : List TradeEvent) :
    (events.map TradeEvent.undated).map TradeEvent.undated = events.map TradeEvent.undated := by
  rw [List.map_map]
  refine List.map_congr_left ?_
  intro e _
  cases e <;> rfl

theorem state_undated (s : State) : s.undated.undated = s.undated := by
  have htrades := Store.mapped_mapped (f := Trade.undated) (fun _ => rfl) s.trades
  simp only [State.undated, htrades, events_undated]

theorem untimed_untimed (tx : Tx Call) : untimed (untimed tx) = untimed tx := by
  obtain ⟨auth, sequence, call⟩ := tx
  cases call <;> rfl

theorem init_undated (s : State) (escrow document : Address) :
    (init escrow document s.undated).map State.undated =
      (init escrow document s).map State.undated := by
  have hescrow : s.undated.escrowContract = s.escrowContract := rfl
  unfold init
  rw [hescrow]
  split
  · rfl
  · exact congrArg (fun t => Except.ok { t with
      escrowContract := some escrow
      documentContract := some document
      tradeCounter := some 0 }) (state_undated s)

/-- A status call does not look at the ledger the trade was opened in. -/
theorem update_undated (s : State) (id : UInt64) {check : Trade → Except (Fault TradeError) Unit}
    {edit : Trade → Trade} {event : Trade → TradeEvent}
    (hcheck : ∀ trade : Trade, check trade.undated = check trade)
    (hedit : ∀ trade : Trade, (edit trade.undated).undated = (edit trade).undated)
    (hevent : ∀ trade : Trade, event (edit trade.undated) = event (edit trade)) :
    (updateTrade id check edit event s.undated).map State.undated =
      (updateTrade id check edit event s).map State.undated := by
  have htrade : s.undated.trades id = (s.trades id).map Trade.undated := rfl
  unfold updateTrade
  rw [htrade]
  cases s.trades id with
  | none => rfl
  | some trade =>
    change (check trade.undated >>= _).map _ = (check trade >>= _).map _
    rw [hcheck]
    refine bind_map fun _ => congrArg Except.ok ?_
    have htrades := Store.mapped_mapped (f := Trade.undated) (fun _ => rfl) s.trades
    simp only [State.publish, State.undated, Store.mapped_set, htrades, hedit, hevent,
      List.map_append, events_undated]

theorem create_undated (env : Env) (s : State) (p : CreateTradeParams) :
    (createTrade { env with sequence := 0 } p s.undated).map (Prod.map id State.undated) =
      (createTrade env p s).map (Prod.map id State.undated) := by
  have hcounter : s.undated.counter = s.counter := rfl
  have htrades := Store.mapped_mapped (f := Trade.undated) (fun _ => rfl) s.trades
  unfold createTrade
  rw [hcounter]
  refine bind_map fun _ => bind_map fun counter => congrArg Except.ok (Prod.ext rfl ?_)
  simp only [Prod.map_snd, State.publish, State.undated, Store.mapped_set, htrades,
    List.map_append, events_undated]
  rfl

/-- No call but `expire_trade` goes by the ledger, and none by the ledger a
trade was opened in. -/
theorem exec_undated (self : Address) (s : State) (tx : Tx Call) :
    (exec ((untimed tx).env self) s.undated (untimed tx).call).map
        (Prod.map Return.undated State.undated) =
      (exec (tx.env self) s tx.call).map (Prod.map Return.undated State.undated) := by
  obtain ⟨auth, sequence, call⟩ := tx
  cases call with
  | init escrow document =>
    exact map_agree (init_undated s escrow document) (fun v => (Return.unit, v)) (fun _ => rfl)
  | createTrade p =>
    exact map_agree (create_undated (Env.mk self auth sequence) s p)
      (fun v => (Return.tradeId v.1, v.2)) (fun _ => rfl)
  | confirmTrade id bank =>
    exact map_agree (bind_map fun _ => update_undated s id (fun _ => rfl) (fun _ => rfl)
      (fun _ => rfl)) (fun v => (Return.unit, v)) (fun _ => rfl)
  | markEscrowDeposited id =>
    refine map_agree ?_ (fun v => (Return.unit, v)) (fun _ => rfl)
    exact bind_map fun _ => bind_map fun _ => update_undated s id (fun _ => rfl) (fun _ => rfl)
      (fun _ => rfl)
  | cancelTrade id caller =>
    exact map_agree (bind_map fun _ => update_undated s id (fun _ => rfl) (fun _ => rfl)
      (fun _ => rfl)) (fun v => (Return.unit, v)) (fun _ => rfl)
  | expireTrade id | settleTrade id =>
    exact map_agree (update_undated s id (fun _ => rfl) (fun _ => rfl) (fun _ => rfl))
      (fun v => (Return.unit, v)) (fun _ => rfl)
  | getTrade id =>
    have htrade : s.undated.trades id = (s.trades id).map Trade.undated := rfl
    simp only [untimed, Tx.undated, exec, getTrade, htrade]
    cases s.trades id with
    | none => rfl
    | some trade => simp [okOr, Except.map, state_undated, Return.undated, Trade.undated]
  | listTradesByExporter e =>
    simp only [untimed, Tx.undated, exec, Except.map, Prod.map, state_undated]
    rfl

theorem undated_erases (self : Address) :
    (machine self).Erases untimed Return.undated State.undated :=
  ⟨untimed_untimed, state_undated, exec_undated self⟩

end TradeContract

namespace EscrowContract
variable {tok : Token}

def Label.undated : Label tok → Label tok
  | .call tx => .call tx.undated
  | .token ledger => .token ledger

theorem undated_erases (self : Address) :
    (machine tok self).Erases Label.undated id id := by
  refine ⟨?_, fun _ => rfl, ?_⟩
  · intro l
    cases l <;> rfl
  · intro w l
    cases l with
    | call tx =>
      obtain ⟨auth, sequence, call⟩ := tx
      cases call <;> rfl
    | token ledger => rfl

end EscrowContract

theorem DocumentContract.undated_erases (self : Address) :
    (machine self).Erases Tx.undated id id := by
  refine ⟨fun _ => rfl, fun _ => rfl, ?_⟩
  intro s tx
  obtain ⟨auth, sequence, call⟩ := tx
  cases call <;> rfl

theorem RegistryContract.undated_erases (self : Address) :
    (machine self).Erases Tx.undated id id := by
  refine ⟨fun _ => rfl, fun _ => rfl, ?_⟩
  intro s tx
  obtain ⟨auth, sequence, call⟩ := tx
  cases call <;> rfl

namespace Network
variable {tok : Token}

/-- The call without its ledger number, unless it is `expire_trade`. -/
def untimed : Label tok → Label tok :=
  Sum.map (Sum.map TradeContract.untimed EscrowContract.Label.undated)
    (Sum.map Tx.undated Tx.undated)

/-- The answer without the ledger a trade was opened in. -/
def answer : Return → Return :=
  Sum.map (Sum.map TradeContract.Return.undated id) (Sum.map id id)

def undated : State tok → State tok :=
  Prod.map (Prod.map TradeContract.State.undated id) (Prod.map id id)

variable (tok)

/-- The ledger a trade was opened in does not change in a run. -/
theorem run_created_ledger {sites : Sites} {admin : Address} {s : State tok}
    (hs : Configured sites admin s) (ls : List (Label tok)) {id : UInt64} {trade : Trade}
    (found : s.1.1.trades id = some trade) :
    ∃ trade', ((machine tok sites).run s ls).1.1.trades id = some trade' ∧
      trade'.createdLedger = trade.createdLedger := by
  rw [run_parts]
  obtain ⟨trade', found', -, -, -, -, -, -, -, -, hledger⟩ :=
    TradeContract.run_kept sites.trade hs.escrow hs.bounded (trades ls) found
  exact ⟨trade', found', hledger⟩

/-- The ledger numbers of a run matter to `expire_trade` alone. Whatever the
ledgers at which the other calls come, all calls are answered alike, and the
four contracts and the tokens end the same, but for the ledgers in which trades
were opened. Those of the trades that were there before stay as they are. -/
theorem ledgers_immaterial (sites : Sites) (s : State tok) (ls : List (Label tok)) :
    ((machine tok sites).outcomes s (ls.map untimed)).map (fun o => o.2.map answer) =
        ((machine tok sites).outcomes s ls).map (fun o => o.2.map answer) ∧
      undated ((machine tok sites).run s (ls.map untimed)) =
        undated ((machine tok sites).run s ls) ∧
      ∀ admin, Configured sites admin s → ∀ id trade, s.1.1.trades id = some trade →
        ∃ a b, ((machine tok sites).run s ls).1.1.trades id = some a ∧
          ((machine tok sites).run s (ls.map untimed)).1.1.trades id = some b ∧
          a.createdLedger = trade.createdLedger ∧ b.createdLedger = trade.createdLedger := by
  obtain ⟨houtcomes, hend⟩ := Machine.Erases.run
    (((TradeContract.undated_erases sites.trade).beside
        (EscrowContract.undated_erases sites.escrow)).beside
      ((DocumentContract.undated_erases sites.document).beside
        (RegistryContract.undated_erases sites.registry))) (s := s) rfl ls
  refine ⟨houtcomes, hend, ?_⟩
  intro admin hs id trade found
  obtain ⟨a, ha, hledger⟩ := run_created_ledger tok hs ls found
  obtain ⟨b, hb, hledger'⟩ := run_created_ledger tok hs (ls.map untimed) found
  exact ⟨a, b, ha, hb, hledger, hledger'⟩

end Network
end Azaka
