import Azaka.Library.Latch
import Azaka.Proofs.TradeFinality
import Azaka.Proofs.TradeIds

namespace Azaka.TradeContract
open Keyed Stepwise

/-- The call opened the trade, or edited it. -/
def concerns (id : UInt64) (d : Done State (Tx Call) Return) : Bool :=
  d.label.call.target == some id || d.result == .tradeId id

def history (log : List (Done State (Tx Call) Return)) (id : UInt64) :
    List (Done State (Tx Call) Return) :=
  log.filter (concerns id)

/-- The escrow address a call wants to configure. -/
def Call.installs : Call → Option Address
  | .init escrow _ => some escrow
  | _ => none

/-- The edges between the statuses of a trade. -/
inductive Edge (tx : Tx Call) (trade : Trade) : TradeStatus → TradeStatus → Prop
  | confirm : Edge tx trade .pendingEscrow .active
  | mark : Edge tx trade .active .documentsPending
  | settle : Edge tx trade .documentsPending .settled
  | cancel {status : TradeStatus} (early : status = .pendingEscrow ∨ status = .active)
      (party : tx.auth trade.exporter = true ∨ tx.auth trade.importer = true) :
      Edge tx trade status .cancelled
  | expire {status : TradeStatus} (unsettled : status ≠ .settled)
      (due : trade.expiryLedger ≤ tx.sequence) : Edge tx trade status .expired

/-- A record together with the calls that made it what it is. -/
inductive Path (contract : Address) (id : UInt64) :
    List (Done State (Tx Call) Return) → Trade → Prop
  | opened {s : State} {tx : Tx Call} {p : CreateTradeParams} (call : tx.call = .createTrade p)
      (auth : tx.auth p.issuingBank = true) :
      Path contract id [⟨s, tx, .tradeId id⟩] (opened (tx.env contract) p id)
  | edited {h : List (Done State (Tx Call) Return)} {s : State} {tx : Tx Call}
      {trade trade' : Trade} {event : TradeEvent} (path : Path contract id h trade)
      (edit : Edit (tx.env contract) s.escrowContract tx.call id trade trade' event) :
      Path contract id (h ++ [⟨s, tx, .unit⟩]) trade'

/-- The trade was opened, confirmed, marked and settled, and nothing else was
done to it; each call has the authorisation it takes. -/
def Completed (log : List (Done State (Tx Call) Return)) (id : UInt64) (trade : Trade) : Prop :=
  ∃ create confirm mark settle p bank escrow,
    history log id = [create, confirm, mark, settle] ∧
    (create.label.call = .createTrade p ∧ create.result = .tradeId id ∧
      create.label.auth trade.issuingBank = true) ∧
    (confirm.label.call = .confirmTrade id bank ∧ trade.confirmingBank = some bank ∧
      confirm.label.auth bank = true) ∧
    (mark.label.call = .markEscrowDeposited id ∧
      Latch.armed (fun tx : Tx Call => tx.call.installs) log = [escrow] ∧
      mark.label.auth escrow = true) ∧
    settle.label.call = .settleTrade id

/-- The contract is configured by the first `initialize` and by nothing else. -/
theorem escrow_latch (self : Address) :
    Latch (machine self) State.escrowContract (fun tx => tx.call.installs) where
  set s tx r t e h harms := by
    have hstep := machine_ok.mp h
    generalize tx.call = c at hstep harms
    cases hstep with
    | init unset => exact ⟨unset, harms⟩
    | edit _ edit => cases edit <;> cases harms
    | create _ _ | get _ | list => cases harms
  keep s tx r t h harms := by
    have hstep := machine_ok.mp h
    generalize tx.call = c at hstep harms
    cases hstep with
    | init _ => cases harms
    | create _ _ | edit _ _ | get _ | list => rfl

theorem history_append (log : List (Done State (Tx Call) Return))
    (d : Done State (Tx Call) Return) (id : UInt64) :
    history (log ++ [d]) id = history log id ++ if concerns id d then [d] else [] := by
  cases h : concerns id d <;> simp [history, h]

theorem Edit.edge {self : Address} {tx : Tx Call} {escrow : Option Address} {c : Call}
    {id : UInt64} {trade trade' : Trade} {event : TradeEvent}
    (h : Edit (tx.env self) escrow c id trade trade' event) :
    Edge tx trade trade.status trade'.status := by
  cases h with
  | confirm _ status =>
    rw [status]
    exact .confirm
  | mark _ _ status =>
    rw [status]
    exact .mark
  | settle status =>
    rw [status]
    exact .settle
  | cancel auth party status =>
    refine .cancel status ?_
    rcases party with rfl | rfl
    · exact .inl auth
    · exact .inr auth
  | expire due status => exact .expire status due

variable {self : Address} {id : UInt64}

theorem Path.pending {h : List (Done State (Tx Call) Return)} {trade : Trade}
    (path : Path self id h trade) (status : trade.status = .pendingEscrow) :
    ∃ create p, h = [create] ∧ create.label.call = .createTrade p ∧
      create.result = .tradeId id ∧ create.label.auth trade.issuingBank = true := by
  cases path with
  | opened call auth => exact ⟨_, _, rfl, call, rfl, auth⟩
  | @edited _ _ _ old _ _ _ edit =>
    have hedge := edit.edge
    rw [status] at hedge
    generalize old.status = past at hedge
    cases hedge

theorem Path.active {h : List (Done State (Tx Call) Return)} {trade : Trade}
    (path : Path self id h trade) (status : trade.status = .active) :
    ∃ h' confirm bank old, h = h' ++ [confirm] ∧ Path self id h' old ∧
      old.status = .pendingEscrow ∧ old.issuingBank = trade.issuingBank ∧
      confirm.label.call = .confirmTrade id bank ∧ trade.confirmingBank = some bank ∧
      confirm.label.auth bank = true := by
  cases path with
  | opened _ _ => cases status
  | @edited h s tx old _ _ path edit =>
    generalize hc : tx.call = c at edit
    cases edit with
    | @confirm _ bank _ auth hold =>
      exact ⟨h, ⟨s, tx, .unit⟩, bank, old, rfl, path, hold, rfl, hc, rfl, auth⟩
    | mark _ _ _ | cancel _ _ _ | expire _ _ | settle _ => cases status

theorem Path.documents_pending {h : List (Done State (Tx Call) Return)} {trade : Trade}
    (path : Path self id h trade) (status : trade.status = .documentsPending) :
    ∃ h' mark escrow old, h = h' ++ [mark] ∧ Path self id h' old ∧ old.status = .active ∧
      old.issuingBank = trade.issuingBank ∧ old.confirmingBank = trade.confirmingBank ∧
      mark.label.call = .markEscrowDeposited id ∧ mark.before.escrowContract = some escrow ∧
      mark.label.auth escrow = true := by
  cases path with
  | opened _ _ => cases status
  | @edited h s tx old _ _ path edit =>
    generalize hc : tx.call = c at edit
    cases edit with
    | mark configured auth hold =>
      exact ⟨h, ⟨s, tx, .unit⟩, _, old, rfl, path, hold, rfl, rfl, hc, configured, auth⟩
    | confirm _ _ | cancel _ _ _ | expire _ _ | settle _ => cases status

theorem Path.settled {h : List (Done State (Tx Call) Return)} {trade : Trade}
    (path : Path self id h trade) (status : trade.status = .settled) :
    ∃ h' settle old, h = h' ++ [settle] ∧ Path self id h' old ∧
      old.status = .documentsPending ∧ old.issuingBank = trade.issuingBank ∧
      old.confirmingBank = trade.confirmingBank ∧ settle.label.call = .settleTrade id := by
  cases path with
  | opened _ _ => cases status
  | @edited h s tx old _ _ path edit =>
    generalize hc : tx.call = c at edit
    cases edit with
    | settle hold => exact ⟨h, ⟨s, tx, .unit⟩, old, rfl, path, hold, rfl, rfl, hc⟩
    | confirm _ _ | mark _ _ _ | cancel _ _ _ | expire _ _ => cases status

/-- Each record of the state goes back to the calls that concern it. -/
structure Traced (contract : Address) (log : List (Done State (Tx Call) Return)) (s : State) :
    Prop where
  absent : ∀ id, s.trades id = none → history log id = []
  present : ∀ id trade, s.trades id = some trade → Path contract id (history log id) trade

/-- A call that concerns no trade leaves all of them traced. -/
theorem Traced.pass {log : List (Done State (Tx Call) Return)} {s t : State} (h : Traced self log s)
    {d : Done State (Tx Call) Return} (hd : ∀ id, concerns id d = false)
    (trades : t.trades = s.trades) : Traced self (log ++ [d]) t := by
  refine ⟨?_, ?_⟩
  · intro id absent
    rw [history_append, hd id]
    simpa using h.absent id (trades ▸ absent)
  · intro id trade found
    rw [history_append, hd id]
    simpa using h.present id trade (trades ▸ found)

/-- A call that concerns one trade, and leaves a path to its record, leaves the
others traced. -/
theorem Traced.write {log : List (Done State (Tx Call) Return)} {s t : State}
    (h : Traced self log s) (id : UInt64) {d : Done State (Tx Call) Return} {trade : Trade}
    (hd : ∀ j, concerns j d = true ↔ j = id) (trades : t.trades = s.trades.set id trade)
    (path : Path self id (history log id ++ [d]) trade) : Traced self (log ++ [d]) t := by
  refine ⟨?_, ?_⟩
  · intro j absent
    rw [trades, Store.set_apply] at absent
    split at absent
    · cases absent
    · rename_i hne
      simpa [history_append, hd, hne] using h.absent j absent
  · intro j old found
    rw [trades] at found
    rcases Store.set_eq_some found with ⟨rfl, rfl⟩ | ⟨hne, hold⟩
    · simpa [history_append, hd] using path
    · simpa [history_append, hd, hne] using h.present j old hold

theorem Traced.step {log : List (Done State (Tx Call) Return)} {s t : State} (h : Traced self log s)
    (hs : Bounded s) {tx : Tx Call} {r : Return} (hstep : Step (tx.env self) s tx.call r t) :
    Traced self (log ++ [⟨s, tx, r⟩]) t := by
  generalize hc : tx.call = c at hstep
  cases hstep with
  | init _ | get _ | list =>
    apply h.pass
    · intro id
      simp [concerns, hc, Call.target]
    · rfl
  | @create p auth room =>
    have hnone := h.absent _ (hs.fresh room)
    apply h.write (s.counter + 1)
    · intro j
      simpa [concerns, hc, Call.target] using eq_comm
    · rfl
    · rw [hnone]
      exact .opened hc auth
  | @edit _ id _ _ _ found edit =>
    apply h.write id
    · intro j
      simpa [concerns, hc, edit.target] using eq_comm
    · rfl
    · exact .edited (h.present _ _ found) (hc ▸ edit)

variable (self)

theorem run_traced {ls : List (Tx Call)} (h : InitFirst self ls) :
    Traced self ((machine self).log .empty ls) ((machine self).run .empty ls) := by
  have along := InitFirst.along self (fun _ => run_bounded self) h
  refine Machine.log_invariant (P := fun log s => Traced self log s) ?_ ?_ along
  · intro log s tx r t htraced hs he
    exact htraced.step hs (machine_ok.mp he)
  · exact ⟨fun _ _ => rfl, fun _ _ found => by cases found⟩

/-- A settled trade has the whole history behind it. -/
theorem run_completed {ls : List (Tx Call)} (h : InitFirst self ls) {id : UInt64} {trade : Trade}
    (found : ((machine self).run .empty ls).trades id = some trade)
    (status : trade.status = .settled) : Completed ((machine self).log .empty ls) id trade := by
  have path := (run_traced self h).present id trade found
  obtain ⟨h₃, settle, _, hsettle, path, status, issuer₃, bank₃, csettle⟩ := path.settled status
  obtain ⟨h₂, mark, escrow, _, rfl, path, status, issuer₂, bank₂, cmark, hescrow, amark⟩ :=
    path.documents_pending status
  obtain ⟨h₁, confirm, bank, _, rfl, path, status, issuer₁, cconfirm, hbank, aconfirm⟩ :=
    path.active status
  obtain ⟨create, p, rfl, ccreate, rcreate, acreate⟩ := path.pending status
  have hhistory : history ((machine self).log .empty ls) id = [create, confirm, mark, settle] := by
    simpa using hsettle
  have hmark : mark ∈ (machine self).log .empty ls := by
    have hmem : mark ∈ history ((machine self).log .empty ls) id := by simp [hhistory]
    exact (List.mem_filter.mp hmem).1
  have hinstalled := (escrow_latch self).armed_of_mem_log rfl hmark hescrow
  exact ⟨create, confirm, mark, settle, p, bank, escrow, hhistory,
    ⟨ccreate, rcreate, by rw [← issuer₃, ← issuer₂, ← issuer₁]; exact acreate⟩,
    ⟨cconfirm, by rw [← bank₃, ← bank₂]; exact hbank, aconfirm⟩,
    ⟨cmark, hinstalled, amark⟩, csettle⟩

/-- The two histories a trade may have: all of the way for one that is settled,
and from edge to edge for every other. -/
structure Authorised (contract : Address) (ls : List (Tx Call)) : Prop where
  completed : InitFirst contract ls → ∀ id trade,
    ((machine contract).run .empty ls).trades id = some trade → trade.status = .settled →
    Completed ((machine contract).log .empty ls) id trade
  edges : ∀ pre tx post, ls = pre ++ tx :: post → ∀ id before after,
    ((machine contract).run .empty pre).trades id = some before →
    ((machine contract).run .empty (pre ++ [tx])).trades id = some after →
    after.status = before.status ∨ Edge tx before before.status after.status

/-- An authorised `create_trade` arrives when the next id already belongs to a
trade that is not pending any more. -/
def Reopening (s : State) (tx : Tx Call) : Prop :=
  issues tx = true ∧ s.counter.toNat + 1 < 2 ^ 64 ∧
    ∃ trade, s.trades (s.counter + 1) = some trade ∧ trade.status ≠ .pendingEscrow

/-- No status leads back to the first. -/
theorem edge_from_pending {tx : Tx Call} {trade : Trade} {status : TradeStatus} :
    ¬ Edge tx trade status .pendingEscrow := by
  intro h
  cases h

/-- The status of a stored trade moves along the edges, unless the id is handed
out again and a new trade begins under it. -/
theorem Step.edge {tx : Tx Call} {s t : State} {r : Return}
    (h : Step (tx.env self) s tx.call r t) (hno : ¬ Reopening s tx) {id : UInt64}
    {before after : Trade} (hbefore : s.trades id = some before)
    (hafter : t.trades id = some after) :
    after.status = before.status ∨ Edge tx before before.status after.status := by
  rcases h.origin hafter with hold | ⟨p, hc, rfl, rfl⟩ | ⟨old, event, hold, edit, -⟩
  · obtain rfl := Option.some.inj (hold.symm.trans hbefore)
    exact .inl rfl
  · obtain ⟨hissue, room, rfl⟩ := h.issues
    cases hstatus : before.status with
    | pendingEscrow => exact .inl rfl
    | active | documentsPending | settled | cancelled | expired =>
      refine absurd ⟨hissue, room, before, hbefore, ?_⟩ hno
      rw [hstatus]
      simp
  · obtain rfl := Option.some.inj (hold.symm.trans hbefore)
    exact .inr edit.edge

/-- A trade that is opened over another one leaves the edges. -/
theorem reopening_leaves {s : State} {tx : Tx Call} (h : Reopening s tx) :
    ∃ id before after, s.trades id = some before ∧
      ((machine self).next s tx).trades id = some after ∧
      ¬ (after.status = before.status ∨ Edge tx before before.status after.status) := by
  obtain ⟨hissue, room, trade, found, status⟩ := h
  obtain ⟨p, hexec⟩ := issues_step self hissue room
  refine ⟨s.counter + 1, trade, opened (tx.env self) p (s.counter + 1), found, ?_, ?_⟩
  · rw [Machine.next_ok hexec, created_trades]
    exact Store.set_same _ _ _
  · intro hor
    rcases hor with hsame | hedge
    · exact status hsame.symm
    · exact edge_from_pending hedge

theorem edges_iff (ls : List (Tx Call)) :
    (∀ pre tx post, ls = pre ++ tx :: post → ∀ id before after,
      ((machine self).run .empty pre).trades id = some before →
      ((machine self).run .empty (pre ++ [tx])).trades id = some after →
      after.status = before.status ∨ Edge tx before before.status after.status) ↔
    (machine self).Along (fun s tx => ¬ Reopening s tx) .empty ls := by
  constructor
  · intro h pre tx post he hre
    obtain ⟨id, before, after, hbefore, hafter, hleaves⟩ := reopening_leaves self hre
    rw [← Machine.run_concat] at hafter
    exact hleaves (h pre tx post he id before after hbefore hafter)
  · intro h pre tx post he id before after hbefore hafter
    rw [Machine.run_concat] at hafter
    rcases (machine self).next_cases ((machine self).run .empty pre) tx with
      ⟨r, t, hexec, hnext⟩ | hsame
    · rw [hnext] at hafter
      exact (machine_ok.mp hexec).edge self (h pre tx post he) hbefore hafter
    · rw [hsame] at hafter
      obtain rfl := Option.some.inj (hafter.symm.trans hbefore)
      exact .inl rfl

/-- It takes a restart to open a trade over another one. -/
theorem reopening_restarts {ls : List (Tx Call)} (h : ¬ Restarts ls) :
    (machine self).Along (fun s tx => ¬ Reopening s tx) .empty ls := by
  intro pre tx post he hre
  obtain ⟨hissue, room, trade, found, -⟩ := hre
  rw [(bounded_at_issue self h pre tx post he hissue).fresh room] at found
  cases found

/-- Settled trades have exactly the authorised history. In every run the
statuses move along the edges exactly if no trade is opened over one that is not
pending any more, which takes a restart. -/
theorem authorised_histories_iff (ls : List (Tx Call)) :
    (Authorised self ls ↔ (machine self).Along (fun s tx => ¬ Reopening s tx) .empty ls) ∧
    (InitFirst self ls → ∀ id trade, ((machine self).run .empty ls).trades id = some trade →
      trade.status = .settled → Completed ((machine self).log .empty ls) id trade) ∧
    (¬ Restarts ls → (machine self).Along (fun s tx => ¬ Reopening s tx) .empty ls) := by
  have hcompleted : InitFirst self ls → ∀ id trade,
      ((machine self).run .empty ls).trades id = some trade → trade.status = .settled →
      Completed ((machine self).log .empty ls) id trade :=
    fun h _ _ found status => run_completed self h found status
  refine ⟨⟨?_, ?_⟩, hcompleted, reopening_restarts self⟩
  · intro h
    exact (edges_iff self ls).mp h.edges
  · intro h
    exact ⟨hcompleted, (edges_iff self ls).mpr h⟩

/-- A letter of credit that went all the way. -/
def settledRun : List (Tx Call) :=
  [signed [] 1 (.init (.contract 5) (.contract 6)),
   signed [.account 3] 2 (.createTrade letterOfCredit),
   signed [.account 8] 3 (.confirmTrade 1 (.account 8)),
   signed [.contract 5] 4 (.markEscrowDeposited 1),
   signed [] 5 (.settleTrade 1)]

theorem settled_run_completed : ∃ trade,
    ((machine (.contract 7)).run .empty settledRun).trades 1 = some trade ∧
      Completed ((machine (.contract 7)).log .empty settledRun) 1 trade :=
  ⟨_, rfl, (authorised_histories_iff (.contract 7) settledRun).2.1
    (init_first_cons _ _ (by decide)) 1 _ rfl rfl⟩

/-- A trade that is cancelled before `initialize`, and the next one under its
id. -/
def reopenedRun : List (Tx Call) :=
  [signed [.account 3] 1 (.createTrade letterOfCredit),
   signed [.account 1] 2 (.cancelTrade 1 (.account 1)),
   signed [] 3 (.init (.contract 5) (.contract 6)),
   signed [.account 3] 4 (.createTrade letterOfCredit)]

theorem reopened_run_leaves_edges : ¬ Authorised (.contract 7) reopenedRun := by
  intro h
  rcases h.edges (reopenedRun.take 3) _ [] rfl 1 _ _ rfl rfl with hsame | hedge
  · cases hsame
  · exact edge_from_pending hedge

end Azaka.TradeContract
