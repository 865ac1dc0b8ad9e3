import Azaka.Proofs.TradeRuns

namespace Azaka

/-- Settled, Cancelled or Expired. -/
def TradeStatus.terminal : TradeStatus → Bool
  | .settled | .cancelled | .expired => true
  | _ => false

/-- The event says that the trade ended. -/
def TradeEvent.ends (id : UInt64) : TradeEvent → Bool
  | .cancel j _ | .expire j | .settle j _ => j == id
  | _ => false

namespace TradeContract
open Keyed Stepwise

/-- The trade a status call names. -/
def Call.target : Call → Option UInt64
  | .confirmTrade id _ | .markEscrowDeposited id | .cancelTrade id _ | .expireTrade id
  | .settleTrade id => some id
  | _ => none

/-- `expire_trade` arrives, due, at a trade that has been cancelled or has
expired already. -/
def Reexpiry (s : State) (tx : Tx Call) : Prop :=
  ∃ id trade, tx.call = .expireTrade id ∧ s.trades id = some trade ∧
    (trade.status = .cancelled ∨ trade.status = .expired) ∧ trade.expiryLedger ≤ tx.sequence

/-- Terminal statuses are final in the run: the record stays as it is, the
status calls on it are refused, and at most one event ends each trade. -/
structure Final (contract : Address) (ls : List (Tx Call)) : Prop where
  frozen : ∀ pre mid post, ls = pre ++ mid ++ post →
    ∀ id trade, ((machine contract).run .empty pre).trades id = some trade →
      trade.status.terminal = true →
      ((machine contract).run .empty (pre ++ mid)).trades id = some trade
  refused : ∀ pre mid tx post, ls = pre ++ mid ++ tx :: post →
    ∀ id trade, ((machine contract).run .empty pre).trades id = some trade →
      trade.status.terminal = true → tx.call.target = some id →
      ¬ (machine contract).Accepts ((machine contract).run .empty (pre ++ mid)) tx
  once : ∀ id, ((machine contract).run .empty ls).events.countP (TradeEvent.ends id) ≤ 1

theorem Edit.target {env : Env} {escrow : Option Address} {c : Call} {id : UInt64}
    {trade trade' : Trade} {event : TradeEvent} (h : Edit env escrow c id trade trade' event) :
    c.target = some id := by
  cases h <;> rfl

/-- An edit ends a trade exactly when it says so. -/
theorem Edit.ends {env : Env} {escrow : Option Address} {c : Call} {id : UInt64}
    {trade trade' : Trade} {event : TradeEvent} (h : Edit env escrow c id trade trade' event)
    (j : UInt64) : event.ends j = (trade'.status.terminal && id == j) := by
  cases h <;> simp [TradeEvent.ends, TradeStatus.terminal]

/-- Four of the five guards turn a terminal record away. The fifth, of
`expire_trade`, only knows about Settled. -/
theorem Edit.of_terminal {env : Env} {escrow : Option Address} {c : Call} {id : UInt64}
    {trade trade' : Trade} {event : TradeEvent} (h : Edit env escrow c id trade trade' event)
    (terminal : trade.status.terminal = true) :
    c = .expireTrade id ∧ (trade.status = .cancelled ∨ trade.status = .expired) ∧
      trade.expiryLedger ≤ env.sequence := by
  cases h with
  | confirm _ status | mark _ _ status | settle status =>
    rw [status] at terminal
    cases terminal
  | cancel _ _ status =>
    rcases status with status | status
    · rw [status] at terminal
      cases terminal
    · rw [status] at terminal
      cases terminal
  | expire due unsettled =>
    refine ⟨rfl, ?_, due⟩
    cases hs : trade.status with
    | cancelled => exact .inl rfl
    | expired => exact .inr rfl
    | settled => exact absurd hs unsettled
    | pendingEscrow | active | documentsPending =>
      rw [hs] at terminal
      cases terminal

theorem Step.of_target {env : Env} {s t : State} {c : Call} {r : Return} (h : Step env s c r t)
    {id : UInt64} (hc : c.target = some id) : ∃ trade trade' event, s.trades id = some trade ∧
      Edit env s.escrowContract c id trade trade' event ∧ t = s.edited id trade' event := by
  cases h with
  | @edit _ id' trade trade' event found edit =>
    have hid := edit.target
    rw [hc] at hid
    obtain rfl := Option.some.inj hid
    exact ⟨trade, trade', event, found, edit, rfl⟩
  | init _ | create _ _ | get _ | list => cases hc

/-- One call leaves a terminal record alone, reexpiry apart. -/
theorem Step.frozen {self : Address} {tx : Tx Call} {s t : State} {r : Return}
    (h : Step (tx.env self) s tx.call r t) (hs : Bounded s) (hno : ¬ Reexpiry s tx)
    {id : UInt64} {trade : Trade} (found : s.trades id = some trade)
    (terminal : trade.status.terminal = true) :
    t.trades id = some trade ∧ tx.call.target ≠ some id := by
  constructor
  · rcases h.record hs found with hkept | ⟨trade', event, edit, rfl⟩
    · exact hkept
    · obtain ⟨hc, status, due⟩ := edit.of_terminal terminal
      exact absurd ⟨id, trade, hc, found, status, due⟩ hno
  · intro htarget
    obtain ⟨old, _, _, hold, edit, -⟩ := h.of_target htarget
    obtain rfl := Option.some.inj (hold.symm.trans found)
    obtain ⟨hc, status, due⟩ := edit.of_terminal terminal
    exact hno ⟨id, old, hc, found, status, due⟩

variable (self : Address)

theorem run_frozen {s : State} {ls : List (Tx Call)}
    (along : (machine self).Along (fun s tx => Bounded s ∧ ¬ Reexpiry s tx) s ls)
    {id : UInt64} {trade : Trade} (found : s.trades id = some trade)
    (terminal : trade.status.terminal = true) :
    ((machine self).run s ls).trades id = some trade := by
  refine Machine.run_invariant_along (P := fun t => t.trades id = some trade) ?_ found along
  intro a tx r b ha hc he
  exact ((machine_ok.mp he).frozen hc.1 hc.2 ha terminal).1

theorem expire_accepted {s : State} {tx : Tx Call} {id : UInt64} {trade : Trade}
    (hc : tx.call = .expireTrade id) (found : s.trades id = some trade)
    (due : trade.expiryLedger ≤ tx.sequence) (unsettled : trade.status ≠ .settled) :
    (machine self).Accepts s tx := by
  refine ⟨.unit, s.edited id { trade with status := .expired } (.expire id), machine_ok.mpr ?_⟩
  rw [hc]
  exact .edit found (.expire due unsettled)

/-- The events that end a trade tell its status: one if it is terminal, none
otherwise. -/
def Told (s : State) : Prop :=
  ∀ id, s.events.countP (TradeEvent.ends id) =
    if (s.trades id).any (fun trade => trade.status.terminal) then 1 else 0

theorem Step.told {tx : Tx Call} {s t : State} {r : Return}
    (h : Step (tx.env self) s tx.call r t) (hs : Told s) (hb : Bounded s)
    (hno : ¬ Reexpiry s tx) : Told t := by
  intro j
  have hj := hs j
  generalize hc : tx.call = c at h
  cases h with
  | init _ | get _ | list => exact hj
  | @create p auth room =>
    have hfresh := hb.fresh room
    simp only [State.created, List.countP_append, List.countP_singleton, TradeEvent.ends,
      Bool.false_eq_true, ↓reduceIte, Nat.add_zero, hj, Store.set_apply]
    by_cases he : j = s.counter + 1
    · subst he
      simp [hfresh, opened, TradeStatus.terminal]
    · simp [he]
  | @edit _ id old trade' event found edit =>
    simp only [State.edited, List.countP_append, List.countP_singleton, edit.ends j, hj,
      Store.set_apply, Bool.and_eq_true, beq_iff_eq]
    by_cases he : j = id
    · subst he
      have hold : old.status.terminal = false := by
        cases ht : old.status.terminal with
        | false => rfl
        | true =>
          obtain ⟨hcall, status, due⟩ := edit.of_terminal ht
          exact absurd ⟨j, old, hc.trans hcall, found, status, due⟩ hno
      simp [found, hold]
    · simp [he, Ne.symm he]

/-- A trade that `expire_trade` can still reach after its end does not stay
ended; otherwise every ended trade does. -/
theorem terminal_statuses_final_iff {ls : List (Tx Call)} (h : InitFirst self ls) :
    Final self ls ↔ (machine self).Along (fun s tx => ¬ Reexpiry s tx) .empty ls := by
  constructor
  · intro hf pre tx post he hre
    obtain ⟨id, trade, hc, found, status, due⟩ := hre
    have terminal : trade.status.terminal = true := by
      rcases status with status | status <;> rw [status] <;> rfl
    have unsettled : trade.status ≠ .settled := by
      rcases status with status | status <;> rw [status] <;> decide
    have accepted := expire_accepted self hc found due unsettled
    exact hf.refused pre [] tx post (by simpa using he) id trade found terminal
      (by rw [hc]; rfl) (by simpa using accepted)
  · intro hno
    have along : (machine self).Along (fun s tx => Bounded s ∧ ¬ Reexpiry s tx) .empty ls := by
      intro pre tx post he
      exact ⟨InitFirst.along self (fun _ => run_bounded self) h pre tx post he,
        hno pre tx post he⟩
    refine ⟨?_, ?_, ?_⟩
    · intro pre mid post he id trade found terminal
      subst he
      rw [Machine.run_append]
      exact run_frozen self (Machine.along_suffix (Machine.along_prefix along)) found terminal
    · intro pre mid tx post he id trade found terminal htarget ⟨r, t, hexec⟩
      obtain ⟨hb, hre⟩ := along (pre ++ mid) tx post he
      subst he
      have hmid : (machine self).Along (fun s tx => Bounded s ∧ ¬ Reexpiry s tx)
          ((machine self).run .empty pre) mid := Machine.along_suffix (Machine.along_prefix along)
      have hkept := run_frozen self hmid found terminal
      rw [← Machine.run_append] at hkept
      exact ((machine_ok.mp hexec).frozen hb hre hkept terminal).2 htarget
    · intro id
      have htold : Told ((machine self).run .empty ls) := by
        refine Machine.run_invariant_along ?_ (by intro id; simp [State.empty]) along
        intro s tx r t hs hc he
        exact (machine_ok.mp he).told self hs hc.1 hc.2
      rw [htold id]
      split <;> omega

/-- A trade cancelled by its exporter. -/
def cancelledRun : List (Tx Call) :=
  [signed [] 1 (.init (.contract 5) (.contract 6)),
   signed [.account 3] 2 (.createTrade letterOfCredit),
   signed [.account 1] 3 (.cancelTrade 1 (.account 1))]

/-- The cancelled trade expires all the same, and a second time after that. -/
theorem cancelled_run_not_final :
    InitFirst (.contract 7) (cancelledRun ++ [signed [] 10 (.expireTrade 1)]) ∧
      ¬ Final (.contract 7) (cancelledRun ++ [signed [] 10 (.expireTrade 1)]) := by
  refine ⟨init_first_cons _ _ (by decide), ?_⟩
  intro h
  have once : 2 ≤ 1 := h.once 1
  omega

theorem cancelled_run_final : Final (.contract 7) cancelledRun := by
  apply (terminal_statuses_final_iff _ (init_first_cons _ _ (by decide))).mpr
  refine (Machine.along_of_mem (C := fun tx => ∀ id, tx.call ≠ .expireTrade id) State.empty ?_).mono
    ?_
  · simp [signed]
  · intro s tx hc hre
    obtain ⟨id, trade, hid, -⟩ := hre
    exact hc id hid

end TradeContract
end Azaka
