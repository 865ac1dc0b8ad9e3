import Azaka.Proofs.TradeHistory

namespace Azaka

/-- A confirming bank is on record from the confirmation on. Cancelled and
expired trades may or may not have one. -/
def Trade.Banked (trade : Trade) : Prop :=
  (trade.status = .pendingEscrow → trade.confirmingBank = none) ∧
    (trade.status = .active ∨ trade.status = .documentsPending ∨ trade.status = .settled →
      trade.confirmingBank.isSome = true)

namespace TradeContract
open Keyed Stepwise

/-- The bank on record is still the same, or there was none and one confirmed
the trade by a call of the log. -/
def BankKept (log : List (Done State (Tx Call) Return)) (id : UInt64) (a b : Trade) : Prop :=
  b.confirmingBank = a.confirmingBank ∨ a.confirmingBank = none ∧
    ∃ bank, b.confirmingBank = some bank ∧
      ∃ d ∈ log, d.label.call = .confirmTrade id bank ∧ d.label.auth bank = true

/-- The id was handed out in the log, and the record has the terms of that
call. -/
def TermsOf (contract : Address) (log : List (Done State (Tx Call) Return)) (id : UInt64)
    (trade : Trade) : Prop :=
  (∃ d ∈ log, d.result = .tradeId id) ∧ ∀ d ∈ log, d.result = .tradeId id →
    ∃ p, d.label.call = .createTrade p ∧ SameTerms (opened (d.label.env contract) p id) trade

theorem Edit.banked {env : Env} {escrow : Option Address} {c : Call} {id : UInt64}
    {trade trade' : Trade} {event : TradeEvent} (h : Edit env escrow c id trade trade' event)
    (hs : trade.Banked) : trade'.Banked := by
  cases h with
  | confirm _ _ => exact ⟨by simp, by simp⟩
  | mark _ _ status =>
    have hbank := hs.2 (.inl status)
    exact ⟨by simp, by simp [hbank]⟩
  | settle status =>
    have hbank := hs.2 (.inr (.inl status))
    exact ⟨by simp, by simp [hbank]⟩
  | cancel _ _ _ | expire _ _ => exact ⟨by simp, by simp⟩

/-- Only a confirmation touches the bank, and it finds none. -/
theorem Edit.bank {env : Env} {escrow : Option Address} {c : Call} {id : UInt64}
    {trade trade' : Trade} {event : TradeEvent} (h : Edit env escrow c id trade trade' event)
    (hs : trade.Banked) : trade'.confirmingBank = trade.confirmingBank ∨
      trade.confirmingBank = none ∧ ∃ bank, trade'.confirmingBank = some bank ∧
        c = .confirmTrade id bank ∧ env.auth bank = true := by
  cases h with
  | @confirm _ bank _ auth status => exact .inr ⟨hs.1 status, bank, rfl, rfl, auth⟩
  | mark _ _ _ | cancel _ _ _ | expire _ _ | settle _ => exact .inl rfl

theorem Step.banked {env : Env} {s t : State} {c : Call} {r : Return} (h : Step env s c r t)
    (hs : ∀ id trade, s.trades id = some trade → trade.Banked) {id : UInt64} {trade : Trade}
    (found : t.trades id = some trade) : trade.Banked := by
  rcases h.origin found with hold | ⟨p, -, -, rfl⟩ | ⟨old, _, hold, edit, -⟩
  · exact hs id trade hold
  · exact ⟨fun _ => rfl, by simp [opened]⟩
  · exact edit.banked (hs id old hold)

variable (self : Address)

theorem run_banked (ls : List (Tx Call)) {id : UInt64} {trade : Trade}
    (found : ((machine self).run .empty ls).trades id = some trade) : trade.Banked := by
  refine Machine.run_invariant (m := machine self)
    (P := fun s => ∀ id trade, s.trades id = some trade → trade.Banked) ?_ ls ?_ id trade found
  · intro s tx r t hs he id trade found
    exact (machine_ok.mp he).banked hs found
  · intro id trade found
    cases found

/-- A path keeps the terms it was opened with, and opens but once. -/
theorem Path.terms {self : Address} {id : UInt64} {h : List (Done State (Tx Call) Return)}
    {trade : Trade} (path : Path self id h trade) : TermsOf self h id trade := by
  induction path with
  | @opened s tx p call _ =>
    refine ⟨⟨_, List.mem_singleton.mpr rfl, rfl⟩, ?_⟩
    intro d hd _
    obtain rfl := List.mem_singleton.mp hd
    exact ⟨p, call, SameTerms.refl _⟩
  | edited _ edit ih =>
    obtain ⟨⟨d, hd, hr⟩, hterms⟩ := ih
    refine ⟨⟨d, List.mem_append_left _ hd, hr⟩, ?_⟩
    intro e he hre
    rcases List.mem_append.mp he with he | he
    · obtain ⟨p, hc, hsame⟩ := hterms e he hre
      exact ⟨p, hc, hsame.trans edit.same_terms⟩
    · obtain rfl := List.mem_singleton.mp he
      cases hre

theorem run_terms {ls : List (Tx Call)} (h : InitFirst self ls) {id : UInt64} {trade : Trade}
    (found : ((machine self).run .empty ls).trades id = some trade) :
    TermsOf self ((machine self).log .empty ls) id trade := by
  obtain ⟨⟨d, hd, hr⟩, hterms⟩ := ((run_traced self h).present id trade found).terms
  refine ⟨⟨d, (List.mem_filter.mp hd).1, hr⟩, ?_⟩
  intro e he hre
  exact hterms e (List.mem_filter.mpr ⟨he, by simp [concerns, hre]⟩) hre

/-- Between two points of a run a record keeps its terms, and its bank once it
has one. -/
theorem run_same_terms {s : State} {ls : List (Tx Call)}
    (along : (machine self).Along
      (fun s _ => Bounded s ∧ ∀ id trade, s.trades id = some trade → trade.Banked) s ls)
    {id : UInt64} {a : Trade} (found : s.trades id = some a) :
    ∃ b, ((machine self).run s ls).trades id = some b ∧ SameTerms a b ∧
      BankKept ((machine self).log s ls) id a b := by
  refine Machine.log_invariant (P := fun log t => ∃ b, t.trades id = some b ∧ SameTerms a b ∧
    BankKept log id a b) ?_ ⟨a, found, SameTerms.refl a, .inl rfl⟩ along
  intro log t tx r u ht hc he
  obtain ⟨b, hb, hterms, hbank⟩ := ht
  obtain ⟨hbounded, hbanked⟩ := hc
  have hmore : BankKept (log ++ [⟨t, tx, r⟩]) id a b := by
    rcases hbank with hsame | ⟨hnone, bank, hsome, d, hd, hd'⟩
    · exact .inl hsame
    · exact .inr ⟨hnone, bank, hsome, d, List.mem_append_left _ hd, hd'⟩
  have hstep := machine_ok.mp he
  rcases hstep.record hbounded hb with hkept | ⟨b', event, edit, rfl⟩
  · exact ⟨b, hkept, hterms, hmore⟩
  · refine ⟨b', Store.set_same _ _ _, hterms.trans edit.same_terms, ?_⟩
    rcases edit.bank (hbanked id b hb) with hsame | ⟨hnone, bank, hsome, hcall, hauth⟩
    · simpa only [BankKept, hsame] using hmore
    · rcases hbank with hsame | ⟨-, bank', hsome', -⟩
      · exact .inr ⟨hsame ▸ hnone, bank, hsome, ⟨t, tx, r⟩, by simp, hcall, hauth⟩
      · rw [hnone] at hsome'
        cases hsome'

/-- At any two points of a run a stored trade has the terms of the call that
opened it, and a confirming bank is written once, by its own confirmation. -/
theorem trade_terms_immutable (xs ys : List (Tx Call)) (h : InitFirst self (xs ++ ys))
    (id : UInt64) {a : Trade} (found : ((machine self).run .empty xs).trades id = some a) :
    TermsOf self ((machine self).log .empty xs) id a ∧ a.Banked ∧
      ∃ b, ((machine self).run .empty (xs ++ ys)).trades id = some b ∧ SameTerms a b ∧
        BankKept ((machine self).log ((machine self).run .empty xs) ys) id a b := by
  have along := InitFirst.along self
    (P := fun s => Bounded s ∧ ∀ id trade, s.trades id = some trade → trade.Banked)
    (fun ls hls => ⟨run_bounded self hls, fun _ _ hfound => run_banked self ls hfound⟩) h
  refine ⟨run_terms self (InitFirst.prefix_run self h) found, run_banked self xs found, ?_⟩
  rw [Machine.run_append]
  exact run_same_terms self (Machine.along_suffix along) found

/-- The settled trade still has the terms of the letter of credit. -/
theorem settled_run_terms : ∃ b,
    ((machine (.contract 7)).run .empty settledRun).trades 1 = some b ∧
      SameTerms (opened ((signed [.account 3] 2 (Call.createTrade letterOfCredit)).env
        (.contract 7)) letterOfCredit 1) b ∧ b.confirmingBank = some (.account 8) := by
  obtain ⟨-, -, b, hb, hterms, -⟩ := trade_terms_immutable (.contract 7) (settledRun.take 2)
    (settledRun.drop 2) (init_first_cons _ _ (by decide)) 1 rfl
  refine ⟨b, hb, hterms, ?_⟩
  obtain rfl := Option.some.inj hb
  rfl

end TradeContract
end Azaka
