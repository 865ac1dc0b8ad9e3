import Azaka.Proofs.TradeRecords

namespace Azaka.TradeContract
open Keyed Stepwise

def Call.isInit : Call → Bool
  | .init _ _ => true
  | _ => false

def Call.isCreate : Call → Bool
  | .createTrade _ => true
  | _ => false

/-- No successful `initialize` of the run comes after a successful
`create_trade`. -/
def InitFirst (contract : Address) (ls : List (Tx Call)) : Prop :=
  ∀ pre tx post, ls = pre ++ tx :: post → tx.call.isInit = true →
    (machine contract).Accepts ((machine contract).run .empty pre) tx →
    ∀ d ∈ (machine contract).log .empty pre, d.label.call.isCreate = false

theorem Step.created {env : Env} {s t : State} {p : CreateTradeParams} {r : Return}
    (h : Step env s (.createTrade p) r t) :
    env.auth p.issuingBank = true ∧ s.counter.toNat + 1 < 2 ^ 64 ∧
      r = .tradeId (s.counter + 1) ∧ t = s.created env p := by
  cases h with
  | create auth room => exact ⟨auth, room, rfl, rfl⟩
  | edit _ edit => cases edit

variable (self : Address)

theorem run_stored (s : State) (ls : List (Tx Call)) {id : UInt64} (hs : (s.trades id).isSome) :
    (((machine self).run s ls).trades id).isSome :=
  Machine.run_invariant (P := fun t => (t.trades id).isSome)
    (fun _ _ _ _ ha he => (machine_ok.mp he).stored ha) ls hs

/-- Once configured, a contract stays configured and keeps its bound. -/
theorem run_configured {s : State} {e : Address} (hs : s.escrowContract = some e)
    (hb : Bounded s) (ls : List (Tx Call)) :
    ((machine self).run s ls).escrowContract = some e ∧ Bounded ((machine self).run s ls) := by
  refine Machine.run_invariant (P := fun t => t.escrowContract = some e ∧ Bounded t) ?_ ls ⟨hs, hb⟩
  intro a tx r b ha he
  have hstep := machine_ok.mp he
  obtain ⟨hkeep, hno⟩ := hstep.escrow_contract ha.1
  exact ⟨hkeep, hstep.bounded ha.2 (fun e' d' hc => absurd hc (hno e' d'))⟩

/-- A contract that is configured keeps the terms of its trades. -/
theorem run_kept {s : State} {e : Address} (hs : s.escrowContract = some e) (hb : Bounded s)
    (ls : List (Tx Call)) {id : UInt64} {trade : Trade} (found : s.trades id = some trade) :
    ∃ trade', ((machine self).run s ls).trades id = some trade' ∧ SameTerms trade trade' := by
  refine (Machine.run_invariant (P := fun t => (t.escrowContract = some e ∧ Bounded t) ∧
    ∃ trade', t.trades id = some trade' ∧ SameTerms trade trade') ?_ ls
    ⟨⟨hs, hb⟩, trade, found, .refl trade⟩).2
  intro a tx r b ha he
  obtain ⟨⟨hescrow, hbounded⟩, trade', found', hterms⟩ := ha
  have hnext := run_configured self hescrow hbounded [tx]
  rw [Machine.run_cons, Machine.run_nil, Machine.next_ok he] at hnext
  obtain ⟨trade'', found'', hterms'⟩ := (machine_ok.mp he).terms hbounded found'
  exact ⟨hnext, trade'', found'', hterms.trans hterms'⟩

/-- Records come from `create_trade` only. -/
theorem run_vacant (ls : List (Tx Call))
    (hno : ∀ d ∈ (machine self).log .empty ls, d.label.call.isCreate = false) :
    ∀ id, ((machine self).run .empty ls).trades id = none := by
  refine Machine.log_invariant (m := machine self) (C := fun _ _ => True)
    (P := fun log s => (∀ d ∈ log, d.label.call.isCreate = false) → ∀ id, s.trades id = none)
    ?_ (fun _ _ => rfl) (fun _ _ _ _ => trivial) hno
  intro log s tx r t hs _ he hlog id
  have hstep := machine_ok.mp he
  have hnone := hs (fun d hd => hlog d (List.mem_append_left _ hd))
  have hcall : tx.call.isCreate = false := hlog ⟨s, tx, r⟩ (by simp)
  cases found : t.trades id with
  | none => rfl
  | some trade =>
    rcases hstep.origin found with hold | ⟨p, hc, -⟩ | ⟨old, _, hold, -⟩
    · simp [hnone id] at hold
    · simp [hc, Call.isCreate] at hcall
    · simp [hnone id] at hold

theorem InitFirst.prefix_run {xs ys : List (Tx Call)} (h : InitFirst self (xs ++ ys)) :
    InitFirst self xs :=
  fun pre tx post he => h pre tx (post ++ ys) (by simp [he])

theorem init_first_cons (tx : Tx Call) {ls : List (Tx Call)}
    (h : ∀ x ∈ ls, x.call.isInit = false) : InitFirst self (tx :: ls) := by
  intro pre x post he hi _
  cases pre with
  | nil =>
    intro d hd
    cases hd
  | cons y pre =>
    obtain ⟨rfl, rfl⟩ := List.cons.inj he
    have := h x (by simp)
    rw [hi] at this
    cases this

/-- An `initialize` that succeeds in such a run finds no record. -/
theorem InitFirst.along_vacant {ls : List (Tx Call)} (h : InitFirst self ls) :
    (machine self).Along (fun s tx => tx.call.isInit = true →
      (machine self).Accepts s tx → ∀ id, s.trades id = none) .empty ls :=
  fun pre tx post he hi ha => run_vacant self pre (h pre tx post he hi ha)

/-- What holds at the end of every such run holds all along each of them. -/
theorem InitFirst.along {P : State → Prop}
    (hp : ∀ ls, InitFirst self ls → P ((machine self).run .empty ls)) {ls : List (Tx Call)}
    (h : InitFirst self ls) : (machine self).Along (fun s _ => P s) .empty ls := by
  intro pre tx post he
  subst he
  exact hp pre (InitFirst.prefix_run self h)

/-- With `initialize` out of the way before the first trade, the counter bounds
the ids in every state of the run. -/
theorem run_bounded {ls : List (Tx Call)} (h : InitFirst self ls) :
    Bounded ((machine self).run .empty ls) := by
  refine Machine.run_invariant_along ?_ (by intro id trade found; cases found)
    (InitFirst.along_vacant self h)
  intro s tx r t hs hinit he
  apply (machine_ok.mp he).bounded hs
  intro e d hc
  exact hinit (by simp [hc, Call.isInit]) ⟨r, t, he⟩

/-- A letter of credit for the runs below. -/
def letterOfCredit : CreateTradeParams where
  exporter := .account 1
  importer := .account 2
  issuingBank := .account 3
  stablecoinAsset := .contract 4
  amount := 500
  requiredDocs := [.billOfLading]
  expiryLedger := 10

end Azaka.TradeContract
