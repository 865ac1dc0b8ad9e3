import Azaka.Model.Systems
import Azaka.Proofs.EscrowPayouts
import Azaka.Proofs.TradeRuns

namespace Azaka.Custody
open Keyed Stepwise

variable {tok : Token} {d : Deployment}

/-- Each contract still refers to the other, and the trade ids in use are
bounded. -/
structure Wired (d : Deployment) (s : State tok) : Prop where
  escrow : s.1.escrowContract = some d.escrow
  bounded : TradeContract.Bounded s.1
  trade : s.2.1.tradeContract = some d.trade
  token : s.2.1.tokenContract = some d.token

/-- The label is a deposit for the trade that a standard token lets through. -/
def Payable (d : Deployment) (s : State tok) (l : Label tok) (id : UInt64) (amount : I128) : Prop :=
  ∃ i depositor, l = .escrow i ∧ i.call = .deposit id depositor amount ∧
    i.authorises d depositor = true ∧ s.2.1.balances id = none ∧
    0 ≤ amount.toInt ∧ amount.toInt ≤ tok.balance s.2.2 d.token depositor

/-- A successful step is a step of one of the parts. -/
theorem exec_cases {s t : State tok} {l : Label tok} {r : Return}
    (h : (machine tok d).exec l s = .ok (r, t)) :
    (∃ i r', l = .trade i ∧ TradeContract.Step ((i.tx d).env d.trade) s.1 i.call r' t.1 ∧
      t.2 = s.2) ∨
    (∃ i r', l = .escrow i ∧ EscrowContract.Step ((i.tx d).env d.escrow) s.2.1 s.2.2 i.call r' t.2 ∧
      t.1 = s.1) ∨
    ∃ ledger, l = .token ledger ∧ t = (s.1, s.2.1, ledger) := by
  have hbeside : ((TradeContract.machine d.trade).beside (EscrowContract.machine tok d.escrow)).exec
    (l.deliver d) s = .ok (r, t) := h
  cases l with
  | trade i =>
    obtain ⟨r', hexec, hrest, -⟩ := Machine.beside_inl_ok.mp hbeside
    exact .inl ⟨i, r', rfl, TradeContract.machine_ok.mp hexec, hrest⟩
  | escrow i =>
    obtain ⟨r', hexec, hrest, -⟩ := Machine.beside_inr_ok.mp hbeside
    exact .inr (.inl ⟨i, r', rfl, EscrowContract.machine_ok.mp hexec, hrest⟩)
  | token ledger =>
    obtain ⟨r', hexec, hrest, -⟩ := Machine.beside_inr_ok.mp hbeside
    have hworld : (s.2.1, ledger) = t.2 := (Prod.mk.inj (Except.ok.inj hexec)).2
    exact .inr (.inr ⟨ledger, rfl, Prod.ext hrest hworld.symm⟩)

theorem trade_step {s : State tok} {i : Invocation TradeContract.Call} {r : TradeContract.Return}
    {t : TradeContract.State} (h : TradeContract.Step ((i.tx d).env d.trade) s.1 i.call r t) :
    (machine tok d).exec (.trade i) s = .ok (.inl r, (t, s.2)) :=
  (Machine.beside_inl_ok (n := EscrowContract.machine tok d.escrow)).mpr
    ⟨r, TradeContract.machine_ok.mpr h, rfl, rfl⟩

theorem escrow_step {s : State tok} {i : Invocation EscrowContract.Call} {r : EscrowContract.Return}
    {w : EscrowContract.World tok}
    (h : EscrowContract.Step ((i.tx d).env d.escrow) s.2.1 s.2.2 i.call r w) :
    (machine tok d).exec (.escrow i) s = .ok (.inr r, (s.1, w)) :=
  (Machine.beside_inr_ok (m := TradeContract.machine d.trade)).mpr
    ⟨r, EscrowContract.machine_ok.mpr h, rfl, rfl⟩

/-- Nobody else can speak for the two contracts. -/
theorem unauthorised {κ : Type} {i : Invocation κ} {a : Address} (ha : a = d.trade ∨ a = d.escrow)
    (hcaller : i.caller ≠ some a) : i.authorises d a = false := by
  unfold Invocation.authorises
  rcases ha with rfl | rfl <;> simp [hcaller]

theorem deployed_wired (d : Deployment) (ledger : tok.Ledger) : Wired d (deployed d ledger) := by
  refine ⟨rfl, ?_, rfl, rfl⟩
  intro id trade found
  cases found

theorem step_wired {s t : State tok} {l : Label tok} {r : Return}
    (hs : Wired d s) (h : (machine tok d).exec l s = .ok (r, t)) : Wired d t := by
  rcases exec_cases h with ⟨i, r', rfl, hstep, hrest⟩ | ⟨i, r', rfl, hstep, hrest⟩ | ⟨_, rfl, rfl⟩
  · obtain ⟨hkeep, hno⟩ := hstep.escrow_contract hs.escrow
    have hbounded := hstep.bounded hs.bounded (fun e d' hc => absurd hc (hno e d'))
    exact ⟨hkeep, hbounded, hrest ▸ hs.trade, hrest ▸ hs.token⟩
  · refine ⟨hrest ▸ hs.escrow, hrest ▸ hs.bounded, ?_, ?_⟩
    all_goals
      generalize hw : t.2 = w at hstep
      generalize i.call = c at hstep
      cases hstep with
      | init unset =>
        rw [hs.trade] at unset
        cases unset
      | deposit _ _ _ _ | payOut _ _ _ _ _ _ | get =>
        first | exact hs.trade | exact hs.token
  · exact ⟨hs.escrow, hs.bounded, hs.trade, hs.token⟩

theorem run_wired {s : State tok} (hs : Wired d s) (ls : List (Label tok)) :
    Wired d ((machine tok d).run s ls) :=
  Machine.run_invariant (fun _ _ _ _ hs h => step_wired hs h) ls hs

/-- Neither `release` nor `refund` can succeed: the trade contract would have
to call it, and makes no calls. -/
theorem payout_refused {s : State tok} (hs : Wired d s) {i : Invocation EscrowContract.Call}
    (legal : Legal d (.escrow i : Label tok)) {kind : EscrowContract.Payout} {id : UInt64}
    {recipient : Address} (hc : i.call = kind.call id recipient) :
    ¬ (machine tok d).Accepts s (.escrow i) := by
  intro h
  obtain ⟨r, t, hexec⟩ := h
  rcases exec_cases hexec with ⟨_, _, ⟨⟩, -⟩ | ⟨_, r', ⟨⟩, hstep, -⟩ | ⟨_, ⟨⟩, -⟩
  generalize t.2 = w at hstep
  generalize hcall : i.call = c at hstep
  rw [hc] at hcall
  cases hstep with
  | payOut kind' arbiter auth _ _ _ =>
    obtain rfl := Option.some.inj (hs.trade.symm.trans arbiter)
    have hauth : i.authorises d d.trade = true := auth
    rw [unauthorised (.inl rfl) legal.1] at hauth
    cases hauth
  | init _ | deposit _ _ _ _ | get => cases kind <;> cases hcall

/-- So an entry, once made, stays. -/
theorem entry_kept {s t : State tok} {l : Label tok} {r : Return}
    (hs : Wired d s) (legal : Legal d l) (h : (machine tok d).exec l s = .ok (r, t))
    {id : UInt64} {amount : I128} (found : s.2.1.balances id = some amount) :
    t.2.1.balances id = some amount := by
  have haccepts : (machine tok d).Accepts s l := ⟨r, t, h⟩
  rcases exec_cases h with ⟨i, r', rfl, -, hrest⟩ | ⟨i, r', rfl, hstep, -⟩ | ⟨_, rfl, rfl⟩
  · rw [hrest]
    exact found
  · generalize hw : t.2 = w at hstep
    generalize hcall : i.call = c at hstep
    cases hstep with
    | init _ | get => exact found
    | @deposit id' _ _ _ _ _ vacant _ _ =>
      have hne : id ≠ id' := by
        intro he
        rw [he, vacant] at found
        cases found
      simp only [EscrowContract.State.deposited, Store.set_of_ne hne]
      exact found
    | payOut kind _ _ _ _ _ => exact absurd haccepts (payout_refused hs legal hcall)
  · exact found

theorem run_entry_kept {s : State tok} (hs : Wired d s) {ls : List (Label tok)}
    (legal : ∀ l ∈ ls, Legal d l) {id : UInt64} {amount : I128}
    (found : s.2.1.balances id = some amount) :
    ((machine tok d).run s ls).2.1.balances id = some amount := by
  refine (Machine.run_invariant_along (P := fun t => Wired d t ∧ t.2.1.balances id = some amount)
    ?_ ⟨hs, found⟩ (Machine.along_of_mem s legal)).2
  intro a l r b ha hl hexec
  exact ⟨step_wired ha.1 hexec, entry_kept ha.1 hl hexec ha.2⟩

/-- A payable deposit succeeds, and touches no trade. -/
theorem payable_next (std : tok.Standard d.token) {s : State tok} (hs : Wired d s) {l : Label tok}
    {id : UInt64} {amount : I128} (h : Payable d s l id amount) :
    (machine tok d).Accepts s l ∧ ((machine tok d).next s l).1 = s.1 ∧
      ((machine tok d).next s l).2.1.balances id = some amount := by
  obtain ⟨i, depositor, rfl, hc, auth, vacant, hamount⟩ := h
  obtain ⟨l', moved⟩ := Option.isSome_iff_exists.mp
    ((std.accepts s.2.2 depositor d.escrow amount).mpr hamount)
  have hstep : EscrowContract.Step ((i.tx d).env d.escrow) s.2.1 s.2.2
      (.deposit id depositor amount) .unit _ := .deposit auth vacant hs.token moved
  have hexec := escrow_step (hc ▸ hstep)
  refine ⟨⟨_, _, hexec⟩, ?_, ?_⟩
  · rw [Machine.next_ok hexec]
  · rw [Machine.next_ok hexec]
    exact Store.set_same _ _ _

/-- A deposit that succeeds was payable. -/
theorem deposit_payable (std : tok.Standard d.token) {s : State tok} (hs : Wired d s)
    {i : Invocation EscrowContract.Call} {id : UInt64} {depositor : Address} {amount : I128}
    (hc : i.call = .deposit id depositor amount) (h : (machine tok d).Accepts s (.escrow i)) :
    Payable d s (.escrow i) id amount := by
  obtain ⟨r, t, hexec⟩ := h
  rcases exec_cases hexec with ⟨_, _, ⟨⟩, -⟩ | ⟨_, r', ⟨⟩, hstep, -⟩ | ⟨_, ⟨⟩, -⟩
  rw [hc] at hstep
  obtain ⟨_, hdeposit, -⟩ := map_ok.mp (EscrowContract.exec_ok (w := s.2).mpr hstep)
  obtain ⟨auth, vacant, token, l', configured, moved, -⟩ := EscrowContract.deposit_ok.mp hdeposit
  obtain rfl := Option.some.inj (hs.token.symm.trans configured)
  have hamount := (std.accepts _ _ _ _).mp (Option.isSome_iff_exists.mpr ⟨l', moved⟩)
  exact ⟨i, depositor, rfl, hc, auth, vacant, hamount⟩

/-- Entries come from payable deposits only. -/
theorem entry_origin (std : tok.Standard d.token) {s t : State tok} {l : Label tok}
    {r : Return} (hs : Wired d s)
    (h : (machine tok d).exec l s = .ok (r, t)) {id : UInt64} {amount : I128}
    (found : t.2.1.balances id = some amount) :
    s.2.1.balances id = some amount ∨ Payable d s l id amount := by
  rcases exec_cases h with ⟨i, r', rfl, -, hrest⟩ | ⟨i, r', rfl, hstep, -⟩ | ⟨_, rfl, rfl⟩
  · rw [hrest] at found
    exact .inl found
  · generalize hw : t.2 = w at hstep found
    generalize hcall : i.call = c at hstep
    cases hstep with
    | init _ | get => exact .inl found
    | @deposit id' depositor _ amount' l' auth vacant configured moved =>
      rcases Store.set_eq_some found with ⟨rfl, rfl⟩ | ⟨-, hold⟩
      · obtain rfl := Option.some.inj (hs.token.symm.trans configured)
        have hamount := (std.accepts _ _ _ _).mp (Option.isSome_iff_exists.mpr ⟨l', moved⟩)
        exact .inr ⟨i, depositor, rfl, hcall, auth, vacant, hamount⟩
      · exact .inl hold
    | payOut _ _ _ _ _ _ => exact .inl (Store.remove_eq_some found).2
  · exact .inl found

/-- Every entry goes back to a payable deposit of the run. -/
theorem run_entry_origin (std : tok.Standard d.token) (ledger : tok.Ledger) (ls : List (Label tok))
    {id : UInt64} {amount : I128}
    (found : ((machine tok d).run (deployed d ledger) ls).2.1.balances id = some amount) :
    ∃ pre l post, ls = pre ++ l :: post ∧
      Payable d ((machine tok d).run (deployed d ledger) pre) l id amount := by
  induction ls using List.reverseRecOn with
  | nil => cases found
  | append_singleton ls l ih =>
    rw [Machine.run_concat] at found
    have hs := run_wired (deployed_wired d ledger) ls
    have hbefore : ((machine tok d).run (deployed d ledger) ls).2.1.balances id = some amount ∨
        Payable d ((machine tok d).run (deployed d ledger) ls) l id amount := by
      rcases (machine tok d).next_cases ((machine tok d).run (deployed d ledger) ls) l with
        ⟨r, t, hexec, hnext⟩ | hsame
      · rw [hnext] at found
        exact entry_origin std hs hexec found
      · rw [hsame] at found
        exact .inl found
    rcases hbefore with hold | hnew
    · obtain ⟨pre, k, post, rfl, hk⟩ := ih hold
      exact ⟨pre, k, post ++ [l], by simp, hk⟩
    · exact ⟨ls, l, [], rfl, hnew⟩

/-- A deployment for sample runs. -/
def network : Deployment where
  trade := .contract 7
  escrow := .contract 5
  document := .contract 6
  token := .contract 4
  apart := by decide

/-- The importer deposits for a trade that both banks stand behind. -/
def importerRun : List (Label plainToken) :=
  [.trade (invoked [.account 3] 1 (.createTrade TradeContract.letterOfCredit)),
   .trade (invoked [.account 8] 2 (.confirmTrade 1 (.account 8))),
   .escrow (invoked [.account 2] 3 (.deposit 1 (.account 2) 500))]

end Azaka.Custody
