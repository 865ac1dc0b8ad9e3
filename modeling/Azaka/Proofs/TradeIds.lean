import Azaka.Proofs.TradeRuns

namespace Azaka.TradeContract
open Keyed Stepwise

/-- A `create_trade` call its issuing bank authorised. -/
def issues (tx : Tx Call) : Bool :=
  match tx.call with
  | .createTrade p => tx.auth p.issuingBank
  | _ => false

/-- The ids returned by the successful `create_trade` calls, in order. -/
def issuedIds (log : List (Done State (Tx Call) Return)) : List UInt64 :=
  log.filterMap fun d =>
    match d.result with
    | .tradeId id => some id
    | _ => none

/-- Over the run, every id returned is new, all of them differ, and no
`create_trade` touches a record stored before it. -/
structure NeverReused (contract : Address) (ls : List (Tx Call)) : Prop where
  fresh : ∀ d ∈ (machine contract).log .empty ls, ∀ id, d.result = .tradeId id →
    d.before.trades id = none
  distinct : (issuedIds ((machine contract).log .empty ls)).Nodup
  kept : (machine contract).Along (fun s tx => ∀ p, tx.call = .createTrade p →
    ∀ id trade, s.trades id = some trade →
      ((machine contract).next s tx).trades id = some trade) .empty ls

/-- The run's first `initialize` comes after one authorised `create_trade` and
before another. -/
def Restarts (ls : List (Tx Call)) : Prop :=
  ∃ pre tx post, ls = pre ++ tx :: post ∧ (∀ x ∈ pre, x.call.isInit = false) ∧
    tx.call.isInit = true ∧ (∃ x ∈ pre, issues x = true) ∧ ∃ x ∈ post, issues x = true

variable {self : Address}

theorem Step.issues {tx : Tx Call} {s t : State} {id : UInt64}
    (h : Step (tx.env self) s tx.call (.tradeId id) t) :
    issues tx = true ∧ s.counter.toNat + 1 < 2 ^ 64 ∧ id = s.counter + 1 := by
  generalize hc : tx.call = c at h
  cases h with
  | create auth room =>
    refine ⟨?_, room, rfl⟩
    simp only [TradeContract.issues, hc]
    exact auth

/-- Neither an unauthorised `create_trade` nor any other call moves the counter
of a configured contract, or stores a record under a new id. -/
theorem Step.quiet {tx : Tx Call} {s t : State} {r : Return}
    (h : Step (tx.env self) s tx.call r t) (hq : TradeContract.issues tx = false)
    (hi : tx.call.isInit = false) :
    t.counter = s.counter ∧ ∀ id, s.trades id = none → t.trades id = none := by
  generalize hc : tx.call = c at h
  cases h with
  | init _ => simp [hc, Call.isInit] at hi
  | create auth _ =>
    have : TradeContract.issues tx = true := by
      simp only [TradeContract.issues, hc]
      exact auth
    rw [hq] at this
    cases this
  | @edit _ id _ _ _ found _ =>
    refine ⟨rfl, ?_⟩
    intro j hj
    have hne : j ≠ id := by
      intro he
      rw [he, found] at hj
      cases hj
    rw [edited_trades, Store.set_of_ne hne, hj]
  | get _ | list => exact ⟨rfl, fun _ hj => hj⟩

variable (self)

theorem issues_step {tx : Tx Call} {s : State} (h : issues tx = true)
    (room : s.counter.toNat + 1 < 2 ^ 64) :
    ∃ p, (machine self).exec tx s = .ok (.tradeId (s.counter + 1), s.created (tx.env self) p) := by
  unfold issues at h
  cases hc : tx.call with
  | createTrade p =>
    rw [hc] at h
    exact ⟨p, machine_ok.mpr (hc ▸ .create h room)⟩
  | _ => simp [hc] at h

theorem run_quiet {s : State} {ls : List (Tx Call)} (hq : ∀ x ∈ ls, issues x = false)
    (hi : ∀ x ∈ ls, x.call.isInit = false) :
    ((machine self).run s ls).counter = s.counter ∧
      ∀ id, s.trades id = none → ((machine self).run s ls).trades id = none := by
  have hc := Machine.along_of_mem (m := machine self) s
    (C := fun x => issues x = false ∧ x.call.isInit = false)
    (fun x hx => ⟨hq x hx, hi x hx⟩)
  refine Machine.run_invariant_along
    (P := fun t => t.counter = s.counter ∧ ∀ id, s.trades id = none → t.trades id = none)
    ?_ ⟨rfl, fun _ h => h⟩ hc
  intro a tx r b ha hx he
  obtain ⟨hcounter, hnone⟩ := (machine_ok.mp he).quiet hx.1 hx.2
  exact ⟨hcounter.trans ha.1, fun id hid => hnone id (ha.2 id hid)⟩

/-- As long as `initialize` has not run, the contract is unconfigured and its
counter bounds the ids. -/
theorem run_unconfigured {ls : List (Tx Call)} (hi : ∀ x ∈ ls, x.call.isInit = false) :
    ((machine self).run .empty ls).escrowContract = none ∧
      Bounded ((machine self).run .empty ls) := by
  refine Machine.run_invariant_along (P := fun t => t.escrowContract = none ∧ Bounded t) ?_
    ⟨rfl, by intro id trade h; cases h⟩ (Machine.along_of_mem State.empty hi)
  intro a tx r b ha hx he
  have hstep := machine_ok.mp he
  refine ⟨?_, hstep.bounded ha.2 ?_⟩
  · generalize hc : tx.call = c at hstep
    cases hstep with
    | init _ => simp [hc, Call.isInit] at hx
    | create _ _ | edit _ _ | get _ | list => exact ha.1
  · intro e d hc
    simp [hc, Call.isInit] at hx

/-- A configured contract refuses `initialize`, so nothing resets its counter. -/
theorem run_configured_quiet {s : State} {e : Address} (hs : s.escrowContract = some e)
    {ls : List (Tx Call)} (hq : ∀ x ∈ ls, issues x = false) :
    ((machine self).run s ls).counter = s.counter := by
  refine (Machine.run_invariant_along
    (P := fun t => t.escrowContract = some e ∧ t.counter = s.counter) ?_ ⟨hs, rfl⟩
    (Machine.along_of_mem s hq)).2
  intro a tx r b ha hx he
  have hstep := machine_ok.mp he
  obtain ⟨hkeep, hno⟩ := hstep.escrow_contract ha.1
  have hi : tx.call.isInit = false := by
    cases hc : tx.call with
    | init e' d' => exact absurd hc (hno e' d')
    | _ => rfl
  exact ⟨hkeep, (hstep.quiet hx hi).1.trans ha.2⟩

theorem first_init {tx : Tx Call} {s : State} (hi : tx.call.isInit = true)
    (hs : s.escrowContract = none) :
    ∃ e d, (machine self).exec tx s = .ok (.unit, s.configured e d) := by
  cases hc : tx.call with
  | init e d => exact ⟨e, d, machine_ok.mpr (hc ▸ .init hs)⟩
  | _ => simp [hc, Call.isInit] at hi

/-- Where a `create_trade` can succeed the counter bounds the ids, unless the
run restarts. -/
theorem bounded_at_issue {ls : List (Tx Call)} (h : ¬ Restarts ls) :
    (machine self).Along (fun s tx => issues tx = true → Bounded s) .empty ls := by
  intro pre tx post he hissue
  by_cases hpre : ∃ x ∈ pre, x.call.isInit = true
  · obtain ⟨a, i, b, rfl, hi, ha⟩ := first_split (fun x : Tx Call => x.call.isInit) hpre
    have hq : ∀ x ∈ a, issues x = false := by
      intro x hx
      cases hxi : issues x with
      | false => rfl
      | true =>
        exact absurd ⟨a, i, b ++ tx :: post, by simp [he], ha, hi, ⟨x, hx, hxi⟩,
          ⟨tx, by simp, hissue⟩⟩ h
    have hnone := (run_quiet self (s := .empty) hq ha).2
    have hunset := (run_unconfigured self ha).1
    obtain ⟨e, d, hexec⟩ := first_init self hi hunset
    rw [Machine.run_append, Machine.run_cons, Machine.next_ok hexec]
    refine (run_configured self rfl ?_ b).2
    intro id trade found
    rw [configured_trades, hnone id rfl] at found
    cases found
  · apply (run_unconfigured self _).2
    intro x hx
    cases hxi : x.call.isInit with
    | false => rfl
    | true => exact absurd ⟨x, hx, hxi⟩ hpre

/-- The ids handed out so far are distinct, and each of them has a record. -/
structure Issued (log : List (Done State (Tx Call) Return)) (s : State) : Prop where
  distinct : (issuedIds log).Nodup
  stored : ∀ id ∈ issuedIds log, (s.trades id).isSome

/-- So a fresh id is not among them. -/
theorem Issued.step {log : List (Done State (Tx Call) Return)} {s t : State} {tx : Tx Call}
    {r : Return} (hp : Issued log s) (hbound : issues tx = true → Bounded s)
    (hstep : Step (tx.env self) s tx.call r t) : Issued (log ++ [⟨s, tx, r⟩]) t := by
  obtain ⟨distinct, stored⟩ := hp
  cases r with
  | tradeId id =>
    obtain ⟨hissue, room, rfl⟩ := hstep.issues
    have hnew : s.trades (s.counter + 1) = none := (hbound hissue).fresh room
    have hnot : s.counter + 1 ∉ issuedIds log := by
      intro hm
      have hold := stored _ hm
      rw [hnew] at hold
      cases hold
    generalize hc : tx.call = c at hstep
    cases hstep with
    | create _ _ =>
      refine ⟨?_, ?_⟩
      all_goals
        simp only [issuedIds, List.filterMap_append, List.filterMap_cons, List.filterMap_nil]
      · refine List.nodup_append.mpr ⟨distinct, by simp, ?_⟩
        intro a ha b hb hab
        obtain rfl := List.mem_singleton.mp hb
        exact hnot (hab ▸ ha)
      · intro id hm
        rcases List.mem_append.mp hm with hm | hm
        · have hold := stored id hm
          rw [created_trades, Store.set_apply]
          split
          · rfl
          · exact hold
        · obtain rfl := List.mem_singleton.mp hm
          simp
  | unit | trade _ | tradeIds _ =>
    refine ⟨?_, ?_⟩
    all_goals
      simp only [issuedIds, List.filterMap_append, List.filterMap_cons, List.filterMap_nil,
        List.append_nil]
    · exact distinct
    · intro id hm
      exact hstep.stored (stored id hm)

theorem never_reused_of_not_restarts {ls : List (Tx Call)} (h : ¬ Restarts ls) :
    NeverReused self ls := by
  have hb := bounded_at_issue self h
  have hfresh : ∀ d ∈ (machine self).log .empty ls, ∀ id, d.result = .tradeId id →
      d.before.trades id = none := by
    intro d hd id hid
    obtain ⟨pre, post, t, hsplit, hbefore, hexec⟩ := Machine.log_mem hd
    rw [hid] at hexec
    obtain ⟨hissue, room, rfl⟩ := (machine_ok.mp hexec).issues
    exact (hbefore ▸ hb pre d.label post hsplit hissue).fresh room
  refine ⟨hfresh, ?_, ?_⟩
  · have hissued : Issued ((machine self).log .empty ls) ((machine self).run .empty ls) := by
      refine Machine.log_invariant (P := fun log s => Issued log s) ?_ ?_ hb
      · intro log s tx r t hp hbound he
        exact hp.step self hbound (machine_ok.mp he)
      · exact ⟨List.nodup_nil, fun id hid => by cases hid⟩
    exact hissued.distinct
  · intro pre tx post he p hc id trade found
    rcases Machine.next_cases (m := machine self) ((machine self).run .empty pre) tx with
      ⟨r, t, hok, ht⟩ | hsame
    · have hstep := hc ▸ machine_ok.mp hok
      have hissue : issues tx = true := by
        simp only [issues, hc]
        exact hstep.created.1
      rcases hstep.record (hb pre tx post he hissue) found with hkept | ⟨_, _, edit, _⟩
      · rw [ht, hkept]
      · cases edit
    · rw [hsame]
      exact found

/-- Before any `initialize` the first id handed out is 1. -/
theorem run_first_id {ls : List (Tx Call)} (hi : ∀ x ∈ ls, x.call.isInit = false) :
    (((machine self).run .empty ls).trades 1).isSome ∨
      ((machine self).run .empty ls).counter = 0 := by
  refine Machine.run_invariant_along (P := fun s => (s.trades 1).isSome ∨ s.counter = 0) ?_
    (.inr rfl) (Machine.along_of_mem State.empty hi)
  intro s tx r t hs hx he
  have hstep := machine_ok.mp he
  rcases hs with hs | hs
  · exact .inl (hstep.stored hs)
  · generalize hc : tx.call = c at hstep
    cases hstep with
    | init _ => simp [hc, Call.isInit] at hx
    | create _ _ => left; simp [hs]
    | edit _ _ | get _ | list => exact .inr hs

theorem issue_first_id {s : State} {tx : Tx Call} (hissue : issues tx = true)
    (hs : (s.trades 1).isSome ∨ s.counter = 0) : (((machine self).next s tx).trades 1).isSome := by
  rcases hs with hs | hs
  · exact run_stored self s [tx] hs
  · obtain ⟨p, hexec⟩ := issues_step self (s := s) hissue (by rw [hs]; decide)
    rw [Machine.next_ok hexec, created_trades, hs]
    simp

theorem first_id_stored {ls : List (Tx Call)} (hi : ∀ x ∈ ls, x.call.isInit = false)
    (hissue : ∃ x ∈ ls, issues x = true) : (((machine self).run .empty ls).trades 1).isSome := by
  obtain ⟨x, hx, hissue⟩ := hissue
  obtain ⟨a, b, rfl⟩ := List.append_of_mem hx
  rw [Machine.run_append, Machine.run_cons]
  apply run_stored
  exact issue_first_id self hissue
    (run_first_id self (fun y hy => hi y (List.mem_append_left _ hy)))

/-- The first `create_trade` after the reset hands out id 1 a second time. -/
theorem restarts_reuses {ls : List (Tx Call)} (h : Restarts ls) : ¬ NeverReused self ls := by
  obtain ⟨pre, i, post, rfl, hpre, hinit, hbefore, hafter⟩ := h
  intro hn
  have hstored := first_id_stored self hpre hbefore
  obtain ⟨e, d, hexec⟩ := first_init self hinit (run_unconfigured self hpre).1
  obtain ⟨a, x, b, rfl, hissue, ha⟩ := first_split issues hafter
  have hreset : (machine self).run .empty (pre ++ i :: a) =
      (machine self).run (((machine self).run .empty pre).configured e d) a := by
    rw [Machine.run_append, Machine.run_cons, Machine.next_ok hexec]
  have hcounter : ((machine self).run .empty (pre ++ i :: a)).counter = 0 := by
    rw [hreset]
    exact run_configured_quiet self rfl ha
  have hone : (((machine self).run .empty (pre ++ i :: a)).trades 1).isSome := by
    rw [hreset]
    exact run_stored self _ a hstored
  obtain ⟨p, hcreate⟩ := issues_step self
    (s := (machine self).run .empty (pre ++ i :: a)) hissue (by rw [hcounter]; decide)
  have hmem := Machine.mem_log b hcreate
  rw [List.append_assoc, List.cons_append] at hmem
  have hfresh := hn.fresh _ hmem _ rfl
  simp only [hcounter] at hfresh
  rw [show (1 : UInt64) = 0 + 1 from rfl, hfresh] at hone
  cases hone

/-- Ids are reused in exactly the runs that restart. -/
theorem trade_ids_never_reused_iff (ls : List (Tx Call)) :
    NeverReused self ls ↔ ¬ Restarts ls := by
  constructor
  · intro hn hr
    exact restarts_reuses self hr hn
  · exact never_reused_of_not_restarts self

/-- A trade opened before `initialize`, and one opened after it. -/
def resetRun : List (Tx Call) :=
  [signed [.account 3] 1 (.createTrade letterOfCredit),
   signed [] 2 (.init (.contract 5) (.contract 6)),
   signed [.account 3] 3 (.createTrade letterOfCredit)]

theorem reset_run_reuses_id : ¬ NeverReused (.contract 7) resetRun := by
  intro h
  have distinct : ([1, 1] : List UInt64).Nodup := h.distinct
  simp at distinct

end Azaka.TradeContract
