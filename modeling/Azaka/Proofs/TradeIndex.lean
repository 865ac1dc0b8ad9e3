import Azaka.Proofs.TradeRuns

namespace Azaka.TradeContract
open Keyed Stepwise

/-- Counter, store and index say the same: the ids in use are those up to the
counter, and each exporter's list has exactly its trades, in order. -/
structure Indexed (s : State) : Prop where
  stored : ∀ i, (s.trades i).isSome = true ↔ 1 ≤ i ∧ i ≤ s.counter
  named : ∀ i trade, s.trades i = some trade → trade.tradeId = i
  sorted : ∀ e, (listTradesByExporter e s).Pairwise (· < ·)
  listed : ∀ e i, i ∈ listTradesByExporter e s ↔
    ∃ trade, s.trades i = some trade ∧ trade.exporter = e

@[simp] theorem edited_list (s : State) (id : UInt64) (trade : Trade) (event : TradeEvent)
    (e : Address) :
    listTradesByExporter e (s.edited id trade event) = listTradesByExporter e s := rfl

theorem created_list (s : State) (env : Env) (p : CreateTradeParams) (e : Address) :
    listTradesByExporter e (s.created env p) =
      if e = p.exporter then listTradesByExporter e s ++ [s.counter + 1]
      else listTradesByExporter e s := by
  by_cases h : e = p.exporter
  · subst h
    simp [listTradesByExporter, State.created]
  · simp [listTradesByExporter, State.created, h]

/-- The ids up to a counter that has room are the old ones and the new one. -/
theorem id_le_succ {c : UInt64} (room : c.toNat + 1 < 2 ^ 64) (i : UInt64) :
    1 ≤ i ∧ i ≤ c + 1 ↔ i = c + 1 ∨ 1 ≤ i ∧ i ≤ c := by
  have hsucc := counter_succ room
  simp only [UInt64.le_iff_toNat_le, ← UInt64.toNat_inj, hsucc, UInt64.toNat_one]
  omega

theorem Indexed.bounded {s : State} (h : Indexed s) : Bounded s := by
  intro id trade found
  have hstored := (h.stored id).mp (by simp [found])
  exact UInt64.le_iff_toNat_le.mp hstored.2

theorem empty_indexed : Indexed .empty := by
  refine ⟨?_, ?_, ?_, ?_⟩
  · intro i
    simp only [State.empty, State.counter, UInt64.le_iff_toNat_le]
    simp
    omega
  · intro i trade found
    cases found
  · intro e
    exact List.Pairwise.nil
  · intro e i
    simp [listTradesByExporter, State.empty]

/-- `initialize` resets the counter, so the ids it speaks about must be gone. -/
theorem Indexed.configured {s : State} (h : Indexed s) (escrow document : Address)
    (vacant : ∀ id, s.trades id = none) : Indexed (s.configured escrow document) := by
  refine ⟨?_, h.named, h.sorted, h.listed⟩
  intro i
  simp only [configured_trades, vacant i, configured_counter, UInt64.le_iff_toNat_le]
  simp
  omega

theorem Indexed.created {s : State} (h : Indexed s) (env : Env) (p : CreateTradeParams)
    (room : s.counter.toNat + 1 < 2 ^ 64) : Indexed (s.created env p) := by
  have hfresh := h.bounded.fresh room
  refine ⟨?_, ?_, ?_, ?_⟩
  · intro i
    rw [created_trades, created_counter, id_le_succ room, ← h.stored i, Store.set_apply]
    by_cases hi : i = s.counter + 1 <;> simp [hi]
  · intro i trade found
    rcases Store.set_eq_some found with ⟨rfl, rfl⟩ | ⟨-, hold⟩
    · rfl
    · exact h.named i trade hold
  · intro e
    rw [created_list]
    split
    · refine List.pairwise_append.mpr ⟨h.sorted e, List.pairwise_singleton _ _, ?_⟩
      intro i hi j hj
      obtain rfl := List.mem_singleton.mp hj
      obtain ⟨trade, found, -⟩ := (h.listed e i).mp hi
      have hle := h.bounded i trade found
      rw [UInt64.lt_iff_toNat_lt, counter_succ room]
      omega
    · exact h.sorted e
  · intro e i
    rw [created_list, created_trades, Store.set_apply]
    by_cases hi : i = s.counter + 1
    · subst hi
      have hnot : s.counter + 1 ∉ listTradesByExporter e s := by
        intro hm
        obtain ⟨trade, found, -⟩ := (h.listed e _).mp hm
        rw [hfresh] at found
        cases found
      by_cases he : e = p.exporter
      · simp [he, opened]
      · simp [he, hnot, opened, Ne.symm he]
    · rw [if_neg hi, ← h.listed e i]
      split <;> simp [hi]

theorem Indexed.edited {s : State} (h : Indexed s) {id : UInt64} {old trade : Trade}
    (found : s.trades id = some old) (terms : SameTerms old trade) (event : TradeEvent) :
    Indexed (s.edited id trade event) := by
  obtain ⟨hid, hexporter, -⟩ := terms
  refine ⟨?_, ?_, h.sorted, ?_⟩
  · intro i
    rw [edited_counter, ← h.stored i, edited_trades, Store.set_apply]
    split
    · rename_i he
      simp [he, found]
    · rfl
  · intro i trade' hold
    rcases Store.set_eq_some hold with ⟨rfl, rfl⟩ | ⟨-, hold⟩
    · rw [hid, h.named _ _ found]
    · exact h.named i trade' hold
  · intro e i
    rw [edited_list, h.listed e i, edited_trades, Store.set_apply]
    split
    · rename_i he
      subst he
      simp [found, hexporter]
    · rfl

theorem Step.indexed {env : Env} {s t : State} {c : Call} {r : Return} (h : Step env s c r t)
    (hs : Indexed s) (hinit : ∀ e d, c = .init e d → ∀ id, s.trades id = none) : Indexed t := by
  cases h with
  | init _ => exact hs.configured _ _ (hinit _ _ rfl)
  | create _ room => exact hs.created env _ room
  | edit found edit => exact hs.edited found edit.same_terms _
  | get _ | list => exact hs

variable (self : Address)

theorem run_indexed {ls : List (Tx Call)} (h : InitFirst self ls) :
    Indexed ((machine self).run .empty ls) := by
  refine Machine.run_invariant_along ?_ empty_indexed
    (InitFirst.along_vacant self h)
  intro s tx r t hs hinit he
  apply (machine_ok.mp he).indexed hs
  intro e d hc
  exact hinit (by simp [hc, Call.isInit]) ⟨r, t, he⟩

/-- `create_trade` fails without the authorisation, or at the last id. -/
theorem create_accepted_iff {s : State} {tx : Tx Call} {p : CreateTradeParams}
    (hc : tx.call = .createTrade p) : (machine self).Accepts s tx ↔
      tx.auth p.issuingBank = true ∧ s.counter.toNat + 1 < 2 ^ 64 := by
  constructor
  · intro h
    obtain ⟨r, t, hexec⟩ := h
    have hstep := machine_ok.mp hexec
    rw [hc] at hstep
    obtain ⟨auth, room, -, -⟩ := hstep.created
    exact ⟨auth, room⟩
  · intro h
    obtain ⟨auth, room⟩ := h
    have hstep : Step (tx.env self) s (.createTrade p) _ _ := .create auth room
    exact ⟨_, _, machine_ok.mpr (hc ▸ hstep)⟩

/-- The index and the store agree in every state, and a failed `create_trade`
leaves them as they are. -/
theorem index_agrees_with_store {ls : List (Tx Call)} (h : InitFirst self ls) :
    Indexed ((machine self).run .empty ls) ∧
    ∀ tx p, tx.call = .createTrade p →
      ((machine self).Accepts ((machine self).run .empty ls) tx ↔
        tx.auth p.issuingBank = true ∧
          ((machine self).run .empty ls).counter.toNat + 1 < 2 ^ 64) ∧
      (¬ (machine self).Accepts ((machine self).run .empty ls) tx →
        (machine self).next ((machine self).run .empty ls) tx =
          (machine self).run .empty ls) := by
  refine ⟨run_indexed self h, ?_⟩
  intro tx p hc
  refine ⟨create_accepted_iff self hc, ?_⟩
  intro hno
  rcases (machine self).next_cases ((machine self).run .empty ls) tx with ⟨r, t, hexec, -⟩ | hsame
  · exact absurd ⟨r, t, hexec⟩ hno
  · exact hsame

/-- Three trades of two exporters. -/
def exportersRun : List (Tx Call) :=
  [signed [] 1 (.init (.contract 5) (.contract 6)),
   signed [.account 3] 2 (.createTrade letterOfCredit),
   signed [.account 3] 3 (.createTrade { letterOfCredit with exporter := .account 9 }),
   signed [.account 3] 4 (.createTrade letterOfCredit)]

theorem exporters_run_indexed : Indexed ((machine (.contract 7)).run .empty exportersRun) ∧
    listTradesByExporter (.account 1) ((machine (.contract 7)).run .empty exportersRun) = [1, 3] :=
  ⟨(index_agrees_with_store (.contract 7) (init_first_cons _ _ (by decide))).1, rfl⟩

end Azaka.TradeContract
