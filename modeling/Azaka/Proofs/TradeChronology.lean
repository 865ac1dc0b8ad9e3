import Azaka.Proofs.TradeIndex

namespace Azaka.TradeContract
open Keyed Stepwise

/-- The ids are in the order of the ledgers the trades were opened in, none of
them to come, and what has expired is overdue. -/
structure Timely (now : UInt32) (s : State) : Prop where
  opened : ∀ i trade, s.trades i = some trade → trade.createdLedger ≤ now
  ordered : ∀ i j a b, s.trades i = some a → s.trades j = some b → i ≤ j →
    a.createdLedger ≤ b.createdLedger
  overdue : ∀ i trade, s.trades i = some trade → trade.status = .expired →
    trade.expiryLedger ≤ now

theorem empty_timely (now : UInt32) : Timely now .empty := by
  refine ⟨?_, ?_, ?_⟩
  · intro i trade found
    cases found
  · intro i j a b found
    cases found
  · intro i trade found
    cases found

theorem Timely.later {s : State} {now later : UInt32} (h : Timely now s) (hle : now ≤ later) :
    Timely later s :=
  ⟨fun i trade found => UInt32.le_trans (h.opened i trade found) hle, h.ordered,
    fun i trade found expired => UInt32.le_trans (h.overdue i trade found expired) hle⟩

theorem Timely.created {s : State} {env : Env} (h : Timely env.sequence s) (hb : Bounded s)
    (p : CreateTradeParams) (room : s.counter.toNat + 1 < 2 ^ 64) :
    Timely env.sequence (s.created env p) := by
  refine ⟨?_, ?_, ?_⟩
  · intro i trade found
    rcases Store.set_eq_some found with ⟨-, rfl⟩ | ⟨-, hold⟩
    · exact UInt32.le_refl _
    · exact h.opened i trade hold
  · intro i j a b hi hj hle
    rcases Store.set_eq_some hj with ⟨-, rfl⟩ | ⟨hjne, hold⟩
    · rcases Store.set_eq_some hi with ⟨-, rfl⟩ | ⟨-, hi⟩
      · exact UInt32.le_refl _
      · exact h.opened i a hi
    · rcases Store.set_eq_some hi with ⟨rfl, -⟩ | ⟨-, hi⟩
      · -- the new id is above all that are stored
        have hbound := hb j b hold
        have hnew := UInt64.le_iff_toNat_le.mp hle
        rw [counter_succ room] at hnew
        omega
      · exact h.ordered i j a b hi hold hle
  · intro i trade found expired
    rcases Store.set_eq_some found with ⟨-, rfl⟩ | ⟨-, hold⟩
    · cases expired
    · exact h.overdue i trade hold expired

/-- Only `expire_trade` makes a trade expired, and it looks at the ledger. -/
theorem Edit.overdue {env : Env} {escrow : Option Address} {c : Call} {id : UInt64}
    {trade trade' : Trade} {event : TradeEvent} (h : Edit env escrow c id trade trade' event)
    (expired : trade'.status = .expired) : trade'.expiryLedger ≤ env.sequence := by
  cases h with
  | expire due _ => exact due
  | confirm _ _ | mark _ _ _ | cancel _ _ _ | settle _ => cases expired

theorem Timely.edited {s : State} {env : Env} (h : Timely env.sequence s)
    {c : Call} {id : UInt64} {old trade : Trade} {event : TradeEvent}
    (found : s.trades id = some old) (edit : Edit env s.escrowContract c id old trade event) :
    Timely env.sequence (s.edited id trade event) := by
  have hcreated : trade.createdLedger = old.createdLedger := by
    obtain ⟨-, -, -, -, -, -, -, -, hcreated⟩ := edit.same_terms
    exact hcreated
  -- every record has an earlier one that was opened in the same ledger
  have hearlier : ∀ i a, (s.edited id trade event).trades i = some a →
      ∃ b, s.trades i = some b ∧ b.createdLedger = a.createdLedger := by
    intro i a ha
    rcases Store.set_eq_some ha with ⟨rfl, rfl⟩ | ⟨-, hold⟩
    · exact ⟨old, found, hcreated.symm⟩
    · exact ⟨a, hold, rfl⟩
  refine ⟨?_, ?_, ?_⟩
  · intro i a ha
    obtain ⟨b, hb, he⟩ := hearlier i a ha
    exact he ▸ h.opened i b hb
  · intro i j a a' ha ha' hle
    obtain ⟨b, hb, he⟩ := hearlier i a ha
    obtain ⟨b', hb', he'⟩ := hearlier j a' ha'
    exact he ▸ he' ▸ h.ordered i j b b' hb hb' hle
  · intro i a ha expired
    rcases Store.set_eq_some ha with ⟨rfl, rfl⟩ | ⟨-, hold⟩
    · exact edit.overdue expired
    · exact h.overdue i a hold expired

theorem Step.timely {env : Env} {s t : State} {c : Call} {r : Return} (h : Step env s c r t)
    (hb : Bounded s) (hs : Timely env.sequence s) : Timely env.sequence t := by
  cases h with
  | init _ => exact ⟨hs.opened, hs.ordered, hs.overdue⟩
  | create _ room => exact hs.created hb _ room
  | edit found edit => exact hs.edited found edit
  | get _ | list => exact hs

variable (self : Address)

theorem run_timely {ls : List (Tx Call)} (first : InitFirst self ls)
    (clock : (ls.map Tx.sequence).Pairwise (· ≤ ·)) {now : UInt32}
    (past : ∀ tx ∈ ls, tx.sequence ≤ now) : Timely now ((machine self).run .empty ls) := by
  induction ls using List.reverseRecOn generalizing now with
  | nil => exact empty_timely now
  | append_singleton ls tx ih =>
    have hfirst := InitFirst.prefix_run self first
    rw [List.map_append, List.pairwise_append] at clock
    obtain ⟨hclock, -, hlast⟩ := clock
    have hbefore : Timely tx.sequence ((machine self).run .empty ls) := by
      refine ih hfirst hclock ?_
      intro tx' hmem
      exact hlast tx'.sequence (List.mem_map_of_mem hmem) tx.sequence (by simp)
    have hnow : tx.sequence ≤ now := past tx (by simp)
    rw [Machine.run_concat]
    rcases (machine self).next_cases ((machine self).run .empty ls) tx with
      ⟨r, t, hexec, hnext⟩ | hsame
    · rw [hnext]
      exact ((machine_ok.mp hexec).timely (run_bounded self hfirst) hbefore).later hnow
    · rw [hsame]
      exact hbefore.later hnow

/-- While ledgers go forward, so do the ids, and every exporter's list tells its
trades in the order they were opened. No trade has expired before its time. -/
theorem trades_chronological {ls : List (Tx Call)} (first : InitFirst self ls)
    (clock : (ls.map Tx.sequence).Pairwise (· ≤ ·)) {now : UInt32}
    (past : ∀ tx ∈ ls, tx.sequence ≤ now) :
    Timely now ((machine self).run .empty ls) ∧
      ∀ e, ((listTradesByExporter e ((machine self).run .empty ls)).filterMap
        ((machine self).run .empty ls).trades).Pairwise
          fun a b => a.createdLedger ≤ b.createdLedger := by
  have htimely := run_timely self first clock past
  refine ⟨htimely, ?_⟩
  intro e
  refine List.pairwise_filterMap.mpr (((run_indexed self first).sorted e).imp ?_)
  intro i j hlt a ha b hb
  exact htimely.ordered i j a b ha hb (UInt64.le_of_lt hlt)

theorem exporters_run_chronological : Timely 4 ((machine (.contract 7)).run .empty exportersRun) :=
  (trades_chronological (.contract 7) (init_first_cons _ _ (by decide)) (by decide)
    (by decide)).1

end Azaka.TradeContract
