import Mathlib.Data.List.Basic
import Azaka.Proofs.TradeReading

namespace Azaka.TradeContract
open Keyed Stepwise Wire Program.Trade

/-- The configuration and the counter are kept with the instance, the trades
and the exporters' lists on their own. -/
def cells (s : State) : Durability → Store DataKey Val
  | .ofInstance, .escrowContract => s.escrowContract.map Val.addressCodec.encode
  | .ofInstance, .documentContract => s.documentContract.map Val.addressCodec.encode
  | .ofInstance, .tradeCounter => s.tradeCounter.map Val.u64Codec.encode
  | .persistent, .trade id => (s.trades id).map Trade.codec.encode
  | .persistent, .exporterTrades e =>
    (s.exporterTrades e).map (Val.vecCodec Val.u64Codec).encode
  | _, _ => none

def hosting : Hosting State DataKey Unit where
  key := DataKey.codec
  cells := cells
  events s := s.events.map TradeEvent.published
  beyond _ := ()

def State.stored (s : State) : HostState Unit := hosting.stored s

/-- What a call does is seen as what the model's call does. -/
abbrev Seen {α δ γ : Type} (φ : List Val → List DocumentType) (say : α → γ)
    (out : δ → γ × State) (p : Program Unit α) (w : HostState Unit)
    (x : Except (Fault TradeError) δ) : Prop :=
  hosting.Follows (HostState.seen (see φ)) (Fault.host TradeError.code .trapped) say out p w x

variable {φ : List Val → List DocumentType} {s : State} {w : HostState Unit}

section Reads
variable (hw : w.seen (see φ) = s.stored)
include hw

theorem has_escrow_contract :
    (Program.has .ofInstance DataKey.escrowContract.val).run w =
      .ok (s.escrowContract.isSome, w) :=
  Hosting.has_seen (H := hosting) (c := Val.addressCodec) hw rfl

theorem get_escrow_contract :
    (Program.get .ofInstance DataKey.escrowContract.val Val.addressCodec).run w =
      .ok (s.escrowContract, w) :=
  Hosting.get_same (H := hosting) hw rfl (decode_see (of_codec_map fun _ => rfl))

theorem get_trade_counter :
    (Program.get .ofInstance DataKey.tradeCounter.val Val.u64Codec).run w =
      .ok (s.tradeCounter, w) :=
  Hosting.get_same (H := hosting) hw rfl (decode_see (of_codec_map fun _ => rfl))

theorem get_exporter_trades (e : Address) :
    (Program.get .persistent (DataKey.exporterTrades e).val (Val.vecCodec Val.u64Codec)).run w =
      .ok (s.exporterTrades e, w) :=
  Hosting.get_same (H := hosting) hw rfl (decode_see fun _ => rfl)

/-- A record is read whatever its list holds. -/
theorem get_trade (id : UInt64) :
    ∃ o, (Program.get .persistent (DataKey.trade id).val Record.codec).run w = .ok (o, w) ∧
      o.map (Record.read φ) = s.trades id :=
  Hosting.get_seen (H := hosting) hw rfl decode_see_trade

end Reads

section Writes
variable (hw : w.seen (see φ) = s.stored)
include hw

theorem set_escrow_contract (a : Address) :
    ∃ v, (Program.set .ofInstance DataKey.escrowContract.val Val.addressCodec a).run w =
        .ok ((), v) ∧
      v.seen (see φ) = { s with escrowContract := some a }.stored := by
  refine Hosting.set_seen (H := hosting) (s := s) (k := .escrowContract) hw
    (see_same rfl : see φ (Val.addressCodec.encode a) = Val.addressCodec.encode a) ?_ rfl rfl
  funext d k
  cases d <;> cases k <;> rfl

theorem set_document_contract (a : Address) :
    ∃ v, (Program.set .ofInstance DataKey.documentContract.val Val.addressCodec a).run w =
        .ok ((), v) ∧
      v.seen (see φ) = { s with documentContract := some a }.stored := by
  refine Hosting.set_seen (H := hosting) (s := s) (k := .documentContract) hw
    (see_same rfl : see φ (Val.addressCodec.encode a) = Val.addressCodec.encode a) ?_ rfl rfl
  funext d k
  cases d <;> cases k <;> rfl

theorem set_trade_counter (n : UInt64) :
    ∃ v, (Program.set .ofInstance DataKey.tradeCounter.val Val.u64Codec n).run w = .ok ((), v) ∧
      v.seen (see φ) = { s with tradeCounter := some n }.stored := by
  refine Hosting.set_seen (H := hosting) (s := s) (k := .tradeCounter) hw
    (see_same rfl : see φ (Val.u64Codec.encode n) = Val.u64Codec.encode n) ?_ rfl rfl
  funext d k
  cases d <;> cases k <;> rfl

theorem set_trade (id : UInt64) (r : Record) :
    ∃ v, (Program.set .persistent (DataKey.trade id).val Record.codec r).run w = .ok ((), v) ∧
      v.seen (see φ) = { s with trades := s.trades.set id (r.read φ) }.stored := by
  refine Hosting.set_seen (H := hosting) (s := s) (k := .trade id) hw (see_encode r) ?_ rfl rfl
  funext d k
  cases d with
  | ofInstance => cases k <;> rfl
  | persistent =>
    cases k with
    | trade j =>
      by_cases h : j = id
      · subst h
        simp [hosting, cells]
      · simp [hosting, cells, h]
    | tradeCounter | exporterTrades _ | escrowContract | documentContract => rfl

theorem set_exporter_trades (e : Address) (ids : List UInt64) :
    ∃ v, (Program.set .persistent (DataKey.exporterTrades e).val (Val.vecCodec Val.u64Codec)
        ids).run w = .ok ((), v) ∧
      v.seen (see φ) = { s with exporterTrades := s.exporterTrades.set e ids }.stored := by
  refine Hosting.set_seen (H := hosting) (s := s) (k := .exporterTrades e) hw
    (see_same rfl : see φ ((Val.vecCodec Val.u64Codec).encode ids) = _) ?_ rfl rfl
  funext d k
  cases d with
  | ofInstance => cases k <;> rfl
  | persistent =>
    cases k with
    | exporterTrades a =>
      by_cases h : a = e
      · subst h
        simp [hosting, cells]
      · simp [hosting, cells, h]
    | trade _ | tradeCounter | escrowContract | documentContract => rfl

theorem publish_event (e : TradeEvent) {data : Val} (h : see φ data = e.published.2) :
    ∃ v, (Program.publish e.published.1 data).run w = .ok ((), v) ∧
      v.seen (see φ) = (s.publish e).stored :=
  Hosting.publish_seen (H := hosting) (s := s) hw h rfl (by simp [hosting, State.publish]) rfl

/-- What the five status calls end with. -/
theorem edit_follows {id : UInt64} {r : Record} {e : TradeEvent} {data : Val}
    (h : see φ data = e.published.2) :
    Seen φ (·) ((), ·)
      (do Program.set .persistent (DataKey.trade id).val Record.codec r
          Program.publish e.published.1 data) w
      (.ok ({ s with trades := s.trades.set id (r.read φ) }.publish e)) := by
  refine .write (set_trade hw id r) ?_
  intro v hv
  exact .written (publish_event hv e h)

theorem init_follows (e d : Address) :
    Seen φ (·) ((), ·) (Program.Trade.init e d) w (init e d s) := by
  unfold init
  refine .step (has_escrow_contract hw) ?_
  cases s.escrowContract with
  | some _ => rfl
  | none =>
    refine .write (set_escrow_contract hw e) ?_
    intro v hv
    refine .write (set_document_contract hv d) ?_
    intro v hv
    exact .written (set_trade_counter hv 0)

theorem create_trade_follows (env : Env) (params : Params) :
    Seen φ (·) (·) (Program.Trade.createTrade env params) w
      (createTrade env (params.read φ) s) := by
  refine .look (Hosting.looks_require_auth env params.issuingBank) ?_
  intro _ _
  refine .step (get_trade_counter hw) ?_
  refine .look (Hosting.looks_add s.counter 1) ?_
  intro counter _
  refine .write (set_trade_counter hw counter) ?_
  intro v hv
  refine .write (set_trade hv counter _) ?_
  intro v hv
  refine .step (get_exporter_trades hv params.exporter) ?_
  refine .write (set_exporter_trades hv params.exporter _) ?_
  intro v hv
  refine .write (publish_event hv (.create counter _) (see_encode _)) ?_
  intro v hv
  exact .ends rfl hv

/-- What they begin with. -/
theorem found_follows {id : UInt64} {f : Record → Program Unit Unit}
    {g : Trade → Except (Fault TradeError) State}
    (h : ∀ r, Seen φ (·) ((), ·) (f r) w (g (r.read φ))) :
    Seen φ (·) ((), ·)
      (do let trade ← Program.okOr TradeError.tradeNotFound.code
            (← Program.get .persistent (DataKey.trade id).val Record.codec)
          f trade) w
      (okOr .tradeNotFound (s.trades id) >>= g) := by
  obtain ⟨o, hread, ho⟩ := get_trade hw id
  refine .step hread ?_
  rw [← ho]
  refine .look (Hosting.looks_map_or (Record.read φ) TradeError.tradeNotFound o) ?_
  intro trade _
  exact h trade

theorem confirm_trade_follows (env : Env) (id : UInt64) (b : Address) :
    Seen φ (·) ((), ·) (Program.Trade.confirmTrade env id b) w (confirmTrade env id b s) := by
  refine .look (Hosting.looks_require_auth env b) ?_
  intro _ _
  refine found_follows hw ?_
  intro trade
  refine .guard (by simp [Record.read]) ?_
  intro _
  exact edit_follows hw (e := .confirm id b) (see_same rfl)

theorem mark_escrow_deposited_follows (env : Env) (id : UInt64) :
    Seen φ (·) ((), ·) (Program.Trade.markEscrowDeposited env id) w
      (markEscrowDeposited env id s) := by
  refine .step (get_escrow_contract hw) ?_
  refine .look (Hosting.looks_unwrap s.escrowContract) ?_
  intro escrow _
  refine .look (Hosting.looks_require_auth env escrow) ?_
  intro _ _
  refine found_follows hw ?_
  intro trade
  refine .guard (by simp [Record.read]) ?_
  intro _
  exact edit_follows hw (e := .escrow id) (see_same rfl)

theorem cancel_trade_follows (env : Env) (id : UInt64) (c : Address) :
    Seen φ (·) ((), ·) (Program.Trade.cancelTrade env id c) w (cancelTrade env id c s) := by
  refine .look (Hosting.looks_require_auth env c) ?_
  intro _ _
  refine found_follows hw ?_
  intro trade
  simp only [bind_assoc]
  refine .guard (by simp [Record.read]) ?_
  intro _
  refine .guard (by simp [Record.read]) ?_
  intro _
  exact edit_follows hw (e := .cancel id c) (see_same rfl)

theorem expire_trade_follows (env : Env) (id : UInt64) :
    Seen φ (·) ((), ·) (Program.Trade.expireTrade env id) w (expireTrade env id s) := by
  refine found_follows hw ?_
  intro trade
  simp only [bind_assoc]
  have hdue : env.sequence < trade.expiryLedger ↔
      (!decide (env.sequence < trade.expiryLedger)) = false := by simp
  refine .guard hdue ?_
  intro _
  refine .guard (by simp [Record.read]) ?_
  intro _
  exact edit_follows hw (e := .expire id) (see_same rfl)

theorem settle_trade_follows (id : UInt64) :
    Seen φ (·) ((), ·) (Program.Trade.settleTrade id) w (settleTrade id s) := by
  refine found_follows hw ?_
  intro trade
  simp only [bind_assoc]
  refine .guard (by simp [Record.read]) ?_
  intro _
  refine .guard (by simp [Record.read]) ?_
  intro _
  exact edit_follows hw (e := .settle id trade.exporter) (see_same rfl)

theorem get_trade_looks (id : UInt64) :
    Hosting.Looks (Fault.host TradeError.code .trapped) (Record.read φ)
      (Program.Trade.getTrade id) w (getTrade id s) := by
  obtain ⟨o, hread, ho⟩ := get_trade hw id
  refine .step hread ?_
  rw [getTrade, ← ho]
  exact Hosting.looks_map_or (Record.read φ) TradeError.tradeNotFound o

theorem list_trades_looks (e : Address) :
    Hosting.Looks (Fault.host TradeError.code .trapped) (·)
      (Program.Trade.listTradesByExporter e) w (.ok (listTradesByExporter e s)) :=
  .step (get_exporter_trades hw e) rfl

omit hw in
theorem Seen.unit {p : Program Unit Unit} {x : Except (Fault TradeError) State}
    (h : Seen φ (·) ((), ·) p w x) :
    Seen φ (see φ) (Prod.map Return.val id) (do p; return .void) w (x.map (.unit, ·)) :=
  h.renders (q := fun _ => .void) (fun _ => rfl) fun _ => rfl

theorem exec_follows (env : Env) (c : HostCall) :
    Seen φ (see φ) (Prod.map Return.val id) (Program.Trade.exec env c) w
      (exec env s (c.read φ)) := by
  cases c with
  | init e d => exact (init_follows hw e d).unit
  | createTrade p =>
    exact (create_trade_follows hw env p).renders (q := .u64) (fun _ => rfl) fun _ => rfl
  | confirmTrade id b => exact (confirm_trade_follows hw env id b).unit
  | markEscrowDeposited id => exact (mark_escrow_deposited_follows hw env id).unit
  | cancelTrade id c => exact (cancel_trade_follows hw env id c).unit
  | expireTrade id => exact (expire_trade_follows hw env id).unit
  | settleTrade id => exact (settle_trade_follows hw id).unit
  | getTrade id =>
    exact ((get_trade_looks hw id).follows (H := hosting) hw).renders (q := Trade.codec.encode)
      see_encode fun _ => rfl
  | listTradesByExporter e =>
    exact ((list_trades_looks hw e).follows (H := hosting) hw).renders
      (q := (Val.vecCodec Val.u64Codec).encode)
      (f := fun ids => (Return.tradeIds ids, s)) (fun _ => see_same rfl) fun _ => rfl

end Writes

theorem stored_empty : State.empty.stored = .empty () :=
  hosting.stored_empty (fun d k => by cases d <;> cases k <;> rfl) rfl

theorem published_inj {e f : TradeEvent} (h : e.published = f.published) : e = f := by
  cases e <;> cases f <;> simp_all [TradeEvent.published]
  exact Trade.codec.encode_inj h.2

theorem stored_inj : Function.Injective State.stored := by
  intro s t h
  refine hosting.stored_inj ?_ h
  intro s t hcells hevents _
  have hcell : ∀ d k, cells s d k = cells t d k := fun d k => congrFun (congrFun hcells d) k
  have hescrow : s.escrowContract = t.escrowContract :=
    Option.map_injective (fun _ _ => Val.addressCodec.encode_inj)
      (hcell .ofInstance .escrowContract)
  have hdocument : s.documentContract = t.documentContract :=
    Option.map_injective (fun _ _ => Val.addressCodec.encode_inj)
      (hcell .ofInstance .documentContract)
  have hcounter : s.tradeCounter = t.tradeCounter :=
    Option.map_injective (fun _ _ => Val.u64Codec.encode_inj) (hcell .ofInstance .tradeCounter)
  have htrades : s.trades = t.trades := by
    funext id
    exact Option.map_injective (fun _ _ => Trade.codec.encode_inj) (hcell .persistent (.trade id))
  have hlists : s.exporterTrades = t.exporterTrades := by
    funext e
    exact Option.map_injective (fun _ _ => (Val.vecCodec Val.u64Codec).encode_inj)
      (hcell .persistent (.exporterTrades e))
  have hpublished : s.events = t.events :=
    (List.map_inj_right fun _ _ => published_inj).mp hevents
  cases s
  cases t
  simp_all

/-- Calls of the contract, under a reading of lists. -/
def readCall (φ : List Val → List DocumentType) : Tx (String × List Val) → Option (Tx Call) :=
  Tx.read fun call => (hostInterface.decode call).map (HostCall.read φ)

/-- The trade contract behind its interface, for some way to read calls. -/
def served (read : Tx (String × List Val) → Option (Tx Call)) (self : Address) :
    Machine State (Tx (String × List Val)) Val HostError :=
  ((machine self).translated Return.val fun _ _ => Fault.host TradeError.code .trapped).behind
    read .trapped

theorem trades_image (φ : List Val → List DocumentType) (self : Address) :
    (served (readCall φ) self).Image (Program.Trade.machine self) State.stored
      (HostState.seen (see φ)) (see φ) := by
  refine ⟨?_⟩
  intro s w tx hw
  simp only [Program.Trade.machine, serve, served, Machine.behind, readCall, Tx.read]
  cases hostInterface.decode tx.call with
  | none => rfl
  | some c => exact (exec_follows hw _ c).answer

theorem seen_run (φ : List Val → List DocumentType) (self : Address)
    (calls : List (Tx (String × List Val))) :
    ((Program.Trade.machine self).run (.empty ()) calls).seen (see φ) =
        ((machine self).run .empty (calls.filterMap (readCall φ))).stored ∧
      ((Program.Trade.machine self).outcomes (.empty ()) calls).map
          (Prod.map id (Except.map (see φ))) =
        (served (readCall φ) self).outcomes .empty calls := by
  have hempty : (HostState.empty ()).seen (see φ) = State.empty.stored := by
    rw [stored_empty]
    rfl
  obtain ⟨hrun, houtcomes⟩ := (trades_image φ self).run hempty calls
  refine ⟨hrun.trans ?_, houtcomes⟩
  rw [served, Machine.behind_run, Machine.translated_run]

/-- The call asks for no trade whose list holds anything but document types. -/
def WellFormed (tx : Tx (String × List Val)) : Prop :=
  ∀ p, hostInterface.decode tx.call = some (.createTrade p) →
    (docTypesCodec.decode p.requiredDocs).isSome

theorem read_call_eq {tx : Tx (String × List Val)} (h : WellFormed tx)
    (otherwise : List DocumentType) : readCall (reading otherwise) tx = readArgs interface tx := by
  rw [Hosting.read_args_eq reread_iff unread_interface, read_bind]
  unfold readCall Tx.read
  refine congrArg (Option.map _) ?_
  dsimp only
  cases hc : hostInterface.decode tx.call with
  | none => rfl
  | some c =>
    cases c with
    | createTrade p =>
      obtain ⟨docs, hdocs⟩ := Option.isSome_iff_exists.mp (h p hc)
      simp [HostCall.read, HostCall.reread, Params.read, reading, hdocs]
    | _ => rfl

/-- Readings that take a malformed list for no document and for one are two such. -/
theorem see_reading_agree (v : Val) (h : see (reading []) v = see (reading [.billOfLading]) v) :
    see (reading []) v = v :=
  see_agree (fun _ hdocs => reading_agree (by simp) hdocs) h

/-- The trade contract against the host's storage, seen through any reading of the
lists of documents, answers every run of calls as the model does under that
reading, malformed calls included. Where no list is malformed it does so just as
it is, and the model's state can be read off what the host keeps. -/
theorem trades_kept_by_host (self : Address) (calls : List (Tx (String × List Val))) :
    (∀ φ,
      ((Program.Trade.machine self).outcomes (.empty ()) calls).map
          (Prod.map id (Except.map (see φ))) =
        (served (readCall φ) self).outcomes .empty calls ∧
      ((Program.Trade.machine self).run (.empty ()) calls).seen (see φ) =
        ((machine self).run .empty (calls.filterMap (readCall φ))).stored) ∧
    ((∀ tx ∈ calls, WellFormed tx) →
      (Program.Trade.machine self).outcomes (.empty ()) calls =
        (served (readArgs interface) self).outcomes .empty calls ∧
      (Program.Trade.machine self).run (.empty ()) calls =
        ((machine self).run .empty (calls.filterMap (readArgs interface))).stored) ∧
    Function.Injective State.stored := by
  refine ⟨fun φ => (seen_run φ self calls).symm, ?_, stored_inj⟩
  intro hcalls
  have hread : ∀ otherwise, ∀ tx ∈ calls, readCall (reading otherwise) tx = readArgs interface tx :=
    fun otherwise tx htx => read_call_eq (hcalls tx htx) otherwise
  have hexact : ∀ otherwise,
      ((Program.Trade.machine self).run (.empty ()) calls).seen (see (reading otherwise)) =
        ((machine self).run .empty (calls.filterMap (readArgs interface))).stored ∧
      ((Program.Trade.machine self).outcomes (.empty ()) calls).map
          (Prod.map id (Except.map (see (reading otherwise)))) =
        (served (readArgs interface) self).outcomes .empty calls := by
    intro otherwise
    obtain ⟨hrun, houtcomes⟩ := seen_run (reading otherwise) self calls
    rw [List.filterMap_congr (hread otherwise)] at hrun
    refine ⟨hrun, houtcomes.trans ?_⟩
    exact Machine.behind_outcomes_congr _ _ (hread otherwise)
  obtain ⟨hrun, houtcomes⟩ := hexact []
  obtain ⟨hrun', houtcomes'⟩ := hexact [.billOfLading]
  constructor
  · rw [← outcomes_agree see_reading_agree (houtcomes.trans houtcomes'.symm), houtcomes]
  · rw [← HostState.seen_agree see_reading_agree (hrun.trans hrun'.symm), hrun]

/-- A letter of credit that asks for the number 7 instead of a document, and then
one that asks for nothing. -/
def oddRun : List (Tx (String × List Val)) :=
  let params (docs : List Val) : Params := {
    exporter := .account 1
    importer := .account 2
    issuingBank := .account 3
    stablecoinAsset := .contract 4
    amount := 500
    requiredDocs := docs
    expiryLedger := 10 }
  [signed [.account 3] 1 (hostInterface.encode (.createTrade (params [.u32 7]))),
   signed [.account 3] 2 (hostInterface.encode (.createTrade (params [])))]

theorem odd_run_kept :
    ((Program.Trade.machine (.contract 7)).outcomes (.empty ()) oddRun).map
        (Prod.map id (Except.map (see fun _ => []))) =
      (oddRun.zip [.ok (.u64 1), .ok (.u64 2)]) ∧
    (Program.Trade.machine (.contract 7)).run (.empty ()) (oddRun.drop 1) =
      ((machine (.contract 7)).run .empty
        ((oddRun.drop 1).filterMap (readArgs interface))).stored := by
  refine ⟨((trades_kept_by_host (.contract 7) oddRun).1 _).1.trans rfl,
    ((trades_kept_by_host (.contract 7) (oddRun.drop 1)).2.1 ?_).2⟩
  intro tx htx p hp
  obtain rfl := List.mem_singleton.mp htx
  simp only [signed, Codec.decode_encode, Option.some.injEq, HostCall.createTrade.injEq] at hp
  subst hp
  rfl

end Azaka.TradeContract
