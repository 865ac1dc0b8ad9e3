import Azaka.Model.EscrowProgram
import Azaka.Proofs.Hosting

namespace Azaka.EscrowContract
open Keyed Stepwise Wire
variable {tok : HostToken}

/-- The configuration is kept with the instance, the balances on their own. -/
def cells (s : State) : Durability → Store DataKey Val
  | .ofInstance, .tradeContract => s.tradeContract.map Val.addressCodec.encode
  | .ofInstance, .tokenContract => s.tokenContract.map Val.addressCodec.encode
  | .persistent, .balance id => (s.balances id).map Val.i128Codec.encode
  | _, _ => none

def hosting (tok : HostToken) : Hosting (World tok.toToken) DataKey tok.Ledger where
  key := DataKey.codec
  cells w := cells w.1
  events w := w.1.events.map EscrowEvent.published
  beyond w := w.2

def stored (tok : HostToken) (w : World tok.toToken) : HostState tok.Ledger :=
  (hosting tok).stored w

variable {w : World tok.toToken}

theorem has_trade_contract :
    (Program.has .ofInstance DataKey.tradeContract.val).run (stored tok w) =
      .ok (w.1.tradeContract.isSome, stored tok w) :=
  Hosting.has_run (H := hosting tok) (o := w.1.tradeContract) (c := Val.addressCodec) rfl

theorem get_trade_contract :
    (Program.get .ofInstance DataKey.tradeContract.val Val.addressCodec).run (stored tok w) =
      .ok (w.1.tradeContract, stored tok w) :=
  Hosting.get_run (H := hosting tok) rfl

theorem get_token_contract :
    (Program.get .ofInstance DataKey.tokenContract.val Val.addressCodec).run (stored tok w) =
      .ok (w.1.tokenContract, stored tok w) :=
  Hosting.get_run (H := hosting tok) rfl

theorem has_balance (id : UInt64) :
    (Program.has .persistent (DataKey.balance id).val).run (stored tok w) =
      .ok ((w.1.balances id).isSome, stored tok w) :=
  Hosting.has_run (H := hosting tok) (o := w.1.balances id) (c := Val.i128Codec) rfl

theorem get_balance (id : UInt64) :
    (Program.get .persistent (DataKey.balance id).val Val.i128Codec).run (stored tok w) =
      .ok (w.1.balances id, stored tok w) :=
  Hosting.get_run (H := hosting tok) rfl

theorem set_trade_contract (a : Address) :
    (Program.set .ofInstance DataKey.tradeContract.val Val.addressCodec a).run (stored tok w) =
      .ok ((), stored tok ({ w.1 with tradeContract := some a }, w.2)) := by
  refine Hosting.set_run (H := hosting tok) (s := w) (k := .tradeContract) ?_ rfl rfl
  funext d k
  cases d <;> cases k <;> rfl

theorem set_token_contract (a : Address) :
    (Program.set .ofInstance DataKey.tokenContract.val Val.addressCodec a).run (stored tok w) =
      .ok ((), stored tok ({ w.1 with tokenContract := some a }, w.2)) := by
  refine Hosting.set_run (H := hosting tok) (s := w) (k := .tokenContract) ?_ rfl rfl
  funext d k
  cases d <;> cases k <;> rfl

theorem cells_balance (s : State) (id : UInt64) (o : Option I128) :
    cells { s with balances := Function.update s.balances id o } =
      Function.update (cells s) .persistent
        (Function.update (cells s .persistent) (.balance id) (o.map Val.i128Codec.encode)) := by
  funext d k
  cases d with
  | ofInstance => cases k <;> rfl
  | persistent =>
    cases k with
    | balance j =>
      by_cases h : j = id
      · subst h
        simp [cells]
      · simp [cells, h]
    | tradeContract | tokenContract => rfl

theorem set_balance (id : UInt64) (n : I128) :
    (Program.set .persistent (DataKey.balance id).val Val.i128Codec n).run (stored tok w) =
      .ok ((), stored tok ({ w.1 with balances := w.1.balances.set id n }, w.2)) :=
  Hosting.set_run (H := hosting tok) (s := w) (cells_balance w.1 id (some n)) rfl rfl

theorem remove_balance (id : UInt64) :
    (Program.remove .persistent (DataKey.balance id).val).run (stored tok w) =
      .ok ((), stored tok ({ w.1 with balances := w.1.balances.remove id }, w.2)) :=
  Hosting.remove_run (H := hosting tok) (s := w) (cells_balance w.1 id none) rfl rfl

theorem publish_event (e : EscrowEvent) :
    (Program.publish e.published.1 e.published.2).run (stored tok w) =
      .ok ((), stored tok (w.1.publish e, w.2)) :=
  Hosting.publish_run (H := hosting tok) (s := w) rfl (by simp [hosting, State.publish]) rfl

/-- A transfer changes what lies beyond, and nothing that the host keeps here. A
refused one ends the call with the token's own error. -/
theorem transfer_follows {token a b : Address} {n : I128} {subcall : HostError}
    (hsubcall : tok.refusal w.2 token a b n = subcall) {p : Program tok.Ledger Unit}
    {g : tok.Ledger → Except (Fault EscrowError) (World tok.toToken)}
    (h : ∀ ledger, (hosting tok).Keeps EscrowError.code subcall ((), ·) p (w.1, ledger)
      (g ledger)) :
    (hosting tok).Keeps EscrowError.code subcall ((), ·)
      (do Program.transfer tok token a b n; p) w (tok.call w.2 token a b n >>= g) := by
  have hbeyond : (stored tok w).beyond = w.2 := rfl
  unfold Token.call
  cases ht : tok.transfer w.2 token a b n with
  | none =>
    have hrun : (Program.transfer tok token a b n).run (stored tok w) = .error subcall := by
      simp only [Program.transfer, StateT.run, hbeyond, ht, hsubcall]
    exact congrArg (Except.map (Prod.map id id)) (Program.run_error hrun)
  | some ledger =>
    have hrun : (Program.transfer tok token a b n).run (stored tok w) =
        .ok ((), stored tok (w.1, ledger)) := by
      simp only [Program.transfer, StateT.run, hbeyond, ht]
      rfl
    exact .step hrun (h ledger)

/-- What the token that is configured refuses a transfer with. -/
def refusal (tok : HostToken) (w : World tok.toToken) (a b : Address) (n : I128) : HostError :=
  match w.1.tokenContract with
  | some token => tok.refusal w.2 token a b n
  | none => .trapped

theorem refusal_eq {token a b : Address} {n : I128}
    (h : (unwrap w.1.tokenContract : Except (Fault EscrowError) Address) = .ok token) :
    tok.refusal w.2 token a b n = refusal tok w a b n := by
  simp only [refusal, unwrap_ok.mp h]

/-- What it refuses to pay an entry out with. -/
def payOutRefusal (tok : HostToken) (self : Address) (w : World tok.toToken) (id : UInt64)
    (a : Address) : HostError :=
  match w.1.balances id with
  | some n => refusal tok w self a n
  | none => .trapped

theorem init_follows (trade token : Address) :
    (hosting tok).Keeps EscrowError.code .trapped (fun s => ((), (s, w.2)))
      (Program.Escrow.init trade token) w (init trade token w.1) := by
  unfold init
  refine .step has_trade_contract ?_
  cases w.1.tradeContract with
  | some _ => rfl
  | none =>
    refine .step (set_trade_contract trade) ?_
    exact congrArg (Except.map (Prod.map id id)) (set_token_contract token)

theorem deposit_follows (env : Env) (id : UInt64) (a : Address) (n : I128) :
    (hosting tok).Keeps EscrowError.code (refusal tok w a env.current n) ((), ·)
      (Program.Escrow.deposit env id a n) w (deposit env id a n w) := by
  refine .look (Hosting.looks_require_auth env a) ?_
  intro _ _
  refine .step (has_balance id) ?_
  refine .guard (by cases w.1.balances id <;> simp) ?_
  intro _
  refine .step get_token_contract ?_
  refine .look (Hosting.looks_unwrap w.1.tokenContract) ?_
  intro token htoken
  refine transfer_follows (refusal_eq htoken) ?_
  intro ledger
  refine .step (set_balance id n) ?_
  exact .done (publish_event (.deposit id a n)) rfl

/-- Release and refund alike, down to the event. -/
theorem pay_out_follows (env : Env) (id : UInt64) (a : Address) (event : I128 → EscrowEvent) :
    (hosting tok).Keeps EscrowError.code (payOutRefusal tok env.current w id a) ((), ·)
      (do let tradeContract ← Program.unwrap
            (← Program.get .ofInstance DataKey.tradeContract.val Val.addressCodec)
          Program.requireAuth env tradeContract
          let amount ← Program.okOr EscrowError.noBalance.code
            (← Program.get .persistent (DataKey.balance id).val Val.i128Codec)
          let tokenContract ← Program.unwrap
            (← Program.get .ofInstance DataKey.tokenContract.val Val.addressCodec)
          Program.transfer tok tokenContract env.current a amount
          Program.remove .persistent (DataKey.balance id).val
          Program.publish (event amount).published.1 (event amount).published.2) w
      (payOut env id a event w) := by
  refine .step get_trade_contract ?_
  refine .look (Hosting.looks_unwrap w.1.tradeContract) ?_
  intro trade _
  refine .look (Hosting.looks_require_auth env trade) ?_
  intro _ _
  refine .step (get_balance id) ?_
  refine .look (Hosting.looks_ok_or EscrowError.noBalance _) ?_
  intro amount hamount
  refine .step get_token_contract ?_
  refine .look (Hosting.looks_unwrap w.1.tokenContract) ?_
  intro token htoken
  have hrefusal : tok.refusal w.2 token env.current a amount =
      payOutRefusal tok env.current w id a := by
    simp only [payOutRefusal, okOr_ok.mp hamount]
    exact refusal_eq htoken
  refine transfer_follows hrefusal ?_
  intro ledger
  refine .step (remove_balance id) ?_
  exact .done (publish_event (event amount)) rfl

theorem get_balance_looks (id : UInt64) :
    Hosting.Looks (Fault.host EscrowError.code .trapped) (·) (Program.Escrow.getBalance id)
      (stored tok w) (.ok (getBalance id w.1)) :=
  .step (get_balance id) rfl

/-- What the token refuses the transfer with that a call asks it for. -/
def refused (self : Address) (w : World tok.toToken) : Call → HostError
  | .deposit _ a n => refusal tok w a self n
  | .release id a | .refund id a => payOutRefusal tok self w id a
  | .init _ _ | .getBalance _ => .trapped

theorem exec_follows (env : Env) (c : Call) (w : World tok.toToken) :
    (hosting tok).Keeps EscrowError.code (refused env.current w c) (Prod.map Return.val id)
      (Program.Escrow.exec env c) w (exec env w c) := by
  cases c with
  | init trade token => exact (init_follows trade token).returns fun _ => rfl
  | deposit id a n => exact (deposit_follows env id a n).returns fun _ => rfl
  | release id a => exact (pay_out_follows env id a (.release id a)).returns fun _ => rfl
  | refund id a => exact (pay_out_follows env id a (.refund id a)).returns fun _ => rfl
  | getBalance id =>
    exact (get_balance_looks id).returns (H := hosting tok) (s := w)
      (f := fun n => (Return.amount n, w)) rfl fun _ => rfl

theorem stored_empty (ledger : tok.Ledger) :
    stored tok (State.empty, ledger) = .empty ledger :=
  (hosting tok).stored_empty (fun d k => by cases d <;> cases k <;> rfl) rfl

theorem published_inj {e f : EscrowEvent} (h : e.published = f.published) : e = f := by
  cases e <;> cases f <;> simp_all [EscrowEvent.published]

theorem stored_inj : Function.Injective (stored tok) := by
  intro v w h
  refine (hosting tok).stored_inj ?_ h
  intro v w hcells hevents hledger
  have hcell : ∀ d k, cells v.1 d k = cells w.1 d k := fun d k => congrFun (congrFun hcells d) k
  have htrade : v.1.tradeContract = w.1.tradeContract :=
    Option.map_injective (fun _ _ => Val.addressCodec.encode_inj) (hcell .ofInstance .tradeContract)
  have htoken : v.1.tokenContract = w.1.tokenContract :=
    Option.map_injective (fun _ _ => Val.addressCodec.encode_inj) (hcell .ofInstance .tokenContract)
  have hbalances : v.1.balances = w.1.balances := by
    funext id
    exact Option.map_injective (fun _ _ => Val.i128Codec.encode_inj)
      (hcell .persistent (.balance id))
  have hpublished : v.1.events = w.1.events :=
    (List.map_inj_right fun _ _ => published_inj).mp hevents
  obtain ⟨s, ledger⟩ := v
  obtain ⟨t, ledger'⟩ := w
  cases s
  cases t
  simp_all [hosting]

/-- The error of the token that a transaction may end with. -/
def Label.refused (self : Address) (w : World tok.toToken) : Label tok.toToken → HostError
  | .call tx => EscrowContract.refused self w tx.call
  | .token _ => .trapped

/-- The escrow behind its interface. -/
def served (tok : HostToken) (self : Address) :
    Machine (World tok.toToken) (HostLabel tok) Val HostError :=
  ((machine tok.toToken self).translated Return.val fun w l =>
    Fault.host EscrowError.code (l.refused self w)).behind HostLabel.read .trapped

theorem escrow_image (self : Address) :
    (served tok self).Image (Program.Escrow.machine tok self) (stored tok) id id := by
  refine ⟨?_⟩
  intro w v l hv
  obtain rfl : v = stored tok w := hv
  cases l with
  | token ledger => rfl
  | call tx =>
    simp only [Program.Escrow.machine, serve, served, Machine.behind, HostLabel.read]
    cases readArgs interface tx with
    | none => rfl
    | some tx => exact (exec_follows (tx.env self) tx.call w).answer

/-- The escrow against the host's storage answers every run as the model does,
malformed calls and other movements of the tokens included. A transfer that the
token refuses ends with the token's error, and what the host keeps in the end is
the model's state, which can be read off it. -/
theorem balances_kept_by_host (tok : HostToken) (self : Address) (ledger : tok.Ledger)
    (labels : List (HostLabel tok)) :
    (Program.Escrow.machine tok self).outcomes (.empty ledger) labels =
        (served tok self).outcomes (.empty, ledger) labels ∧
      (Program.Escrow.machine tok self).run (.empty ledger) labels =
        stored tok
          ((machine tok.toToken self).run (.empty, ledger) (labels.filterMap HostLabel.read)) ∧
      Function.Injective (stored tok) := by
  obtain ⟨hrun, houtcomes⟩ := (escrow_image self).run_exact (stored_empty ledger).symm labels
  refine ⟨houtcomes, hrun.trans ?_, stored_inj⟩
  rw [served, Machine.behind_run, Machine.translated_run]

end Azaka.EscrowContract
