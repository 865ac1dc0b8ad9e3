import Azaka.Library.Restriction
import Azaka.Model.Client
import Azaka.Proofs.NetworkRuns
import Azaka.Proofs.SdkCalls

namespace Azaka
open Keyed Stepwise

namespace Network
variable {tok : Token}

/-- A payout that the trade contract has not authorised. -/
def hollow (sites : Sites) : Label tok → Bool
  | .inl (.inr (.call tx)) =>
    match tx.call with
    | .release _ _ | .refund _ _ => !tx.auth sites.trade
    | _ => false
  | _ => false

theorem hollow_refused {sites : Sites} {admin : Address} {s t : State tok}
    (hs : Configured sites admin s) {l : Label tok} (h : hollow sites l = true) {r : Return} :
    (machine tok sites).exec l s ≠ .ok (r, t) := by
  intro hexec
  match l with
  | .inl (.inr (.call ⟨auth, sequence, .release id a⟩))
  | .inl (.inr (.call ⟨auth, sequence, .refund id a⟩)) =>
    obtain ⟨_, hleft, -⟩ := Machine.beside_inl_ok.mp hexec
    obtain ⟨_, hright, -⟩ := Machine.beside_inr_ok.mp hleft
    obtain ⟨_, hpaid, -⟩ := map_ok.mp hright
    obtain ⟨trade, _, _, _, arbiter, hauth, -⟩ := EscrowContract.payOut_ok.mp hpaid
    obtain rfl := Option.some.inj (hs.trade.symm.trans arbiter)
    have hmissing : (!auth sites.trade) = true := h
    have hgiven : auth sites.trade = true := hauth
    rw [hgiven] at hmissing
    cases hmissing

/-- Payouts that are not authorised do nothing. -/
theorem hollow_restrict (sites : Sites) (admin : Address) :
    (machine tok sites).Restricts (Configured sites admin) (fun l => !hollow sites l) id where
  closed s l r t h hs := by
    have hnext := run_configured hs [l]
    rwa [Machine.run_cons, Machine.run_nil, Machine.next_ok h] at hnext
  hidden _ _ _ _ hs h hl := absurd h (hollow_refused hs (by simpa using hl))
  seen _ _ _ _ := rfl

end Network

namespace AzakaClient
variable {sdk : StellarSdk} {tok : Token}

/-- Anything but what comes of the clients and is no deposit. -/
def Traffic.counts : Traffic sdk tok → Bool
  | .client s =>
    match s.request with
    | .depositEscrow _ _ _ => true
    | _ => false
  | .bank _ => false
  | .other _ => true

theorem label_eq_some {s : Submission sdk} {l : Network.Label tok} :
    s.label = some l ↔ ∃ op call, s.request.operation = some op ∧ op.decode = some call ∧
      call.label (fun a => sdk.strKey (sdk.publicKey s.signer) == some a) s.sequence = l := by
  simp only [Submission.label, Option.bind_eq_bind, Option.bind_eq_some_iff, Option.some.injEq]
  constructor
  · intro h
    obtain ⟨op, hop, call, hcall, hl⟩ := h
    exact ⟨op, call, hop, hcall, hl⟩
  · intro h
    obtain ⟨op, call, hop, hcall, hl⟩ := h
    exact ⟨op, hop, call, hcall, hl⟩

/-- What the release asks for is read as a release. -/
theorem release_decoded {tradeId : Int} {op : Operation} {call : ContractCall}
    (hop : checkAndRelease sdk tradeId = some op) (hcall : op.decode = some call) :
    ∃ id a, call = .escrow (.release id a) := by
  simp only [checkAndRelease, Option.bind_eq_bind, Option.bind_eq_some_iff, Option.some.injEq]
    at hop
  obtain ⟨_, -, _, -, rfl⟩ := hop
  have hoperation := decode_operation.mp hcall
  cases call with
  | trade c | document c => cases hoperation
  | escrow c =>
    cases c with
    | release id a => exact ⟨id, a, rfl⟩
    | init _ _ | deposit _ _ _ | refund _ _ | getBalance _ =>
      simp [ContractCall.operation, EscrowContract.Call.encode] at hoperation

/-- A request that is no deposit comes to nothing, or to a payout that only the
trade contract could have authorised. -/
theorem idle_label (documented : sdk.Documented) {sites : Network.Sites}
    (nobody : ∀ k, sdk.strKey (sdk.publicKey k) ≠ some sites.trade) {s : Submission sdk}
    (h : Traffic.counts (.client s : Traffic sdk tok) = false) {l : Network.Label tok}
    (hl : s.label = some l) : Network.hollow sites l = true := by
  obtain ⟨op, call, hop, hcall, rfl⟩ := label_eq_some.mp hl
  cases hrequest : s.request with
  | createTrade params =>
    rw [hrequest] at hop
    rw [create_trade_refused hop] at hcall
    cases hcall
  | submitDocument params =>
    rw [hrequest] at hop
    rw [submit_document_refused documented hop] at hcall
    cases hcall
  | signDocument params =>
    rw [hrequest] at hop
    rw [sign_document_refused documented hop] at hcall
    cases hcall
  | checkAndRelease tradeId =>
    rw [hrequest] at hop
    obtain ⟨id, a, rfl⟩ := release_decoded hop hcall
    simpa [ContractCall.label, Network.hollow] using nobody s.signer
  | depositEscrow _ _ _ => simp [Traffic.counts, hrequest] at h

theorem idle_traffic (documented : sdk.Documented) {sites : Network.Sites}
    (nobody : ∀ k, sdk.strKey (sdk.publicKey k) ≠ some sites.trade) {t : Traffic sdk tok}
    (h : t.counts = false) {l : Network.Label tok} (hl : t.label = some l) :
    Network.hollow sites l = true := by
  cases t with
  | client s => exact idle_label documented nobody h hl
  | bank act =>
    cases act with
    | issueLc params bankKeypair sequence =>
      have hidle : Traffic.counts (.client
          { request := .createTrade params, sourceKeypair := bankKeypair, sequence := sequence } :
          Traffic sdk tok) = false := rfl
      exact idle_label documented nobody hidle hl
    | confirmLc _ => cases hl
  | other _ => cases h

/-- A deposit is made from the account of its key, and numbers that fit are
passed on as they are. -/
structure Deposits (sdk : StellarSdk) (tradeId amount : Int) (source : sdk.Keypair)
    (call : EscrowContract.Call) (id : UInt64) (a : Address) (n : I128) : Prop where
  call : call = .deposit id a n
  depositor : sdk.strKey (sdk.publicKey source) = some a
  tradeId : 0 ≤ tradeId → tradeId < 2 ^ 64 → (id.toNat : Int) = tradeId
  amount : -2 ^ 127 ≤ amount → amount < 2 ^ 127 → n.toInt = amount

theorem deposit_decoded (documented : sdk.Documented) {tradeId amount : Int}
    {source : sdk.Keypair} {op : Operation} {call : ContractCall}
    (hop : depositEscrow sdk tradeId amount source = some op) (hcall : op.decode = some call) :
    ∃ c id a n, call = .escrow c ∧ Deposits sdk tradeId amount source c id a n := by
  obtain ⟨b, hb⟩ := documented.public_key source
  simp only [depositEscrow, documented.address _ b hb, Option.bind_eq_bind,
    Option.bind_eq_some_iff, Option.some.injEq] at hop
  obtain ⟨_, hid, _, rfl, _, hamount, rfl⟩ := hop
  have hoperation := decode_operation.mp hcall
  cases call with
  | trade c | document c => cases hoperation
  | escrow c =>
    cases c with
    | init _ _ | release _ _ | refund _ _ | getBalance _ =>
      simp [ContractCall.operation, EscrowContract.Call.encode] at hoperation
    | deposit id a n =>
      cases hoperation
      refine ⟨_, id, a, n, rfl, rfl, hb, ?_, ?_⟩
      · intro hpos hlt
        rw [documented.u64 tradeId hpos hlt] at hid
        have hread : UInt64.ofNat tradeId.toNat = id := ScVal.u64.inj (Option.some.inj hid)
        rw [← hread, UInt64.toNat_ofNat']
        omega
      · intro hle hlt
        rw [documented.i128 amount hle hlt] at hamount
        have hread : BitVec.ofInt 128 amount = n := ScVal.i128.inj (Option.some.inj hamount)
        rw [← hread, BitVec.toInt_ofInt]
        apply Int.bmod_eq_of_le <;> omega

/-- A deposit with no entry for the trade before it, and for which the token makes
the transfer. Nothing else happens. -/
def PutsIn (sites : Network.Sites) (id : UInt64) (a : Address) (n : I128)
    (s t : Network.State tok) : Prop :=
  s.1.2.1.balances id = none ∧
    tok.transfer s.1.2.2 sites.token a sites.escrow n = some t.1.2.2 ∧
    t = ((s.1.1, s.1.2.1.deposited id a n, t.1.2.2), s.2)

/-- A deposit that its depositor authorises is accepted exactly if it can be
made. -/
theorem deposit_accepted {sites : Network.Sites} {admin : Address} {s t : Network.State tok}
    (hs : Network.Configured sites admin s) {tx : Tx EscrowContract.Call} {id : UInt64}
    {a : Address} {n : I128} (hc : tx.call = .deposit id a n) (auth : tx.auth a = true)
    {r : Network.Return} :
    (Network.machine tok sites).exec (.inl (.inr (.call tx))) s = .ok (r, t) ↔
      r = .inl (.inr .unit) ∧ PutsIn sites id a n s t := by
  constructor
  · intro h
    obtain ⟨_, hleft, hright, rfl⟩ := Machine.beside_inl_ok.mp h
    obtain ⟨_, hescrow, htrade, rfl⟩ := Machine.beside_inr_ok.mp hleft
    obtain ⟨⟨trade, world⟩, rest⟩ := t
    obtain rfl : rest = s.2 := hright
    obtain rfl : trade = s.1.1 := htrade
    simp only [EscrowContract.machine, EscrowContract.exec, hc] at hescrow
    obtain ⟨w, hdeposit, ⟨⟩⟩ := map_ok.mp hescrow
    obtain ⟨-, vacant, token, l', configured, moved, rfl⟩ :=
      EscrowContract.deposit_ok.mp hdeposit
    obtain rfl := Option.some.inj (hs.token.symm.trans configured)
    exact ⟨rfl, vacant, moved, rfl⟩
  · intro h
    obtain ⟨rfl, vacant, moved, ht⟩ := h
    have hstep : EscrowContract.Step (tx.env sites.escrow) s.1.2.1 s.1.2.2 tx.call .unit
        (s.1.2.1.deposited id a n, t.1.2.2) := hc ▸ .deposit auth vacant hs.token moved
    refine Machine.beside_inl_ok.mpr ⟨.inr .unit, ?_, by rw [ht], rfl⟩
    refine Machine.beside_inr_ok.mpr ⟨.unit, ?_, by rw [ht], rfl⟩
    rw [ht]
    exact EscrowContract.machine_ok.mpr hstep

/-- The calls of a run that count. -/
def heard (ts : List (Traffic sdk tok)) : List (Network.Label tok) :=
  (ts.filter Traffic.counts).filterMap Traffic.label

theorem heard_filter (documented : sdk.Documented) {sites : Network.Sites}
    (nobody : ∀ k, sdk.strKey (sdk.publicKey k) ≠ some sites.trade)
    (ts : List (Traffic sdk tok)) :
    (heard ts).filter (fun l => !Network.hollow sites l) =
      (ts.filterMap Traffic.label).filter (fun l => !Network.hollow sites l) := by
  induction ts with
  | nil => rfl
  | cons t ts ih =>
    unfold heard at ih
    unfold heard
    cases hcounts : t.counts with
    | true =>
      rw [List.filter_cons_of_pos hcounts]
      cases hl : t.label with
      | none => rw [List.filterMap_cons_none hl, List.filterMap_cons_none hl, ih]
      | some l =>
        rw [List.filterMap_cons_some hl, List.filterMap_cons_some hl, List.filter_cons,
          List.filter_cons, ih]
    | false =>
      rw [List.filter_cons_of_neg (by simp [hcounts]), ih]
      cases hl : t.label with
      | none => rw [List.filterMap_cons_none hl]
      | some l =>
        have hhollow := idle_traffic documented nobody hcounts hl
        rw [List.filterMap_cons_some hl, List.filter_cons_of_neg (by simp [hhollow])]

/-- Whatever the two clients send among all other calls, it is only deposits
that count. Without their other requests, and without what is done through the
bank's client, the run ends in the same state. Each deposit that is read asks for
what it was told to, from the account of its key. It is accepted if there is no
entry for the trade and the token makes the transfer, and then does just that. -/
theorem only_deposits_count (documented : sdk.Documented) {sites : Network.Sites}
    (nobody : ∀ k, sdk.strKey (sdk.publicKey k) ≠ some sites.trade) (admin : Address)
    (ledger : tok.Ledger) (ts : List (Traffic sdk tok)) :
    (Network.machine tok sites).run (Network.deployed sites admin ledger) (heard ts) =
        (Network.machine tok sites).run (Network.deployed sites admin ledger)
          (ts.filterMap Traffic.label) ∧
      ∀ tradeId amount source key sequence (l : Network.Label tok),
        (⟨.depositEscrow tradeId amount source, key, sequence⟩ : Submission sdk).label = some l →
        ∃ tx id a n, l = .inl (.inr (.call tx)) ∧
          Deposits sdk tradeId amount source tx.call id a n ∧
          ∀ before r t,
            (Network.machine tok sites).exec l
                ((Network.machine tok sites).run (Network.deployed sites admin ledger) before) =
                .ok (r, t) ↔
              r = .inl (.inr .unit) ∧ PutsIn sites id a n
                ((Network.machine tok sites).run (Network.deployed sites admin ledger) before)
                t := by
  have hstart := Network.deployed_configured sites admin ledger
  refine ⟨?_, ?_⟩
  · exact ((Network.hollow_restrict sites admin).noninterference hstart
      (heard_filter documented nobody ts)).2
  · intro tradeId amount source key sequence l hl
    obtain ⟨op, call, hop, hcall, rfl⟩ := label_eq_some.mp hl
    obtain ⟨c, id, a, n, rfl, hdeposits⟩ := deposit_decoded documented hop hcall
    have auth : (sdk.strKey (sdk.publicKey source) == some a) = true :=
      beq_iff_eq.mpr hdeposits.depositor
    refine ⟨_, id, a, n, rfl, hdeposits, ?_⟩
    intro before r t
    exact deposit_accepted (Network.run_configured hstart before) hdeposits.call auth

/-- A deposit, and what comes to nothing. -/
def loneTraffic : List (Traffic loneSdk plainToken) :=
  [.bank (.confirmLc 1),
   .client ⟨.signDocument ⟨1, .billOfLading, loneKey⟩, (), 3⟩,
   .client ⟨.depositEscrow 1 500 (), (), 4⟩,
   .client ⟨.checkAndRelease 1, (), 5⟩]

theorem lone_deposit_counts :
    (Network.machine plainToken Network.testSites).run
        (Network.deployed Network.testSites (.account 9) fun _ _ => 1000) (heard loneTraffic) =
      (Network.machine plainToken Network.testSites).run
        (Network.deployed Network.testSites (.account 9) fun _ _ => 1000)
        (loneTraffic.filterMap Traffic.label) := by
  refine (only_deposits_count lone_sdk_documented ?_ (.account 9) _ loneTraffic).1
  intro k h
  have hlone : loneStrKey loneKey = some Network.testSites.trade := h
  cases (lone_str_key.mp hlone).2

end AzakaClient
end Azaka
