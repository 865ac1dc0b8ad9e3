import Azaka.Library.Success
import Azaka.Proofs.NetworkRuns
import Mathlib.Data.List.Dedup

namespace Azaka
open Keyed Stepwise

/-- These calls, in this order, with all authorisations mocked. -/
def Mocked {κ : Type} (txs : List (Tx κ)) (calls : List κ) : Prop :=
  List.Forall₂ (fun tx call => tx.call = call ∧ ∀ a, tx.auth a = true) txs calls

/-- What the parties of a trade agree on. -/
structure Deal where
  params : CreateTradeParams
  confirmingBank : Address
  docHash : DocumentType → BytesN 32
  metadataUri : DocumentType → String
  signer : DocumentType → Address

namespace TradeContract

def settlementCalls (deal : Deal) (id : UInt64) : List Call :=
  [.createTrade deal.params, .confirmTrade id deal.confirmingBank, .markEscrowDeposited id,
    .settleTrade id]

/-- The record once the confirming bank has confirmed. -/
def confirmed (deal : Deal) (id : UInt64) (env : Env) : Trade :=
  { opened env deal.params id with
    confirmingBank := some deal.confirmingBank
    status := .active }

/-- The record in the end. -/
def concluded (deal : Deal) (id : UInt64) (env : Env) : Trade :=
  { confirmed deal id env with status := .settled }

/-- The contract in the end, the trade opened in this environment. -/
def State.concluded (s : State) (deal : Deal) (env : Env) : State :=
  let id := s.counter + 1
  { s with
    tradeCounter := some id
    trades := s.trades.set id (TradeContract.concluded deal id env)
    exporterTrades := s.exporterTrades.set deal.params.exporter
      (listTradesByExporter deal.params.exporter s ++ [id])
    events := s.events ++ [.create id (opened env deal.params id), .confirm id deal.confirmingBank,
      .escrow id, .settle id deal.params.exporter] }

variable (self : Address)

theorem call_ok {tx : Tx Call} {c : Call} {s t : State} {r : Return} (hc : tx.call = c)
    (h : Step (tx.env self) s c r t) : (machine self).exec tx s = .ok (r, t) :=
  machine_ok.mpr (hc ▸ h)

theorem settlement_succeeds {s : State} {escrow : Address} (hs : s.escrowContract = some escrow)
    (room : s.counter.toNat + 1 < 2 ^ 64) (deal : Deal) {txs : List (Tx Call)}
    (h : Mocked txs (settlementCalls deal (s.counter + 1))) :
    ∃ tx ∈ txs, tx.call = .createTrade deal.params ∧
      (machine self).Succeeds s txs (s.concluded deal (tx.env self)) := by
  obtain _ | @⟨create, _, _, _, ⟨hcreate, hbank⟩, _ | @⟨confirm, _, _, _, ⟨hconfirm, hconfirmer⟩,
    _ | @⟨mark, _, _, _, ⟨hmark, hescrow⟩, _ | @⟨settle, _, _, _, ⟨hsettle, -⟩, ⟨⟩⟩⟩⟩⟩ := h
  let id := s.counter + 1
  let env := create.env self
  let marked : Trade := { confirmed deal id env with status := .documentsPending }
  let s₁ := s.created env deal.params
  let s₂ := s₁.edited id (confirmed deal id env) (.confirm id deal.confirmingBank)
  let s₃ := s₂.edited id marked (.escrow id)
  let s₄ := s₃.edited id (concluded deal id env) (.settle id deal.params.exporter)
  have hopened : s₁.trades id = some (opened env deal.params id) := Store.set_same _ _ _
  have hconfirmed : s₂.trades id = some (confirmed deal id env) := Store.set_same _ _ _
  have hmarked : s₃.trades id = some marked := Store.set_same _ _ _
  have h₁ : (machine self).exec create s = .ok (.tradeId id, s₁) :=
    call_ok self hcreate (.create (hbank _) room)
  have h₂ : (machine self).exec confirm s₁ = .ok (.unit, s₂) :=
    call_ok self hconfirm (.edit hopened (.confirm (hconfirmer _) rfl))
  have h₃ : (machine self).exec mark s₂ = .ok (.unit, s₃) :=
    call_ok self hmark (.edit hconfirmed (.mark hs (hescrow _) rfl))
  have h₄ : (machine self).exec settle s₃ = .ok (.unit, s₄) :=
    call_ok self hsettle (.edit hmarked (.settle rfl))
  have hlast : s₄ = s.concluded deal env := by
    simp [s₁, s₂, s₃, s₄, State.edited, State.created, State.concluded, Store.set_set, id]
  exact ⟨create, by simp, hcreate, hlast ▸ .cons h₁ (.cons h₂ (.cons h₃ (.cons h₄ .nil)))⟩

end TradeContract

namespace EscrowContract

def paymentCalls (deal : Deal) (id : UInt64) : List Call :=
  [.deposit id deal.params.importer deal.params.amount, .release id deal.params.exporter]

variable {tok : Token} (self : Address)

theorem call_ok {tx : Tx Call} {c : Call} {w v : World tok} {r : Return} (hc : tx.call = c)
    (h : Step (tx.env self) w.1 w.2 c r v) : (machine tok self).exec (.call tx) w = .ok (r, v) :=
  machine_ok.mpr (hc ▸ h)

/-- The money goes through the escrow. Whoever pays and whoever is paid, nothing
is left of it there but the two events, and only the two balances have changed. -/
theorem payment_succeeds {token trade : Address} (std : tok.Standard token) {w : World tok}
    (htrade : w.1.tradeContract = some trade) (htoken : w.1.tokenContract = some token)
    {id : UInt64} (vacant : w.1.balances id = none) {payer : Address} {amount : I128}
    (hpos : 0 ≤ amount.toInt) (hfunds : amount.toInt ≤ tok.balance w.2 token payer)
    (kind : Payout) {payee : Address} {txs : List (Tx Call)}
    (h : Mocked txs [.deposit id payer amount, kind.call id payee]) :
    ∃ v, (machine tok self).Succeeds w (txs.map .call) v ∧
      v.1 = { w.1 with
        events := w.1.events ++ [.deposit id payer amount, kind.event id payee amount] } ∧
      ∀ c, tok.balance v.2 token c = tok.balance w.2 token c
        - (if c = payer then amount.toInt else 0) + (if c = payee then amount.toInt else 0) := by
  obtain _ | @⟨deposit, _, _, _, ⟨hdeposit, hpayer⟩, _ | @⟨payOut, _, _, _,
    ⟨hpayout, harbiter⟩, ⟨⟩⟩⟩ := h
  obtain ⟨l₁, hin⟩ := Option.isSome_iff_exists.mp
    ((std.accepts w.2 payer self amount).mpr ⟨hpos, hfunds⟩)
  have hmoved := std.moves _ _ _ _ _ hin
  -- the escrow may itself be the payer
  have hheld : amount.toInt ≤ tok.balance l₁ token self := by
    have hself := hmoved self
    have hnonneg := std.nonneg w.2 self
    rw [if_pos rfl] at hself
    split at hself
    · rename_i he
      rw [← he] at hfunds
      omega
    · omega
  obtain ⟨l₂, hout⟩ := Option.isSome_iff_exists.mp
    ((std.accepts l₁ self payee amount).mpr ⟨hpos, hheld⟩)
  have found : (w.1.deposited id payer amount).balances id = some amount := Store.set_same _ _ _
  have h₁ : (machine tok self).exec (.call deposit) w =
      .ok (.unit, (w.1.deposited id payer amount, l₁)) :=
    call_ok self hdeposit (.deposit (hpayer _) vacant htoken hin)
  have h₂ : (machine tok self).exec (.call payOut) (w.1.deposited id payer amount, l₁) =
      .ok (.unit, ((w.1.deposited id payer amount).paid id (kind.event id payee amount), l₂)) :=
    call_ok self hpayout (.payOut kind htrade (harbiter _) found htoken hout)
  refine ⟨_, .cons h₁ (.cons h₂ .nil), ?_, ?_⟩
  · simp [State.paid, State.deposited, Store.remove_set vacant]
  intro c
  have hfirst := hmoved c
  have hsecond := std.moves _ _ _ _ _ hout c
  simp only
  omega

end EscrowContract

namespace DocumentContract

def collectionCalls (deal : Deal) (id : UInt64) (docs : List DocumentType) : List Call :=
  docs.flatMap fun d =>
    [.submitDocument id d (deal.docHash d) (deal.metadataUri d), .signDocument id d (deal.signer d)]

/-- A document of the deal in the end. -/
def collected (self : Address) (deal : Deal) (id : UInt64) (d : DocumentType) : Document where
  tradeId := id
  docType := d
  docHash := deal.docHash d
  metadataUri := deal.metadataUri d
  submitter := self
  signers := [self, deal.signer d]
  verified := true
  requiredSignatures := 2

def collectionEvents (self : Address) (deal : Deal) (id : UInt64) (docs : List DocumentType) :
    List DocumentEvent :=
  docs.flatMap fun d =>
    [.subDoc id d self (deal.docHash d) (deal.metadataUri d), .signDoc id d (deal.signer d),
      .verDoc id d]

/-- These documents of the deal are there in the end, and nothing else is new. -/
structure Gathered (site : Address) (deal : Deal) (id : UInt64) (docs : List DocumentType)
    (s t : State) : Prop where
  registry : t.registryContract = s.registryContract
  thresholds : t.requiredSignatures = s.requiredSignatures
  documents : ∀ d ∈ docs, t.documents (id, d) = some (collected site deal id d)
  others : ∀ k, (∀ d ∈ docs, k ≠ (id, d)) → t.documents k = s.documents k
  events : t.events = s.events ++ collectionEvents site deal id docs

variable (self : Address)

theorem call_ok {tx : Tx Call} {c : Call} {s t : State} {r : Return} (hc : tx.call = c)
    (h : Step (tx.env self) s c r t) : (machine self).exec tx s = .ok (r, t) :=
  machine_ok.mpr (hc ▸ h)

/-- One document is submitted and signed by somebody else. -/
theorem document_succeeds (deal : Deal) {s : State} (hs : s.TwoEach) {id : UInt64}
    {d : DocumentType} (absent : s.documents (id, d) = none) (apart : deal.signer d ≠ self)
    {submit sign : Tx Call}
    (hsubmit : submit.call = .submitDocument id d (deal.docHash d) (deal.metadataUri d))
    (hsign : sign.call = .signDocument id d (deal.signer d))
    (auth : sign.auth (deal.signer d) = true) :
    (machine self).Succeeds s [submit, sign]
      (s.put (id, d) (collected self deal id d) (collectionEvents self deal id [d])) := by
  let first := submitted (submit.env self) s id d (deal.docHash d) (deal.metadataUri d)
  let s₁ := s.put (id, d) first [.subDoc id d self (deal.docHash d) (deal.metadataUri d)]
  have h₁ : (machine self).exec submit s = .ok (.unit, s₁) :=
    call_ok self hsubmit (.submit absent)
  have found : s₁.documents (id, d) = some first := Store.set_same _ _ _
  have hunsigned : deal.signer d ∉ first.signers := by
    simpa [first, submitted, Tx.env] using apart
  have hsigned : first.sign (deal.signer d) = collected self deal id d := by
    simp [first, Document.sign, submitted, collected, hs d, Tx.env]
  have h₂ := call_ok self hsign (.sign auth found hunsigned)
  have hlast : s₁.put (id, d) (collected self deal id d)
      (signEvents id d (deal.signer d) true) =
      s.put (id, d) (collected self deal id d) (collectionEvents self deal id [d]) := by
    simp [s₁, State.put, Store.set_set, collectionEvents, signEvents]
  rw [hsigned] at h₂
  exact hlast ▸ .cons h₁ (.cons h₂ .nil)

/-- All documents of the list are verified in the end. -/
theorem collection_succeeds (deal : Deal) (id : UInt64) {docs : List DocumentType}
    (hdocs : docs.Nodup) (apart : ∀ d ∈ docs, deal.signer d ≠ self) {s : State}
    (hs : s.TwoEach)
    (absent : ∀ d ∈ docs, s.documents (id, d) = none) {txs : List (Tx Call)}
    (h : Mocked txs (collectionCalls deal id docs)) :
    ∃ t, (machine self).Succeeds s txs t ∧ Gathered self deal id docs s t := by
  induction docs generalizing s txs with
  | nil =>
    obtain _ | ⟨⟩ := h
    exact ⟨s, .nil, rfl, rfl, by simp, fun _ _ => rfl, by simp [collectionEvents]⟩
  | cons d docs ih =>
    obtain _ | @⟨submit, _, _, _, ⟨hsubmit, -⟩, _ | @⟨sign, _, txs, _, ⟨hsign, hauth⟩, hrest⟩⟩ := h
    obtain ⟨hnew, hnodup⟩ := List.nodup_cons.mp hdocs
    have hfirst := document_succeeds self deal hs (absent d (by simp)) (apart d (by simp)) hsubmit
      hsign (hauth _)
    let u := s.put (id, d) (collected self deal id d) (collectionEvents self deal id [d])
    have hfree : ∀ e ∈ docs, u.documents (id, e) = none := by
      intro e he
      have hne : (id, e) ≠ (id, d) := fun h => hnew ((Prod.mk.inj h).2 ▸ he)
      exact (Store.set_of_ne hne).trans (absent e (by simp [he]))
    obtain ⟨t, hsucceeds, hgathered⟩ := ih hnodup (fun e he => apart e (by simp [he]))
      (s := u) hs hfree hrest
    refine ⟨t, hfirst.append hsucceeds, hgathered.registry, hgathered.thresholds, ?_, ?_, ?_⟩
    · intro e he
      rcases List.mem_cons.mp he with rfl | he
      · have hsame := hgathered.others (id, e) (fun e' he' h => hnew ((Prod.mk.inj h).2 ▸ he'))
        exact hsame.trans (Store.set_same _ _ _)
      · exact hgathered.documents e he
    · intro k hk
      rw [hgathered.others k (fun e he => hk e (by simp [he]))]
      exact Store.set_of_ne (hk d (by simp))
    · rw [hgathered.events]
      simp [u, State.put, collectionEvents]

end DocumentContract

namespace Network
variable {tok : Token} {sites : Sites} {admin : Address}

/-- The next trade id is free, nobody has deposited for it, and the importer has
the money. -/
structure Open (sites : Sites) (deal : Deal) (s : State tok) : Prop where
  room : s.1.1.counter.toNat + 1 < 2 ^ 64
  vacant : s.1.2.1.balances (s.1.1.counter + 1) = none
  positive : 0 ≤ deal.params.amount.toInt
  funds : deal.params.amount.toInt ≤ tok.balance s.1.2.2 sites.token deal.params.importer

/-- Nobody has submitted a document for the next trade, and those who are to
sign are not the contract, which signs by submitting. -/
structure Blank (sites : Sites) (deal : Deal) (s : State tok) : Prop where
  absent : ∀ d ∈ deal.params.requiredDocs, s.2.1.documents (s.1.1.counter + 1, d) = none
  apart : ∀ d ∈ deal.params.requiredDocs, deal.signer d ≠ sites.document

/-- The calls of the deal, those on each contract in their order and the
contracts in any order, with all authorisations mocked. -/
structure Carries (deal : Deal) (id : UInt64) (ls : List (Label tok)) : Prop where
  trade : Mocked (trades ls) (TradeContract.settlementCalls deal id)
  escrow : ∃ txs, escrows ls = txs.map .call ∧ Mocked txs (EscrowContract.paymentCalls deal id)
  document : Mocked (documents ls)
    (DocumentContract.collectionCalls deal id deal.params.requiredDocs.dedup)
  registry : registries ls = []

/-- The trade is settled on the terms of the deal, its documents are verified,
it is on the exporter's list, and the money is with the exporter. Nothing else
has changed in the four contracts, nor any other balance of the token. -/
structure Concluded (sites : Sites) (deal : Deal) (env : Env) (s t : State tok) : Prop where
  trade : t.1.1 = s.1.1.concluded deal env
  escrow : t.1.2.1 = { s.1.2.1 with
    events := s.1.2.1.events ++
      [.deposit (s.1.1.counter + 1) deal.params.importer deal.params.amount,
        .release (s.1.1.counter + 1) deal.params.exporter deal.params.amount] }
  paid : ∀ c, tok.balance t.1.2.2 sites.token c = tok.balance s.1.2.2 sites.token c
    - (if c = deal.params.importer then deal.params.amount.toInt else 0)
    + (if c = deal.params.exporter then deal.params.amount.toInt else 0)
  gathered : DocumentContract.Gathered sites.document deal (s.1.1.counter + 1)
    deal.params.requiredDocs.dedup s.2.1 t.2.1
  verified : DocumentContract.allDocsVerified (s.1.1.counter + 1) deal.params.requiredDocs
    t.2.1 = true
  participants : t.2.2 = s.2.2

/-- Every letter of credit can be carried out in a test that mocks all
authorisations. Whatever happened before, as long as ids are left, nobody has
used the next one for a deposit or a document, the importer can pay and those
who sign are not the document contract, all calls succeed in every order that
keeps those on each contract in sequence, and the exporter is paid. -/
theorem lifecycle_completes (std : tok.Standard sites.token) (ledger : tok.Ledger)
    (before : List (Label tok)) {deal : Deal}
    (hopen : Open sites deal ((machine tok sites).run (deployed sites admin ledger) before))
    (hblank : Blank sites deal ((machine tok sites).run (deployed sites admin ledger) before))
    {ls : List (Label tok)}
    (h : Carries deal
      (((machine tok sites).run (deployed sites admin ledger) before).1.1.counter + 1) ls) :
    (machine tok sites).Along (machine tok sites).Accepts
        ((machine tok sites).run (deployed sites admin ledger) before) ls ∧
      ∃ tx ∈ trades ls, tx.call = .createTrade deal.params ∧
        Concluded sites deal (tx.env sites.trade)
          ((machine tok sites).run (deployed sites admin ledger) before)
          ((machine tok sites).run (deployed sites admin ledger) (before ++ ls)) := by
  have hconf := run_configured (deployed_configured sites admin ledger) before
  rw [Machine.run_append]
  generalize (machine tok sites).run (deployed sites admin ledger) before = s at *
  obtain ⟨tx, hmem, hcreate, htrade⟩ :=
    TradeContract.settlement_succeeds sites.trade hconf.escrow hopen.room deal h.trade
  obtain ⟨txs, hescrows, htxs⟩ := h.escrow
  obtain ⟨v, hpayment, hentries, hpaid⟩ := EscrowContract.payment_succeeds sites.escrow std
    hconf.trade hconf.token hopen.vacant hopen.positive hopen.funds .release htxs
  obtain ⟨u, hcollection, hgathered⟩ := DocumentContract.collection_succeeds
    sites.document deal _ (List.nodup_dedup _)
    (fun d hd => hblank.apart d (List.mem_dedup.mp hd)) hconf.thresholds
    (fun d hd => hblank.absent d (List.mem_dedup.mp hd)) h.document
  have hregistry :
      (RegistryContract.machine sites.registry).Succeeds s.2.2 (registries ls) s.2.2 := by
    rw [h.registry]
    exact .nil
  have hescrow : (EscrowContract.machine tok sites.escrow).Succeeds s.1.2 (escrows ls) v :=
    hescrows ▸ hpayment
  have hsucceeds : (machine tok sites).Succeeds s ls
      ((s.1.1.concluded deal (tx.env sites.trade), v), u, s.2.2) :=
    .beside (.beside htrade hescrow) (.beside hcollection hregistry)
  refine ⟨hsucceeds.accepts, tx, hmem, hcreate, ?_⟩
  rw [hsucceeds.run_eq]
  refine ⟨rfl, hentries, hpaid, hgathered, ?_, rfl⟩
  refine DocumentContract.all_docs_verified_iff.mpr ?_
  intro d hd
  have found := hgathered.documents d (List.mem_dedup.mpr hd)
  simp [DocumentContract.verifyDocument, found, DocumentContract.collected]

/-- A call in a test that mocks all authorisations. -/
def mocked {κ : Type} (sequence : UInt32) (call : κ) : Tx κ where
  auth _ := true
  sequence := sequence
  call := call

def testDeal : Deal where
  params := { TradeContract.letterOfCredit with
    requiredDocs := [.billOfLading, .inspectionCertificate] }
  confirmingBank := .account 8
  docHash _ := Vector.replicate 32 1
  metadataUri _ := "ipfs://QmBillOfLading123"
  signer _ := .account 9

/-- The bill of lading is submitted before the trade is confirmed, and the
inspection certificate after the money has been released. -/
def testRun : List (Label plainToken) :=
  [.inl (.inl (mocked 1 (.createTrade testDeal.params))),
   .inr (.inl (mocked 1 (.submitDocument 1 .billOfLading (Vector.replicate 32 1)
     "ipfs://QmBillOfLading123"))),
   .inl (.inr (.call (mocked 2 (.deposit 1 (.account 2) 500)))),
   .inl (.inl (mocked 2 (.confirmTrade 1 (.account 8)))),
   .inl (.inl (mocked 3 (.markEscrowDeposited 1))),
   .inr (.inl (mocked 4 (.signDocument 1 .billOfLading (.account 9)))),
   .inl (.inl (mocked 5 (.settleTrade 1))),
   .inl (.inr (.call (mocked 6 (.release 1 (.account 1))))),
   .inr (.inl (mocked 7 (.submitDocument 1 .inspectionCertificate (Vector.replicate 32 1)
     "ipfs://QmBillOfLading123"))),
   .inr (.inl (mocked 8 (.signDocument 1 .inspectionCertificate (.account 9))))]

theorem test_run_completes :
    ∃ tx ∈ trades testRun, tx.call = .createTrade testDeal.params ∧
      Concluded testSites testDeal (tx.env testSites.trade)
        (deployed testSites (.account 0) EscrowContract.funded)
        ((machine plainToken testSites).run
          (deployed testSites (.account 0) EscrowContract.funded) testRun) := by
  have hdocs : testDeal.params.requiredDocs.dedup = [.billOfLading, .inspectionCertificate] := by
    decide
  refine (lifecycle_completes (plain_token_standard _) EscrowContract.funded [] ?_ ?_ ?_).2
  · exact ⟨by decide, rfl, by decide, by decide⟩
  · exact ⟨fun _ _ => rfl, by decide⟩
  · refine ⟨?_, ?_, ?_, rfl⟩
    · exact .cons ⟨rfl, fun _ => rfl⟩ (.cons ⟨rfl, fun _ => rfl⟩ (.cons ⟨rfl, fun _ => rfl⟩
        (.cons ⟨rfl, fun _ => rfl⟩ .nil)))
    · exact ⟨[mocked 2 (.deposit 1 (.account 2) 500), mocked 6 (.release 1 (.account 1))], rfl,
        .cons ⟨rfl, fun _ => rfl⟩ (.cons ⟨rfl, fun _ => rfl⟩ .nil)⟩
    · rw [hdocs]
      exact .cons ⟨rfl, fun _ => rfl⟩ (.cons ⟨rfl, fun _ => rfl⟩ (.cons ⟨rfl, fun _ => rfl⟩
        (.cons ⟨rfl, fun _ => rfl⟩ .nil)))

end Network
end Azaka
