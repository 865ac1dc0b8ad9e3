import Azaka.Library.Clock
import Azaka.Model.Audit
import Azaka.Proofs.IndexerReplay
import Azaka.Proofs.TradeRecords

namespace Azaka
open Keyed Stepwise

namespace TradeContract

/-- The auditor knows the records, and has been told of no ledger that is still
to come. -/
structure Informed (w : State × UInt32) (a : Audit.Trades) : Prop where
  configured : w.1.escrowContract.isSome = true
  records : a.records = w.1.records
  last : a.last = w.1.counter
  reached : a.reached ≤ w.2

/-- The clock stands at the latest ledger the auditor has been told of. -/
structure Current (escrow : Address) (w : State × UInt32) (a : Audit.Trades) : Prop where
  configured : w.1.escrowContract = some escrow
  records : a.records = w.1.records
  last : a.last = w.1.counter
  reached : a.reached = w.2

theorem told_le {a b c : UInt32} : max a b ≤ c ↔ a ≤ c ∧ b ≤ c := by
  have hmax : max a b = if a ≤ b then b else a := rfl
  rw [hmax]
  split
  case isTrue hle => exact ⟨fun h => ⟨UInt32.le_trans hle h, h⟩, fun h => h.2⟩
  case isFalse hle =>
    have hge : b ≤ a := (UInt32.le_total a b).resolve_left hle
    exact ⟨fun h => ⟨h, UInt32.le_trans hge h⟩, fun h => h.1⟩

theorem told_nothing (now : UInt32) : max now 0 = now :=
  UInt32.le_antisymm (told_le.mpr ⟨UInt32.le_refl _, UInt32.zero_le⟩)
    (told_le.mp (UInt32.le_refl _)).1

theorem creation_admitted {a : Audit.Trades} {env : Env} {p : CreateTradeParams}
    (room : a.last.toNat + 1 < 2 ^ 64) (hle : a.reached ≤ env.sequence) :
    Audit.trades.admits a (.create (a.last + 1) (opened env p (a.last + 1))) = true := by
  simpa [Audit.trades, Audit.admitsTrade, opened] using And.intro room hle

theorem Edit.admitted {env : Env} {escrow : Option Address} {c : Call} {id : UInt64}
    {trade trade' : Trade} {event : TradeEvent} (h : Edit env escrow c id trade trade' event)
    {a : Audit.Trades} (found : a.records.trades id = some trade) :
    Audit.trades.admits a event = true := by
  cases h <;> simp_all [Audit.trades, Audit.admitsTrade]

/-- An edit announces no id, and tells of no ledger later than its own. -/
theorem Edit.applied {env : Env} {escrow : Option Address} {c : Call} {id : UInt64}
    {trade trade' : Trade} {event : TradeEvent} (h : Edit env escrow c id trade trade' event)
    {s : State} (found : s.trades id = some trade) {a : Audit.Trades}
    (hrecords : a.records = s.records) :
    (Audit.trades.apply a event).records = (s.edited id trade' event).records ∧
      (Audit.trades.apply a event).last = a.last ∧
      Audit.told a.records event ≤ env.sequence := by
  have hreplayed := h.replayed (r := s.records) found
  refine ⟨?_, ?_, ?_⟩
  · rw [← hrecords] at hreplayed
    exact hreplayed.trans (by rw [hrecords]; rfl)
  · cases h <;> rfl
  · have hstored : a.records.trades id = some trade := by
      rw [hrecords]
      exact found
    cases h with
    | expire due _ => simpa [Audit.told, hstored] using due
    | confirm _ _ | mark _ _ _ | cancel _ _ _ | settle _ => exact UInt32.zero_le

variable {self : Address}

theorem Step.informed {tx : Tx Call} {s t : State} {now : UInt32} {a : Audit.Trades} {r : Return}
    (h : Step (tx.env self) s tx.call r t) (hle : now ≤ tx.sequence) (hs : Informed (s, now) a) :
    ∃ b es, Informed (t, tx.sequence) b ∧ t.events = s.events ++ es ∧
      ∀ rest, Audit.trades.passes a (es ++ rest) = Audit.trades.passes b rest := by
  have hreached : a.reached ≤ tx.sequence := UInt32.le_trans hs.reached hle
  obtain ⟨hconfigured, hrecords, hlast, -⟩ := hs
  generalize tx.call = c at h
  cases h with
  | init unset =>
    have hset : s.escrowContract.isSome = true := hconfigured
    simp [unset] at hset
  | @create p _ room =>
    rw [← show a.last = s.counter from hlast] at room
    refine ⟨Audit.trades.apply a (.create (a.last + 1) (opened (tx.env self) p (a.last + 1))),
      [_], ⟨hconfigured, ?_, ?_, ?_⟩, ?_, Auditor.passes_one (creation_admitted room hreached) rfl⟩
    · simp only [Audit.trades, hrecords, hlast]
      rfl
    · simp only [Audit.trades, hlast]
      rfl
    · exact told_le.mpr ⟨hreached, UInt32.le_refl _⟩
    · rw [hlast]
      rfl
  | @edit _ id trade trade' event found edit =>
    obtain ⟨hrecords', hlast', htold⟩ := edit.applied found hrecords
    have hstored : a.records.trades id = some trade := by
      rw [hrecords]
      exact found
    exact ⟨Audit.trades.apply a event, [event],
      ⟨hconfigured, hrecords', hlast'.trans hlast, told_le.mpr ⟨hreached, htold⟩⟩, rfl,
      Auditor.passes_one (edit.admitted hstored) rfl⟩
  | get _ | list =>
    exact ⟨a, [], ⟨hconfigured, hrecords, hlast, hreached⟩, by simp, fun _ => rfl⟩

theorem sound :
    Audit.trades.Sound ((machine self).clocked Tx.sequence) (fun w => w.1.events) Informed where
  closed _ _ _ := rfl
  step w a tx r v h hw := by
    obtain ⟨hle, hlater, hexec⟩ := Machine.clocked_ok.mp h
    rw [show v = (v.1, tx.sequence) from Prod.ext rfl hlater]
    exact (machine_ok.mp hexec).informed hle hw

variable {escrow : Address}

/-- A call that edits a record as the next event says is the call to make, at
the latest ledger told of. -/
theorem Edit.begins {tx : Tx Call} {s : State} {now : UInt32} {a : Audit.Trades} {id : UInt64}
    {trade trade' : Trade} {event : TradeEvent} {es : List TradeEvent}
    (hs : Current escrow (s, now) a) (found : a.records.trades id = some trade)
    (h : Edit (tx.env self) s.escrowContract tx.call id trade trade' event)
    (htx : max now (Audit.told a.records event) = tx.sequence)
    (hpass : Audit.trades.passes a (event :: es) = true) :
    Audit.trades.Begins ((machine self).clocked Tx.sequence) (fun w => w.1.events)
      (Current escrow) (s, now) (event :: es) := by
  obtain ⟨hconfigured, hrecords, hlast, hreached⟩ := hs
  rw [hrecords] at found
  obtain ⟨hrecords', hlast', -⟩ := h.applied found hrecords
  have hle : now ≤ tx.sequence := htx ▸ (told_le.mp (UInt32.le_refl _)).1
  refine Auditor.realised
    (Machine.clocked_ok.mpr ⟨hle, rfl, machine_ok.mpr (.edit found h)⟩) ?_ rfl hpass
  refine ⟨hconfigured, hrecords', hlast'.trans hlast, ?_⟩
  simp only [Audit.trades, hreached]
  exact htx

theorem begins_create {s : State} {now : UInt32} {a : Audit.Trades} {id : UInt64} {trade : Trade}
    {es : List TradeEvent} (hs : Current escrow (s, now) a)
    (hpass : Audit.trades.passes a (.create id trade :: es) = true) :
    Audit.trades.Begins ((machine self).clocked Tx.sequence) (fun w => w.1.events)
      (Current escrow) (s, now) (.create id trade :: es) := by
  obtain ⟨hconfigured, hrecords, hlast, hreached⟩ := hs
  have hadmits := (Bool.and_eq_true_iff.mp hpass).1
  simp only [Audit.trades, Audit.admitsTrade, hlast, hreached, Bool.and_eq_true, beq_iff_eq,
    decide_eq_true_eq] at hadmits
  obtain ⟨⟨⟨⟨⟨room, rfl⟩, hid⟩, hbank⟩, hstatus⟩, hle⟩ := hadmits
  let p : CreateTradeParams := {
    exporter := trade.exporter
    importer := trade.importer
    issuingBank := trade.issuingBank
    stablecoinAsset := trade.stablecoinAsset
    amount := trade.amount
    requiredDocs := trade.requiredDocs
    expiryLedger := trade.expiryLedger }
  let tx : Tx Call := signed [trade.issuingBank] trade.createdLedger (.createTrade p)
  have hopened : opened (tx.env self) p (s.counter + 1) = trade := by
    cases trade
    simp_all [opened, p, tx, signed, Tx.env]
  have hexec : (machine self).exec tx s =
      .ok (.tradeId (s.counter + 1), s.created (tx.env self) p) :=
    machine_ok.mpr (.create (by simp [tx, p, signed, Tx.env]) room)
  refine Auditor.realised (Machine.clocked_ok.mpr ⟨hle, rfl, hexec⟩) ?_ ?_ hpass
  · refine ⟨hconfigured, ?_, rfl, ?_⟩
    · simp only [Audit.trades, hrecords, ← hopened]
      rfl
    · simp only [Audit.trades, hreached]
      exact UInt32.le_antisymm (told_le.mpr ⟨hle, UInt32.le_refl _⟩)
        (told_le.mp (UInt32.le_refl _)).2
  · simp only [← hopened]
    rfl

theorem complete :
    Audit.trades.Complete ((machine self).clocked Tx.sequence) (fun w => w.1.events)
      (Current escrow) where
  next w a e es hw hpass := by
    obtain ⟨s, now⟩ := w
    have hadmits := (Bool.and_eq_true_iff.mp hpass).1
    have hset : s.escrowContract = some escrow := hw.configured
    simp only [Audit.trades] at hadmits
    have quiet := told_nothing now
    cases e with
    | create id trade => exact begins_create hw hpass
    | confirm id bank =>
      obtain ⟨trade, found, hstatus⟩ := (Option.any_eq_true _ _).mp hadmits
      have hedit : Edit ((signed [bank] now (Call.confirmTrade id bank)).env self) s.escrowContract
          (.confirmTrade id bank) id trade _ _ :=
        .confirm (by simp [signed, Tx.env]) (by simpa using hstatus)
      exact hedit.begins hw found quiet hpass
    | escrow id =>
      obtain ⟨trade, found, hstatus⟩ := (Option.any_eq_true _ _).mp hadmits
      have hedit : Edit ((signed [escrow] now (Call.markEscrowDeposited id)).env self)
          s.escrowContract (.markEscrowDeposited id) id trade _ _ :=
        .mark hset (by simp [signed, Tx.env]) (by simpa using hstatus)
      exact hedit.begins hw found quiet hpass
    | cancel id caller =>
      obtain ⟨trade, found, hguards⟩ := (Option.any_eq_true _ _).mp hadmits
      simp only [Bool.and_eq_true, Bool.or_eq_true, beq_iff_eq] at hguards
      have hedit : Edit ((signed [caller] now (Call.cancelTrade id caller)).env self)
          s.escrowContract (.cancelTrade id caller) id trade _ _ :=
        .cancel (by simp [signed, Tx.env]) hguards.1 hguards.2
      exact hedit.begins hw found quiet hpass
    | expire id =>
      obtain ⟨trade, found, hstatus⟩ := (Option.any_eq_true _ _).mp hadmits
      -- the deadline may have passed, or be what the clock has to be set to
      have hedit : Edit ((signed [] (max now trade.expiryLedger) (Call.expireTrade id)).env self)
          s.escrowContract (.expireTrade id) id trade _ _ :=
        .expire (told_le.mp (UInt32.le_refl _)).2 (by simpa using hstatus)
      have htold : Audit.told a.records (.expire id) = trade.expiryLedger :=
        congrArg (Option.elim · 0 Trade.expiryLedger) found
      exact hedit.begins hw found (by rw [htold]; rfl) hpass
    | settle id exporter =>
      obtain ⟨trade, found, hguards⟩ := (Option.any_eq_true _ _).mp hadmits
      simp only [Bool.and_eq_true, beq_iff_eq] at hguards
      obtain ⟨hstatus, rfl⟩ := hguards
      have hedit : Edit ((signed [] now (Call.settleTrade id)).env self) s.escrowContract
          (.settleTrade id) id trade _ _ := .settle hstatus
      exact hedit.begins hw found quiet hpass

end TradeContract

namespace EscrowContract
variable {tok : Token} {token : Address}

/-- What the logs of the escrow rest on: it is configured with this token, and
holds no negative entry. -/
structure Working (token : Address) (w : World tok) : Prop where
  arbitrated : ∃ trade, w.1.tradeContract = some trade
  configured : w.1.tokenContract = some token
  nonneg : ∀ id n, w.1.balances id = some n → 0 ≤ n.toInt

theorem Working.deposited {w : World tok} (h : Working token w) {id : UInt64} {a : Address}
    {n : I128} (hn : 0 ≤ n.toInt) (l : tok.Ledger) :
    Working token (w.1.deposited id a n, l) := by
  refine ⟨h.arbitrated, h.configured, ?_⟩
  intro j m hm
  rcases Store.set_eq_some hm with ⟨-, rfl⟩ | ⟨-, hold⟩
  · exact hn
  · exact h.nonneg j m hold

theorem Working.paid {w : World tok} (h : Working token w) (id : UInt64) (e : EscrowEvent)
    (l : tok.Ledger) : Working token (w.1.paid id e, l) :=
  ⟨h.arbitrated, h.configured, fun j m hm => h.nonneg j m (Store.remove_eq_some hm).2⟩

theorem payout_admitted (kind : Payout) {r : Indexer.Balances} {id : UInt64} {a : Address}
    {n : I128} (found : r id = some n) :
    Audit.balances.admits r (kind.event id a n) = true := by
  cases kind <;> simp [Audit.balances, Audit.admitsTransfer, Payout.event, found]

theorem payout_applied (kind : Payout) (r : Indexer.Balances) (id : UInt64) (a : Address)
    (n : I128) : Audit.balances.apply r (kind.event id a n) = r.remove id := by
  cases kind <;> rfl

/-- The auditor knows the entries of a working escrow. -/
def Audited (token : Address) (w : World tok) (r : Indexer.Balances) : Prop :=
  Working token w ∧ r = w.1.balances

/-- Anybody can be given as much of the token as a deposit or a payout may take. -/
def Ample (tok : Token) (token : Address) : Prop :=
  ∀ (a : Address) (n : I128), ∃ l, n.toInt ≤ tok.balance l token a

section
variable (std : tok.Standard token) (self : Address)
include std

theorem sound :
    Audit.balances.Sound (machine tok self) (fun w => w.1.events) (Audited token) where
  closed _ _ _ := rfl
  step w r l result v h hknows := by
    obtain ⟨hw, rfl⟩ := hknows
    cases l with
    | token ledger =>
      cases h
      exact ⟨_, [], ⟨⟨hw.arbitrated, hw.configured, hw.nonneg⟩, rfl⟩, by simp, fun _ => rfl⟩
    | call tx =>
      have hstep := machine_ok.mp h
      generalize tx.call = c at hstep
      cases hstep with
      | init unset =>
        obtain ⟨trade, arbiter⟩ := hw.arbitrated
        simp [arbiter] at unset
      | deposit _ vacant configured moved =>
        rw [hw.configured] at configured
        obtain rfl := Option.some.inj configured
        have hn := ((std.accepts _ _ _ _).mp (Option.isSome_iff_exists.mpr ⟨_, moved⟩)).1
        refine ⟨_, [_], ⟨hw.deposited hn _, rfl⟩, rfl, Auditor.passes_one ?_ rfl⟩
        simp [Audit.balances, Audit.admitsTransfer, vacant, hn]
      | payOut kind _ _ found _ _ =>
        refine ⟨_, [_], ⟨hw.paid _ _ _, rfl⟩, rfl,
          Auditor.passes_one (payout_admitted kind found) ?_⟩
        rw [payout_applied]
        rfl
      | get => exact ⟨_, [], ⟨hw, rfl⟩, by simp, fun _ => rfl⟩

variable (ample : Ample tok token)
include ample

theorem begins_payout {w : World tok} (h : Working token w) (kind : Payout) {id : UInt64}
    {a : Address} {n : I128} {es : List EscrowEvent}
    (hpass : Audit.balances.passes w.1.balances (kind.event id a n :: es) = true) :
    Audit.balances.Begins (machine tok self) (fun w => w.1.events) (Audited token) w
      (kind.event id a n :: es) := by
  have found : w.1.balances id = some n := by
    have hadmits := (Bool.and_eq_true_iff.mp hpass).1
    cases kind <;> simpa [Audit.balances, Audit.admitsTransfer, Payout.event] using hadmits
  obtain ⟨trade, arbiter⟩ := h.arbitrated
  obtain ⟨l, hample⟩ := ample self n
  obtain ⟨l', moved⟩ := Option.isSome_iff_exists.mp
    ((std.accepts l self a n).mpr ⟨h.nonneg id n found, hample⟩)
  refine .after (l := .token l) rfl ?_
  refine Auditor.realised (l := .call (signed [trade] 0 (kind.call id a)))
    (machine_ok.mpr (.payOut kind arbiter (by simp [signed, Tx.env]) found h.configured moved))
    ⟨h.paid id _ l', (payout_applied kind _ id a n).symm ▸ rfl⟩ rfl hpass

theorem begins_deposit {w : World tok} (h : Working token w) {id : UInt64} {a : Address}
    {n : I128} {es : List EscrowEvent}
    (hpass : Audit.balances.passes w.1.balances (.deposit id a n :: es) = true) :
    Audit.balances.Begins (machine tok self) (fun w => w.1.events) (Audited token) w
      (.deposit id a n :: es) := by
  have hadmits := (Bool.and_eq_true_iff.mp hpass).1
  simp only [Audit.balances, Audit.admitsTransfer, Bool.and_eq_true, Option.isNone_iff_eq_none,
    decide_eq_true_eq] at hadmits
  obtain ⟨vacant, hn⟩ := hadmits
  obtain ⟨l, hample⟩ := ample a n
  obtain ⟨l', moved⟩ := Option.isSome_iff_exists.mp ((std.accepts l a self n).mpr ⟨hn, hample⟩)
  refine .after (l := .token l) rfl ?_
  exact Auditor.realised (l := .call (signed [a] 0 (.deposit id a n)))
    (machine_ok.mpr (.deposit (by simp [signed, Tx.env]) vacant h.configured moved))
    ⟨h.deposited hn l', rfl⟩ rfl hpass

theorem complete :
    Audit.balances.Complete (machine tok self) (fun w => w.1.events) (Audited token) where
  next w r e es hknows hpass := by
    obtain ⟨hw, rfl⟩ := hknows
    cases e with
    | deposit id a n => exact begins_deposit std self ample hw hpass
    | release id a n => exact begins_payout std self ample hw .release hpass
    | refund id a n => exact begins_payout std self ample hw .refund hpass

end

theorem plain_ample (token : Address) : Ample plainToken token :=
  fun _ n => ⟨fun _ _ => n.toInt.toNat, Int.self_le_toNat n.toInt⟩

def noFunds : plainToken.Ledger := fun _ _ => (0 : Nat)

end EscrowContract

namespace DocumentContract

/-- Every document asks for two signatures, whatever the configuration. -/
structure TwoSigned (s : State) : Prop where
  threshold : ∀ d, (s.requiredSignatures d).getD 2 = 2
  asked : ∀ k document, s.documents k = some document → document.requiredSignatures = 2

/-- What is known after the events so far, with no verification due. -/
def State.known (s : State) : Indexer.Documents × Option Key := (s.documents, none)

variable {self : Address}

theorem TwoSigned.put {s : State} (h : TwoSigned s) {k : Key} {document : Document}
    (hasked : document.requiredSignatures = 2) (events : List DocumentEvent) :
    TwoSigned (s.put k document events) := by
  refine ⟨h.threshold, ?_⟩
  intro j other hother
  rcases Store.set_eq_some hother with ⟨-, rfl⟩ | ⟨-, hold⟩
  · exact hasked
  · exact h.asked j other hold

theorem TwoSigned.signed {s : State} (h : TwoSigned s) {k : Key} {document : Document}
    (found : s.documents k = some document) (a : Address) (events : List DocumentEvent) :
    TwoSigned (s.put k (document.sign a) events) := by
  have hasked : (document.sign a).requiredSignatures = 2 := h.asked k document found
  exact h.put hasked events

theorem submission_passes {s : State} (h : TwoSigned s) {env : Env} (hself : env.current = self)
    {id : UInt64} {d : DocumentType} {hash : BytesN 32} {u : String}
    (absent : s.documents (id, d) = none) (rest : List DocumentEvent) :
    (Audit.documents self).passes s.known (.subDoc id d self hash u :: rest) =
      (Audit.documents self).passes
        (s.put (id, d) (submitted env s id d hash u) [.subDoc id d self hash u]).known rest := by
  have hrecord : (Audit.documents self).apply s.known (.subDoc id d self hash u) =
      (s.put (id, d) (submitted env s id d hash u) [.subDoc id d self hash u]).known := by
    simp [Audit.documents, State.known, Indexer.Documents.apply, Audit.due, State.put, submitted,
      h.threshold, hself]
  rw [Auditor.passes, hrecord]
  simp [Audit.documents, Audit.admitsDocument, State.known, absent]

/-- After a signature the document is due for verification when it is verified,
and nothing may come in between. -/
theorem signature_passes {s : State} (h : TwoSigned s) {id : UInt64} {d : DocumentType}
    {a : Address} {document : Document} (found : s.documents (id, d) = some document)
    (unsigned : a ∉ document.signers) (es : List DocumentEvent) :
    (Audit.documents self).passes s.known (.signDoc id d a :: es) = true ↔
      ∃ rest, .signDoc id d a :: es =
          signEvents id d a (document.sign a).verified ++ rest ∧
        (Audit.documents self).passes (s.put (id, d) (document.sign a)
          (signEvents id d a (document.sign a).verified)).known rest = true := by
  have hreplayed := sign_replayed found a
  have hdue : Audit.due (Indexer.Documents.apply s.documents (.signDoc id d a))
      (.signDoc id d a) = if (document.sign a).verified then some (id, d) else none := by
    have hasked := h.asked _ _ found
    simp [Audit.due, Indexer.Documents.apply, Store.amend_some _ found, Document.sign, hasked]
  have hadmits : (Audit.documents self).admits s.known (.signDoc id d a) = true := by
    simp [Audit.documents, Audit.admitsDocument, State.known, found, unsigned]
  have happly : (Audit.documents self).apply s.known (.signDoc id d a) =
      (Indexer.Documents.apply s.documents (.signDoc id d a),
        if (document.sign a).verified then some (id, d) else none) :=
    congrArg (Prod.mk _) hdue
  rw [Auditor.passes, hadmits, Bool.true_and, happly]
  cases hv : (document.sign a).verified with
  | false =>
    simp only [hv, signEvents, Bool.false_eq_true, if_false, List.foldl_cons,
      List.foldl_nil] at hreplayed
    simp [signEvents, State.known, State.put, hreplayed]
  | true =>
    simp only [hv, signEvents, if_true, List.foldl_cons, List.foldl_nil] at hreplayed
    cases es with
    | nil => simp [signEvents, Auditor.passes, Audit.documents]
    | cons e es =>
      cases e with
      | verDoc id' d' =>
        by_cases hk : (id', d') = (id, d)
        · obtain ⟨rfl, rfl⟩ := Prod.mk.inj hk
          simp [signEvents, Auditor.passes, Audit.documents, Audit.admitsDocument, Audit.due,
            State.known, State.put, hreplayed]
        · have hother : ¬ (id = id' ∧ d = d') := fun he => hk (by rw [he.1, he.2])
          have hnot : ¬ (id' = id ∧ d' = d) := fun he => hk (by rw [he.1, he.2])
          simp [signEvents, Auditor.passes, Audit.documents, Audit.admitsDocument, hother, hnot]
      | subDoc _ _ _ _ _ | signDoc _ _ _ =>
        simp [signEvents, Auditor.passes, Audit.documents, Audit.admitsDocument]

/-- So the events of a signature are read together. -/
theorem signature_read {s : State} (h : TwoSigned s) {id : UInt64} {d : DocumentType}
    {a : Address} {document : Document} (found : s.documents (id, d) = some document)
    (unsigned : a ∉ document.signers) (rest : List DocumentEvent) :
    (Audit.documents self).passes s.known
        (signEvents id d a (document.sign a).verified ++ rest) =
      (Audit.documents self).passes (s.put (id, d) (document.sign a)
        (signEvents id d a (document.sign a).verified)).known rest := by
  have hread := @signature_passes self s h id d a document found unsigned
    ((if (document.sign a).verified then [.verDoc id d] else []) ++ rest)
  refine Bool.eq_iff_iff.mpr (hread.trans ?_)
  constructor
  · intro hrest
    obtain ⟨rest', hsplit, hrest⟩ := hrest
    have hsame : signEvents id d a (document.sign a).verified ++ rest =
        signEvents id d a (document.sign a).verified ++ rest' := hsplit
    obtain rfl := List.append_cancel_left hsame
    exact hrest
  · intro hrest
    exact ⟨rest, rfl, hrest⟩

/-- The auditor knows the documents, and nothing is due. -/
def Audited (s : State) (r : Indexer.Documents × Option Key) : Prop := TwoSigned s ∧ r = s.known

theorem sound (self : Address) :
    (Audit.documents self).Sound (machine self) State.events Audited where
  closed s r h := by
    rw [h.2]
    rfl
  step s r tx result t h hknows := by
    obtain ⟨hs, rfl⟩ := hknows
    have hstep := machine_ok.mp h
    generalize tx.call = c at hstep
    cases hstep with
    | init _ =>
      exact ⟨_, [], ⟨⟨configured_threshold hs.threshold _, hs.asked⟩, rfl⟩,
        by simp [State.configured], fun _ => rfl⟩
    | submit absent =>
      exact ⟨_, [_], ⟨hs.put (hs.threshold _) _, rfl⟩, rfl, submission_passes hs rfl absent⟩
    | sign _ found unsigned =>
      exact ⟨_, _, ⟨hs.signed found _ _, rfl⟩, rfl, signature_read hs found unsigned⟩
    | verify | get _ | all => exact ⟨_, [], ⟨hs, rfl⟩, by simp, fun _ => rfl⟩

theorem complete (self : Address) :
    (Audit.documents self).Complete (machine self) State.events Audited where
  next s r e es hknows hpass := by
    obtain ⟨hs, rfl⟩ := hknows
    have hadmits := (Bool.and_eq_true_iff.mp hpass).1
    cases e with
    | subDoc id d submitter hash u =>
      simp only [Audit.documents, Audit.admitsDocument, State.known, Bool.and_eq_true,
        Option.isNone_iff_eq_none, beq_iff_eq] at hadmits
      obtain ⟨⟨-, absent⟩, rfl⟩ := hadmits
      have hexec : (machine submitter).exec (signed [] 0 (.submitDocument id d hash u)) s =
          .ok (.unit, _) := machine_ok.mpr (.submit absent)
      refine Auditor.begins hexec (List.singleton_append).symm (by simp)
        ⟨hs.put (hs.threshold _) _, rfl⟩ rfl ?_
      rw [← hpass]
      have hread := @submission_passes submitter s hs
        ((signed [] 0 (Call.submitDocument id d hash u)).env submitter) rfl id d hash u absent es
      exact hread.symm
    | signDoc id d a =>
      simp only [Audit.documents, Audit.admitsDocument, State.known, Bool.and_eq_true,
        Option.any_eq_true, Bool.not_eq_true', List.contains_eq_mem, decide_eq_false_iff_not]
        at hadmits
      obtain ⟨-, document, found, unsigned⟩ := hadmits
      obtain ⟨rest, hsplit, hrest⟩ := (signature_passes hs found unsigned es).mp hpass
      have hexec : (machine self).exec (signed [a] 0 (.signDocument id d a)) s =
          .ok (.unit, _) := machine_ok.mpr (.sign (by simp [signed, Tx.env]) found unsigned)
      exact Auditor.begins hexec hsplit (by simp [signEvents]) ⟨hs.signed found _ _, rfl⟩ rfl hrest
    | verDoc id d => cases hadmits

/-- The logs of events a document contract can publish are exactly those in
which every document is submitted once, by the contract, nobody signs twice, and
a verification comes right after the signatures from the second one on. -/
theorem document_logs (self : Address) (log : List DocumentEvent) :
    (∃ calls, ((machine self).run .empty calls).events = log) ↔
      (Audit.documents self).passes (Store.empty, none) log = true := by
  have start : Audited .empty (Store.empty, none) :=
    ⟨⟨fun _ => rfl, by intro k document h; cases h⟩, rfl⟩
  exact Auditor.language (sound self) (complete self) start start log

end DocumentContract

namespace RegistryContract

/-- The auditor knows the participants. -/
def Audited (s : State) (r : Indexer.Participants) : Prop := r = s.participants

/-- Once there is an admin, the next event of a log that passes can be had. -/
theorem begins_governed (self : Address) {s : State} {admin : Address}
    (governed : s.admin = some admin) {e : RegistryEvent} {es : List RegistryEvent}
    (hpass : Audit.participants.passes s.participants (e :: es) = true) :
    Audit.participants.Begins (machine self) State.events Audited s (e :: es) := by
  have hadmits := (Bool.and_eq_true_iff.mp hpass).1
  cases e with
  | regPart a p =>
    simp only [Audit.participants, Audit.admitsParticipant, Bool.and_eq_true,
      Option.isNone_iff_eq_none, beq_iff_eq] at hadmits
    obtain ⟨⟨absent, haddress⟩, hactive⟩ := hadmits
    have hrecord : registered a p.participantType p.name p.jurisdiction = p := by
      cases p
      simp_all [registered]
    refine Auditor.realised (l := signed [admin] 0
      (.registerParticipant a p.participantType p.name p.jurisdiction))
      (machine_ok.mpr (.register governed (by simp [signed, Tx.env]) absent)) ?_ ?_ hpass
    · simp [Audited, State.put, hrecord, Audit.participants, Indexer.Participants.apply]
    · simp [State.put, hrecord]
  | revPart a =>
    obtain ⟨p, found⟩ := Option.isSome_iff_exists.mp hadmits
    refine Auditor.realised (l := signed [admin] 0 (.revokeParticipant a))
      (machine_ok.mpr (.revoke governed (by simp [signed, Tx.env]) found)) ?_ rfl hpass
    simp [Audited, State.put, Participant.revoked, Audit.participants,
      Indexer.Participants.apply, Store.amend_some _ found]

theorem sound (self : Address) :
    Audit.participants.Sound (machine self) State.events Audited where
  closed _ _ _ := rfl
  step s r tx result t h hknows := by
    subst hknows
    have hstep := machine_ok.mp h
    generalize tx.call = c at hstep
    cases hstep with
    | register _ _ absent =>
      refine ⟨_, [_], rfl, rfl, Auditor.passes_one ?_ rfl⟩
      simp [Audit.participants, Audit.admitsParticipant, absent, registered]
    | revoke _ _ found =>
      refine ⟨_, [_], rfl, rfl, Auditor.passes_one ?_ ?_⟩
      · simp [Audit.participants, Audit.admitsParticipant, found]
      · simp [Audit.participants, Indexer.Participants.apply, Store.amend_some _ found, State.put,
          Participant.revoked]
    | init _ | authorised | get _ | admin _ => exact ⟨_, [], rfl, by simp, fun _ => rfl⟩

theorem complete (self : Address) :
    Audit.participants.Complete (machine self) State.events Audited where
  next s r e es hknows hpass := by
    subst hknows
    cases governed : s.admin with
    | some admin => exact begins_governed self governed hpass
    | none =>
      -- nobody has been appointed yet: that comes first
      have hnext : (machine self).next s (signed [] 0 (.init self)) =
          { s with admin := some self } :=
        Machine.next_ok (machine_ok.mpr (.init governed))
      refine .after (l := signed [] 0 (.init self)) (by rw [hnext]) ?_
      rw [hnext]
      exact begins_governed self rfl hpass

/-- The logs of events a registry can publish are exactly those in which an
address is registered once and revoked only after that. -/
theorem registry_logs (self : Address) (log : List RegistryEvent) :
    (∃ calls, ((machine self).run .empty calls).events = log) ↔
      Audit.participants.passes Store.empty log = true :=
  Auditor.language (s := .empty) (sound self) (complete self) rfl rfl log

end RegistryContract
end Azaka
