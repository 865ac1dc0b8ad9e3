import Azaka.Model.TradeProgram
import Azaka.Proofs.Hosting

namespace Azaka.Program.Trade
open TradeContract Wire Val

/-- The trade a record stands for, under a reading of its list of documents. -/
def Record.read (φ : List Val → List DocumentType) (r : Record) : Azaka.Trade where
  tradeId := r.tradeId
  exporter := r.exporter
  importer := r.importer
  issuingBank := r.issuingBank
  confirmingBank := r.confirmingBank
  stablecoinAsset := r.stablecoinAsset
  amount := r.amount
  requiredDocs := φ r.requiredDocs
  expiryLedger := r.expiryLedger
  status := r.status
  createdLedger := r.createdLedger

def Params.read (φ : List Val → List DocumentType) (p : Params) : CreateTradeParams where
  exporter := p.exporter
  importer := p.importer
  issuingBank := p.issuingBank
  stablecoinAsset := p.stablecoinAsset
  amount := p.amount
  requiredDocs := φ p.requiredDocs
  expiryLedger := p.expiryLedger

/-- The call of the model that a call as it comes in stands for. -/
def HostCall.read (φ : List Val → List DocumentType) : HostCall → Call
  | .init e d => .init e d
  | .createTrade p => .createTrade (p.read φ)
  | .confirmTrade id b => .confirmTrade id b
  | .markEscrowDeposited id => .markEscrowDeposited id
  | .cancelTrade id c => .cancelTrade id c
  | .expireTrade id => .expireTrade id
  | .settleTrade id => .settleTrade id
  | .getTrade id => .getTrade id
  | .listTradesByExporter e => .listTradesByExporter e

/-- Lists all of whose elements are document types. -/
def docTypesCodec : Codec (List Val) (List DocumentType) := (ofCodec DocumentType.codec).list

def Record.unread (t : Azaka.Trade) : Record where
  tradeId := t.tradeId
  exporter := t.exporter
  importer := t.importer
  issuingBank := t.issuingBank
  confirmingBank := t.confirmingBank
  stablecoinAsset := t.stablecoinAsset
  amount := t.amount
  requiredDocs := docTypesCodec.encode t.requiredDocs
  expiryLedger := t.expiryLedger
  status := t.status
  createdLedger := t.createdLedger

theorem unread_encode (t : Azaka.Trade) :
    Record.codec.encode (Record.unread t) = Azaka.Trade.codec.encode t := rfl

/-- A value seen through a reading of lists: a trade's record is seen as the trade,
and any other value as it is. -/
def see (φ : List Val → List DocumentType) (v : Val) : Val :=
  match Record.codec.decode v with
  | some r => Azaka.Trade.codec.encode (r.read φ)
  | none => v

variable {φ ψ : List Val → List DocumentType}

theorem see_encode (r : Record) :
    see φ (Record.codec.encode r) = Azaka.Trade.codec.encode (r.read φ) := by
  simp only [see, Record.codec.decode_encode]

theorem see_same {v : Val} (h : Record.codec.decode v = none) : see φ v = v := by
  simp only [see, h]

theorem decode_see_trade (v : Val) :
    Azaka.Trade.codec.decode (see φ v) = (Record.codec.decode v).map (Record.read φ) := by
  cases h : Record.codec.decode v with
  | some r => simp only [see, h, Azaka.Trade.codec.decode_encode, Option.map_some]
  | none =>
    rw [see_same h, Option.map_none]
    cases ht : Azaka.Trade.codec.decode v with
    | none => rfl
    | some t =>
      have hv := (Azaka.Trade.codec.exact v t).mp ht
      rw [← hv, ← unread_encode, Record.codec.decode_encode] at h
      cases h

/-- A type whose values are no maps is read as before. -/
theorem decode_see {α : Type} {c : Codec Val α} (hc : ∀ entries, c.decode (.map entries) = none)
    (v : Val) : c.decode (see φ v) = c.decode v := by
  cases h : Record.codec.decode v with
  | none => rw [see_same h]
  | some r =>
    rw [← (Record.codec.exact v r).mp h, see_encode]
    exact (hc _).trans (hc _).symm

theorem of_codec_map {α : Type} {c : Codec ScVal α} (hc : ∀ entries, c.decode (.map entries) = none)
    (entries : List (Val × Val)) : (ofCodec c).decode (.map entries) = none := by
  simp only [ofCodec, Codec.comp, scCodec, toSc]
  cases toEntries entries with
  | none => rfl
  | some ws => exact hc ws

/-- Where two readings agree on lists of document types only, a value seen the same
through both is seen as it is. -/
theorem see_agree {v : Val}
    (hlist : ∀ docs, φ docs = ψ docs → docTypesCodec.encode (φ docs) = docs)
    (h : see φ v = see ψ v) : see φ v = v := by
  cases hr : Record.codec.decode v with
  | none => exact see_same hr
  | some r =>
    rw [← (Record.codec.exact v r).mp hr] at h ⊢
    rw [see_encode, see_encode] at h
    have hread := Azaka.Trade.codec.encode_inj h
    have hdocs := hlist r.requiredDocs (congrArg Azaka.Trade.requiredDocs hread)
    rw [see_encode, ← unread_encode]
    cases r
    exact congrArg (fun docs => Record.codec.encode { requiredDocs := docs, .. }) hdocs

/-- The reading of well formed lists, with a value for all others. -/
def reading (otherwise : List DocumentType) (docs : List Val) : List DocumentType :=
  (docTypesCodec.decode docs).getD otherwise

theorem reading_agree {a b : List DocumentType} (hab : a ≠ b) {docs : List Val}
    (h : reading a docs = reading b docs) : docTypesCodec.encode (reading a docs) = docs := by
  unfold reading at h ⊢
  cases hdocs : docTypesCodec.decode docs with
  | some types => exact (docTypesCodec.exact docs types).mp hdocs
  | none =>
    rw [hdocs] at h
    exact absurd h hab

/-- The call of the model, if all of it can be read. -/
def HostCall.reread : HostCall → Option Call
  | .createTrade p =>
    (docTypesCodec.decode p.requiredDocs).map fun docs => .createTrade (p.read fun _ => docs)
  | c => some (c.read fun _ => [])

/-- A call of the model as it comes in. -/
def HostCall.unread : Call → HostCall
  | .init e d => .init e d
  | .createTrade p => .createTrade {
      exporter := p.exporter
      importer := p.importer
      issuingBank := p.issuingBank
      stablecoinAsset := p.stablecoinAsset
      amount := p.amount
      requiredDocs := docTypesCodec.encode p.requiredDocs
      expiryLedger := p.expiryLedger }
  | .confirmTrade id b => .confirmTrade id b
  | .markEscrowDeposited id => .markEscrowDeposited id
  | .cancelTrade id c => .cancelTrade id c
  | .expireTrade id => .expireTrade id
  | .settleTrade id => .settleTrade id
  | .getTrade id => .getTrade id
  | .listTradesByExporter e => .listTradesByExporter e

theorem reread_iff (c : HostCall) (d : Call) : c.reread = some d ↔ HostCall.unread d = c := by
  cases c with
  | createTrade p =>
    rw [HostCall.reread, Option.map_eq_some_iff]
    constructor
    · intro h
      obtain ⟨docs, hdocs, rfl⟩ := h
      have hencode := (docTypesCodec.exact _ docs).mp hdocs
      cases p
      subst hencode
      rfl
    · intro h
      cases d <;> simp [HostCall.unread] at h
      obtain rfl := h
      exact ⟨_, docTypesCodec.decode_encode _, rfl⟩
  | _ => cases d <;> simp [HostCall.reread, HostCall.read, HostCall.unread, eq_comm]

theorem unread_interface (c : Call) : hostInterface.encode (HostCall.unread c) =
    ((interface.encode c).1, Val.ofElements (interface.encode c).2) := by
  cases c with
  | createTrade p =>
    have hdocs : docTypesCodec.encode p.requiredDocs =
        ofElements (p.requiredDocs.map DocumentType.codec.encode) :=
      (of_elements_map DocumentType.codec.encode p.requiredDocs).symm
    simp only [HostCall.unread]
    rw [hdocs]
    rfl
  | _ => rfl

end Azaka.Program.Trade
