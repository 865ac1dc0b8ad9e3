import Azaka.Model.Interface

namespace Azaka
open Wire

/-- The host's values in full: the parameters' kinds, with `void` and `bool`,
which only results, events and storage use. -/
inductive Val where
  | void
  | bool (b : Bool)
  | u32 (n : UInt32)
  | u64 (n : UInt64)
  | i128 (n : I128)
  | bytes (octets : List UInt8)
  | string (s : String)
  | symbol (s : String)
  | vec (elements : List Val)
  | map (entries : List (Val × Val))
  | address (a : Address)

namespace Val

mutual
def same : Val → Val → Bool
  | .void, .void => true
  | .bool a, .bool b => a == b
  | .u32 a, .u32 b => a == b
  | .u64 a, .u64 b => a == b
  | .i128 a, .i128 b => a == b
  | .bytes a, .bytes b => a == b
  | .string a, .string b => a == b
  | .symbol a, .symbol b => a == b
  | .vec a, .vec b => sameElements a b
  | .map a, .map b => sameEntries a b
  | .address a, .address b => a == b
  | _, _ => false

def sameElements : List Val → List Val → Bool
  | [], [] => true
  | v :: vs, w :: ws => same v w && sameElements vs ws
  | _, _ => false

def sameEntries : List (Val × Val) → List (Val × Val) → Bool
  | [], [] => true
  | (k, v) :: vs, (j, w) :: ws => same k j && same v w && sameEntries vs ws
  | _, _ => false
end

mutual
theorem same_iff (v w : Val) : same v w = true ↔ v = w := by
  cases v with
  | vec a =>
    cases w with
    | vec b => simpa [same] using same_elements_iff a b
    | _ => simp [same]
  | map a =>
    cases w with
    | map b => simpa [same] using same_entries_iff a b
    | _ => simp [same]
  | _ => cases w <;> simp [same]

theorem same_elements_iff (vs ws : List Val) : sameElements vs ws = true ↔ vs = ws := by
  cases vs with
  | nil => cases ws <;> simp [sameElements]
  | cons v vs =>
    cases ws with
    | nil => simp [sameElements]
    | cons w ws => simp [sameElements, same_iff v w, same_elements_iff vs ws]

theorem same_entries_iff (vs ws : List (Val × Val)) : sameEntries vs ws = true ↔ vs = ws := by
  cases vs with
  | nil => cases ws <;> simp [sameEntries]
  | cons v vs =>
    obtain ⟨k, v⟩ := v
    cases ws with
    | nil => simp [sameEntries]
    | cons w ws =>
      obtain ⟨j, w⟩ := w
      simp [sameEntries, same_iff k j, same_iff v w, same_entries_iff vs ws]
end

instance : DecidableEq Val := fun v w => decidable_of_iff _ (same_iff v w)

mutual
def ofSc : ScVal → Val
  | .u32 n => .u32 n
  | .u64 n => .u64 n
  | .i128 n => .i128 n
  | .bytes octets => .bytes octets
  | .string s => .string s
  | .symbol s => .symbol s
  | .vec elements => .vec (ofElements elements)
  | .map entries => .map (ofEntries entries)
  | .address a => .address a

def ofElements : List ScVal → List Val
  | [] => []
  | w :: ws => ofSc w :: ofElements ws

def ofEntries : List (ScVal × ScVal) → List (Val × Val)
  | [] => []
  | (k, w) :: ws => (ofSc k, ofSc w) :: ofEntries ws
end

mutual
def toSc : Val → Option ScVal
  | .void | .bool _ => none
  | .u32 n => some (.u32 n)
  | .u64 n => some (.u64 n)
  | .i128 n => some (.i128 n)
  | .bytes octets => some (.bytes octets)
  | .string s => some (.string s)
  | .symbol s => some (.symbol s)
  | .vec elements => (toElements elements).map .vec
  | .map entries => (toEntries entries).map .map
  | .address a => some (.address a)

def toElements : List Val → Option (List ScVal)
  | [] => some []
  | v :: vs => (toSc v).bind fun w => (toElements vs).map fun ws => w :: ws

def toEntries : List (Val × Val) → Option (List (ScVal × ScVal))
  | [] => some []
  | (k, v) :: vs =>
    (toSc k).bind fun j => (toSc v).bind fun w => (toEntries vs).map fun ws => (j, w) :: ws
end

mutual
theorem to_sc (v : Val) (w : ScVal) : toSc v = some w ↔ ofSc w = v := by
  cases v with
  | vec elements =>
    cases w with
    | vec ws => simp [toSc, ofSc, to_elements elements ws]
    | _ => simp [toSc, ofSc]
  | map entries =>
    cases w with
    | map ws => simp [toSc, ofSc, to_entries entries ws]
    | _ => simp [toSc, ofSc]
  | _ => cases w <;> simp [toSc, ofSc, eq_comm]

theorem to_elements (vs : List Val) (ws : List ScVal) :
    toElements vs = some ws ↔ ofElements ws = vs := by
  cases vs with
  | nil => cases ws <;> simp [toElements, ofElements]
  | cons v vs =>
    simp only [toElements, Option.bind_eq_some_iff, Option.map_eq_some_iff, to_sc v,
      to_elements vs]
    cases ws with
    | nil => simp [ofElements]
    | cons w ws => simp [ofElements, and_comm]

theorem to_entries (vs : List (Val × Val)) (ws : List (ScVal × ScVal)) :
    toEntries vs = some ws ↔ ofEntries ws = vs := by
  cases vs with
  | nil => cases ws <;> simp [toEntries, ofEntries]
  | cons v vs =>
    obtain ⟨k, v⟩ := v
    simp only [toEntries, Option.bind_eq_some_iff, Option.map_eq_some_iff, to_sc k, to_sc v,
      to_entries vs]
    cases ws with
    | nil => simp [ofEntries]
    | cons w ws =>
      obtain ⟨j, w⟩ := w
      simp [ofEntries, and_assoc]
end

theorem of_elements_map {α : Type} (f : α → ScVal) (as : List α) :
    ofElements (as.map f) = as.map fun a => ofSc (f a) := by
  induction as with
  | nil => rfl
  | cons a as ih => rw [List.map_cons, ofElements, ih, List.map_cons]

def scCodec : Codec Val ScVal where
  encode := ofSc
  decode := toSc
  exact := to_sc

variable {α : Type}

/-- What encodes parameters encodes values. -/
def ofCodec (c : Codec ScVal α) : Codec Val α := scCodec.comp c

def u32Codec : Codec Val UInt32 := ofCodec ScVal.u32Codec

def u64Codec : Codec Val UInt64 := ofCodec ScVal.u64Codec

def i128Codec : Codec Val I128 := ofCodec ScVal.i128Codec

def stringCodec : Codec Val String := ofCodec ScVal.stringCodec

def addressCodec : Codec Val Address := ofCodec ScVal.addressCodec

theorem address_present (a : Address) : addressCodec.encode a ≠ .void := by
  intro h
  cases h

def boolCodec : Codec Val Bool where
  encode := .bool
  decode
    | .bool b => some b
    | _ => none
  exact w b := by cases w <;> simp [eq_comm]

def vecCodec (c : Codec Val α) : Codec Val (List α) where
  encode as := .vec (c.list.encode as)
  decode
    | .vec elements => c.list.decode elements
    | _ => none
  exact w as := by cases w <;> simp [c.list.exact]

/-- A vector whose elements are not looked at. -/
def listCodec : Codec Val (List Val) where
  encode := .vec
  decode
    | .vec elements => some elements
    | _ => none
  exact w as := by cases w <;> simp [eq_comm]

/-- An `Option` is `void` or the value itself. -/
def optionCodec (c : Codec Val α) (present : ∀ a, c.encode a ≠ .void) : Codec Val (Option α) where
  encode
    | none => .void
    | some a => c.encode a
  decode w := if w = .void then some none else (c.decode w).map some
  exact w o := by
    split
    · rename_i h
      subst h
      cases o <;> simp [present]
    · rename_i h
      cases o <;> simp [c.exact, Ne.symm h]

def entryCodec : Codec (Val × Val) (String × Val) where
  encode e := (.symbol e.1, e.2)
  decode
    | (.symbol name, w) => some (name, w)
    | _ => none
  exact w e := by
    obtain ⟨k, w⟩ := w
    cases k <;> simp [eq_comm, Prod.ext_iff]

def structCodec : Codec Val (List (String × Val)) where
  encode fields := .map (entryCodec.list.encode fields)
  decode
    | .map entries => entryCodec.list.decode entries
    | _ => none
  exact w fields := by cases w <;> simp [entryCodec.list.exact]

/-- An enum whose variants hold nothing. -/
def enumCodec (name : α → String) (variants : List α) (complete : ∀ a, a ∈ variants)
    (distinct : ∀ a b, name a = name b → a = b) : Codec Val α :=
  ofCodec (ScVal.unitCodec.comp (.named name variants complete distinct))

/-- A variant that holds values: a vector of its name and the values. -/
def variantCodec : Codec ScVal (String × List ScVal) where
  encode v := .vec (.symbol v.1 :: v.2)
  decode
    | .vec (.symbol name :: args) => some (name, args)
    | _ => none
  exact w v := by
    obtain ⟨name, args⟩ := v
    cases w with
    | vec elements =>
      cases elements with
      | nil => simp
      | cons w ws => cases w <;> simp [eq_comm]
    | _ => simp

end Val

open Val

def TradeStatus.name : TradeStatus → String
  | .pendingEscrow => "PendingEscrow"
  | .active => "Active"
  | .documentsPending => "DocumentsPending"
  | .settled => "Settled"
  | .cancelled => "Cancelled"
  | .expired => "Expired"

def TradeStatus.codec : Codec Val TradeStatus :=
  enumCodec TradeStatus.name
    [.pendingEscrow, .active, .documentsPending, .settled, .cancelled, .expired]
    (fun s => by cases s <;> simp)
    (fun s t h => by cases s <;> cases t <;> first | rfl | simp [TradeStatus.name] at h)

/-- The fields of a record come in the order of their names. -/
def Trade.codec : Codec Val Trade :=
  structCodec.comp <| Codec.iso
    ((i128Codec.field "amount").cons <|
      ((optionCodec addressCodec address_present).field "confirming_bank").cons <|
      (u32Codec.field "created_ledger").cons <|
      (u32Codec.field "expiry_ledger").cons <|
      (addressCodec.field "exporter").cons <|
      (addressCodec.field "importer").cons <|
      (addressCodec.field "issuing_bank").cons <|
      ((vecCodec (ofCodec DocumentType.codec)).field "required_docs").cons <|
      (addressCodec.field "stablecoin_asset").cons <|
      (TradeStatus.codec.field "status").cons <|
      (u64Codec.field "trade_id").one)
    (fun (amount, confirmingBank, createdLedger, expiryLedger, exporter, importer, issuingBank,
        requiredDocs, stablecoinAsset, status, tradeId) =>
      { tradeId, exporter, importer, issuingBank, confirmingBank, stablecoinAsset, amount,
        requiredDocs, expiryLedger, status, createdLedger })
    (fun t => (t.amount, t.confirmingBank, t.createdLedger, t.expiryLedger, t.exporter, t.importer,
      t.issuingBank, t.requiredDocs, t.stablecoinAsset, t.status, t.tradeId))
    (fun _ => rfl) (fun _ => rfl)

def Document.codec : Codec Val Document :=
  structCodec.comp <| Codec.iso
    (((ofCodec (ScVal.bytesNCodec 32)).field "doc_hash").cons <|
      ((ofCodec DocumentType.codec).field "doc_type").cons <|
      (stringCodec.field "metadata_uri").cons <|
      (u32Codec.field "required_signatures").cons <|
      ((vecCodec addressCodec).field "signers").cons <|
      (addressCodec.field "submitter").cons <|
      (u64Codec.field "trade_id").cons <|
      (boolCodec.field "verified").one)
    (fun (docHash, docType, metadataUri, requiredSignatures, signers, submitter, tradeId,
        verified) =>
      { tradeId, docType, docHash, metadataUri, submitter, signers, verified, requiredSignatures })
    (fun d => (d.docHash, d.docType, d.metadataUri, d.requiredSignatures, d.signers, d.submitter,
      d.tradeId, d.verified))
    (fun _ => rfl) (fun _ => rfl)

def Participant.codec : Codec Val Participant :=
  structCodec.comp <| Codec.iso
    ((boolCodec.field "active").cons <|
      (addressCodec.field "address").cons <|
      (stringCodec.field "jurisdiction").cons <|
      (stringCodec.field "name").cons <|
      ((ofCodec ParticipantType.codec).field "participant_type").one)
    (fun (active, address, jurisdiction, name, participantType) =>
      { address, participantType, name, jurisdiction, active })
    (fun p => (p.active, p.address, p.jurisdiction, p.name, p.participantType))
    (fun _ => rfl) (fun _ => rfl)

end Azaka
