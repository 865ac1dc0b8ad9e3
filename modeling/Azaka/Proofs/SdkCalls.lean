import Azaka.Model.Sdk

namespace Azaka.AzakaClient
open Wire ScVal

/-- A hash is written in hexadecimal, two digits for every byte. -/
def hex (hash : BytesN 32) : String :=
  .ofList (hash.toList.flatMap fun b =>
    [Nat.digitChar (b.toNat / 16), Nat.digitChar (b.toNat % 16)])

/-- The contract's parameters are the ones the client was given. -/
structure SameTerms (sdk : StellarSdk) (asked : Sdk.CreateTradeParams)
    (params : CreateTradeParams) : Prop where
  exporter : sdk.strKey asked.exporter = some params.exporter
  importer : sdk.strKey asked.importer = some params.importer
  issuingBank : sdk.strKey asked.issuingBank = some params.issuingBank
  stablecoinAsset : sdk.strKey asked.stablecoinAsset = some params.stablecoinAsset
  amount : params.amount.toInt = asked.amount
  requiredDocs : params.requiredDocs = asked.requiredDocs
  expiryLedger : .ofNat params.expiryLedger.toNat = asked.expiryLedger

/-- The call says what the client was asked for. -/
inductive Means (sdk : StellarSdk) : Request sdk → ContractCall → Prop
  | createTrade {asked : Sdk.CreateTradeParams} {params : CreateTradeParams}
      (terms : SameTerms sdk asked params) :
      Means sdk (.createTrade asked) (.trade (.createTrade params))
  | depositEscrow {tradeId amount : Int} {source : sdk.Keypair} {id : UInt64} {a : Address}
      {n : I128} (sameTrade : (id.toNat : Int) = tradeId)
      (depositor : sdk.strKey (sdk.publicKey source) = some a) (sameAmount : n.toInt = amount) :
      Means sdk (.depositEscrow tradeId amount source) (.escrow (.deposit id a n))
  | submitDocument {asked : Sdk.SubmitDocumentParams} {id : UInt64} {hash : BytesN 32}
      (sameTrade : (id.toNat : Int) = asked.tradeId) (sameHash : hex hash = asked.docHash) :
      Means sdk (.submitDocument asked)
        (.document (.submitDocument id asked.docType hash asked.metadataUri))
  | signDocument {asked : Sdk.SignDocumentParams} {id : UInt64} {a : Address}
      (sameTrade : (id.toNat : Int) = asked.tradeId) (signer : sdk.strKey asked.signer = some a) :
      Means sdk (.signDocument asked) (.document (.signDocument id asked.docType a))
  | checkAndRelease {tradeId : Int} {id : UInt64} {a : Address}
      (sameTrade : (id.toNat : Int) = tradeId)
      (recipient : sdk.strKey (getTrade tradeId).exporter = some a) :
      Means sdk (.checkAndRelease tradeId) (.escrow (.release id a))

/-- The client passes arguments that the entry point accepts and reads as they
were meant. -/
def Understood {sdk : StellarSdk} (r : Request sdk) : Prop :=
  ∃ op call, r.operation = some op ∧ op.decode = some call ∧ Means sdk r call

variable {sdk : StellarSdk}

/-- The client passes seven arguments, and the entry point takes one. -/
theorem create_trade_refused {params : Sdk.CreateTradeParams} {op : Operation}
    (h : createTrade sdk params = some op) : op.decode = none := by
  simp only [createTrade, Option.bind_eq_bind, Option.bind_eq_some_iff, Option.some.injEq] at h
  obtain ⟨_, -, _, -, _, -, _, -, _, -, _, -, _, -, rfl⟩ := h
  rfl

/-- A document type is a vector of a symbol, and never a string. -/
theorem document_type_refused {w : ScVal} (h : w.type = .string) :
    DocumentType.codec.decode w = none := by
  apply Codec.decode_eq_none
  intro d he
  subst he
  cases h

theorem submit_document_refused (documented : sdk.Documented) {params : Sdk.SubmitDocumentParams}
    {op : Operation} (h : submitDocument sdk params = some op) : op.decode = none := by
  simp only [submitDocument, Option.bind_eq_bind, Option.bind_eq_some_iff, Option.some.injEq] at h
  obtain ⟨_, -, _, hdoc, _, -, _, -, rfl⟩ := h
  have hrefused := document_type_refused (documented.typed _ _ _ hdoc)
  simp [Operation.decode, DocumentContract.interface, DocumentContract.Call.decode, Codec.cons,
    hrefused]

theorem sign_document_refused (documented : sdk.Documented) {params : Sdk.SignDocumentParams}
    {op : Operation} (h : signDocument sdk params = some op) : op.decode = none := by
  simp only [signDocument, Option.bind_eq_bind, Option.bind_eq_some_iff, Option.some.injEq] at h
  obtain ⟨_, -, _, hdoc, _, -, rfl⟩ := h
  have hrefused := document_type_refused (documented.typed _ _ _ hdoc)
  simp [Operation.decode, DocumentContract.interface, DocumentContract.Call.decode, Codec.cons,
    hrefused]

/-- The exporter of the placeholder is nobody's address. -/
theorem placeholder_exporter (documented : sdk.Documented) (tradeId : Int) (a : Address) :
    sdk.strKey (getTrade tradeId).exporter ≠ some a := by
  intro h
  have hlength : "G...".length = 56 := documented.length _ a h
  revert hlength
  decide

/-- A deposit that fits is passed on as it is. -/
theorem deposit_understood (documented : sdk.Documented) {tradeId amount : Int}
    (source : sdk.Keypair) (hid : 0 ≤ tradeId ∧ tradeId < 2 ^ 64)
    (hamount : -2 ^ 127 ≤ amount ∧ amount < 2 ^ 127) :
    Understood (Request.depositEscrow tradeId amount source) := by
  obtain ⟨a, ha⟩ := documented.public_key source
  refine ⟨⟨.escrow, "deposit",
      [.u64 (.ofNat tradeId.toNat), .address a, .i128 (.ofInt 128 amount)]⟩,
    .escrow (.deposit (.ofNat tradeId.toNat) a (.ofInt 128 amount)), ?_,
    decode_operation.mpr rfl, ?_⟩
  · simp [Request.operation, depositEscrow, documented.u64 tradeId hid.1 hid.2,
      documented.address _ a ha, documented.i128 amount hamount.1 hamount.2]
  · refine .depositEscrow ?_ ha ?_
    · rw [UInt64.toNat_ofNat']
      omega
    · rw [BitVec.toInt_ofInt]
      apply Int.bmod_eq_of_le <;> omega

/-- Of all the client passes to the contracts, the deposits of numbers that fit
are understood, and nothing else is. -/
theorem requests_understood_iff (documented : sdk.Documented) (r : Request sdk) :
    Understood r ↔ ∃ tradeId amount source, r = .depositEscrow tradeId amount source ∧
      (0 ≤ tradeId ∧ tradeId < 2 ^ 64) ∧ (-2 ^ 127 ≤ amount ∧ amount < 2 ^ 127) := by
  constructor
  · intro h
    obtain ⟨op, call, hop, hdecode, hmeans⟩ := h
    cases hmeans with
    | createTrade terms =>
      rw [create_trade_refused hop] at hdecode
      cases hdecode
    | @depositEscrow tradeId amount source id _ n sameTrade depositor sameAmount =>
      refine ⟨tradeId, amount, source, rfl, ?_, ?_⟩
      · have hid := id.toNat_lt
        omega
      · have hle := n.le_toInt
        have hlt := n.toInt_lt
        omega
    | submitDocument sameTrade sameHash =>
      rw [submit_document_refused documented hop] at hdecode
      cases hdecode
    | signDocument sameTrade signer =>
      rw [sign_document_refused documented hop] at hdecode
      cases hdecode
    | checkAndRelease sameTrade recipient =>
      exact absurd recipient (placeholder_exporter documented _ _)
  · intro h
    obtain ⟨tradeId, amount, source, rfl, hid, hamount⟩ := h
    exact deposit_understood documented source hid hamount

theorem lone_deposit_understood :
    Understood (.depositEscrow 1 500 () : Request loneSdk) :=
  (requests_understood_iff lone_sdk_documented _).mpr
    ⟨1, 500, (), rfl, by decide, by decide⟩

/-- The signature of a bill of lading goes out, and is refused. -/
theorem lone_signature_refused :
    ¬ Understood (.signDocument ⟨1, .billOfLading, loneKey⟩ : Request loneSdk) := by
  intro h
  obtain ⟨op, call, hop, hdecode, -⟩ := h
  have hpassed : op = ⟨.document, "sign_document", [.u64 1, .string "BillOfLading",
      .address loneAccount]⟩ := (Option.some.inj hop).symm
  subst hpassed
  cases hdecode

end Azaka.AzakaClient
