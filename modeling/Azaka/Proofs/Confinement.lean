import Azaka.Proofs.DocumentPermanence
import Azaka.Proofs.NetworkRuns
import Mathlib.Tactic.Tauto

namespace Azaka
open Keyed Stepwise

/-- Nobody else has signed the call. -/
def Tx.By {κ : Type} (A : Address → Prop) (tx : Tx κ) : Prop := ∀ a, tx.auth a = true → A a

variable {A : Address → Prop}

namespace TradeContract

/-- The trade is not there yet, or its deposit is not marked yet. -/
def Unmarked (before : Option TradeStatus) : Prop :=
  before = none ∨ before = some .pendingEscrow ∨ before = some .active

/-- What it takes to bring a trade into its status from the one it had before.
Anybody may settle a trade once it is marked, and expire one that is due. -/
def Answered (A : Address → Prop) (escrow : Address) (due : UInt32 → Prop)
    (before : Option TradeStatus) (trade : Trade) : Prop :=
  match trade.status with
  | .pendingEscrow => before = none ∧ A trade.issuingBank
  | .active => (before = none ∨ before = some .pendingEscrow) ∧
      ∃ bank, trade.confirmingBank = some bank ∧ A bank
  | .documentsPending => Unmarked before ∧ A escrow
  | .cancelled => Unmarked before ∧ (A trade.exporter ∨ A trade.importer)
  | .settled => before = some .documentsPending ∨ (Unmarked before ∧ A escrow)
  | .expired => before ≠ some .settled ∧ due trade.expiryLedger

/-- What has become of the trades is what the addresses may do: open them as the
issuing bank, confirm them as the confirming bank, mark them as the escrow, and
cancel them as a party. No trade is gone, and none has other terms. -/
structure Confined (A : Address → Prop) (escrow : Address) (due : UInt32 → Prop) (s t : State) :
    Prop where
  kept : ∀ id trade, s.trades id = some trade →
    ∃ trade', t.trades id = some trade' ∧ SameTerms trade trade'
  issued : ∀ id trade, t.trades id = some trade → (s.trades id).isSome ∨ A trade.issuingBank
  status : ∀ id trade, t.trades id = some trade →
    (s.trades id).map Trade.status = some trade.status ∨
      Answered A escrow due ((s.trades id).map Trade.status) trade
  bank : ∀ id trade bank, t.trades id = some trade → trade.confirmingBank = some bank →
    (s.trades id).map Trade.confirmingBank = some (some bank) ∨ A bank

theorem Confined.refl (A : Address → Prop) (escrow : Address) (due : UInt32 → Prop) (s : State) :
    Confined A escrow due s s := by
  refine ⟨?_, ?_, ?_, ?_⟩
  · intro id trade found
    exact ⟨trade, found, .refl trade⟩
  · intro id trade found
    exact .inl (by simp [found])
  · intro id trade found
    exact .inl (by simp [found])
  · intro id trade bank found hbank
    exact .inl (by simp [found, hbank])

variable {escrow : Address} {due : UInt32 → Prop}

/-- A trade that is pending or active has not been marked in the meantime. -/
theorem Answered.unmarked {before : Option TradeStatus} {trade : Trade}
    (status : trade.status = .pendingEscrow ∨ trade.status = .active)
    (h : before = some trade.status ∨ Answered A escrow due before trade) : Unmarked before := by
  unfold Unmarked
  rcases status with hstatus | hstatus <;> simp only [Answered, hstatus] at h <;> tauto

/-- An edit that takes a signature has one of the addresses answer for it. -/
theorem Edit.answered {env : Env} {c : Call} {id : UInt64} {trade trade' : Trade}
    {event : TradeEvent} (h : Edit env (some escrow) c id trade trade' event)
    (by_A : ∀ a, env.auth a = true → A a) (hdue : ∀ n, n ≤ env.sequence → due n)
    {before : Option TradeStatus}
    (hold : before = some trade.status ∨ Answered A escrow due before trade) :
    Answered A escrow due before trade' := by
  cases h with
  | confirm auth status =>
    refine ⟨?_, _, rfl, by_A _ auth⟩
    simp only [Answered, status] at hold
    tauto
  | mark configured auth status =>
    obtain rfl := Option.some.inj configured
    exact ⟨Answered.unmarked (.inr status) hold, by_A _ auth⟩
  | cancel auth party status =>
    refine ⟨Answered.unmarked status hold, ?_⟩
    rcases party with rfl | rfl
    · exact .inl (by_A _ auth)
    · exact .inr (by_A _ auth)
  | expire past status =>
    refine ⟨?_, hdue _ past⟩
    intro settled
    rcases hold with hsame | hanswered
    · exact status (Option.some.inj (hsame.symm.trans settled))
    · cases hstatus : trade.status <;>
        simp_all [Answered, Unmarked]
  | settle status =>
    simp only [Answered, status] at hold
    exact hold

/-- An edit keeps the issuing bank, and names none but one of the addresses as
the confirming bank. -/
theorem Edit.banks {env : Env} {escrow : Option Address} {c : Call} {id : UInt64}
    {trade trade' : Trade} {event : TradeEvent}
    (h : Edit env escrow c id trade trade' event) (by_A : ∀ a, env.auth a = true → A a) :
    trade'.issuingBank = trade.issuingBank ∧
      ∀ bank, trade'.confirmingBank = some bank → trade.confirmingBank = some bank ∨ A bank := by
  cases h with
  | confirm auth _ =>
    refine ⟨rfl, ?_⟩
    intro bank hbank
    obtain rfl := Option.some.inj hbank
    exact .inr (by_A _ auth)
  | mark _ _ _ | cancel _ _ _ | expire _ _ | settle _ => exact ⟨rfl, fun _ hbank => .inl hbank⟩

theorem Step.confined {env : Env} {s t u : State} {c : Call} {r : Return}
    (h : Step env t c r u) (ht : t.escrowContract = some escrow) (bounded : Bounded t)
    (by_A : ∀ a, env.auth a = true → A a) (hdue : ∀ n, n ≤ env.sequence → due n)
    (hst : Confined A escrow due s t) : Confined A escrow due s u := by
  refine ⟨?_, ?_, ?_, ?_⟩
  · intro id trade found
    obtain ⟨trade', found', hterms⟩ := hst.kept id trade found
    obtain ⟨trade'', found'', hterms'⟩ := h.terms bounded found'
    exact ⟨trade'', found'', hterms.trans hterms'⟩
  · intro id trade found
    rcases h.origin found with hold | ⟨p, rfl, -, rfl⟩ | ⟨old, event, hold, edit, -⟩
    · exact hst.issued id trade hold
    · exact .inr (by_A _ h.created.1)
    · rw [(edit.banks by_A).1]
      exact hst.issued id old hold
  · intro id trade found
    rcases h.origin found with hold | ⟨p, rfl, rfl, rfl⟩ | ⟨old, event, hold, edit, -⟩
    · exact hst.status id trade hold
    · -- the id is fresh, so it was not used before either
      refine .inr ⟨?_, by_A _ h.created.1⟩
      cases before : s.trades id with
      | none => rfl
      | some trade =>
        obtain ⟨trade', found', -⟩ := hst.kept id trade before
        obtain ⟨-, room, hid, -⟩ := h.created
        obtain rfl := Return.tradeId.inj hid
        rw [bounded.fresh room] at found'
        cases found'
    · rw [ht] at edit
      exact .inr (edit.answered by_A hdue (hst.status id old hold))
  · intro id trade bank found hbank
    rcases h.origin found with hold | ⟨p, rfl, -, rfl⟩ | ⟨old, event, hold, edit, -⟩
    · exact hst.bank id trade bank hold hbank
    · cases hbank
    · rcases (edit.banks by_A).2 bank hbank with hsame | hmember
      · exact hst.bank id old bank hold hsame
      · exact .inr hmember

theorem run_confined (self : Address) {s : State} (hs : s.escrowContract = some escrow)
    (bounded : Bounded s) {ls : List (Tx Call)}
    (along : (machine self).Along (fun _ tx => tx.By A) s ls) :
    Confined A escrow (fun n => ∃ tx ∈ ls, n ≤ tx.sequence) s ((machine self).run s ls) := by
  have hmem : (machine self).Along (fun _ tx => tx.By A ∧ tx ∈ ls) s ls :=
    fun pre tx post hsplit => ⟨along pre tx post hsplit, by simp [hsplit]⟩
  refine (Machine.run_invariant_along (P := fun t => (t.escrowContract = some escrow ∧ Bounded t) ∧
    Confined A escrow (fun n => ∃ tx ∈ ls, n ≤ tx.sequence) s t) ?_
    ⟨⟨hs, bounded⟩, .refl A escrow _ s⟩ hmem).2
  intro t tx r u ht hby hexec
  obtain ⟨⟨hescrow, hbounded⟩, hconfined⟩ := ht
  have hstep := machine_ok.mp hexec
  obtain ⟨hkept, hinit⟩ := hstep.escrow_contract hescrow
  refine ⟨⟨hkept, hstep.bounded hbounded fun e d he => absurd he (hinit e d)⟩, ?_⟩
  exact hstep.confined hescrow hbounded hby.1 (fun n hn => ⟨tx, hby.2, hn⟩) hconfined

end TradeContract

namespace EscrowContract
variable {tok : Token}

/-- Nobody else signs, and nobody else is debited elsewhere. -/
def By (A : Address → Prop) (token : Address) (w : World tok) : Label tok → Prop
  | .call tx => tx.By A
  | .token ledger => ∀ c, ¬ A c → tok.balance w.2 token c ≤ tok.balance ledger token c

/-- What has become of the money is what the addresses may do: deposit their own,
and, if the trade contract is one of them, pay out. -/
structure Confined (A : Address → Prop) (contract trade token : Address) (w v : World tok) :
    Prop where
  entries : ¬ A trade → ∀ id n, w.1.balances id = some n → v.1.balances id = some n
  purses : ∀ c, ¬ A c → c ≠ contract → tok.balance w.2 token c ≤ tok.balance v.2 token c
  vault : ¬ A trade → ¬ A contract →
    tok.balance w.2 token contract ≤ tok.balance v.2 token contract

theorem Confined.refl (A : Address → Prop) (self trade token : Address) (w : World tok) :
    Confined A self trade token w w :=
  ⟨fun _ _ _ found => found, fun _ _ _ => Int.le_refl _, fun _ _ => Int.le_refl _⟩

theorem Step.confined {env : Env} {trade token : Address} {w v u : World tok} {c : Call}
    {r : Return} (h : Step env v.1 v.2 c r u) (std : tok.Standard token)
    (hv : v.1.tradeContract = some trade ∧ v.1.tokenContract = some token)
    (by_A : ∀ a, env.auth a = true → A a) (hwv : Confined A env.current trade token w v) :
    Confined A env.current trade token w u := by
  cases h with
  | init unset =>
    rw [hv.1] at unset
    cases unset
  | get => exact hwv
  | @deposit id depositor token' amount l' auth vacant configured moved =>
    obtain rfl := Option.some.inj (hv.2.symm.trans configured)
    have hpos := ((std.accepts _ _ _ _).mp (Option.isSome_iff_exists.mpr ⟨l', moved⟩)).1
    -- whoever pays is one of the addresses
    have hpaid : ∀ c, ¬ A c → tok.balance v.2 token c ≤ tok.balance l' token c := by
      intro c hc
      have hne : c ≠ depositor := fun he => hc (he ▸ by_A _ auth)
      have hmoves := std.moves _ _ _ _ _ moved c
      rw [if_neg hne] at hmoves
      split at hmoves <;> omega
    refine ⟨?_, ?_, ?_⟩
    · intro htrade j n found
      have hold := hwv.entries htrade j n found
      have hne : j ≠ id := by
        intro he
        rw [he, vacant] at hold
        cases hold
      exact (Store.set_of_ne hne).trans hold
    · intro c hc hne
      exact Int.le_trans (hwv.purses c hc hne) (hpaid c hc)
    · intro htrade hself
      exact Int.le_trans (hwv.vault htrade hself) (hpaid _ hself)
  | @payOut kind id recipient trade' token' amount l' arbiter auth found configured moved =>
    obtain rfl := Option.some.inj (hv.1.symm.trans arbiter)
    obtain rfl := Option.some.inj (hv.2.symm.trans configured)
    have hmember : A trade := by_A _ auth
    have hpos := ((std.accepts _ _ _ _).mp (Option.isSome_iff_exists.mpr ⟨l', moved⟩)).1
    refine ⟨fun htrade => absurd hmember htrade, ?_, fun htrade => absurd hmember htrade⟩
    intro c hc hne
    have hmoves := std.moves _ _ _ _ _ moved c
    rw [if_neg hne] at hmoves
    have hbefore := hwv.purses c hc hne
    simp only
    split at hmoves <;> omega

theorem run_confined (self : Address) {trade token : Address} (std : tok.Standard token)
    {w : World tok} (htrade : w.1.tradeContract = some trade)
    (htoken : w.1.tokenContract = some token) {ls : List (Label tok)}
    (along : (machine tok self).Along (By A token) w ls) :
    Confined A self trade token w ((machine tok self).run w ls) := by
  refine (Machine.run_invariant_along (P := fun v : World tok =>
    (v.1.tradeContract = some trade ∧ v.1.tokenContract = some token) ∧
      Confined A self trade token w v) ?_ ⟨⟨htrade, htoken⟩, .refl A self trade token w⟩ along).2
  intro v l r u hv hby hexec
  cases l with
  | call tx =>
    have hstep := machine_ok.mp hexec
    have hkept := hstep.configuration (by simp [hv.1.1])
    refine ⟨?_, hstep.confined std hv.1 hby hv.2⟩
    rw [hkept.1, hkept.2]
    exact hv.1
  | token ledger =>
    cases hexec
    refine ⟨hv.1, hv.2.entries, ?_, ?_⟩
    · intro c hc hne
      exact Int.le_trans (hv.2.purses c hc hne) (hby c hc)
    · intro htrade hself
      exact Int.le_trans (hv.2.vault htrade hself) (hby self hself)

end EscrowContract

namespace DocumentContract

/-- No document is gone or other than it was submitted. The only new signatures
are theirs and the contract's own, under what it has submitted itself, and it
takes one of theirs to verify a document. -/
structure Confined (A : Address → Prop) (contract : Address) (s t : State) : Prop where
  kept : ∀ k document, s.documents k = some document →
    ∃ document', t.documents k = some document' ∧ document.Grows document'
  submitted : ∀ k document, t.documents k = some document →
    (s.documents k).isSome ∨ document.submitter = contract
  signers : ∀ k document, t.documents k = some document → ∀ a ∈ document.signers,
    A a ∨ (s.documents k = none ∧ a = contract) ∨
      ∃ old, s.documents k = some old ∧ a ∈ old.signers
  verified : ∀ k document, t.documents k = some document → document.verified = true →
    (s.documents k).map Document.verified = some true ∨
      ∃ a ∈ document.signers, A a ∧ ∀ old, s.documents k = some old → a ∉ old.signers

theorem Confined.refl (A : Address → Prop) (contract : Address) (s : State) :
    Confined A contract s s := by
  refine ⟨?_, ?_, ?_, ?_⟩
  · intro k document found
    exact ⟨document, found, .refl document⟩
  · intro k document found
    exact .inl (by simp [found])
  · intro k document found a ha
    exact .inr (.inr ⟨document, found, ha⟩)
  · intro k document found hverified
    exact .inl (by simp [found, hverified])

/-- Where a document found after a call comes from. -/
theorem Step.origin {env : Env} {s t : State} {c : Call} {r : Return} (h : Step env s c r t)
    {k : Key} {document : Document} (found : t.documents k = some document) :
    s.documents k = some document ∨
      (s.documents k = none ∧ document.submitter = env.current ∧
        document.signers = [env.current] ∧ document.verified = false) ∨
      ∃ old signer, s.documents k = some old ∧ env.auth signer = true ∧ signer ∉ old.signers ∧
        document = old.sign signer := by
  cases h with
  | init _ | verify | get _ | all => exact .inl found
  | submit absent =>
    rcases Store.set_eq_some found with ⟨rfl, rfl⟩ | ⟨-, hold⟩
    · exact .inr (.inl ⟨absent, rfl, rfl, rfl⟩)
    · exact .inl hold
  | @sign id d signer old auth hfound unsigned =>
    rcases Store.set_eq_some found with ⟨rfl, rfl⟩ | ⟨-, hold⟩
    · exact .inr (.inr ⟨old, signer, hfound, auth, unsigned, rfl⟩)
    · exact .inl hold

theorem Step.confined {env : Env} {s t u : State} {c : Call} {r : Return} (h : Step env t c r u)
    (by_A : ∀ a, env.auth a = true → A a) (hst : Confined A env.current s t) :
    Confined A env.current s u := by
  -- what is not there now was not there before
  have habsent : ∀ k, t.documents k = none → s.documents k = none := by
    intro k absent
    cases before : s.documents k with
    | none => rfl
    | some document =>
      obtain ⟨document', found, -⟩ := hst.kept k document before
      rw [absent] at found
      cases found
  refine ⟨?_, ?_, ?_, ?_⟩
  · intro k document found
    obtain ⟨document', found', hgrows⟩ := hst.kept k document found
    obtain ⟨document'', found'', hgrows'⟩ := h.grows found'
    exact ⟨document'', found'', hgrows.trans hgrows'⟩
  · intro k document found
    rcases h.origin found with hold | ⟨-, hsubmitter, -⟩ | ⟨old, signer, hold, -, -, rfl⟩
    · exact hst.submitted k document hold
    · exact .inr hsubmitter
    · exact hst.submitted k old hold
  · intro k document found a ha
    rcases h.origin found with hold | ⟨absent, -, hsigners, -⟩ | ⟨old, signer, hold, auth, -, rfl⟩
    · exact hst.signers k document hold a ha
    · rw [hsigners] at ha
      exact .inr (.inl ⟨habsent k absent, List.mem_singleton.mp ha⟩)
    · rcases List.mem_append.mp ha with hmem | hnew
      · exact hst.signers k old hold a hmem
      · obtain rfl := List.mem_singleton.mp hnew
        exact .inl (by_A _ auth)
  · intro k document found hverified
    rcases h.origin found with hold | ⟨-, -, -, hnot⟩ | ⟨old, signer, hold, auth, unsigned, rfl⟩
    · exact hst.verified k document hold hverified
    · rw [hnot] at hverified
      cases hverified
    · refine .inr ⟨signer, by simp [Document.sign], by_A _ auth, ?_⟩
      intro first hfirst hmem
      obtain ⟨later, hlater, -, -, -, -, -, -, hsigners, -⟩ := hst.kept k first hfirst
      obtain rfl := Option.some.inj (hlater.symm.trans hold)
      exact unsigned (hsigners.subset hmem)

theorem run_confined (self : Address) (s : State) {ls : List (Tx Call)}
    (along : (machine self).Along (fun _ tx => tx.By A) s ls) :
    Confined A self s ((machine self).run s ls) := by
  refine Machine.run_invariant_along (P := Confined A self s) ?_ (.refl A self s) along
  intro t tx r u ht hby hexec
  exact (machine_ok.mp hexec).confined hby ht

end DocumentContract

namespace RegistryContract

/-- Without the admin nothing happens to the registry. -/
theorem run_confined (self : Address) {admin : Address} {s : State} (hs : s.admin = some admin)
    (hadmin : ¬ A admin) {ls : List (Tx Call)}
    (along : (machine self).Along (fun _ tx => tx.By A) s ls) :
    (machine self).run s ls = s := by
  refine Machine.run_invariant_along (P := fun t => t = s) ?_ rfl along
  intro t tx r u ht hby hexec
  subst ht
  have hstep := machine_ok.mp hexec
  generalize tx.call = c at hstep
  cases hstep with
  | init unset =>
    rw [hs] at unset
    cases unset
  | register governed auth _ | revoke governed auth _ =>
    obtain rfl := Option.some.inj (hs.symm.trans governed)
    exact absurd (hby _ auth) hadmin
  | authorised | get _ | admin _ => rfl

end RegistryContract

namespace Network
variable {tok : Token} {sites : Sites} {admin : Address}

/-- Nobody else has signed the call, and nobody else's tokens are moved. -/
def By (A : Address → Prop) (sites : Sites) : State tok → Label tok → Prop :=
  Machine.Either
    (Machine.Either (fun _ tx => tx.By A) (EscrowContract.By A sites.token))
    (Machine.Either (fun _ tx => tx.By A) (fun _ tx => tx.By A))

/-- The addresses have done no more than they may on any of the contracts. -/
structure Confined (A : Address → Prop) (sites : Sites) (admin : Address) (ls : List (Label tok))
    (s t : State tok) : Prop where
  trade : TradeContract.Confined A sites.escrow (fun n => ∃ tx ∈ trades ls, n ≤ tx.sequence)
    s.1.1 t.1.1
  escrow : EscrowContract.Confined A sites.escrow sites.trade sites.token s.1.2 t.1.2
  document : DocumentContract.Confined A sites.document s.2.1 t.2.1
  registry : ¬ A admin → t.2.2 = s.2.2

/-- What a set of addresses can do together, however they interleave their
calls from a state anybody may have led to. They open, confirm and cancel trades
only in their own names, settle only what is marked and expire only what is due,
change no terms, spend their own tokens only, sign documents only for themselves
and change nothing else of them, and without the trade contract or the admin
among them they get nothing out of the escrow and change nothing in the
registry. -/
theorem coalition_confined (std : tok.Standard sites.token) (ledger : tok.Ledger)
    (before : List (Label tok)) {ls : List (Label tok)}
    (along : (machine tok sites).Along (By A sites)
      ((machine tok sites).run (deployed sites admin ledger) before) ls) :
    Confined A sites admin ls ((machine tok sites).run (deployed sites admin ledger) before)
      ((machine tok sites).run (deployed sites admin ledger) (before ++ ls)) := by
  have hconf := run_configured (deployed_configured sites admin ledger) before
  rw [Machine.run_append]
  generalize (machine tok sites).run (deployed sites admin ledger) before = s at *
  obtain ⟨hleft, hright⟩ := Machine.beside_along along
  obtain ⟨htrade, hescrow⟩ := Machine.beside_along hleft
  obtain ⟨hdocument, hregistry⟩ := Machine.beside_along hright
  rw [run_parts]
  exact ⟨TradeContract.run_confined sites.trade hconf.escrow hconf.bounded htrade,
    EscrowContract.run_confined sites.escrow std hconf.trade hconf.token hescrow,
    DocumentContract.run_confined sites.document s.2.1 hdocument,
    fun hadmin => RegistryContract.run_confined sites.registry hconf.admin hadmin hregistry⟩

/-- A stranger signs a document that anybody may submit, and fails to cancel a
trade of others. -/
def strangerCalls : List (Label plainToken) :=
  [.inr (.inl (signed [] 2 (.submitDocument 1 .billOfLading (Vector.replicate 32 1)
     "ipfs://QmTest123"))),
   .inr (.inl (signed [.account 66] 3 (.signDocument 1 .billOfLading (.account 66)))),
   .inl (.inl (signed [.account 66] 4 (.cancelTrade 1 (.account 66))))]

theorem stranger_confined :
    Confined (fun a => a = .account 66) testSites (.account 0) strangerCalls
      ((machine plainToken testSites).run
        (deployed testSites (.account 0) EscrowContract.funded)
        [.inl (.inl (signed [.account 3] 1 (.createTrade TradeContract.letterOfCredit)))])
      ((machine plainToken testSites).run
        (deployed testSites (.account 0) EscrowContract.funded)
        ([.inl (.inl (signed [.account 3] 1 (.createTrade TradeContract.letterOfCredit)))] ++
          strangerCalls)) := by
  refine coalition_confined (plain_token_standard _) EscrowContract.funded _ ?_
  refine Machine.along_cons.mpr ⟨?_, Machine.along_cons.mpr ⟨?_, Machine.along_cons.mpr
    ⟨?_, Machine.along_nil _ _⟩⟩⟩
  · exact fun a ha => by simp [signed] at ha
  · exact fun a ha => by simpa [signed] using ha
  · exact fun a ha => by simpa [signed] using ha

end Network
end Azaka
