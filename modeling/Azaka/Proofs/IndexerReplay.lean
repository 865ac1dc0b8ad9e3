import Azaka.Library.Journal
import Azaka.Model.Indexer
import Azaka.Proofs.DocumentRuns
import Azaka.Proofs.EscrowSteps
import Azaka.Proofs.RegistrySteps
import Azaka.Proofs.TradeSteps

namespace Azaka
open Keyed Stepwise

namespace TradeContract

def State.records (s : State) : Indexer.Trades where
  trades := s.trades
  exporterTrades := s.exporterTrades

/-- Each status call publishes enough to make the same edit. -/
theorem Edit.replayed {env : Env} {escrow : Option Address} {c : Call} {id : UInt64}
    {trade trade' : Trade} {event : TradeEvent} (h : Edit env escrow c id trade trade' event)
    {r : Indexer.Trades} (found : r.trades id = some trade) :
    r.apply event = { r with trades := r.trades.set id trade' } := by
  cases h with
  | confirm _ _ | mark _ _ _ | cancel _ _ _ | expire _ _ | settle _ =>
    simp only [Indexer.Trades.apply, Indexer.Trades.amend, Store.amend_some _ found]

theorem journal (self : Address) :
    Journal (machine self) State.events State.records Indexer.Trades.apply (fun _ => True) where
  keep _ _ _ _ _ _ := trivial
  told s tx r t h _ := by
    have hstep := machine_ok.mp h
    generalize tx.call = c at hstep
    cases hstep with
    | create _ _ => exact ⟨[_], rfl, rfl⟩
    | edit found edit => exact ⟨[_], rfl, (edit.replayed (r := s.records) found).symm⟩
    | init _ | get _ | list => exact ⟨[], by simp [State.configured], rfl⟩

end TradeContract

namespace EscrowContract

theorem journal (tok : Token) (self : Address) :
    Journal (machine tok self) (fun w => w.1.events) (fun w => w.1.balances)
      Indexer.Balances.apply (fun _ => True) where
  keep _ _ _ _ _ _ := trivial
  told w l r v h _ := by
    cases l with
    | token ledger =>
      cases h
      exact ⟨[], by simp, rfl⟩
    | call tx =>
      have hstep := machine_ok.mp h
      generalize tx.call = c at hstep
      cases hstep with
      | deposit _ _ _ _ => exact ⟨[_], rfl, rfl⟩
      | payOut kind _ _ _ _ _ => exact ⟨[_], rfl, by cases kind <;> rfl⟩
      | init _ | get => exact ⟨[], by simp [State.configured], rfl⟩

end EscrowContract

namespace DocumentContract

/-- The events of a signature, the verification among them, make the document
what `sign_document` makes it. -/
theorem sign_replayed {r : Indexer.Documents} {id : UInt64} {d : DocumentType}
    {document : Document} (found : r (id, d) = some document) (signer : Address) :
    (signEvents id d signer (document.sign signer).verified).foldl Indexer.Documents.apply r =
      r.set (id, d) (document.sign signer) := by
  cases hv : (document.sign signer).verified with
  | true =>
    have hsigned : document.sign signer =
        { document with signers := document.signers ++ [signer], verified := true } := by
      rw [← hv]
      rfl
    simp [signEvents, Indexer.Documents.apply, Store.amend_some _ found, hsigned]
  | false =>
    have hsigned : document.sign signer =
        { document with signers := document.signers ++ [signer] } := by
      have hold : document.verified = false := (Bool.or_eq_false_iff.mp hv).1
      have hnew : (document.sign signer).verified = document.verified := hv.trans hold.symm
      conv_rhs => rw [← hnew]
      rfl
    simp [signEvents, Indexer.Documents.apply, Store.amend_some _ found, hsigned]

theorem journal (self : Address) :
    Journal (machine self) State.events State.documents Indexer.Documents.apply
      (fun s => ∀ d, (s.requiredSignatures d).getD 2 = 2) where
  keep s tx r t h hs := by
    have hstep := machine_ok.mp h
    generalize tx.call = c at hstep
    cases hstep with
    | init _ => exact configured_threshold hs _
    | submit _ | sign _ _ _ | verify | get _ | all => exact hs
  told s tx r t h hs := by
    have hstep := machine_ok.mp h
    generalize tx.call = c at hstep
    cases hstep with
    | submit _ =>
      refine ⟨[_], rfl, ?_⟩
      simp [State.put, submitted, Indexer.Documents.apply, hs]
    | sign _ found _ => exact ⟨_, rfl, (sign_replayed found _).symm⟩
    | init _ | verify | get _ | all => exact ⟨[], by simp [State.configured], rfl⟩

end DocumentContract

namespace RegistryContract

theorem journal (self : Address) :
    Journal (machine self) State.events State.participants Indexer.Participants.apply
      (fun _ => True) where
  keep _ _ _ _ _ _ := trivial
  told s tx r t h _ := by
    have hstep := machine_ok.mp h
    generalize tx.call = c at hstep
    cases hstep with
    | register _ _ _ => exact ⟨[_], rfl, rfl⟩
    | revoke _ _ found =>
      refine ⟨[_], rfl, ?_⟩
      simp [State.put, Participant.revoked, Indexer.Participants.apply, Store.amend_some _ found]
    | init _ | authorised | get _ | admin _ => exact ⟨[], by simp, rfl⟩

end RegistryContract

namespace Indexer

/-- The events each contract publishes determine its records: they are the
replay of the events, so that runs with the same events end with the same
records. -/
theorem events_determine_records (tok : Token) :
    Determined TradeContract.State.events TradeContract.State.records trades
      (fun s => ∃ self ls, s = (TradeContract.machine self).run .empty ls) ∧
    Determined (fun w : EscrowContract.World tok => w.1.events) (fun w => w.1.balances) balances
      (fun w => ∃ self ledger ls, w = (EscrowContract.machine tok self).run (.empty, ledger) ls) ∧
    Determined DocumentContract.State.events DocumentContract.State.documents documents
      (fun s => ∃ self ls, s = (DocumentContract.machine self).run .empty ls) ∧
    Determined RegistryContract.State.events RegistryContract.State.participants participants
      (fun s => ∃ self ls, s = (RegistryContract.machine self).run .empty ls) := by
  refine ⟨determined_of_replayed ?_, determined_of_replayed ?_, determined_of_replayed ?_,
    determined_of_replayed ?_⟩
  · intro s hs
    obtain ⟨self, ls, rfl⟩ := hs
    exact (TradeContract.journal self).run_replayed trivial rfl ls
  · intro w hw
    obtain ⟨self, ledger, ls, rfl⟩ := hw
    exact (EscrowContract.journal tok self).run_replayed trivial rfl ls
  · intro s hs
    obtain ⟨self, ls, rfl⟩ := hs
    exact (DocumentContract.journal self).run_replayed (fun _ => rfl) rfl ls
  · intro s hs
    obtain ⟨self, ls, rfl⟩ := hs
    exact (RegistryContract.journal self).run_replayed trivial rfl ls

/-- A participant is registered and revoked, and somebody asks in between. -/
def queriedRun : List (Tx RegistryContract.Call) :=
  [signed [] 1 (.init (.account 0)),
   signed [.account 0] 2
     (.registerParticipant (.account 9) .freightForwarder "DHL Freight" "Kenya"),
   signed [] 3 (.isAuthorised (.account 9) .freightForwarder),
   signed [.account 0] 4 (.revokeParticipant (.account 9))]

theorem queried_run_replayed :
    ((RegistryContract.machine (.contract 8)).run .empty queriedRun).participants =
      participants
        [.regPart (.account 9) (RegistryContract.registered (.account 9) .freightForwarder
          "DHL Freight" "Kenya"), .revPart (.account 9)] :=
  (events_determine_records plainToken).2.2.2.1 _ ⟨.contract 8, queriedRun, rfl⟩

end Indexer
end Azaka
