import Azaka.Model.Network
import Azaka.Proofs.DocumentIsolation
import Azaka.Proofs.EscrowPayouts
import Azaka.Proofs.RegistrySteps
import Azaka.Proofs.TradeRuns

namespace Azaka
open Keyed Stepwise

namespace EscrowContract
variable {tok : Token}

/-- Once configured, the escrow keeps its configuration. -/
theorem Step.configuration {env : Env} {s : State} {l : tok.Ledger} {c : Call} {r : Return}
    {w : World tok} (h : Step env s l c r w) (hs : s.tradeContract.isSome) :
    w.1.tradeContract = s.tradeContract ∧ w.1.tokenContract = s.tokenContract := by
  cases h with
  | init unset =>
    rw [unset] at hs
    cases hs
  | deposit _ _ _ _ | payOut _ _ _ _ _ _ | get => exact ⟨rfl, rfl⟩

theorem run_configuration (self : Address) {trade token : Address} {w : World tok}
    (htrade : w.1.tradeContract = some trade) (htoken : w.1.tokenContract = some token)
    (ls : List (Label tok)) : ((machine tok self).run w ls).1.tradeContract = some trade ∧
      ((machine tok self).run w ls).1.tokenContract = some token := by
  refine Machine.run_invariant
    (P := fun v : World tok => v.1.tradeContract = some trade ∧ v.1.tokenContract = some token)
    ?_ ls ⟨htrade, htoken⟩
  intro a l r b ha hexec
  cases l with
  | token ledger =>
    cases hexec
    exact ha
  | call tx =>
    have hkept := (machine_ok.mp hexec).configuration (by simp [ha.1])
    rwa [hkept.1, hkept.2]

end EscrowContract

namespace DocumentContract

theorem run_configuration (self : Address) {registry : Address} {s : State}
    (hregistry : s.registryContract = some registry) (hs : s.TwoEach) (ls : List (Tx Call)) :
    ((machine self).run s ls).registryContract = some registry ∧
      ((machine self).run s ls).TwoEach := by
  refine Machine.run_invariant
    (P := fun t : State => t.registryContract = some registry ∧ t.TwoEach) ?_ ls ⟨hregistry, hs⟩
  intro a tx r b ha hexec
  have hstep := machine_ok.mp hexec
  refine ⟨?_, hstep.two_each ha.2⟩
  generalize tx.call = c at hstep
  cases hstep with
  | init unset =>
    rw [ha.1] at unset
    cases unset
  | submit _ | sign _ _ _ | verify | get _ | all => exact ha.1

end DocumentContract

namespace Network
variable {tok : Token} {sites : Sites} {admin : Address}

/-- Each contract still refers to the others as it was told to, and the ids and
thresholds in use are as they should be. -/
structure Configured (sites : Sites) (admin : Address) (s : State tok) : Prop where
  escrow : s.1.1.escrowContract = some sites.escrow
  bounded : TradeContract.Bounded s.1.1
  trade : s.1.2.1.tradeContract = some sites.trade
  token : s.1.2.1.tokenContract = some sites.token
  registry : s.2.1.registryContract = some sites.registry
  thresholds : s.2.1.TwoEach
  admin : s.2.2.admin = some admin

theorem deployed_configured (sites : Sites) (admin : Address) (ledger : tok.Ledger) :
    Configured sites admin (deployed sites admin ledger) := by
  refine ⟨rfl, ?_, rfl, rfl, rfl, fun _ => rfl, rfl⟩
  intro id trade found
  cases found

theorem run_configured {s : State tok} (h : Configured sites admin s) (ls : List (Label tok)) :
    Configured sites admin ((machine tok sites).run s ls) := by
  rw [run_parts]
  obtain ⟨hescrow, hbounded⟩ :=
    TradeContract.run_configured sites.trade h.escrow h.bounded (trades ls)
  obtain ⟨htrade, htoken⟩ :=
    EscrowContract.run_configuration sites.escrow h.trade h.token (escrows ls)
  obtain ⟨hregistry, hthresholds⟩ :=
    DocumentContract.run_configuration sites.document h.registry h.thresholds (documents ls)
  exact ⟨hescrow, hbounded, htrade, htoken, hregistry, hthresholds,
    (RegistryContract.admin_latch sites.registry).run_kept (registries ls) h.admin⟩

end Network
end Azaka
