import Azaka.Library.Latch
import Azaka.Proofs.NetworkRuns

namespace Azaka
open Keyed Stepwise

/-- Two addresses that are configured together. -/
def both (a b : Option Address) : Option (Address × Address) :=
  a.bind fun x => b.map fun y => (x, y)

@[simp] theorem both_none (b : Option Address) : both none b = none := rfl

theorem both_parts {a b : Option Address} (h : a.isSome = b.isSome) :
    a = (both a b).map Prod.fst ∧ b = (both a b).map Prod.snd := by
  cases a <;> cases b <;> simp_all [both]

namespace TradeContract

/-- What `initialize` is told. -/
def settings (tx : Tx Call) : Option (Address × Address) :=
  match tx.call with
  | .init escrow document => some (escrow, document)
  | _ => none

def State.Paired (s : State) : Prop := s.escrowContract.isSome = s.documentContract.isSome

theorem Step.paired {env : Env} {s t : State} {c : Call} {r : Return} (h : Step env s c r t)
    (hs : s.Paired) : t.Paired := by
  cases h with
  | init _ => rfl
  | create _ _ | edit _ _ | get _ | list => exact hs

theorem settings_latch (self : Address) :
    Latch (machine self) (fun s => both s.escrowContract s.documentContract) settings where
  set s tx r t a h harms := by
    have hstep := machine_ok.mp h
    unfold settings at harms
    generalize tx.call = c at hstep harms
    cases hstep with
    | init unset => exact ⟨by rw [unset, both_none], harms⟩
    | create _ _ | get _ | list => cases harms
    | edit _ edit => cases edit <;> cases harms
  keep s tx r t h harms := by
    have hstep := machine_ok.mp h
    unfold settings at harms
    generalize tx.call = c at hstep harms
    cases hstep with
    | init _ => cases harms
    | create _ _ | edit _ _ | get _ | list => rfl

/-- Nothing is asked of the first call of `initialize`. -/
theorem init_accepted {self : Address} {s : State} {tx : Tx Call} {a : Address × Address}
    (hs : s.escrowContract = none) (h : settings tx = some a) : (machine self).Accepts s tx := by
  obtain ⟨auth, sequence, call⟩ := tx
  cases call with
  | init e d => exact ⟨.unit, s.configured e d, machine_ok.mpr (.init hs)⟩
  | createTrade _ | confirmTrade _ _ | markEscrowDeposited _ | cancelTrade _ _ | expireTrade _
  | settleTrade _ | getTrade _ | listTradesByExporter _ => cases h

theorem first_settings (self : Address) (ls : List (Tx Call)) :
    ((machine self).run .empty ls).escrowContract = (ls.findSome? settings).map Prod.fst ∧
      ((machine self).run .empty ls).documentContract = (ls.findSome? settings).map Prod.snd := by
  have hclosed : ∀ s tx r t, State.Paired s → (machine self).exec tx s = .ok (r, t) → t.Paired :=
    fun s tx r t hs he => (machine_ok.mp he).paired hs
  have hfirst := (settings_latch self).first_decides (s := .empty) hclosed
    (fun s tx a hs hnone => init_accepted (by rw [(both_parts hs).1, hnone, Option.map_none]))
    rfl rfl ls
  have hpaired : ((machine self).run .empty ls).Paired :=
    Machine.run_invariant (fun s tx r t hs he => hclosed s tx r t hs he) ls rfl
  rw [← hfirst]
  exact both_parts hpaired

end TradeContract

namespace EscrowContract
variable {tok : Token}

def settings : Label tok → Option (Address × Address)
  | .call tx =>
    match tx.call with
    | .init trade token => some (trade, token)
    | _ => none
  | .token _ => none

def Paired (w : World tok) : Prop := w.1.tradeContract.isSome = w.1.tokenContract.isSome

theorem exec_paired {self : Address} {w v : World tok} {l : Label tok} {r : Return} (hw : Paired w)
    (h : (machine tok self).exec l w = .ok (r, v)) : Paired v := by
  cases l with
  | token ledger =>
    cases h
    exact hw
  | call tx =>
    have hstep := machine_ok.mp h
    generalize tx.call = c at hstep
    cases hstep with
    | init _ => rfl
    | deposit _ _ _ _ | payOut _ _ _ _ _ _ | get => exact hw

theorem settings_latch (self : Address) :
    Latch (machine tok self) (fun w => both w.1.tradeContract w.1.tokenContract) settings where
  set w l r v a h harms := by
    cases l with
    | token ledger => cases harms
    | call tx =>
      have hstep := machine_ok.mp h
      simp only [settings] at harms
      generalize tx.call = c at hstep harms
      cases hstep with
      | init unset => exact ⟨by rw [unset, both_none], harms⟩
      | deposit _ _ _ _ | get => cases harms
      | payOut kind _ _ _ _ _ => cases kind <;> cases harms
  keep w l r v h harms := by
    cases l with
    | token ledger =>
      cases h
      rfl
    | call tx =>
      have hstep := machine_ok.mp h
      simp only [settings] at harms
      generalize tx.call = c at hstep harms
      cases hstep with
      | init _ => cases harms
      | deposit _ _ _ _ | payOut _ _ _ _ _ _ | get => rfl

theorem init_accepted {self : Address} {w : World tok} {l : Label tok} {a : Address × Address}
    (hw : w.1.tradeContract = none) (h : settings l = some a) : (machine tok self).Accepts w l := by
  cases l with
  | token ledger => cases h
  | call tx =>
    obtain ⟨auth, sequence, call⟩ := tx
    cases call with
    | init trade token => exact ⟨.unit, _, machine_ok.mpr (.init hw)⟩
    | deposit _ _ _ | release _ _ | refund _ _ | getBalance _ => cases h

theorem first_settings (self : Address) (ledger : tok.Ledger) (ls : List (Label tok)) :
    ((machine tok self).run (.empty, ledger) ls).1.tradeContract =
        (ls.findSome? settings).map Prod.fst ∧
      ((machine tok self).run (.empty, ledger) ls).1.tokenContract =
        (ls.findSome? settings).map Prod.snd := by
  have hfirst := (settings_latch self).first_decides (s := (State.empty, ledger))
    (P := fun w : World tok => Paired w) (fun w l r v hw he => exec_paired hw he)
    (fun w l a hw hnone => init_accepted (by rw [(both_parts hw).1, hnone, Option.map_none]))
    rfl rfl ls
  have hpaired : Paired ((machine tok self).run (.empty, ledger) ls) :=
    Machine.run_invariant (P := fun w : World tok => Paired w)
      (fun w l r v hw he => exec_paired hw he) ls rfl
  rw [← hfirst]
  exact both_parts hpaired

end EscrowContract

namespace DocumentContract

def settings (tx : Tx Call) : Option Address :=
  match tx.call with
  | .init registry => some registry
  | _ => none

theorem settings_latch (self : Address) :
    Latch (machine self) State.registryContract settings where
  set s tx r t a h harms := by
    have hstep := machine_ok.mp h
    unfold settings at harms
    generalize tx.call = c at hstep harms
    cases hstep with
    | init unset => exact ⟨unset, harms⟩
    | submit _ | sign _ _ _ | verify | get _ | all => cases harms
  keep s tx r t h harms := by
    have hstep := machine_ok.mp h
    unfold settings at harms
    generalize tx.call = c at hstep harms
    cases hstep with
    | init _ => cases harms
    | submit _ | sign _ _ _ | verify | get _ | all => rfl

theorem init_accepted {self : Address} {s : State} {tx : Tx Call} {a : Address}
    (hs : s.registryContract = none) (h : settings tx = some a) : (machine self).Accepts s tx := by
  obtain ⟨auth, sequence, call⟩ := tx
  cases call with
  | init registry => exact ⟨.unit, s.configured registry, machine_ok.mpr (.init hs)⟩
  | submitDocument _ _ _ _ | signDocument _ _ _ | verifyDocument _ _ | getDocument _ _
  | allDocsVerified _ _ => cases h

theorem first_settings (self : Address) (ls : List (Tx Call)) :
    ((machine self).run .empty ls).registryContract = ls.findSome? settings :=
  (settings_latch self).first_decides (P := fun _ => True) (fun _ _ _ _ _ _ => trivial)
    (fun _ _ _ _ hs h => init_accepted hs h) trivial rfl ls

end DocumentContract

namespace RegistryContract

theorem init_accepted {self : Address} {s : State} {tx : Tx Call} {a : Address}
    (hs : s.admin = none) (h : tx.call.appoints = some a) : (machine self).Accepts s tx := by
  obtain ⟨auth, sequence, call⟩ := tx
  cases call with
  | init admin => exact ⟨.unit, _, machine_ok.mpr (.init hs)⟩
  | registerParticipant _ _ _ _ | isAuthorised _ _ | revokeParticipant _ | getParticipant _
  | getAdmin => cases h

theorem first_settings (self : Address) (ls : List (Tx Call)) :
    ((machine self).run .empty ls).admin = ls.findSome? fun tx => tx.call.appoints :=
  (admin_latch self).first_decides (P := fun _ => True) (fun _ _ _ _ _ _ => trivial)
    (fun _ _ _ _ hs h => init_accepted hs h) trivial rfl ls

end RegistryContract

namespace Network
variable {tok : Token}

/-- The four contracts as they are created, before anybody has called them. -/
def created (ledger : tok.Ledger) : State tok :=
  ((.empty, .empty, ledger), .empty, .empty)

/-- Whoever comes first configures a contract, signed or not, and nobody after
that. Each of the four contracts goes by the arguments of the first
`initialize` that reached it. -/
theorem first_initialize_decides (sites : Sites) (ledger : tok.Ledger) (ls : List (Label tok)) :
    let s := (machine tok sites).run (created ledger) ls
    (s.1.1.escrowContract = ((trades ls).findSome? TradeContract.settings).map Prod.fst ∧
      s.1.1.documentContract = ((trades ls).findSome? TradeContract.settings).map Prod.snd) ∧
    (s.1.2.1.tradeContract = ((escrows ls).findSome? EscrowContract.settings).map Prod.fst ∧
      s.1.2.1.tokenContract = ((escrows ls).findSome? EscrowContract.settings).map Prod.snd) ∧
    s.2.1.registryContract = (documents ls).findSome? DocumentContract.settings ∧
    s.2.2.admin = (registries ls).findSome? fun tx => tx.call.appoints := by
  intro s
  simp only [s, run_parts]
  exact ⟨TradeContract.first_settings sites.trade (trades ls),
    EscrowContract.first_settings sites.escrow ledger (escrows ls),
    DocumentContract.first_settings sites.document (documents ls),
    RegistryContract.first_settings sites.registry (registries ls)⟩

end Network
end Azaka
