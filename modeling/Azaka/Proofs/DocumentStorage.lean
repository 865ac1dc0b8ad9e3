import Azaka.Model.DocumentProgram
import Azaka.Proofs.Hosting

namespace Azaka.DocumentContract
open Keyed Stepwise Wire

/-- The configuration is kept with the instance, the documents on their own. -/
def cells (s : State) : Durability → Store DataKey Val
  | .ofInstance, .registryContract => s.registryContract.map Val.addressCodec.encode
  | .ofInstance, .requiredSignatures d => (s.requiredSignatures d).map Val.u32Codec.encode
  | .persistent, .document id d => (s.documents (id, d)).map Document.codec.encode
  | _, _ => none

def hosting : Hosting State DataKey Unit where
  key := DataKey.codec
  cells := cells
  events s := s.events.map DocumentEvent.published
  beyond _ := ()

def State.stored (s : State) : HostState Unit := hosting.stored s

variable {s : State}

theorem has_registry_contract :
    (Program.has .ofInstance DataKey.registryContract.val).run s.stored =
      .ok (s.registryContract.isSome, s.stored) :=
  Hosting.has_run (H := hosting) (o := s.registryContract) (c := Val.addressCodec) rfl

theorem get_required_signatures (d : DocumentType) :
    (Program.get .ofInstance (DataKey.requiredSignatures d).val Val.u32Codec).run s.stored =
      .ok (s.requiredSignatures d, s.stored) :=
  Hosting.get_run (H := hosting) rfl

theorem has_document (id : UInt64) (d : DocumentType) :
    (Program.has .persistent (DataKey.document id d).val).run s.stored =
      .ok ((s.documents (id, d)).isSome, s.stored) :=
  Hosting.has_run (H := hosting) (o := s.documents (id, d)) (c := Document.codec) rfl

theorem get_document (id : UInt64) (d : DocumentType) :
    (Program.get .persistent (DataKey.document id d).val Document.codec).run s.stored =
      .ok (s.documents (id, d), s.stored) :=
  Hosting.get_run (H := hosting) rfl

theorem set_registry_contract (a : Address) :
    (Program.set .ofInstance DataKey.registryContract.val Val.addressCodec a).run s.stored =
      .ok ((), { s with registryContract := some a }.stored) := by
  refine Hosting.set_run (H := hosting) (s := s) (k := .registryContract) ?_ rfl rfl
  funext d k
  cases d <;> cases k <;> rfl

theorem set_required_signatures (d : DocumentType) (n : UInt32) :
    (Program.set .ofInstance (DataKey.requiredSignatures d).val Val.u32Codec n).run s.stored =
      .ok ((), { s with requiredSignatures := s.requiredSignatures.set d n }.stored) := by
  refine Hosting.set_run (H := hosting) (s := s) (k := .requiredSignatures d) ?_ rfl rfl
  funext p k
  cases p with
  | persistent => cases k <;> rfl
  | ofInstance =>
    cases k with
    | requiredSignatures e =>
      by_cases h : e = d
      · subst h
        simp [hosting, cells]
      · simp [hosting, cells, h]
    | document _ _ | registryContract => rfl

theorem set_document (id : UInt64) (d : DocumentType) (document : Document) :
    (Program.set .persistent (DataKey.document id d).val Document.codec document).run s.stored =
      .ok ((), { s with documents := s.documents.set (id, d) document }.stored) := by
  refine Hosting.set_run (H := hosting) (s := s) (k := .document id d) ?_ rfl rfl
  funext p k
  cases p with
  | ofInstance => cases k <;> rfl
  | persistent =>
    cases k with
    | document id' d' =>
      by_cases h : (id', d') = (id, d)
      · obtain ⟨rfl, rfl⟩ := Prod.mk.inj h
        simp [hosting, cells]
      · have hkey : DataKey.document id' d' ≠ DataKey.document id d := by simpa using h
        simp [hosting, cells, h, hkey]
    | registryContract | requiredSignatures _ => rfl

theorem publish_event (e : DocumentEvent) :
    (Program.publish e.published.1 e.published.2).run s.stored =
      .ok ((), { s with events := s.events ++ [e] }.stored) :=
  Hosting.publish_run (H := hosting) (s := s) rfl (by simp [hosting]) rfl

theorem init_follows (r : Address) :
    hosting.Keeps DocumentError.code .trapped ((), ·) (Program.Document.init r) s (init r s) := by
  unfold init
  refine .step has_registry_contract ?_
  cases s.registryContract with
  | some _ => rfl
  | none =>
    refine .step (set_registry_contract r) ?_
    refine .step (set_required_signatures .billOfLading 2) ?_
    refine .step (set_required_signatures .certificateOfOrigin 2) ?_
    refine .step (set_required_signatures .inspectionCertificate 2) ?_
    refine .step (set_required_signatures .phytosanitaryCertificate 2) ?_
    exact .done (set_required_signatures .customsDeclaration 2) rfl

theorem submit_document_follows (env : Env) (id : UInt64) (d : DocumentType) (h : BytesN 32)
    (u : String) :
    hosting.Keeps DocumentError.code .trapped ((), ·)
      (Program.Document.submitDocument env id d h u) s
      (submitDocument env id d h u s) := by
  refine .step (has_document id d) ?_
  refine .guard (by cases s.documents (id, d) <;> simp) ?_
  intro _
  refine .step (get_required_signatures d) ?_
  refine .step (set_document id d _) ?_
  exact .done (publish_event (.subDoc id d env.current h u)) rfl

/-- The scan returns early at the signer, or comes to its end. -/
theorem scan_looks (a : Address) (signers : List Address) :
    Hosting.Looks (Fault.host DocumentError.code .trapped) id
      (forIn signers PUnit.unit fun existingSigner _ =>
        if (existingSigner == a) = true then do
          Program.fail DocumentError.alreadySigned.code
          pure (ForInStep.yield PUnit.unit)
        else pure (ForInStep.yield PUnit.unit)) s.stored
      (ensure (!signers.any fun existing => existing == a) .alreadySigned) := by
  induction signers with
  | nil => rfl
  | cons b signers ih =>
    unfold Hosting.Looks at ih ⊢
    rw [List.forIn_cons]
    cases h : b == a with
    | true =>
      simp only [h, if_true, List.any_cons, Bool.true_or]
      rfl
    | false =>
      simp only [h, List.any_cons, Bool.false_or]
      exact ih

/-- The record is written, and the second event depends on it. -/
theorem signed_follows (id : UInt64) (d : DocumentType) (a : Address) (signed : Document) :
    hosting.Keeps DocumentError.code .trapped ((), ·)
      (do Program.set .persistent (DataKey.document id d).val Document.codec signed
          Program.publish [.symbol "sign_doc", .u64 id, docTypeCodec.encode d] (.address a)
          if signed.verified then
            Program.publish [.symbol "ver_doc", .u64 id, docTypeCodec.encode d] .void
          else pure ()) s
      (.ok { s with
        documents := s.documents.set (id, d) signed
        events := s.events ++ .signDoc id d a ::
          if signed.verified then [.verDoc id d] else [] }) := by
  refine .step (set_document id d signed) ?_
  refine .step (publish_event (.signDoc id d a)) ?_
  cases signed.verified with
  | true =>
    refine .done (publish_event (.verDoc id d)) ?_
    simp only [List.append_assoc]
    rfl
  | false => rfl

theorem sign_document_follows (env : Env) (id : UInt64) (d : DocumentType) (a : Address) :
    hosting.Keeps DocumentError.code .trapped ((), ·) (Program.Document.signDocument env id d a) s
      (signDocument env id d a s) := by
  refine .look (Hosting.looks_require_auth env a) ?_
  intro _ _
  refine .step (get_document id d) ?_
  refine .look (Hosting.looks_ok_or DocumentError.documentNotFound _) ?_
  intro document _
  refine .look (scan_looks a document.signers) ?_
  intro _ _
  dsimp only [id_eq]
  generalize hsigned : document.sign a = signed
  split
  · rename_i henough
    have hrecord : signed =
        { document with signers := document.signers ++ [a], verified := true } := by
      simp only [← hsigned, Document.sign, decide_eq_true henough, Bool.or_true]
    subst hrecord
    exact signed_follows id d a _
  · rename_i hfew
    have hrecord : signed = { document with signers := document.signers ++ [a] } := by
      simp only [← hsigned, Document.sign, decide_eq_false hfew, Bool.or_false]
    subst hrecord
    exact signed_follows id d a _

theorem verify_document_run (id : UInt64) (d : DocumentType) :
    (Program.Document.verifyDocument id d).run s.stored =
      .ok (verifyDocument id d s, s.stored) := by
  unfold verifyDocument
  refine (Program.run_ok (get_document id d)).trans ?_
  cases s.documents (id, d) <;> rfl

/-- The documents a list begins with, up to what is no document type. -/
def leading : List Val → List DocumentType
  | [] => []
  | v :: vs =>
    match docTypeCodec.decode v with
    | some d => d :: leading vs
    | none => []

/-- What `all_docs_verified` comes to on a list as it comes in. A document that is
not verified ends the loop before what comes after it is read. -/
def allDocsVerifiedRead (id : UInt64) (docs : List Val) (s : State) : Except HostError Bool :=
  match docTypeCodec.list.decode docs with
  | some docs => .ok (allDocsVerified id docs s)
  | none => if allDocsVerified id (leading docs) s then .error .trapped else .ok false

theorem all_docs_verified_run (id : UInt64) (docs : List Val) :
    (Program.Document.allDocsVerified id docs).run s.stored =
      (allDocsVerifiedRead id docs s).map (·, s.stored) := by
  unfold Program.Document.allDocsVerified
  induction docs with
  | nil => rfl
  | cons v docs ih =>
    rw [List.forIn_cons]
    cases hd : docTypeCodec.decode v with
    | none =>
      have hlist : docTypeCodec.list.decode (v :: docs) = none := by
        simp [Codec.list, Codec.decodeList, hd]
      simp only [allDocsVerifiedRead, hlist, leading, hd, allDocsVerified, if_true]
      simp only [Program.Document.element, hd]
      rfl
    | some d =>
      have hlist : docTypeCodec.list.decode (v :: docs) =
          (docTypeCodec.list.decode docs).map (d :: ·) := by
        simp [Codec.list, Codec.decodeList, hd]
      have hread : (Program.Document.element docTypeCodec v).run s.stored = .ok (d, s.stored) := by
        simp only [Program.Document.element, hd]
        rfl
      rw [bind_assoc, bind_assoc, Program.run_ok hread, bind_assoc,
        Program.run_ok (verify_document_run id d)]
      simp only [allDocsVerifiedRead, hlist, leading, hd] at ih ⊢
      cases hv : verifyDocument id d s with
      | false => cases docTypeCodec.list.decode docs <;> simp [allDocsVerified, hv] <;> rfl
      | true =>
        refine Eq.trans ih ?_
        cases docTypeCodec.list.decode docs <;> simp [allDocsVerified, hv]

/-- What the host is told. -/
def told (x : Except (Fault DocumentError) (Return × State)) : Except HostError (Val × State) :=
  (x.map (Prod.map Return.val id)).mapError (Fault.host DocumentError.code .trapped)

/-- The model's answers to the calls as they come in. -/
def answer (env : Env) (s : State) : Program.Document.HostCall → Except HostError (Val × State)
  | .init r => told (exec env s (.init r))
  | .submitDocument id d h u => told (exec env s (.submitDocument id d h u))
  | .signDocument id d a => told (exec env s (.signDocument id d a))
  | .verifyDocument id d => told (exec env s (.verifyDocument id d))
  | .getDocument id d => told (exec env s (.getDocument id d))
  | .allDocsVerified id docs => (allDocsVerifiedRead id docs s).map fun b => (.bool b, s)

theorem get_document_looks (tradeId : UInt64) (d : DocumentType) :
    Hosting.Looks (Fault.host DocumentError.code .trapped) id
      (Program.Document.getDocument tradeId d) s.stored (getDocument tradeId d s) :=
  .step (get_document tradeId d) (Hosting.looks_ok_or DocumentError.documentNotFound _)

theorem told_follows {p : Program Unit Val} {x : Except (Fault DocumentError) (Return × State)}
    (h : hosting.Keeps DocumentError.code .trapped (Prod.map Return.val id) p s x) :
    (p.run s.stored).map (Prod.map id id) = (told x).map (Prod.map id State.stored) :=
  h.answer

theorem exec_follows (env : Env) (c : Program.Document.HostCall) (s : State) :
    ((Program.Document.exec env c).run s.stored).map (Prod.map id id) =
      (answer env s c).map (Prod.map id State.stored) := by
  cases c with
  | init r => exact told_follows ((init_follows r).returns fun _ => rfl)
  | submitDocument id d h u =>
    exact told_follows ((submit_document_follows env id d h u).returns fun _ => rfl)
  | signDocument id d a =>
    exact told_follows ((sign_document_follows env id d a).returns fun _ => rfl)
  | verifyDocument id d =>
    rw [Program.Document.exec, Program.run_ok (verify_document_run id d)]
    rfl
  | getDocument id d =>
    exact told_follows
      ((get_document_looks id d).returns (H := hosting) (s := s) rfl fun _ => rfl)
  | allDocsVerified id docs =>
    have hrun := all_docs_verified_run (s := s) id docs
    simp only [Program.Document.exec, answer]
    cases hread : allDocsVerifiedRead id docs s with
    | ok b =>
      rw [hread] at hrun
      rw [Program.run_ok hrun]
      rfl
    | error e =>
      rw [hread] at hrun
      rw [Program.run_error hrun]
      rfl

theorem stored_empty : State.empty.stored = .empty () :=
  hosting.stored_empty (fun d k => by cases d <;> cases k <;> rfl) rfl

theorem published_inj {e f : DocumentEvent} (h : e.published = f.published) : e = f := by
  cases e <;> cases f <;> simp [DocumentEvent.published] at h ⊢
  · obtain ⟨⟨hid, hd⟩, ha, hh, hu⟩ := h
    exact ⟨hid, docTypeCodec.encode_inj hd, ha, bytes32Codec.encode_inj hh, hu⟩
  · exact ⟨h.1.1, docTypeCodec.encode_inj h.1.2, h.2⟩
  · exact ⟨h.1, docTypeCodec.encode_inj h.2⟩

theorem stored_inj : Function.Injective State.stored := by
  intro s t h
  refine hosting.stored_inj ?_ h
  intro s t hcells hevents _
  have hcell : ∀ d k, cells s d k = cells t d k := fun d k => congrFun (congrFun hcells d) k
  have hregistry : s.registryContract = t.registryContract :=
    Option.map_injective (fun _ _ => Val.addressCodec.encode_inj)
      (hcell .ofInstance .registryContract)
  have hrequired : s.requiredSignatures = t.requiredSignatures := by
    funext d
    exact Option.map_injective (fun _ _ => Val.u32Codec.encode_inj)
      (hcell .ofInstance (.requiredSignatures d))
  have hdocuments : s.documents = t.documents := by
    funext k
    exact Option.map_injective (fun _ _ => Document.codec.encode_inj)
      (hcell .persistent (.document k.1 k.2))
  have hpublished : s.events = t.events :=
    (List.map_inj_right fun _ _ => published_inj).mp hevents
  cases s
  cases t
  simp_all

/-- The document contract behind its interface. -/
def served (self : Address) : Machine State (Tx (String × List Val)) Val HostError :=
  (Machine.mk fun (tx : Tx Program.Document.HostCall) s =>
    answer (tx.env self) s tx.call).behind (Tx.read Program.Document.hostInterface.decode) .trapped

theorem documents_image (self : Address) :
    (served self).Image (Program.Document.machine self) State.stored id id := by
  refine Hosting.image (H := hosting) _ self _ ?_
  intro tx s w hw
  obtain rfl : w = s.stored := hw
  exact exec_follows (tx.env self) tx.call s

/-- A call of the model as it comes in. -/
def Call.unread : Call → Program.Document.HostCall
  | .init r => .init r
  | .submitDocument id d h u => .submitDocument id d h u
  | .signDocument id d a => .signDocument id d a
  | .verifyDocument id d => .verifyDocument id d
  | .getDocument id d => .getDocument id d
  | .allDocsVerified id docs => .allDocsVerified id (docs.map docTypeCodec.encode)

theorem unread_encode (c : Call) : Program.Document.hostInterface.encode c.unread =
    ((interface.encode c).1, Val.ofElements (interface.encode c).2) := by
  cases c with
  | init _ | submitDocument _ _ _ _ | signDocument _ _ _ | verifyDocument _ _ | getDocument _ _ =>
    rfl
  | allDocsVerified id docs =>
    have hdocs := Val.of_elements_map DocumentType.codec.encode docs
    simp only [Call.unread]
    rw [show docs.map docTypeCodec.encode = _ from hdocs.symm]
    rfl

theorem answer_unread (env : Env) (s : State) (c : Call) :
    answer env s c.unread = told (exec env s c) := by
  cases c with
  | init _ | submitDocument _ _ _ _ | signDocument _ _ _ | verifyDocument _ _ | getDocument _ _ =>
    rfl
  | allDocsVerified id docs =>
    have hdocs : docTypeCodec.list.decode (docs.map docTypeCodec.encode) = some docs :=
      docTypeCodec.list.decode_encode docs
    simp only [answer, Call.unread, allDocsVerifiedRead, hdocs]
    rfl

/-- The call of the model, if all of it can be read. -/
def reread : Program.Document.HostCall → Option Call
  | .init r => some (.init r)
  | .submitDocument id d h u => some (.submitDocument id d h u)
  | .signDocument id d a => some (.signDocument id d a)
  | .verifyDocument id d => some (.verifyDocument id d)
  | .getDocument id d => some (.getDocument id d)
  | .allDocsVerified id docs => (docTypeCodec.list.decode docs).map (.allDocsVerified id)

theorem reread_iff (c : Program.Document.HostCall) (d : Call) :
    reread c = some d ↔ d.unread = c := by
  cases c with
  | allDocsVerified id docs =>
    rw [reread, Codec.map_decode]
    cases d <;> simp [Call.unread, Codec.list, and_comm, eq_comm]
  | _ => cases d <;> simp [reread, Call.unread, eq_comm]

theorem documents_read (tx : Tx (String × List Val)) : readArgs interface tx =
    (Tx.read Program.Document.hostInterface.decode tx).bind (Tx.read reread) :=
  Hosting.read_args_eq reread_iff unread_encode tx

/-- A call that can only be read in part changes nothing. -/
theorem served_next (self : Address) (s : State) (tx : Tx (String × List Val)) :
    (served self).next s tx =
      match readArgs interface tx with
      | some tx => (machine self).next s tx
      | none => s := by
  rw [documents_read, served, Machine.behind_next]
  cases Tx.read Program.Document.hostInterface.decode tx with
  | none => rfl
  | some tx =>
    cases hc : reread tx.call with
    | some d =>
      have hanswer := answer_unread (tx.env self) s d
      rw [(reread_iff _ _).mp hc] at hanswer
      have hmodel : (machine self).exec { auth := tx.auth, sequence := tx.sequence, call := d } s =
          exec (tx.env self) s d := rfl
      simp only [Option.bind_some, Tx.read, hc, Option.map_some, Machine.next, hanswer, told,
        hmodel]
      cases exec (tx.env self) s d <;> rfl
    | none =>
      simp only [Option.bind_some, Tx.read, hc, Option.map_none]
      cases hcall : tx.call with
      | allDocsVerified id docs =>
        simp only [Machine.next, hcall, answer]
        cases allDocsVerifiedRead id docs s <;> rfl
      | _ => simp [hcall, reread] at hc

theorem served_run (self : Address) (s : State) (calls : List (Tx (String × List Val))) :
    (served self).run s calls = (machine self).run s (calls.filterMap (readArgs interface)) := by
  induction calls generalizing s with
  | nil => rfl
  | cons tx calls ih =>
    rw [Machine.run_cons, ih, served_next]
    cases htx : readArgs interface tx <;> simp [htx]

/-- The document contract against the host's storage answers every run of calls
as the model does, malformed calls included, and what the host keeps in the end
is the model's state, which can be read off it. -/
theorem documents_kept_by_host (self : Address) (calls : List (Tx (String × List Val))) :
    (Program.Document.machine self).outcomes (.empty ()) calls =
        (served self).outcomes .empty calls ∧
      (Program.Document.machine self).run (.empty ()) calls =
        ((machine self).run .empty (calls.filterMap (readArgs interface))).stored ∧
      Function.Injective State.stored := by
  obtain ⟨hrun, houtcomes⟩ := (documents_image self).run_exact stored_empty.symm calls
  exact ⟨houtcomes, hrun.trans (congrArg State.stored (served_run self _ calls)), stored_inj⟩

end Azaka.DocumentContract
