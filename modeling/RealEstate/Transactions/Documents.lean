import RealEstate.Systems.Base64
import RealEstate.Systems.Numerals
import RealEstate.Transactions.Deals

/-!
# Deal documents (`modules/transactions/service.py`)

An upload is confirmed within the transaction of its request, which `get_session` commits only
if the route returns.

- `confirmUpload`: the service, over the rows that the session has flushed.
- `getSession`: what is committed of a request.
- `Verdict`: the row is ready with the object's size and hash, or failed, as the store has it.
- `confirm_verdict`: exactly the uploads that are found have their verdict committed.
-/

namespace RealEstate

namespace Transactions

open RealEstate.Core Systems Function

namespace Documents

/-- `DealDocumentStatus`. -/
inductive DealDocumentStatus where
  | pending
  | ready
  | failed
  deriving DecidableEq, Repr

/-- The member's value. -/
def DealDocumentStatus.value : DealDocumentStatus → String
  | .pending => "pending"
  | .ready => "ready"
  | .failed => "failed"

/-- A row of `deal_documents`. -/
structure DealDocument where
  tenantId : Uuid
  dealId : Uuid
  docType : String
  filename : String
  contentType : String
  storageKey : Text
  sizeBytes : Option Nat := none
  sha256 : Option Text := none
  status : DealDocumentStatus := .pending
  uploadedBy : Option Uuid := none
  deriving DecidableEq

/-- The deals and the documents. -/
structure Database where
  /-- The deals of a tenant. -/
  deals : Uuid → Uuid → Option Deal
  documents : Uuid → Option DealDocument

/-- The private bucket. A call on an object may fail all the same. -/
structure ObjectStore where
  objects : Text → Option Bytes
  headFails : Text → Bool := fun _ => false
  getFails : Text → Bool := fun _ => false

/-- `object_size`; `none` is any exception. -/
def ObjectStore.objectSize (store : ObjectStore) (key : Text) : Option Nat :=
  if store.headFails key then none else (store.objects key).map List.length

/-- `get_object`. -/
def ObjectStore.getObject (store : ObjectStore) (key : Text) : Option Bytes :=
  if store.getFails key then none else store.objects key

/-- A service call over the rows flushed so far, which stay flushed if it raises. -/
abbrev Session := ExceptT AppError (StateM Database)

/-! ### Service -/

section

-- `hashlib.sha256`, and what the actor may see.
variable (sha256 : Bytes → Fin (2 ^ 256)) (store : ObjectStore) (scope : Option (List Uuid))

/-- `_deal_or_404`. -/
def getDealOr404 (tenantId dealId : Uuid) : Session Deal := do
  match (← get).deals tenantId dealId with
  | none => throw ⟨.notFound, "Deal not found."⟩
  | some deal =>
    match dealOr404 scope deal with
    | .error e => throw e
    | .ok () => return deal

/-- `TransactionsRepository.get_document`. -/
def getDocument (tenantId dealId documentId : Uuid) : Session (Option DealDocument) := do
  return ((← get).documents documentId).filter fun document =>
    document.tenantId = tenantId ∧ document.dealId = dealId

/-- The attributes of a document, flushed. -/
def flush (documentId : Uuid) (document : DealDocument) : Session Unit :=
  modify fun db => { db with documents := update db.documents documentId (some document) }

/-- `confirm_upload`. -/
def confirmUpload (tenantId dealId documentId : Uuid) : Session DealDocument := do
  let _ ← getDealOr404 scope tenantId dealId
  let some document ← getDocument tenantId dealId documentId
    | throw ⟨.notFound, "Document not found."⟩
  if document.status ≠ .pending then
    throw ⟨.conflict, s!"This upload is already '{document.status.value}'."⟩
  match store.objectSize document.storageKey, store.getObject document.storageKey with
  | some size, some body =>
    let document := { document with
      sizeBytes := some size
      sha256 := some (numeral 16 64 (sha256 body))
      status := .ready }
    flush documentId document
    return document
  | _, _ =>
    flush documentId { document with status := .failed }
    throw ⟨.conflict, "No uploaded file was found for this document."⟩

/-- `get_session`: what a request leaves committed. `commits` is whether its `COMMIT` is reached
and goes through. -/
def getSession {α : Type} (commits : Bool) (handler : Session α) (db : Database) : Database :=
  match handler.run.run db with
  | (.ok _, flushed) => if commits then flushed else db
  | (.error _, _) => db

/-! ### Verdict -/

/-- The object exists and both calls read it. -/
def ObjectStore.Readable (key : Text) (body : Bytes) : Prop :=
  store.objects key = some body ∧ store.headFails key = false ∧ store.getFails key = false

/-- What the committed row says of an upload. -/
structure Verdict (key : Text) (row : DealDocument) : Prop where
  decided : row.status ≠ .pending
  ready : ∀ body, store.Readable key body → row.status = .ready ∧
    row.sizeBytes = some body.length ∧ row.sha256 = some (numeral 16 64 (sha256 body))
  failed : store.objects key = none → row.status = .failed

end

/-! ### What is committed -/

section

variable {sha256 : Bytes → Fin (2 ^ 256)} {store : ObjectStore} {scope : Option (List Uuid)}
  {db : Database} {tenantId dealId documentId : Uuid} {document : DealDocument}

/-- An object that both calls read is readable, and no other. -/
theorem readable_iff {key : Text} {body : Bytes} : store.Readable key body ↔
    store.objectSize key = some body.length ∧ store.getObject key = some body := by
  unfold ObjectStore.Readable ObjectStore.objectSize ObjectStore.getObject
  cases store.headFails key <;> cases store.getFails key <;> simp
  intro h
  exact ⟨body, h, rfl⟩

/-- What the calls return is one object's size and content. -/
theorem readable_of_calls {key : Text} {size : Nat} {body : Bytes}
    (hsize : store.objectSize key = some size) (hbody : store.getObject key = some body) :
    store.Readable key body ∧ size = body.length := by
  unfold ObjectStore.objectSize at hsize
  unfold ObjectStore.getObject at hbody
  split at hsize
  · cases hsize
  · next hhead =>
    split at hbody
    · cases hbody
    · next hget =>
      rw [hbody] at hsize
      exact ⟨⟨hbody, Bool.eq_false_of_not_eq_true hhead, Bool.eq_false_of_not_eq_true hget⟩,
        (Option.some.inj hsize).symm⟩

/-- What a call that raises has flushed is lost. -/
theorem getSession_of_error {α : Type} {commits : Bool} {handler : Session α} {e : AppError}
    (h : (handler.run.run db).1 = .error e) : getSession commits handler db = db := by
  unfold getSession
  split
  · next heq =>
    rw [heq] at h
    cases h
  · rfl

/-- One call after another that succeeds. -/
theorem run_bind_ok {α β : Type} {x : Session α} {f : α → Session β} {a : α} {db' : Database}
    (h : x.run.run db = (.ok a, db')) : (x >>= f).run.run db = (f a).run.run db' := by
  show ((ExceptT.bindCont f (x.run.run db).1).run (x.run.run db).2) = _
  rw [h]
  rfl

theorem run_bind_error {α β : Type} {x : Session α} {f : α → Session β} {e : AppError}
    {db' : Database} (h : x.run.run db = (.error e, db')) :
    (x >>= f).run.run db = (.error e, db') := by
  show ((ExceptT.bindCont f (x.run.run db).1).run (x.run.run db).2) = _
  rw [h]
  rfl

/-- The deal is visible to the actor. -/
def Visible (db : Database) (scope : Option (List Uuid)) (tenantId dealId : Uuid) : Prop :=
  ∃ deal, db.deals tenantId dealId = some deal ∧ scope.all (deal.ownerUserId ∈ ·) = true

/-- What the lookup of a deal returns. -/
theorem getDealOr404_eq : (getDealOr404 scope tenantId dealId).run.run db =
    (match db.deals tenantId dealId with
      | none => throw ⟨.notFound, "Deal not found."⟩
      | some deal =>
        match dealOr404 scope deal with
        | .error e => throw e
        | .ok () => return deal : Session Deal).run.run db := rfl

theorem getDealOr404_visible (h : Visible db scope tenantId dealId) :
    ∃ deal, (getDealOr404 scope tenantId dealId).run.run db = (.ok deal, db) := by
  obtain ⟨deal, hdeal, hscope⟩ := h
  refine ⟨deal, ?_⟩
  have hok : dealOr404 scope deal = .ok () := if_pos hscope
  rw [getDealOr404_eq, hdeal]
  dsimp only
  rw [hok]
  rfl

theorem getDealOr404_hidden (h : ¬Visible db scope tenantId dealId) :
    (getDealOr404 scope tenantId dealId).run.run db =
      (.error ⟨.notFound, "Deal not found."⟩, db) := by
  rw [getDealOr404_eq]
  cases hdeal : db.deals tenantId dealId with
  | none => rfl
  | some deal =>
    have herror : dealOr404 scope deal = .error ⟨.notFound, "Deal not found."⟩ :=
      if_neg fun hscope => h ⟨deal, hdeal, hscope⟩
    dsimp only
    rw [herror]
    rfl

/-- After the deal is found, the request goes on with the document. -/
theorem confirmUpload_run (hvisible : Visible db scope tenantId dealId)
    (hdocument : db.documents documentId = some document) (htenant : document.tenantId = tenantId)
    (hdeal : document.dealId = dealId) (hpending : document.status = .pending) :
    (confirmUpload sha256 store scope tenantId dealId documentId).run.run db =
      match store.objectSize document.storageKey, store.getObject document.storageKey with
      | some size, some body =>
        let document := { document with
          sizeBytes := some size
          sha256 := some (numeral 16 64 (sha256 body))
          status := .ready }
        (.ok document, { db with documents := update db.documents documentId (some document) })
      | _, _ =>
        (.error ⟨.conflict, "No uploaded file was found for this document."⟩,
          { db with documents :=
              update db.documents documentId (some { document with status := .failed }) }) := by
  obtain ⟨deal, hrun⟩ := getDealOr404_visible hvisible
  have hfound : (getDocument tenantId dealId documentId).run.run db =
      (.ok (some document), db) := by
    show (Except.ok ((db.documents documentId).filter _), db) = _
    rw [hdocument, Option.filter_some, if_pos (decide_eq_true ⟨htenant, hdeal⟩)]
  rw [confirmUpload, run_bind_ok hrun, run_bind_ok hfound]
  dsimp only
  rw [if_neg (by simp [hpending])]
  cases store.objectSize document.storageKey with
  | none => rfl
  | some size => cases store.getObject document.storageKey <;> rfl

/-- A document that is not under the deal is not found. -/
theorem confirmUpload_missing (hvisible : Visible db scope tenantId dealId)
    (hdocument : db.documents documentId = some document)
    (h : ¬(document.tenantId = tenantId ∧ document.dealId = dealId)) :
    (confirmUpload sha256 store scope tenantId dealId documentId).run.run db =
      (.error ⟨.notFound, "Document not found."⟩, db) := by
  obtain ⟨deal, hrun⟩ := getDealOr404_visible hvisible
  have hmissing : (getDocument tenantId dealId documentId).run.run db = (.ok none, db) := by
    show (Except.ok ((db.documents documentId).filter _), db) = _
    rw [hdocument, Option.filter_some, if_neg fun hd => h (of_decide_eq_true hd)]
  rw [confirmUpload, run_bind_ok hrun, run_bind_ok hmissing]
  rfl

/-- **Only uploads that are found get their verdict.** After a request to confirm a pending
document has ended, the committed row bears its verdict if and only if the actor sees the deal,
the document is under it, the object is read, and the commit goes through. -/
theorem confirm_verdict (sha256 : Bytes → Fin (2 ^ 256)) (store : ObjectStore)
    (scope : Option (List Uuid)) (tenantId dealId documentId : Uuid) (commits : Bool)
    (db : Database) (document : DealDocument)
    (hdocument : db.documents documentId = some document)
    (hpending : document.status = .pending) :
    (∃ row, (getSession commits (confirmUpload sha256 store scope tenantId dealId documentId)
        db).documents documentId = some row ∧ Verdict sha256 store document.storageKey row) ↔
      Visible db scope tenantId dealId ∧ document.tenantId = tenantId ∧
        document.dealId = dealId ∧ (∃ body, store.Readable document.storageKey body) ∧
        commits = true := by
  -- A request that raises, or is not committed, leaves the row pending.
  have hkept : getSession commits (confirmUpload sha256 store scope tenantId dealId documentId)
      db = db → ¬∃ row, (getSession commits
        (confirmUpload sha256 store scope tenantId dealId documentId) db).documents documentId =
          some row ∧ Verdict sha256 store document.storageKey row := by
    rintro heq ⟨row, hrow, hverdict⟩
    rw [heq, hdocument] at hrow
    cases hrow
    exact hverdict.decided hpending
  by_cases hvisible : Visible db scope tenantId dealId
  · by_cases hunder : document.tenantId = tenantId ∧ document.dealId = dealId
    · obtain ⟨htenant, hdeal⟩ := hunder
      have hrun := @confirmUpload_run sha256 store scope db tenantId dealId documentId document
        hvisible hdocument htenant hdeal hpending
      by_cases hread : ∃ body, store.Readable document.storageKey body
      · obtain ⟨body, hread⟩ := hread
        obtain ⟨hsize, hbody⟩ := readable_iff.1 hread
        rw [hsize, hbody] at hrun
        cases commits with
        | true =>
          refine iff_of_true ?_ ⟨hvisible, htenant, hdeal, ⟨body, hread⟩, rfl⟩
          unfold getSession
          rw [hrun]
          refine ⟨_, update_self .., ⟨?_, fun body' hread' => ?_, fun hmissing => ?_⟩⟩
          · intro hstatus
            cases hstatus
          · have hsame : body' = body := Option.some.inj (hread'.1.symm.trans hread.1)
            rw [hsame]
            exact ⟨rfl, rfl, rfl⟩
          · cases hmissing.symm.trans hread.1
        | false =>
          refine iff_of_false (hkept ?_) fun h => Bool.false_ne_true h.2.2.2.2
          unfold getSession
          rw [hrun]
          rfl
      · refine iff_of_false (hkept ?_) fun h => hread h.2.2.2.1
        apply getSession_of_error
          (e := ⟨.conflict, "No uploaded file was found for this document."⟩)
        rw [hrun]
        split
        · next size body hsize hbody =>
          exact absurd ⟨body, (readable_of_calls hsize hbody).1⟩ hread
        · rfl
    · refine iff_of_false (hkept ?_) fun h => hunder ⟨h.2.1, h.2.2.1⟩
      apply getSession_of_error
      rw [confirmUpload_missing hvisible hdocument hunder]
  · refine iff_of_false (hkept ?_) fun h => hvisible h.1
    apply getSession_of_error
    rw [confirmUpload, run_bind_error (getDealOr404_hidden hvisible)]

end

/-- A deal of user 1, and a pending document of it. -/
def oneDocument : Database where
  deals := fun tenantId dealId =>
    if tenantId = 1 ∧ dealId = 2 then some { ownerUserId := 1, title := "Flat" } else none
  documents := fun documentId =>
    if documentId = 3 then
      some {
        tenantId := 1
        dealId := 2
        docType := "contract"
        filename := "contract.pdf"
        contentType := "application/pdf"
        storageKey := "contract".toList }
    else none

/-- The object is there. -/
theorem confirm_verdict_found :
    ∃ row, (getSession true (confirmUpload (fun _ => 0) ⟨fun _ => some [1], fun _ => false,
        fun _ => false⟩ none 1 2 3) oneDocument).documents 3 = some row ∧
      Verdict (fun _ => 0) ⟨fun _ => some [1], fun _ => false, fun _ => false⟩
        "contract".toList row :=
  (confirm_verdict (fun _ => 0) ⟨fun _ => some [1], fun _ => false, fun _ => false⟩ none 1 2 3
    true oneDocument _ rfl rfl).2
    ⟨⟨_, rfl, rfl⟩, rfl, rfl, ⟨[1], rfl, rfl, rfl⟩, rfl⟩

/-- Nothing was uploaded: the request flushes `failed`, raises, and is rolled back. -/
theorem confirm_still_pending :
    ((confirmUpload (fun _ => 0) ⟨fun _ => none, fun _ => false, fun _ => false⟩ none 1 2
      3).run.run oneDocument).1 =
        .error ⟨.conflict, "No uploaded file was found for this document."⟩ ∧
    ((getSession true (confirmUpload (fun _ => 0) ⟨fun _ => none, fun _ => false,
      fun _ => false⟩ none 1 2 3) oneDocument).documents 3).map (·.status) = some .pending := by
  decide

end Documents

end Transactions

end RealEstate
