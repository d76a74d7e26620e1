import LinkStateFabric.Engine.Turns
import LinkStateFabric.Protocol.Client
import LinkStateFabric.Protocol.Exchanges
import LinkStateFabric.Results.Messages

/-!
# Calls over the wire

The coordinator makes of the message of a call the operation that the caller would make on the
engine itself, unless the call leaves the boot of a publisher open (`operationOf_carried`). The record
of a publication is carried without its bookkeeping (`apply_observed`).
-/

namespace LinkState

open CoordinatorServer PublisherClient

/-! ## Bookkeeping -/

/-- The operation with the record that a message carries. -/
def Op.observed : Op → Op
  | .publishEvidence request =>
    .publishEvidence { request with observation := request.observation.observed }
  | op => op

theorem EvidenceRecord.strip_observed {record : EvidenceRecord} (h : record.status = .current) :
    record.observed.strip = record.strip := by
  unfold observed strip
  rw [← h]

theorem prepareCommit_strip (impl : Impl) (entry : LinkEntry) {records records' : List EvidenceRecord}
    (h : records.map EvidenceRecord.strip = records'.map EvidenceRecord.strip)
    (trigger : TransitionTrigger) :
    prepareCommit impl entry records trigger = prepareCommit impl entry records' trigger := by
  unfold prepareCommit
  rw [← resolveLinkState_strip records, h, resolveLinkState_strip]

/-- The engine fills in the bookkeeping of a record itself; it looks at the status only. -/
theorem publishEvidence_observed (impl : Impl) {request : PublishEvidenceRequest}
    (h : request.observation.status = .current) :
    impl.publishEvidence { request with observation := request.observation.observed } =
      impl.publishEvidence request := by
  have hprepared (entry : LinkEntry) : prepareCommit impl entry
      (prospectiveWith entry request.observation.observed) .evidenceResolution =
        prepareCommit impl entry (prospectiveWith entry request.observation) .evidenceResolution := by
    refine prepareCommit_strip impl entry ?_ _
    unfold prospectiveWith
    rw [List.map_append, List.map_append, List.map_singleton, List.map_singleton,
      EvidenceRecord.strip_observed h]
    rfl
  have hadm : impl.admit { request with observation := request.observation.observed } =
      impl.admit request := by
    unfold Impl.admit
    dsimp only
    simp only [hprepared]
    rfl
  unfold Impl.publishEvidence
  rw [hadm]
  rfl

theorem apply_observed (impl : Impl) {op : Op} (h : op.Ordinary) :
    impl.apply op.observed = impl.apply op ∧ impl.outcome op.observed = impl.outcome op := by
  cases op with
  | publishEvidence request =>
    have heq := publishEvidence_observed impl h
    exact ⟨congrArg Prod.fst heq, congrArg (fun p : Impl × LinkMutationResult => some p.2.outcome) heq⟩
  | _ => exact ⟨rfl, rfl⟩

/-! ## Calls -/

/-- The call names the boot that it invalidates, if it invalidates any. -/
def ClientCall.NamesBoot : ClientCall → Prop
  | .invalidate request => request.workerBoot ≠ none
  | _ => True

theorem ite_isSome_getD {α : Type} (o : Option α) (default : α) :
    (if o.isSome = true then some (o.getD default) else none) = o := by
  cases o <;> rfl

/-- What is made of a message that is carried whole. -/
theorem operationOf_carried (client : PublisherClient) (call : ClientCall) :
    operationOf (client.message call).carried = some (client.operation call).observed ↔
      call.NamesBoot := by
  cases call with
  | register => exact iff_of_true rfl trivial
  | publish request =>
    refine iff_of_true ?_ trivial
    unfold operationOf message operation publishMessage publicationOf Message.carried Op.observed
    dsimp only
    rw [ite_isSome_getD, ite_isSome_getD]
  | withdraw request => exact iff_of_true rfl trivial
  | invalidate request =>
    obtain ⟨publisher, boot, epoch, reason⟩ := request
    cases boot with
    | none =>
      refine iff_of_false (fun h => ?_) fun h => h rfl
      have hop := Option.some.inj h
      cases hop
    | some boot => exact iff_of_true rfl nofun

theorem permits_carried (session : CoordinatorServer.Session) (request : Message) :
    session.permits request.carried = session.permits request := by
  obtain ⟨type, hello, ack, registration, publish, withdraw, invalidate, query, result⟩ := request
  cases type <;> rfl

namespace Sample

/-- The client of the worker of the small run. -/
def client : PublisherClient where
  config := { publisher, workerBoot := boot, source, links := [link] }

/-- The session on which the worker of the small run has registered. -/
def workerSession : CoordinatorServer.Session := { registrations := [(publisher, boot)] }

/-- A message as a frame. -/
def frameOf (message : Message) : Frame where
  type := message.type
  requestId := 1
  payload := encodeMessage message

theorem decode_frameOf {message : Message} (h : message.Valid) :
    decodeMessage (frameOf message).type (frameOf message).payload = .ok message.carried :=
  decodeMessage_encodeMessage h

/-- The coordinator of the small run. -/
def coordinator : CoordinatorServer where
  config := {}
  engine := engine

end Sample

theorem registerMessage_valid : (Sample.client.message .register).Valid :=
  ⟨by decide, by decide, by decide, by decide, by decide⟩

end LinkState
