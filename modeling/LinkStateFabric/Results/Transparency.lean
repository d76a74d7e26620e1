import LinkStateFabric.Results.Bookkeeping

/-!
# Wire transparency

* `Transparent`: what a call over the wire has in common with the same call on the engine.
* `wire_transparency_iff`: it has, unless it leaves a boot open, the session may not make it, or it
  makes a difference to the engine that the wire carries no bookkeeping.
-/

namespace LinkState

open CoordinatorServer PublisherClient

/-! ## Records without bookkeeping -/

/-- It makes no difference to the engine that the record of the operation is taken for current. -/
def Impl.TakesAsCurrent (impl : Impl) : Op → Prop
  | .publishEvidence request => request.observation.status = .current ∨ impl.Indifferent request
  | _ => True

section Publications

variable {impl : Impl} {request : PublishEvidenceRequest}

/-- The bookkeeping that a decoded record has. -/
def Bookkeeping.decoded : Bookkeeping := ⟨.current, .zero, .zero, .zero⟩

/-- The bookkeeping that a record has. -/
def EvidenceRecord.bookkeeping (record : EvidenceRecord) : Bookkeeping :=
  ⟨record.status, record.evidenceGeneration, record.commitSequence, record.recordDigest⟩

/-- The publication with the record that a message carries. -/
def PublishEvidenceRequest.observed (request : PublishEvidenceRequest) : PublishEvidenceRequest :=
  { request with observation := request.observation.observed }

theorem observed_eq_noted : request.observed = request.noted .decoded := rfl

theorem noted_bookkeeping : request.noted request.observation.bookkeeping = request := rfl

theorem endsAlike_observed_iff {entry : LinkEntry} (h : impl.Examines request entry) :
    impl.EndsAlike entry
      (resolveLinkState (prospectiveWith entry (request.noted .decoded).observation)
        entry.record).conclusion
      (resolveLinkState (prospectiveWith entry
        (request.noted request.observation.bookkeeping).observation) entry.record).conclusion ↔
      impl.TakesAsCurrent (.publishEvidence request) := by
  rw [endsAlike_iff h]
  exact or_congr_left ⟨fun hiff => hiff.mp rfl, fun hcurrent => iff_of_true rfl hcurrent⟩

theorem publishEvidence_observed_eq (h : impl.TakesAsCurrent (.publishEvidence request)) :
    impl.publishEvidence request.observed = impl.publishEvidence request := by
  by_cases hexamined : ∃ entry, impl.Examines request entry
  · obtain ⟨entry, hexamines⟩ := hexamined
    have hends := (publishEvidence_ends hexamines _ _).mpr ((endsAlike_observed_iff hexamines).mpr h)
    rwa [noted_bookkeeping, ← observed_eq_noted] at hends
  · rw [observed_eq_noted]
    exact publishEvidence_unexamined (not_exists.mp hexamined) .decoded

theorem Impl.AnswersAlike.takesAsCurrent (h : impl.AnswersAlike request.observed request) :
    impl.TakesAsCurrent (.publishEvidence request) := by
  by_cases hexamined : ∃ entry, impl.Examines request entry
  · obtain ⟨entry, hexamines⟩ := hexamined
    have hsame : impl.AnswersAlike (request.noted .decoded)
        (request.noted request.observation.bookkeeping) := h
    exact (endsAlike_observed_iff hexamines).mp (hsame.endsAlike hexamines)
  · exact .inr fun entry hexamines => absurd ⟨entry, hexamines⟩ hexamined

end Publications

/-! ## Calls -/

/-- The handler passes the request of the caller on, its record without bookkeeping, the engine does
what it would do for the caller, and the reply reports the same outcome. -/
structure Transparent (server : CoordinatorServer) (session : CoordinatorServer.Session)
    (request : Message) (op : Op) : Prop where
  performed : session.performed request = some op.observed
  engine : (server.answer session request).server.engine = server.engine.apply op
  reply : ∃ outcome, server.engine.outcome op = some outcome ∧
    Reports (server.answer session request).reply.result outcome

theorem apply_of_takesAsCurrent {impl : Impl} {op : Op} (h : impl.TakesAsCurrent op) :
    impl.apply op.observed = impl.apply op ∧ impl.outcome op.observed = impl.outcome op := by
  cases op with
  | publishEvidence request =>
    have heq := publishEvidence_observed_eq h
    exact ⟨congrArg Prod.fst heq, congrArg (fun p : Impl × LinkMutationResult => some p.2.outcome) heq⟩
  | _ => exact ⟨rfl, rfl⟩

/-- What is performed for a session tells what its answer has done. -/
theorem transparent_iff {server : CoordinatorServer} {session : CoordinatorServer.Session}
    {request : Message} {op : Op} : Transparent server session request op ↔
      session.performed request = some op.observed ∧ server.engine.TakesAsCurrent op := by
  constructor
  · rintro ⟨hperformed, hengine, outcome, houtcome, hreports⟩
    refine ⟨hperformed, ?_⟩
    obtain ⟨outcome', h⟩ := answer_performs server session request hperformed
    cases op with
    | publishEvidence publication =>
      obtain rfl : (server.engine.publishEvidence publication).2.outcome = outcome :=
        Option.some.inj houtcome
      obtain rfl : (server.engine.publishEvidence publication.observed).2.outcome = outcome' :=
        Option.some.inj h.outcome_eq
      exact Impl.AnswersAlike.takesAsCurrent ⟨h.engine.symm.trans hengine,
        h.reply.code.symm.trans hreports.code, h.reply.detail.symm.trans hreports.detail⟩
    | _ => trivial
  · rintro ⟨hperformed, htakes⟩
    obtain ⟨outcome, h⟩ := answer_performs server session request hperformed
    obtain ⟨happly, houtcome⟩ := apply_of_takesAsCurrent htakes
    exact ⟨hperformed, h.engine.trans happly, outcome, houtcome.symm.trans h.outcome_eq, h.reply⟩

/-- A call whose message is decoded is answered as on the engine itself exactly where it names the
boot that it invalidates, the session may make it, and the engine takes its record as it would for
the caller. The reply reports all of the outcome but whether the state has changed. -/
theorem wire_transparency_iff (client : PublisherClient) (call : ClientCall) {request : Message}
    (hsize : (encodeMessage (client.message call)).length ≤ limits.maxFramePayloadBytes)
    (hdecode : decodeMessage (client.message call).type (encodeMessage (client.message call)) =
      .ok request) (server : CoordinatorServer) (session : CoordinatorServer.Session) :
    Transparent server session request (client.operation call) ↔
      call.NamesBoot ∧ session.permits (client.message call) = true ∧
        server.engine.TakesAsCurrent (client.operation call) := by
  obtain ⟨-, rfl⟩ := carried_of_decodeMessage (lt_of_le_of_lt hsize (by decide)) hdecode
  rw [transparent_iff, ← permits_carried, ← and_assoc]
  refine and_congr_left' ?_
  rw [← operationOf_carried client call, Session.performed]
  split
  · rename_i hpermits
    exact (and_iff_left hpermits).symm
  · rename_i hpermits
    exact iff_of_false (fun hnone => by cases hnone) fun h => hpermits h.2

namespace Sample

/-- The publication of the small run, as a call. -/
def publishCall : ClientCall := .publish publish

/-- The publisher is invalidated, under whatever boot. -/
def openCall : ClientCall := .invalidate { publisher }

theorem publishCall_valid : (client.message publishCall).Valid :=
  ⟨by decide, ⟨by decide, by decide⟩, by decide, by decide, by decide, by decide, by decide⟩

end Sample

theorem wire_transparency_sample : Transparent Sample.coordinator Sample.workerSession
    (Sample.client.message Sample.publishCall).carried
    (Sample.client.operation Sample.publishCall) :=
  (wire_transparency_iff Sample.client Sample.publishCall (by decide +kernel)
    (decodeMessage_encodeMessage Sample.publishCall_valid) Sample.coordinator
    Sample.workerSession).mpr ⟨trivial, rfl, .inl rfl⟩

/-- A call that leaves the boot open fences the publisher where it is made on the engine, and is
refused where it is sent to the coordinator. -/
theorem open_call_refused :
    ∃ request, decodeMessage (Sample.client.message Sample.openCall).type
        (encodeMessage (Sample.client.message Sample.openCall)) = .ok request ∧
      (Sample.engine.outcome (Sample.client.operation Sample.openCall)).map (·.code) =
        some .committed ∧
      (Sample.coordinator.answer Sample.workerSession request).reply.result.code =
        .staleAuthority := by
  have hvalid : (Sample.client.message Sample.openCall).Valid := ⟨by decide, by decide⟩
  refine ⟨_, decodeMessage_encodeMessage hvalid, ?_, ?_⟩ <;> decide

end LinkState
