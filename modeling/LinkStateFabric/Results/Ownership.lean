import LinkStateFabric.Protocol.Registrations
import LinkStateFabric.Results.Incarnations
import LinkStateFabric.Results.Requests

/-!
# Invalidations by sessions

A session invalidates publishers that it has registered, and the engine compares the boot that it
names with the active one. Whether the session registered the publisher under that boot is left
open: a session that was superseded may name its successor (`session_fences_own_iff`).
-/

namespace LinkState

namespace CoordinatorServer

/-- The invalidation that a frame asks for. -/
def invalidationAt (frame : Frame) : Option InvalidatePublisherRequest :=
  (requestOf frame).bind fun request =>
    if request.type = .invalidatePublisher then some (invalidationOf request.invalidate) else none

namespace Audit

/-- An invalidation that a session asks for changes only incarnations that the session has
registered. -/
def FencesOwn (audit : Audit) : Act → Prop
  | .frame id frame sent => (invalidationAt frame).isSome = true →
    ∀ publisher boot, ¬ SameIncarnation audit.server.engine
        (audit.apply (.frame id frame sent)).server.engine publisher boot →
      (id, publisher, boot) ∈ audit.registered
  | _ => True

/-- An invalidation that a session asks for does not name the active incarnation of a publisher that
the session has registered under other boots only. -/
def NamesNoSuccessor (audit : Audit) : Act → Prop
  | .frame id frame _ => ∀ request, invalidationAt frame = some request →
    ∀ authority, audit.server.engine.store.publishers.lookup request.publisher = some authority →
      audit.server.engine.invalidates request authority = true →
      (∃ boot, (id, request.publisher, boot) ∈ audit.registered) →
      (id, request.publisher, authority.workerBoot) ∈ audit.registered
  | _ => True

/-- The session may invalidate the publishers that it has registered. -/
theorem Tracked.mayInvalidate_iff {audit : Audit} (h : audit.Tracked) {id : Nat}
    (hid : audit.server.Serving id) (publisher : PublisherId) :
    (audit.server.session id).mayInvalidate publisher = true ↔
      ∃ boot, (id, publisher, boot) ∈ audit.registered := by
  have hregistrations := h.registrations id hid.1 (h.serving id hid.2)
  unfold Session.mayInvalidate
  rw [List.any_eq_true]
  constructor
  · rintro ⟨⟨p, boot⟩, hmem, hp⟩
    obtain rfl := of_decide_eq_true hp
    exact ⟨boot, (hregistrations _).mp hmem⟩
  · rintro ⟨boot, hmem⟩
    exact ⟨(publisher, boot), (hregistrations _).mpr hmem, decide_eq_true rfl⟩

/-- The operation of a frame that asks for an invalidation. -/
theorem operationAt_invalidation {server : CoordinatorServer} {id : Nat} {frame : Frame}
    {request : InvalidatePublisherRequest} (h : invalidationAt frame = some request) :
    server.operationAt id frame =
      if (server.session id).mayInvalidate request.publisher then
        some (.invalidatePublisher request)
      else none := by
  obtain ⟨message, hmessage, hrequest⟩ := Option.bind_eq_some_iff.mp h
  split at hrequest
  case isFalse => cases hrequest
  rename_i htype
  cases hrequest
  unfold operationAt
  rw [hmessage]
  show (server.session id).performed message = _
  unfold Session.performed Session.permits operationOf
  rw [htype]
  rfl

/-- What an invalidation that a session asks for changes. -/
theorem changes_iff {audit : Audit} (h : audit.Reachable) {id : Nat}
    (hid : audit.server.Serving id) {frame : Frame} (sent : Bool)
    {request : InvalidatePublisherRequest} (hrequest : invalidationAt frame = some request)
    (publisher : PublisherId) (boot : WorkerBootId) :
    ¬ SameIncarnation audit.server.engine
        (audit.apply (.frame id frame sent)).server.engine publisher boot ↔
      (∃ boot, (id, request.publisher, boot) ∈ audit.registered) ∧
        publisher = request.publisher ∧ ∃ authority,
          audit.server.engine.store.publishers.lookup request.publisher = some authority ∧
          authority.workerBoot = boot ∧ audit.server.engine.invalidates request authority = true := by
  have hhandled := receiveFrame_handled audit.server id frame sent
  have hop := @operationAt_invalidation audit.server id frame request hrequest
  show ¬ SameIncarnation _ (audit.server.receiveFrame id frame sent).engine _ _ ↔ _
  rw [← h.tracked.mayInvalidate_iff hid request.publisher]
  by_cases hmay : (audit.server.session id).mayInvalidate request.publisher = true
  · rw [if_pos hmay] at hop
    obtain ⟨_, -, hengine, -⟩ := hhandled.performs _ hop
    rw [hengine, and_iff_right hmay]
    exact (not_congr (invalidatePublisher_same_iff h.engine.indexed h.engine.endorsed request)).trans
      not_not
  · rw [if_neg hmay] at hop
    rw [(hhandled.idle hop).1]
    exact iff_of_false (not_not.mpr (.refl ..)) fun h => hmay h.1

theorem fencesOwn_iff {audit : Audit} (h : audit.Reachable) {act : Act}
    (henabled : audit.server.Enabled act) : audit.FencesOwn act ↔ audit.NamesNoSuccessor act := by
  cases act with
  | frame id frame sent =>
    constructor
    · intro howns request hrequest authority hauthority hinvalidates hregistered
      refine howns (by rw [hrequest]; rfl) request.publisher authority.workerBoot ?_
      rw [changes_iff h henabled sent hrequest]
      exact ⟨hregistered, rfl, authority, hauthority, rfl, hinvalidates⟩
    · intro hnames hsome publisher boot hchanges
      obtain ⟨request, hrequest⟩ := Option.isSome_iff_exists.mp hsome
      rw [changes_iff h henabled sent hrequest] at hchanges
      obtain ⟨hregistered, rfl, authority, hauthority, rfl, hinvalidates⟩ := hchanges
      exact hnames request hrequest authority hauthority hinvalidates hregistered
  | _ => exact Iff.rfl

end Audit

end CoordinatorServer

open CoordinatorServer

/-- In every run, the invalidations by sessions change only what the session has registered exactly
if none of them names the active successor of an incarnation of the session. -/
theorem session_fences_own_iff {audit : Audit} (h : audit.Reachable) (acts : List Act) :
    Runs.Admissible Audit.apply
        (fun audit act => audit.server.Enabled act ∧ audit.FencesOwn act) audit acts ↔
      Runs.Admissible Audit.apply
        (fun audit act => audit.server.Enabled act ∧ audit.NamesNoSuccessor act) audit acts :=
  h.admissible_congr (fun _ h _ => Audit.fencesOwn_iff h) acts

namespace Sample

/-- A coordinator that has just started, on the engine of the small run before it has publishers. -/
def started : Audit where
  server := { config := {}, engine := [Op.bindLink ⟨binding⟩].foldl Impl.apply (.create {}) }

theorem started_started : started.Started :=
  ⟨⟨by decide, Impl.Reachable.foldl (.start ⟨{}, rfl⟩) _, rfl, fun _ => rfl, rfl⟩, rfl⟩

theorem started_reachable : started.Reachable := .start started_started

/-- The worker of the small run after it was started again. -/
def successor : PublisherClient :=
  { client with config := { client.config with workerBoot := .fromValidated (lit "boot-2") } }

/-- A worker connects and registers; its successor does so on a session of its own. -/
def rivals : List Act :=
  [.accept, .frame 0 (frameOf (client.message .register)) true, .accept,
    .frame 1 (frameOf (successor.message .register)) true]

/-- Both sessions are open, and the successor is active. -/
def rivalled : Audit := rivals.foldl Audit.apply started

theorem rivalled_reachable : rivalled.Reachable := started_reachable.foldl (by decide +kernel)

/-- The invalidation of the successor. -/
def usurpation : ClientCall :=
  .invalidate { publisher, workerBoot := some successor.config.workerBoot }

/-- The old session sends it. -/
def usurps : Act := .frame 0 (frameOf (client.message usurpation)) true

/-- The session of the successor sends it, and the worker connects once more. -/
def resigns : List Act :=
  rivals ++ [.frame 1 (frameOf (successor.message usurpation)) true, .accept]

end Sample

theorem session_fences_own_sample :
    Runs.Admissible Audit.apply
      (fun audit act => audit.server.Enabled act ∧ audit.FencesOwn act) Sample.started
        Sample.resigns := by
  have hnone {client : PublisherClient} {request : InvalidatePublisherRequest}
      (hfree : invalidationAt (Sample.frameOf (client.message .register)) = none)
      (h : invalidationAt (Sample.frameOf (client.message .register)) = some request) : False := by
    rw [hfree] at h
    cases h
  -- The session of the successor has registered what it invalidates.
  have hown : ∀ request ∈ invalidationAt (Sample.frameOf
        (Sample.successor.message Sample.usurpation)),
      ∀ authority ∈ Sample.rivalled.server.engine.store.publishers.lookup request.publisher,
        (1, request.publisher, authority.workerBoot) ∈ Sample.rivalled.registered := by
    decide +kernel
  exact (session_fences_own_iff Sample.started_reachable Sample.resigns).mpr
    ⟨⟨rfl, trivial⟩, ⟨by decide +kernel, fun _ h => (hnone (by decide +kernel) h).elim⟩,
      ⟨by decide +kernel, trivial⟩,
      ⟨by decide +kernel, fun _ h => (hnone (by decide +kernel) h).elim⟩,
      ⟨by decide +kernel, fun request hrequest authority hauthority _ _ =>
        hown request hrequest authority hauthority⟩,
      ⟨by decide +kernel, trivial⟩, trivial⟩

/-- The invalidation has fenced the incarnation of the successor. -/
example : ((Sample.resigns.foldl Audit.apply Sample.started).server.engine.store.publishers.lookup
    Sample.publisher).map (·.status) = some .fenced := by decide +kernel

/-- A session that was superseded fences its successor. -/
theorem successor_fenced :
    Sample.rivalled.Reachable ∧ Sample.rivalled.server.Enabled Sample.usurps ∧
      ¬ Sample.rivalled.FencesOwn Sample.usurps := by
  refine ⟨Sample.rivalled_reachable, by decide +kernel, fun h => ?_⟩
  have howns := h (by decide +kernel) Sample.publisher Sample.successor.config.workerBoot
    fun hsame => absurd hsame.authority (by decide +kernel)
  revert howns
  decide +kernel

end LinkState
