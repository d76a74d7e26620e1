import LinkStateFabric.Engine.Store

/-!
# Evidence of a host (`platform.hpp`, `platform_windows.cpp`)

A host looks at its own interfaces, and a `HostEvidencePublisher` turns what it saw into requests.
The requests are numbered by a counter of the object, from which they get their identities: request
`n` is the observation `hostObservation n` (`Numbered`), whoever publishes it.
-/

namespace LinkState

open Codec (ByteEnum)

/-- What a request takes from a host observation. -/
structure HostLinkObservation where
  link : LinkId := .null
  endpoint : EndpointId := .null
  kind : EvidenceKind := .interfaceOperationalState
  claim : EvidenceClaim := .unknown
  degradationCause : DegradationCause := .none
  detail : Text := []

/-- The result of one host discovery round. -/
structure HostDiscoveryReport where
  observations : List HostLinkObservation := []

/-- Topology context needed to publish one host observation. -/
structure HostBindingContext where
  topologyGeneration : TopologyGeneration := .zero
  endpointGeneration : EndpointGeneration := .zero

abbrev HostBindings := Finmap fun _ : LinkId => HostBindingContext

/-- The observation identity of a number. -/
def hostObservation (number : Nat) : ObservationId :=
  .fromValidated (lit "obs.host." ++ formatU64 number)

/-- The publication identity of a number. -/
def hostPublication (number : Nat) : PublicationId :=
  .fromValidated (lit "pub.host." ++ formatU64 number)

structure HostEvidencePublisher where
  publisher : PublisherId
  workerBoot : WorkerBootId
  source : SourceId
  sourceGeneration : SourceGeneration := .fromValue 1
  round : U64 := 0
  sequences : Finmap fun _ : Text => U64 := ∅
  observationCounter : U64 := 0

namespace HostEvidencePublisher

/-- The text under which the sequence of an evidence key is kept. -/
def sequenceKey (host : HostEvidencePublisher) (observation : HostLinkObservation) : Text :=
  observation.link.value ++ lit "|" ++ host.source.value ++ lit "|" ++
    observation.endpoint.value ++ lit "|" ++ formatU64 (ByteEnum.index observation.kind)

/-- The evidence key of an observation. -/
def evidenceKey (host : HostEvidencePublisher) (observation : HostLinkObservation) : EvidenceKey where
  link := observation.link
  source := host.source
  endpoint := observation.endpoint
  direction := .bidirectional
  kind := observation.kind

/-- One turn of the loop of `requests`. An observation whose link is not bound is passed over. -/
def request (host : HostEvidencePublisher) (bindings : HostBindings) (epoch : CoordinatorEpoch)
    (observation : HostLinkObservation) :
    HostEvidencePublisher × Option PublishEvidenceRequest :=
  match bindings.lookup observation.link with
  | none => (host, none)
  | some context =>
    let key := host.sequenceKey observation
    let sequence := (host.sequences.lookup key).getD 0 + 1
    let counter := host.observationCounter + 1
    let record : EvidenceRecord :=
      { key := host.evidenceKey observation
        observation := hostObservation counter.val
        publisher := host.publisher
        workerBoot := host.workerBoot
        epoch
        sourceGeneration := host.sourceGeneration
        sequence
        topologyGeneration := context.topologyGeneration
        endpointGeneration := context.endpointGeneration
        evidenceClass := .real
        claim := observation.claim
        degradationCause := observation.degradationCause
        detail := observation.detail }
    ({ host with sequences := host.sequences.insert key sequence, observationCounter := counter },
      some { observation := record, publication := hostPublication counter.val })

/-- The loop of `requests`. -/
def convert (bindings : HostBindings) (epoch : CoordinatorEpoch) :
    HostEvidencePublisher → List HostLinkObservation →
      HostEvidencePublisher × List PublishEvidenceRequest
  | host, [] => (host, [])
  | host, observation :: rest =>
    let (host, made) := host.request bindings epoch observation
    let (host, requests) := convert bindings epoch host rest
    (host, made.toList ++ requests)

/-- `requests`: the requests of a round. The round is over, and the source generation advances
unless it is exhausted. -/
def requests (host : HostEvidencePublisher) (report : HostDiscoveryReport) (bindings : HostBindings)
    (epoch : CoordinatorEpoch) : HostEvidencePublisher × List PublishEvidenceRequest :=
  let (host, requests) := convert bindings epoch host report.observations
  ({ host with
      round := host.round + 1
      sourceGeneration := host.sourceGeneration.next.getD host.sourceGeneration }, requests)

end HostEvidencePublisher

/-! ## Numbers -/

theorem hostObservation_value {number : Nat} (h : number < 2 ^ 64) :
    (hostObservation number).value = lit "obs.host." ++ formatU64 number :=
  StrongId.value_fromValidated
    (validateIdentifier_numbered (by decide) (by decide) (by decide) h)

/-- Identities of different numbers are different. -/
theorem hostObservation_inj {a b : Nat} (ha : a < 2 ^ 64) (hb : b < 2 ^ 64) :
    hostObservation a = hostObservation b ↔ a = b := by
  constructor
  · intro heq
    have htext := congrArg StrongId.value heq
    rw [hostObservation_value ha, hostObservation_value hb] at htext
    exact formatU64_injective (List.append_cancel_left htext)
  · rintro rfl
    rfl

/-- The number of the request in a place, the counter having wrapped once in `2 ^ 64` requests. -/
def numberAt (n : Nat) : Nat := (n + 1) % 2 ^ 64

theorem numberAt_lt (n : Nat) : numberAt n < 2 ^ 64 := Nat.mod_lt _ (by decide)

theorem numberAt_inj {m n : Nat} : numberAt m = numberAt n ↔ m % 2 ^ 64 = n % 2 ^ 64 := by
  unfold numberAt
  omega

/-- The requests that an object has made so far have the numbers of their places. -/
structure HostEvidencePublisher.Numbered (host : HostEvidencePublisher)
    (made : List PublishEvidenceRequest) : Prop where
  counter : host.observationCounter.val = made.length % 2 ^ 64
  identity : ∀ n request, made[n]? = some request →
    request.observation.observation = hostObservation (numberAt n)

namespace HostEvidencePublisher.Numbered

variable {host : HostEvidencePublisher} {made : List PublishEvidenceRequest}

theorem request (h : host.Numbered made) (bindings : HostBindings) (epoch : CoordinatorEpoch)
    (observation : HostLinkObservation) :
    (host.request bindings epoch observation).1.Numbered
      (made ++ (host.request bindings epoch observation).2.toList) := by
  unfold HostEvidencePublisher.request
  split
  · rw [Option.toList_none, List.append_nil]
    exact h
  have hcounter : (host.observationCounter + 1).val = (made.length + 1) % 2 ^ 64 := by
    rw [Fin.val_add, h.counter]
    exact Nat.mod_add_mod _ _ _
  refine ⟨by rw [hcounter, Option.toList_some, List.length_append]; rfl, fun n request hn => ?_⟩
  rw [Option.toList_some, List.getElem?_append] at hn
  split at hn
  · exact h.identity n request hn
  · rename_i hlast
    rw [List.getElem?_singleton] at hn
    split at hn
    · obtain rfl : n = made.length := by omega
      cases hn
      exact congrArg hostObservation hcounter
    · cases hn

theorem convert (h : host.Numbered made) (bindings : HostBindings) (epoch : CoordinatorEpoch)
    (observations : List HostLinkObservation) :
    (convert bindings epoch host observations).1.Numbered
      (made ++ (convert bindings epoch host observations).2) := by
  induction observations generalizing host made with
  | nil =>
    rw [HostEvidencePublisher.convert, List.append_nil]
    exact h
  | cons observation rest ih =>
    have hrest := ih (h.request bindings epoch observation)
    rw [List.append_assoc] at hrest
    exact hrest

theorem requests (h : host.Numbered made) (report : HostDiscoveryReport) (bindings : HostBindings)
    (epoch : CoordinatorEpoch) :
    (host.requests report bindings epoch).1.Numbered
      (made ++ (host.requests report bindings epoch).2) := by
  obtain ⟨hcounter, hidentity⟩ := h.convert bindings epoch report.observations
  exact ⟨hcounter, hidentity⟩

end HostEvidencePublisher.Numbered

end LinkState
