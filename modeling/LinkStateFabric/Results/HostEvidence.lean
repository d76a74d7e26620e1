import LinkStateFabric.Engine.Outcomes
import LinkStateFabric.Host
import LinkStateFabric.Results.Indexes

/-!
# Identities of host observations

The objects that make requests of host observations number them independently, and the identity of
an observation is its number: the first requests of two objects have one identity. The engine turns
the second away while the first is current, unless they are about the same evidence key.
`host_identities_iff` says exactly when none of the requests of any number of objects is turned
away so, whatever else happens to the engine.
-/

namespace LinkState

/-! ## The check of the identity -/

/-- What is said of an observation whose identity has another evidence key. -/
def identityTaken : Text := lit "observation identity is already used by a different evidence key"

/-- The checks of a publication that come before the one of the identity. -/
def Impl.earlierRefusal (impl : Impl) (entry : LinkEntry) (request : PublishEvidenceRequest) :
    Option Refusal :=
  let observation := request.observation
  checkLive entry
    <|> authorize impl.store observation.publisher observation.workerBoot observation.key.source
      observation.epoch impl.epoch observation.key.link entry.record.binding
    <|> (backingStale impl entry.record.binding).map (fun detail => (.staleTopology, detail))
    <|> checkTopology entry observation
    <|> checkEndpoint entry observation
    <|> checkExpectedEvidence entry request.expectedEvidenceGeneration
    <|> checkExpectedState entry request.expectedStateGeneration

/-- A publication comes as far as the check of its identity. -/
def Impl.ChecksIdentity (impl : Impl) (request : PublishEvidenceRequest) : Prop :=
  validateObservation request.observation request.publication = none ∧
  ∃ entry, impl.entryOf request.observation.key.link = some entry ∧
    impl.earlierRefusal entry request = none

/-- A publication is turned away because its identity has another evidence key. -/
def Impl.refusesIdentity (impl : Impl) (request : PublishEvidenceRequest) : Bool :=
  (impl.publishEvidence request).2.outcome = .make .malformedRequest identityTaken

section Refusals

variable {impl : Impl} {entry : LinkEntry} {request : PublishEvidenceRequest}

theorem refusal_eq : impl.refusal entry request =
    (impl.earlierRefusal entry request <|> checkObservation impl.store request.observation) := by
  simp only [Impl.refusal, Impl.earlierRefusal, Option.orElse_eq_orElse, Option.orElse_eq_or,
    Option.or_assoc]

theorem validateObservation_ne_identityTaken {observation : EvidenceRecord}
    {publication : PublicationId} :
    validateObservation observation publication ≠ some identityTaken := by
  have htext {text : Text} {n : Nat} : validateText text n ≠ some identityTaken := by
    intro h
    unfold validateText at h
    split at h
    · have hhead := congrArg List.head? (Option.some.inj h)
      rw [List.head?_append, show (lit "text exceeds maximum length ").head? = some 116 by decide,
        Option.some_or] at hhead
      exact absurd hhead (by decide)
    split at h
    · exact absurd h (by decide)
    split at h
    · exact absurd h (by decide)
    · cases h
  intro h
  unfold validateObservation at h
  iterate 7
    split at h
    · exact absurd h (by decide)
  split at h
  · rename_i herror
    exact htext (herror.trans h)
  split at h
  · exact absurd h (by decide)
  · cases h

theorem earlierRefusal_ne_identityTaken :
    impl.earlierRefusal entry request ≠ some (.malformedRequest, identityTaken) := by
  intro h
  simp only [Impl.earlierRefusal, Option.orElse_eq_some, Option.map_eq_some_iff] at h
  rcases h with h | ⟨-, h | ⟨-, ⟨_, -, h⟩ | ⟨-, h | ⟨-, h | ⟨-, h | ⟨-, h⟩⟩⟩⟩⟩⟩
  · cases checkLive_code h
  · exact absurd (authorize_code h) (by decide)
  · cases h
  · cases checkTopology_code h
  · unfold checkEndpoint at h
    split at h
    · split at h
      · exact absurd h (by decide)
      · split at h <;> cases h
    · split at h
      · exact absurd h (by decide)
      · cases h
  · cases checkExpectedEvidence_code h
  · cases checkExpectedState_code h

theorem checkObservation_eq_some {store : EngineStore} {observation : EvidenceRecord}
    {refusal : Refusal} : checkObservation store observation = some refusal ↔
      refusal = (.malformedRequest, identityTaken) ∧
      ∃ key, store.observations.lookup observation.observation = some key ∧
        key ≠ observation.key := by
  unfold checkObservation
  split
  · rename_i hnone
    simp [hnone]
  · rename_i key hkey
    rw [hkey]
    split
    · rename_i hne
      simp only [Option.some.injEq, exists_eq_left', hne, not_false_eq_true, ne_eq, and_true]
      exact eq_comm
    · rename_i heq
      simp only [reduceCtorEq, Option.some.injEq, exists_eq_left', false_iff, not_and]
      exact fun _ => heq

/-- Nothing is refused with these words but the identity of an observation. -/
theorem checksIdentity_of_refused
    (h : impl.admit request = .refused (.malformedRequest, identityTaken)) :
    impl.ChecksIdentity request ∧
    ∃ key, impl.store.observations.lookup request.observation.observation = some key ∧
      key ≠ request.observation.key := by
  unfold Impl.admit at h
  dsimp only at h
  split at h
  · cases h
  rename_i hvalid
  split at h
  · cases h
  rename_i entry hbound
  split at h
  · rename_i refusal hrefusal
    obtain rfl := Admission.refused.inj h
    rw [refusal_eq, Option.orElse_eq_some] at hrefusal
    -- The check of the identity is the last of those that read the authority and the link.
    rcases hrefusal with hearlier | ⟨hearlier, htaken⟩
    · exact absurd hearlier earlierRefusal_ne_identityTaken
    · exact ⟨⟨hvalid, entry, hbound, hearlier⟩, (checkObservation_eq_some.mp htaken).2⟩
  split at h
  · cases h
  · cases h
  split at h
  · rename_i hcapacity
    obtain rfl := Admission.refused.inj h
    unfold checkCapacity at hcapacity
    split at hcapacity <;> cases hcapacity
  split at h
  · have hcode := congrArg Prod.fst (Admission.refused.inj h)
    exact absurd (prepareCommit_code hcode) (by decide)
  · cases h

theorem refusesIdentity_iff : impl.refusesIdentity request = true ↔ impl.ChecksIdentity request ∧
    ∃ key, impl.store.observations.lookup request.observation.observation = some key ∧
      key ≠ request.observation.key := by
  constructor
  · intro h
    unfold Impl.refusesIdentity Impl.publishEvidence at h
    rw [decide_eq_true_eq] at h
    split at h
    · rename_i detail hadmit
      obtain rfl : detail = identityTaken := congrArg Outcome.detail h
      unfold Impl.admit at hadmit
      dsimp only at hadmit
      split at hadmit
      · rename_i herror
        obtain rfl := Admission.malformed.inj hadmit
        exact absurd herror validateObservation_ne_identityTaken
      -- The message is not one of the form, and no other branch answers with it.
      repeat' split at hadmit
      all_goals cases hadmit
    · rename_i code detail hadmit
      obtain rfl : code = .malformedRequest := congrArg Outcome.code h
      obtain rfl : detail = identityTaken := congrArg Outcome.detail h
      exact checksIdentity_of_refused hadmit
    · cases congrArg Outcome.code h
    · have hcode := congrArg Outcome.code h
      unfold Edit.publish publicationResult at hcode
      dsimp only at hcode
      split at hcode
      · cases hcode
      · split at hcode <;> cases hcode
  · rintro ⟨⟨hvalid, entry, hbound, hearlier⟩, htaken⟩
    have hcheck := checkObservation_eq_some.mpr ⟨rfl, htaken⟩
    have hrefusal : impl.refusal entry request = some (.malformedRequest, identityTaken) := by
      rw [refusal_eq, hearlier, hcheck]
      rfl
    unfold Impl.refusesIdentity Impl.publishEvidence Impl.admit
    simp only [hvalid, hbound, hrefusal]
    rfl

end Refusals

/-! ## Hosts and an engine -/

/-- The identity is one that the objects give. -/
def OfHost (observation : ObservationId) : Prop :=
  ∃ number < 2 ^ 64, observation = hostObservation number

/-- An engine, and the objects that make requests for it, with the requests that each has made. -/
structure Hosts (ι : Type) where
  impl : Impl
  host : ι → HostEvidencePublisher
  made : ι → List PublishEvidenceRequest

/-- A step: an object converts a round, one of the requests that it has made is submitted, or the
engine is operated otherwise. -/
inductive HostStep (ι : Type) where
  | convert (i : ι) (report : HostDiscoveryReport) (bindings : HostBindings) (epoch : CoordinatorEpoch)
  | submit (i : ι) (n : Nat)
  | operate (op : Op)

/-- Nobody else publishes under an identity that the objects give. -/
def HostStep.Allowed {ι : Type} : HostStep ι → Prop
  | .operate (.publishEvidence request) => ¬ OfHost request.observation.observation
  | _ => True

/-- The request was accepted, and its record is current. -/
def Impl.HasCurrent (impl : Impl) (request : PublishEvidenceRequest) : Prop :=
  impl.Has (LinkEntry.Observes request.observation.observation request.observation.key)
    request.observation.key.link

namespace Hosts

variable {ι : Type}

/-- The objects are new, and no evidence is current under an identity that they give. -/
structure Start (s : Hosts ι) : Prop where
  reachable : s.impl.Reachable
  vacant : ∀ link, ∀ record ∈ s.impl.currentEvidence link, ¬ OfHost record.observation
  created : ∀ i, ∃ publisher workerBoot source, s.host i = { publisher, workerBoot, source }
  nothing : ∀ i, s.made i = []

/-- The step submits a request that is turned away because its identity has another key. -/
def turnsAway (s : Hosts ι) : HostStep ι → Bool
  | .submit i n => (s.made i)[n]?.any s.impl.refusesIdentity
  | _ => false

/-- The step submits a request that comes as far as the check of its identity, while a request of
the same number about another key is current. -/
def Clash (s : Hosts ι) : HostStep ι → Prop
  | .submit i n => ∃ request, (s.made i)[n]? = some request ∧ s.impl.ChecksIdentity request ∧
    ∃ j m other, (s.made j)[m]? = some other ∧ m % 2 ^ 64 = n % 2 ^ 64 ∧
      other.observation.key ≠ request.observation.key ∧ s.impl.HasCurrent other
  | _ => False

/-! ## Runs -/

/-- The requests have the numbers of their places, and whatever is current under an identity of the
objects is one of them. -/
structure Traced (s : Hosts ι) : Prop where
  numbered : ∀ i, (s.host i).Numbered (s.made i)
  current : ∀ link, ∀ record ∈ s.impl.currentEvidence link, OfHost record.observation →
    ∃ j, ∃ other ∈ s.made j, other.observation.observation = record.observation ∧
      other.observation.key = record.key

theorem Start.traced {s : Hosts ι} (h : s.Start) : s.Traced := by
  refine ⟨fun i => ?_, fun link record hrecord hof => absurd hof (h.vacant link record hrecord)⟩
  obtain ⟨publisher, workerBoot, source, hhost⟩ := h.created i
  rw [hhost, h.nothing i]
  exact ⟨rfl, fun n request hn => by cases hn⟩

section Steps

variable [DecidableEq ι]

/-- The effect of a step. -/
def apply (s : Hosts ι) : HostStep ι → Hosts ι
  | .convert i report bindings epoch =>
    let (host, requests) := (s.host i).requests report bindings epoch
    { s with
      host := Function.update s.host i host
      made := Function.update s.made i (s.made i ++ requests) }
  | .submit i n =>
    match (s.made i)[n]? with
    | none => s
    | some request => { s with impl := (s.impl.publishEvidence request).1 }
  | .operate op => { s with impl := s.impl.apply op }

theorem Traced.apply {s : Hosts ι} (h : s.Traced) {step : HostStep ι} (hok : step.Allowed) :
    (s.apply step).Traced := by
  cases step with
  | convert i report bindings epoch =>
    refine ⟨fun j => ?_, fun link record hrecord hof => ?_⟩
    · by_cases hj : j = i
      · subst hj
        simp only [Hosts.apply, Function.update_self]
        exact (h.numbered j).requests report bindings epoch
      · simp only [Hosts.apply, Function.update_of_ne hj]
        exact h.numbered j
    · obtain ⟨j, other, hmade, hsame⟩ := h.current link record hrecord hof
      refine ⟨j, other, ?_, hsame⟩
      by_cases hj : j = i
      · subst hj
        simp only [Hosts.apply, Function.update_self]
        exact List.mem_append_left _ hmade
      · simp only [Hosts.apply, Function.update_of_ne hj]
        exact hmade
  | submit i n =>
    unfold Hosts.apply
    dsimp only
    split
    · exact h
    rename_i request hrequest
    refine ⟨h.numbered, fun link record hrecord hof => ?_⟩
    rcases currentEvidence_apply (.publishEvidence request) hrecord with hbefore | ⟨_, heq, t, rfl⟩
    · exact h.current link record hbefore hof
    · cases heq
      exact ⟨i, request, List.mem_of_getElem? hrequest, rfl, rfl⟩
  | operate op =>
    refine ⟨h.numbered, fun link record hrecord hof => ?_⟩
    rcases currentEvidence_apply op hrecord with hbefore | ⟨request, rfl, t, rfl⟩
    · exact h.current link record hbefore hof
    -- An operation that is not of a host publishes nothing of a host.
    · exact absurd hof hok

/-- The states that runs of the objects and the engine reach. -/
abbrev Reachable : Hosts ι → Prop := Runs.Run Start apply fun _ step => step.Allowed

theorem Reachable.traced {s : Hosts ι} (h : s.Reachable) : s.Traced :=
  h.invariant (fun _ hstart => hstart.traced) fun _ _ htraced hok => htraced.apply hok

theorem Reachable.impl {s : Hosts ι} (h : s.Reachable) : s.impl.Reachable := by
  refine h.invariant (P := fun s => s.impl.Reachable) (fun _ hstart => hstart.reachable)
    fun s step himpl _ => ?_
  cases step with
  | convert => exact himpl
  | submit i n =>
    unfold Hosts.apply
    dsimp only
    split
    · exact himpl
    · rename_i request hrequest
      exact .step (.publishEvidence request) himpl trivial
  | operate op => exact .step op himpl trivial

/-- A request is turned away exactly if a request of its number about another key is current. -/
theorem Reachable.turnsAway_iff {s : Hosts ι} (h : s.Reachable) (step : HostStep ι) :
    s.turnsAway step = true ↔ s.Clash step := by
  cases step with
  | convert => exact iff_of_false Bool.false_ne_true id
  | operate => exact iff_of_false Bool.false_ne_true id
  | submit i n =>
    have htraced := h.traced
    have hindexed := h.impl.indexed
    unfold turnsAway Clash
    dsimp only
    rw [Option.any_eq_true]
    refine exists_congr fun request => and_congr_right fun hrequest => ?_
    rw [refusesIdentity_iff]
    refine and_congr_right fun _ => ?_
    have hnumber := (htraced.numbered i).identity n request hrequest
    constructor
    · rintro ⟨key, hlookup, hne⟩
      obtain ⟨entry, hentry, record, hrecord, hobservation, hkey⟩ :=
        (hindexed.lookup_iff _ _).mp hlookup
      -- The record is that of a request, which has the number of its place.
      have hof : OfHost record.observation :=
        ⟨numberAt n, numberAt_lt n, by rw [hobservation, hnumber]⟩
      obtain ⟨j, other, hmade, hsame, hother⟩ := htraced.current key.link record
        (Impl.mem_currentEvidence.mpr ⟨entry, hentry, hrecord⟩) hof
      obtain ⟨m, hm⟩ := List.getElem?_of_mem hmade
      have hplace : hostObservation (numberAt m) = hostObservation (numberAt n) := by
        rw [← (htraced.numbered j).identity m other hm, hsame, hobservation, hnumber]
      rw [hostObservation_inj (numberAt_lt m) (numberAt_lt n), numberAt_inj] at hplace
      rw [hkey] at hother
      refine ⟨j, m, other, hm, hplace, by rwa [hother], ?_⟩
      unfold Impl.HasCurrent
      rw [hother]
      exact ⟨entry, hentry, record, hrecord, hsame.symm, hkey⟩
    · rintro ⟨j, m, other, hm, hplace, hne, hholds⟩
      have hsame : other.observation.observation = request.observation.observation := by
        rw [(htraced.numbered j).identity m other hm, hnumber, numberAt_inj.mpr hplace]
      refine ⟨other.observation.key, ?_, hne⟩
      rw [← hsame]
      exact (hindexed.lookup_iff _ _).mpr hholds

end Steps

end Hosts

/-- In a run of objects that number their requests independently, and an engine that is otherwise
operated in any way, no request is turned away because its identity has another evidence key, if
and only if none that comes as far as that check is submitted while a request of the same number
about another key is current. -/
theorem host_identities_iff {ι : Type} [DecidableEq ι] {s : Hosts ι} (h : s.Reachable)
    (steps : List (HostStep ι)) :
    Runs.Admissible Hosts.apply (fun s step => step.Allowed ∧ s.turnsAway step = false) s steps ↔
      Runs.Admissible Hosts.apply (fun s step => step.Allowed ∧ ¬ s.Clash step) s steps := by
  refine h.admissible_congr (fun s hs step _ => ?_) steps
  rw [← Hosts.Reachable.turnsAway_iff hs, Bool.not_eq_true]

/-- As long as an object has not made more requests than its counter has values, it is the request
of another object that is in the way. -/
theorem Hosts.Clash.other {ι : Type} {s : Hosts ι} {i : ι} {n : Nat} (h : s.Clash (.submit i n))
    (hmade : (s.made i).length ≤ 2 ^ 64) :
    ∃ j, j ≠ i ∧ ∃ other ∈ s.made j, s.impl.HasCurrent other := by
  obtain ⟨request, hrequest, -, j, m, other, hother, hplace, hne, hholds⟩ := h
  refine ⟨j, ?_, other, List.mem_of_getElem? hother, hholds⟩
  rintro rfl
  have hn := (List.getElem?_eq_some_iff.mp hrequest).1
  have hm := (List.getElem?_eq_some_iff.mp hother).1
  obtain rfl : m = n := by omega
  rw [hrequest] at hother
  cases hother
  exact hne rfl

/-! ## Two hosts -/

namespace Sample

/-- The publisher of a second host, with a source of its own. -/
def guestRegistration : PublisherRegistration :=
  { publisher := .fromValidated (lit "pub-2")
    workerBoot := .fromValidated (lit "boot-2")
    source := .fromValidated (lit "src-2")
    scope := { links := [link] } }

/-- Two hosts at a link, each the publisher of a registration. -/
def hostOf (registration : PublisherRegistration) : HostEvidencePublisher where
  publisher := registration.publisher
  workerBoot := registration.workerBoot
  source := registration.source

def hosts : Hosts Bool where
  impl := registered.apply (.registerPublisher ⟨guestRegistration⟩)
  host guest := hostOf (if guest then guestRegistration else registration)
  made _ := []

/-- A link was bound and two publishers registered, so no evidence is current. -/
theorem hosts_silent (l : LinkId) : hosts.impl.currentEvidence l = [] := by
  refine List.eq_nil_iff_forall_not_mem.mpr fun record hrecord => ?_
  have hfresh : record ∈ (Impl.create {}).currentEvidence l := by
    rcases currentEvidence_apply _ hrecord with hrecord | ⟨_, heq, -⟩
    · rcases currentEvidence_apply (.registerPublisher ⟨registration⟩) hrecord with
        hrecord | ⟨_, heq, -⟩
      · rcases currentEvidence_apply (.bindLink ⟨binding⟩) hrecord with hrecord | ⟨_, heq, -⟩
        · exact hrecord
        · cases heq
      · cases heq
    · cases heq
  cases hfresh

theorem hosts_start : hosts.Start where
  reachable :=
    show (registered.apply (.registerPublisher ⟨guestRegistration⟩)).Reachable from
      .step _ registered_reachable trivial
  vacant l record hrecord := by
    rw [hosts_silent] at hrecord
    cases hrecord
  created _ := ⟨_, _, _, rfl⟩
  nothing _ := rfl

/-- The round of a host that sees its end of the link up. -/
def round (guest : Bool) : HostStep Bool :=
  .convert guest ⟨[{ link, endpoint, claim := .up }]⟩
    ((∅ : HostBindings).insert link ⟨.fromValue 1, .zero⟩) .zero

/-- Each host sees the link up, and publishes what it saw. -/
def rounds : List (HostStep Bool) := [round false, round true, .submit false 0, .submit true 0]

/-- The first host withdraws what it published. -/
def hostWithdrawal : WithdrawEvidenceRequest :=
  { withdrawal with
    key := (hostOf registration).evidenceKey { link, endpoint }
    observation := hostObservation 1 }

/-- The second host publishes after the first has withdrawn. -/
def turns : List (HostStep Bool) :=
  [round false, round true, .submit false 0, .operate (.withdrawEvidence hostWithdrawal),
    .submit true 0]

end Sample

/-- Two publishers, both active and in scope: the observation of the second is turned away, because
that of the first has its number. -/
theorem host_identities_collide : Sample.hosts.Reachable ∧
    (Sample.hosts.host false).publisher ≠ (Sample.hosts.host true).publisher ∧
    (∀ guest, (Sample.hosts.impl.store.publishers.lookup (Sample.hosts.host guest).publisher).any
      (·.status = .active) = true) ∧
    ¬ Runs.Admissible Hosts.apply (fun s step => step.Allowed ∧ s.turnsAway step = false)
      Sample.hosts Sample.rounds := by
  refine ⟨.start Sample.hosts_start, by decide, by decide, fun h => ?_⟩
  obtain ⟨-, -, -, ⟨-, hlast⟩, -⟩ := h
  exact absurd hlast (by decide)

theorem host_identities_sample :
    Runs.Admissible Hosts.apply (fun s step => step.Allowed ∧ ¬ s.Clash step) Sample.hosts
      Sample.turns := by
  refine (host_identities_iff (.start Sample.hosts_start) Sample.turns).mp ?_
  exact ⟨⟨trivial, by decide⟩, ⟨trivial, by decide⟩, ⟨trivial, by decide⟩, ⟨trivial, by decide⟩,
    ⟨trivial, by decide⟩, trivial⟩

end LinkState
