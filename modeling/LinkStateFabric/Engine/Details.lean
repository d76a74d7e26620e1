import LinkStateFabric.Engine.Outcomes
import LinkStateFabric.Fields

/-!
# The details of outcomes

A detail is composed of literals, identifiers, counters and names of enumerations, and all but two
fit in the limit of a detail for every choice of them.

* `Plain n text`: printable text of at most `n` characters, with a rule for each of its parts.
* `authorize_fits`, `authorize_overlong`: the two details that quote a pair of identifiers, and when
  they are too long.
* `publishEvidence_fits`, `withdrawEvidence_fits`, `registerPublisher_fits`,
  `invalidatePublisher_fits`: the operations that are called over the wire.
-/

namespace LinkState

/-- Printable text of at most `n` characters. -/
def Plain (n : Nat) (text : Text) : Prop :=
  (∀ ch ∈ text, 0x20 ≤ ch.toNat ∧ ch.toNat < 0x7f) ∧ text.length ≤ n

/-- Printable text, to be evaluated. -/
def isPrintable (text : Text) : Bool := text.all fun ch => 0x20 ≤ ch && ch < 0x7f

theorem of_isPrintable {text : Text} (h : isPrintable text = true) :
    ∀ ch ∈ text, 0x20 ≤ ch.toNat ∧ ch.toNat < 0x7f := fun ch hch => by
  have hprintable := List.all_eq_true.mp h ch hch
  rw [Bool.and_eq_true, decide_eq_true_eq, decide_eq_true_eq] at hprintable
  exact hprintable

namespace Plain

variable {m n : Nat} {a b : Text}

theorem append (ha : Plain m a) (hb : Plain n b) : Plain (m + n) (a ++ b) := by
  refine ⟨List.forall_mem_append.mpr ⟨ha.1, hb.1⟩, ?_⟩
  rw [List.length_append]
  exact Nat.add_le_add ha.2 hb.2

theorem mono (h : Plain m a) (hmn : m ≤ n) : Plain n a := ⟨h.1, h.2.trans hmn⟩

theorem validateText (h : Plain n a) : validateText a n = none := validateText_of_printable h.2 h.1

theorem short {s : String} (h : (isPrintable (lit s) && Nat.ble (lit s).length n) = true) :
    Plain n (lit s) := by
  rw [Bool.and_eq_true] at h
  exact ⟨of_isPrintable h.1, Nat.le_of_ble_eq_true h.2⟩

theorem lit {s : String} (h : isPrintable (lit s) = true) :
    Plain (LinkState.lit s).length (LinkState.lit s) := ⟨of_isPrintable h, le_rfl⟩

theorem id {tag : IdTag} (id : StrongId tag) : Plain limits.maxIdentifierLength id.value :=
  ⟨fun ch hch => by have := id.printable ch hch; omega, id.length_le⟩

theorem formatU64 {value : Nat} (h : value < 2 ^ 64) : Plain 20 (formatU64 value) := by
  refine ⟨fun ch hch => ?_, length_formatU64_le h⟩
  have := digit_of_mem_formatU64 hch
  omega

theorem generation {tag : GenTag} (g : StrongGeneration tag) : Plain 20 g.text :=
  formatU64 g.bounded

theorem state (state : LinkOperationalState) : Plain 21 state.text := by
  cases state <;> exact short (by decide)

theorem trigger (trigger : TransitionTrigger) : Plain 30 trigger.text := by
  cases trigger <;> exact short (by decide)

end Plain

/-! ## Refusals -/

/-- The detail of a refusal fits. -/
def Refusal.Fits (refusal : Refusal) : Prop := Plain limits.maxDetailLength refusal.2

/-- The refusal of the incarnation quotes two boots, or the source and the publisher, and they do
not fit in one detail. -/
def PublisherAuthority.Overlong (authority : PublisherAuthority) (publisher : PublisherId)
    (boot : WorkerBootId) (source : SourceId) : Prop :=
  (authority.workerBoot ≠ boot ∧
    225 < boot.value.length + authority.workerBoot.value.length) ∨
  (authority.workerBoot = boot ∧ authority.status = .active ∧ source.valid = true ∧
    authority.source.valid = true ∧ source ≠ authority.source ∧
    206 < source.value.length + publisher.value.length)

instance (authority : PublisherAuthority) (publisher : PublisherId) (boot : WorkerBootId)
    (source : SourceId) : Decidable (authority.Overlong publisher boot source) :=
  inferInstanceAs (Decidable (_ ∨ _))

section Authorize

theorem length_quotedBoots (boot current : Text) :
    (lit "worker boot " ++ boot ++ lit " was superseded by " ++ current).length =
      31 + boot.length + current.length := by
  have h₁ : (lit "worker boot ").length = 12 := by decide
  have h₂ : (lit " was superseded by ").length = 19 := by decide
  simp only [List.length_append]
  omega

theorem length_quotedSource (source publisher : Text) :
    (lit "source " ++ source ++ lit " is not the registered source of publisher " ++
      publisher).length = 50 + source.length + publisher.length := by
  have h₁ : (lit "source ").length = 7 := by decide
  have h₂ : (lit " is not the registered source of publisher ").length = 43 := by decide
  simp only [List.length_append]
  omega

variable {store : EngineStore} {publisher : PublisherId} {boot : WorkerBootId} {source : SourceId}
  {epoch engineEpoch : CoordinatorEpoch} {link : LinkId} {binding : TopologyBinding}

/-- The refusal of a request of the current epoch is overlong. -/
def EngineStore.Overlong (store : EngineStore) (publisher : PublisherId) (boot : WorkerBootId)
    (source : SourceId) (epoch engineEpoch : CoordinatorEpoch) : Prop :=
  ∃ authority, store.publishers.lookup publisher = some authority ∧ epoch = engineEpoch ∧
    authority.epoch = engineEpoch ∧ authority.Overlong publisher boot source

theorem authorize_overlong (h : store.Overlong publisher boot source epoch engineEpoch) :
    ∃ refusal, authorize store publisher boot source epoch engineEpoch link binding =
      some refusal ∧ limits.maxDetailLength < refusal.2.length := by
  obtain ⟨authority, hauthority, rfl, hepoch, hoverlong⟩ := h
  have hmax : limits.maxDetailLength = 256 := rfl
  unfold authorize
  rw [hauthority]
  dsimp only
  rw [if_neg (by simp [hepoch])]
  rcases hoverlong with ⟨hboot, hlong⟩ | ⟨hboot, hactive, hsource, hsource', hne, hlong⟩
  · rw [if_pos hboot]
    refine ⟨_, rfl, ?_⟩
    rw [length_quotedBoots]
    omega
  · rw [if_neg (not_not.mpr hboot), hactive]
    dsimp only
    rw [if_pos ⟨hsource, hsource', hne⟩]
    refine ⟨_, rfl, ?_⟩
    rw [length_quotedSource]
    omega

theorem authorize_fits {refusal : Refusal}
    (h : authorize store publisher boot source epoch engineEpoch link binding = some refusal)
    (hshort : ¬ store.Overlong publisher boot source epoch engineEpoch) : refusal.Fits := by
  have hmax : limits.maxDetailLength = 256 := rfl
  unfold authorize at h
  split at h
  · cases h
    exact .short (by decide)
  rename_i authority hauthority
  split at h
  · cases h
    exact ((((Plain.lit (by decide)).append (.generation _)).append (.lit (by decide))).append
      (.generation _)).mono (by decide)
  rename_i hepoch
  obtain ⟨he, hepoch⟩ := not_or.mp hepoch
  -- The two refusals that quote a pair of names are the ones that can be too long.
  have hfits (hoverlong : authority.Overlong publisher boot source) : False :=
    hshort ⟨authority, hauthority, not_not.mp he, not_not.mp hepoch, hoverlong⟩
  split at h
  · rename_i hboot
    cases h
    have hlength : boot.value.length + authority.workerBoot.value.length ≤ 225 :=
      not_lt.mp fun hlong => hfits (.inl ⟨hboot, hlong⟩)
    refine ⟨((((Plain.lit (by decide)).append (.id boot)).append (.lit (by decide))).append
      (.id authority.workerBoot)).1, ?_⟩
    rw [length_quotedBoots]
    omega
  rename_i hboot
  split at h
  · cases h
    exact .short (by decide)
  · cases h
    exact .short (by decide)
  · cases h
    exact .short (by decide)
  rename_i hactive
  split at h
  · rename_i hsource
    cases h
    have hlength : source.value.length + publisher.value.length ≤ 206 :=
      not_lt.mp fun hlong =>
        hfits (.inr ⟨not_not.mp hboot, hactive, hsource.1, hsource.2.1, hsource.2.2, hlong⟩)
    refine ⟨((((Plain.lit (by decide)).append (.id source)).append (.lit (by decide))).append
      (.id publisher)).1, ?_⟩
    rw [length_quotedSource]
    omega
  split at h
  · cases h
    exact ((Plain.lit (by decide)).append (.id _)).mono (by decide)
  split at h
  · cases h
    exact ((Plain.lit (by decide)).append (.id _)).mono (by decide)
  · cases h

end Authorize

/-! ## Checks of a publication -/

section Checks

variable {impl : Impl} {entry : LinkEntry} {observation : EvidenceRecord} {refusal : Refusal}

theorem validateObservation_fits {publication : PublicationId} {error : Text}
    (h : validateObservation observation publication = some error) :
    Plain limits.maxDetailLength error := by
  unfold validateObservation at h
  iterate 7
    split at h
    · cases h
      exact .short (by decide)
  split at h
  · rename_i htext
    cases h
    unfold LinkState.validateText at htext
    split at htext
    · cases htext
      exact ((Plain.lit (by decide)).append (.formatU64 (by decide))).mono (by decide)
    split at htext
    · cases htext
      exact .short (by decide)
    split at htext
    · cases htext
      exact .short (by decide)
    · cases htext
  · split at h
    · cases h
      exact .short (by decide)
    · cases h

theorem checkLive_fits (h : checkLive entry = some refusal) : refusal.Fits := by
  unfold checkLive at h
  split at h
  · cases h
    exact .short (by decide)
  · cases h

theorem backingProblem_fits {backing : BackingReference} {detail : Text}
    (h : backingProblem impl backing = some detail) : Plain limits.maxDetailLength detail := by
  unfold backingProblem at h
  split at h
  · cases h
    exact (((Plain.lit (by decide)).append (.id _)).append (.lit (by decide))).mono (by decide)
  split at h
  · cases h
    exact (((Plain.lit (by decide)).append (.id _)).append (.lit (by decide))).mono (by decide)
  · dsimp only at h
    split at h
    · cases h
      exact ((((((Plain.lit (by decide)).append (.id _)).append (.lit (by decide))).append
        (.generation _)).append (.lit (by decide))).append (.generation _)).mono (by decide)
    · cases h

theorem backingStale_fits {binding : TopologyBinding} {detail : Text}
    (h : backingStale impl binding = some detail) : Plain limits.maxDetailLength detail := by
  obtain ⟨backing, -, hproblem⟩ := List.exists_of_findSome?_eq_some h
  exact backingProblem_fits hproblem

theorem checkTopology_fits (h : checkTopology entry observation = some refusal) : refusal.Fits := by
  unfold checkTopology at h
  dsimp only at h
  split at h
  · cases h
    exact ((((((Plain.lit (by decide)).append (.generation _)).append (.lit (by decide))).append
      (.id _)).append (.lit (by decide))).append (.generation _)).mono (by decide)
  · cases h

theorem checkEndpoint_fits (h : checkEndpoint entry observation = some refusal) : refusal.Fits := by
  unfold checkEndpoint at h
  split at h
  · split at h
    · cases h
      exact .short (by decide)
    · split at h
      · cases h
        exact ((((Plain.lit (by decide)).append (.generation _)).append (.lit (by decide))).append
          (.generation _)).mono (by decide)
      · cases h
  · split at h
    · cases h
      exact .short (by decide)
    · cases h

theorem checkExpectedEvidence_fits {expected : Option EvidenceGeneration}
    (h : checkExpectedEvidence entry expected = some refusal) : refusal.Fits := by
  unfold checkExpectedEvidence at h
  split at h
  · cases h
  split at h
  · cases h
    exact ((((Plain.lit (by decide)).append (.generation _)).append (.lit (by decide))).append
      (.generation _)).mono (by decide)
  · cases h

theorem checkExpectedState_fits {expected : Option LinkStateGeneration}
    (h : checkExpectedState entry expected = some refusal) : refusal.Fits := by
  unfold checkExpectedState at h
  split at h
  · cases h
  split at h
  · cases h
    exact ((((Plain.lit (by decide)).append (.generation _)).append (.lit (by decide))).append
      (.generation _)).mono (by decide)
  · cases h

theorem checkObservation_fits {store : EngineStore}
    (h : checkObservation store observation = some refusal) : refusal.Fits := by
  unfold checkObservation at h
  split at h
  · cases h
  split at h
  · cases h
    exact .short (by decide)
  · cases h

theorem judgeSlot_fits {slot : EvidenceRecord} {detail : Text}
    (h : judgeSlot slot observation = .stale detail) : Plain limits.maxDetailLength detail := by
  unfold judgeSlot at h
  split at h
  · cases h
    exact ((((Plain.lit (by decide)).append (.generation _)).append (.lit (by decide))).append
      (.generation _)).mono (by decide)
  split at h
  · split at h
    · cases h
      exact ((((Plain.lit (by decide)).append (.formatU64 (Fin.isLt _))).append
        (.lit (by decide))).append (.formatU64 (Fin.isLt _))).mono (by decide)
    split at h
    · split at h
      · cases h
        exact .short (by decide)
      · cases h
    · cases h
  · cases h

theorem checkCapacity_fits {config : EngineConfig}
    (h : checkCapacity config entry observation = some refusal) : refusal.Fits := by
  unfold checkCapacity at h
  split at h
  · cases h
    exact .short (by decide)
  · cases h

theorem prepareCommit_fits (records : List EvidenceRecord) (trigger : TransitionTrigger) :
    Plain limits.maxDetailLength (prepareCommit impl entry records trigger).detail := by
  unfold prepareCommit
  dsimp only
  split
  · exact .short (by decide)
  split
  · exact ⟨nofun, Nat.zero_le _⟩
  · split
    · exact .short (by decide)
    · exact ⟨nofun, Nat.zero_le _⟩
  · exact .short (by decide)
  · exact .short (by decide)
  all_goals
    exact ((((((Plain.lit (by decide)).append (.state _)).append (.lit (by decide))).append
      (.state _)).append (.lit (by decide))).append (.trigger _)).mono (by decide)

end Checks

/-! ## Results -/

/-- The outcome has the generations of the view, if there is one. -/
def LinkMutationResult.Consistent (result : LinkMutationResult) : Prop :=
  ∀ view ∈ result.view, result.outcome.stateGeneration = view.record.stateGeneration ∧
    result.outcome.evidenceGeneration = view.record.evidenceGeneration ∧
    result.outcome.globalGeneration = view.record.globalGeneration

theorem consistent_failed (code : OutcomeCode) (detail : Text) : (failed code detail).Consistent :=
  fun _ h => by cases h

theorem consistent_resultFor (code : OutcomeCode) (detail : Text) (entry : LinkEntry)
    (stateChanged : Bool) : (resultFor code detail entry stateChanged).Consistent := by
  rintro _ ⟨⟩
  exact ⟨rfl, rfl, rfl⟩

/-- The detail of the result fits. -/
def LinkMutationResult.Fits (result : LinkMutationResult) : Prop :=
  Plain limits.maxDetailLength result.outcome.detail

section Requests

variable (impl : Impl)

/-- A request about the link is refused for its incarnation, with a detail that is too long. -/
def Impl.Overlong (publisher : PublisherId) (boot : WorkerBootId) (source : SourceId)
    (epoch : CoordinatorEpoch) (link : LinkId) : Prop :=
  (∃ entry, impl.entryOf link = some entry ∧ entry.record.state ≠ .retired) ∧
    impl.store.Overlong publisher boot source epoch impl.epoch

/-- The publication passes the checks of its form, and is refused with a detail that is too long. -/
def Impl.PublishesOverlong (request : PublishEvidenceRequest) : Prop :=
  validateObservation request.observation request.publication = none ∧
    impl.Overlong request.observation.publisher request.observation.workerBoot
      request.observation.key.source request.observation.epoch request.observation.key.link

/-- The withdrawal passes the checks of its form, and is refused with a detail that is too long. -/
def Impl.WithdrawsOverlong (request : WithdrawEvidenceRequest) : Prop :=
  (request.key.link.valid = true ∧ request.key.source.valid = true ∧
    request.observation.valid = true ∧ request.publisher.valid = true ∧
    request.workerBoot.valid = true) ∧
  impl.Overlong request.publisher request.workerBoot request.key.source request.epoch
    request.key.link

variable {impl}

theorem refusal_fits {entry : LinkEntry} {request : PublishEvidenceRequest} {refusal : Refusal}
    (h : impl.refusal entry request = some refusal)
    (hshort : entry.record.state ≠ .retired → ¬ impl.store.Overlong request.observation.publisher
      request.observation.workerBoot request.observation.key.source request.observation.epoch
      impl.epoch) : refusal.Fits := by
  simp only [Impl.refusal, Option.orElse_eq_some, Option.map_eq_some_iff] at h
  rcases h with h | ⟨hlive, h | ⟨-, ⟨_, h, rfl⟩ | ⟨-, h | ⟨-, h | ⟨-, h | ⟨-, h | ⟨-, h⟩⟩⟩⟩⟩⟩⟩
  · exact checkLive_fits h
  · refine authorize_fits h (hshort fun hretired => ?_)
    rw [checkLive, if_pos hretired] at hlive
    cases hlive
  · exact backingStale_fits h
  · exact checkTopology_fits h
  · exact checkEndpoint_fits h
  · exact checkExpectedEvidence_fits h
  · exact checkExpectedState_fits h
  · exact checkObservation_fits h

theorem admit_refused_fits {request : PublishEvidenceRequest} {refusal : Refusal}
    (h : impl.admit request = .refused refusal) (hshort : ¬ impl.PublishesOverlong request) :
    refusal.Fits := by
  unfold Impl.admit at h
  dsimp only at h
  split at h
  · cases h
  rename_i hvalid
  split at h
  · cases h
    exact .short (by decide)
  rename_i entry hentry
  split at h
  · rename_i hrefusal
    cases h
    -- Only the check of the authority can be too long, and it stands behind those of the form.
    exact refusal_fits hrefusal fun hlive hoverlong =>
      hshort ⟨hvalid, ⟨entry, hentry, hlive⟩, hoverlong⟩
  split at h
  · rename_i detail hslot
    cases h
    cases hfound : findSlot entry request.observation.key with
    | none => rw [hfound] at hslot; cases hslot
    | some slot => rw [hfound] at hslot; exact judgeSlot_fits hslot
  · cases h
  split at h
  · rename_i hcapacity
    cases h
    exact checkCapacity_fits hcapacity
  split at h
  · cases h
    exact prepareCommit_fits _ _
  · cases h

theorem admit_malformed_fits {request : PublishEvidenceRequest} {detail : Text}
    (h : impl.admit request = .malformed detail) : Plain limits.maxDetailLength detail := by
  unfold Impl.admit at h
  dsimp only at h
  split at h
  · rename_i hvalid
    cases h
    exact validateObservation_fits hvalid
  split at h
  · cases h
  split at h
  · cases h
  split at h
  · cases h
  · cases h
  split at h
  · cases h
  split at h <;> cases h

theorem publicationResult_fits (prepared : PreparedCommit) (entry : LinkEntry) :
    (publicationResult prepared entry).Fits ∧ (publicationResult prepared entry).Consistent := by
  unfold publicationResult
  split
  · exact ⟨.short (by decide), consistent_resultFor _ _ _ _⟩
  · exact ⟨⟨nofun, Nat.zero_le _⟩, consistent_resultFor _ _ _ _⟩

theorem publish_fits (t : Edit) (request : PublishEvidenceRequest) (prepared : PreparedCommit) :
    (t.publish request prepared).2.Fits ∧ (t.publish request prepared).2.Consistent := by
  unfold Edit.publish
  dsimp only
  split
  · exact ⟨.short (by decide), consistent_failed _ _⟩
  · exact publicationResult_fits ..

theorem publishEvidence_consistent (request : PublishEvidenceRequest) :
    (impl.publishEvidence request).2.Consistent := by
  unfold Impl.publishEvidence
  split
  · exact consistent_failed _ _
  · exact consistent_failed _ _
  · exact consistent_resultFor _ _ _ _
  · exact (publish_fits _ _ _).2

theorem publishEvidence_fits {request : PublishEvidenceRequest}
    (h : ¬ impl.PublishesOverlong request) : (impl.publishEvidence request).2.Fits := by
  unfold Impl.publishEvidence
  split
  · rename_i hadm
    exact admit_malformed_fits hadm
  · rename_i hadm
    exact admit_refused_fits hadm h
  · exact .short (by decide)
  · exact (publish_fits _ _ _).1

theorem publishEvidence_overlong {request : PublishEvidenceRequest}
    (h : impl.PublishesOverlong request) :
    limits.maxDetailLength < (impl.publishEvidence request).2.outcome.detail.length := by
  obtain ⟨hvalid, ⟨entry, hentry, hlive⟩, hoverlong⟩ := h
  obtain ⟨refusal, hauthorize, hlong⟩ :=
    @authorize_overlong _ _ _ _ _ _ request.observation.key.link entry.record.binding hoverlong
  have hadm : impl.admit request = .refused refusal := by
    unfold Impl.admit
    dsimp only
    rw [hvalid, hentry]
    dsimp only
    unfold Impl.refusal checkLive
    dsimp only
    rw [if_neg hlive, hauthorize]
    rfl
  unfold Impl.publishEvidence
  rw [hadm]
  exact hlong

theorem checkWithdrawal_fits {slot : EvidenceRecord} {request : WithdrawEvidenceRequest}
    {refusal : Refusal} (h : checkWithdrawal slot request = some refusal) : refusal.Fits := by
  unfold checkWithdrawal at h
  split at h
  · cases h
    exact ((Plain.lit (by decide)).append (.lit (by decide))).mono (by decide)
  split at h
  · cases h
    exact .short (by decide)
  split at h
  · cases h
    exact .short (by decide)
  split at h
  · cases h
    exact ((Plain.lit (by decide)).append (.lit (by decide))).mono (by decide)
  · cases h

theorem withdraw_fits (t : Edit) (request : WithdrawEvidenceRequest) (prepared : PreparedCommit) :
    (t.withdraw request prepared).2.Fits ∧ (t.withdraw request prepared).2.Consistent := by
  unfold Edit.withdraw
  dsimp only
  split
  · exact ⟨.short (by decide), consistent_failed _ _⟩
  · exact ⟨⟨nofun, Nat.zero_le _⟩, consistent_resultFor _ _ _ _⟩

theorem withdrawEvidence_consistent (request : WithdrawEvidenceRequest) :
    (impl.withdrawEvidence request).2.Consistent := by
  unfold Impl.withdrawEvidence
  split
  · exact consistent_failed _ _
  split
  · exact consistent_failed _ _
  split
  · exact consistent_failed _ _
  split
  · exact consistent_failed _ _
  split
  · exact consistent_failed _ _
  split
  · exact consistent_failed _ _
  dsimp only
  split
  · exact consistent_failed _ _
  · exact (withdraw_fits _ _ _).2

theorem withdrawEvidence_fits {request : WithdrawEvidenceRequest}
    (h : ¬ impl.WithdrawsOverlong request) : (impl.withdrawEvidence request).2.Fits := by
  unfold Impl.withdrawEvidence
  split
  · exact .short (by decide)
  rename_i hnamed
  simp only [Bool.or_eq_true, Bool.not_eq_true', not_or, Bool.not_eq_false, and_assoc] at hnamed
  split
  · exact .short (by decide)
  rename_i entry hentry
  split
  · exact .short (by decide)
  rename_i hlive
  split
  · rename_i hauthorize
    exact authorize_fits hauthorize fun hoverlong => h ⟨hnamed, ⟨entry, hentry, hlive⟩, hoverlong⟩
  split
  · exact .short (by decide)
  split
  · rename_i hcheck
    exact checkWithdrawal_fits hcheck
  dsimp only
  split
  · exact prepareCommit_fits _ _
  · exact (withdraw_fits _ _ _).1

theorem withdrawEvidence_overlong {request : WithdrawEvidenceRequest}
    (h : impl.WithdrawsOverlong request) :
    limits.maxDetailLength < (impl.withdrawEvidence request).2.outcome.detail.length := by
  obtain ⟨⟨h₁, h₂, h₃, h₄, h₅⟩, ⟨entry, hentry, hlive⟩, hoverlong⟩ := h
  obtain ⟨refusal, hauthorize, hlong⟩ :=
    @authorize_overlong _ _ _ _ _ _ request.key.link entry.record.binding hoverlong
  unfold Impl.withdrawEvidence
  rw [if_neg (by simp [h₁, h₂, h₃, h₄, h₅]), hentry]
  dsimp only
  rw [if_neg hlive, hauthorize]
  exact hlong

theorem registerPublisher_fits (request : RegisterPublisherRequest) :
    (impl.registerPublisher request).2.Fits := by
  unfold Impl.registerPublisher
  dsimp only
  split
  · exact .short (by decide)
  split
  · exact .short (by decide)
  split
  · exact ((((Plain.lit (by decide)).append (.generation _)).append (.lit (by decide))).append
      (.generation _)).mono (by decide)
  split
  · exact ((((Plain.lit (by decide)).append (.id _)).append (.lit (by decide))).append
      (.lit (by decide))).mono (by decide)
  unfold Impl.admitRegistration Impl.supersedeBoot
  split
  · split
    · split <;> exact .short (by decide)
    · dsimp only
      split <;> exact .short (by decide)
  · split <;> exact .short (by decide)

theorem invalidatePublisher_fits (request : InvalidatePublisherRequest) :
    (impl.invalidatePublisher request).2.Fits := by
  unfold Impl.invalidatePublisher
  split
  · exact .short (by decide)
  split
  · exact .short (by decide)
  split
  · exact .short (by decide)
  split
  · exact .short (by decide)
  split <;> exact .short (by decide)

end Requests

end LinkState
