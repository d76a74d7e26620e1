import LinkStateFabric.Journal.Decode

/-!
# What a decoded journal holds

Whatever the bytes of a journal are, a payload that `decodeJournal` gives is `Decoded`: its links
are distinct, their bindings are well formed, and no generation of a link is ahead of that of the
journal.
-/

namespace LinkState

open Codec

/-! ## Fields -/

theorem gives_readText (maxLength : Nat) :
    Gives (readText maxLength) fun text => validateText text maxLength = none :=
  gives_textField journalErrors maxLength

/-- A required identifier is valid. -/
theorem gives_readId {tag : IdTag} :
    Gives (readId false) fun id : StrongId tag => id.valid = true :=
  gives_idField journalErrors

/-- A list whose items are read independently. -/
theorem gives_readList {α : Type} {maximum : Nat} {tooMany : Text} {r : JournalReader α}
    {P : α → Prop} (h : Gives r P) :
    Gives (readList maximum tooMany fun _ => r) fun xs => xs.length ≤ maximum ∧ ∀ x ∈ xs, P x := by
  refine (gives_listField fun _ => h).mono fun xs ⟨hlength, hall⟩ => ⟨hlength, fun x hx => ?_⟩
  obtain ⟨pre, post, heq⟩ := List.append_of_mem hx
  exact hall pre x post heq

/-! ## Records -/

/-- What the decoder requires of a record on its own. -/
structure LinkStateRecord.Decoded (record : LinkStateRecord) : Prop where
  record_valid : record.record.valid = true
  link : record.binding.link.valid = true
  localEndpoint : record.binding.endpoints.localEndpoint.valid = true
  members : record.binding.memberLinks.length ≤ limits.maxAuthorityScopeLinks ∧
    ∀ member ∈ record.binding.memberLinks, member.valid = true
  backing : record.binding.backingLinks.length ≤ limits.maxAuthorityScopeLinks ∧
    ∀ backing ∈ record.binding.backingLinks, backing.link.valid = true
  intent : ∀ intent ∈ record.adminIntent,
    intent.publication.valid = true ∧ intent.publisher.valid = true

theorem gives_decodeBinding : Gives decodeBinding fun binding =>
    binding.link.valid = true ∧ binding.endpoints.localEndpoint.valid = true ∧
    (binding.memberLinks.length ≤ limits.maxAuthorityScopeLinks ∧
      ∀ member ∈ binding.memberLinks, member.valid = true) ∧
    (binding.backingLinks.length ≤ limits.maxAuthorityScopeLinks ∧
      ∀ backing ∈ binding.backingLinks, backing.link.valid = true) := by
  have hendpoints : Gives decodeEndpoints fun endpoints => endpoints.localEndpoint.valid = true :=
    gives_readId.bind fun _ h => (gives_true _).bind fun _ _ => (gives_true _).bind fun _ _ =>
      (gives_true _).bind fun _ _ => (gives_true _).bind fun _ _ => (gives_true _).bind fun _ _ =>
        (gives_true _).bind fun _ _ => (gives_true _).bind fun _ _ => gives_pure h
  have hbacking : Gives decodeBacking fun backing => backing.link.valid = true :=
    gives_readId.bind fun _ h => (gives_true _).bind fun _ _ => gives_pure h
  exact (gives_true _).bind fun _ _ => (gives_true _).bind fun _ _ => gives_readId.bind fun _ hlink =>
    (gives_true _).bind fun _ _ => (gives_true _).bind fun _ _ => (gives_true _).bind fun _ _ =>
      hendpoints.bind fun _ hlocal => (gives_readList gives_readId).bind fun _ hmembers =>
        (gives_readList hbacking).bind fun _ hbacking =>
          gives_pure ⟨hlink, hlocal, hmembers, hbacking⟩

theorem gives_decodeIntent : Gives decodeIntent fun intent =>
    ∀ i ∈ intent, i.publication.valid = true ∧ i.publisher.valid = true := by
  have hbody : Gives decodeIntentBody fun i => i.publication.valid = true ∧ i.publisher.valid = true :=
    (gives_true _).bind fun _ _ => (gives_true _).bind fun _ _ => gives_readId.bind fun _ h =>
      gives_readId.bind fun _ h' => (gives_true _).bind fun _ _ => gives_pure ⟨h, h'⟩
  refine (gives_true _).bind fun hasIntent _ => ?_
  cases hasIntent
  · exact gives_pure (by simp)
  · refine (hbody.map some).mono ?_
    rintro _ ⟨i, hi, rfl⟩ i' hi'
    cases hi'
    exact hi

theorem gives_decodeRecord : Gives decodeRecord LinkStateRecord.Decoded := by
  refine gives_readId.bind fun record hrecord => gives_decodeBinding.bind fun binding hbinding => ?_
  refine (gives_true _).bind fun _ _ => (gives_true _).bind fun _ _ => (gives_true _).bind fun _ _ => ?_
  refine (gives_true _).bind fun _ _ => (gives_true _).bind fun _ _ => (gives_true _).bind fun _ _ => ?_
  refine (gives_true _).bind fun _ _ => (gives_true _).bind fun _ _ => (gives_true _).bind fun _ _ => ?_
  refine (gives_true _).bind fun _ _ => (gives_true _).bind fun _ _ => (gives_true _).bind fun _ _ => ?_
  refine gives_decodeIntent.bind fun intent hintent => (gives_true _).bind fun _ _ => gives_pure ?_
  exact ⟨hrecord, hbinding.1, hbinding.2.1, hbinding.2.2.1, hbinding.2.2.2, hintent⟩

theorem gives_decodeLink : Gives decodeLink fun link => link.record.Decoded := by
  refine gives_decodeRecord.bind fun record h => (gives_true _).bind fun history _ =>
    (gives_true _).bind fun evidence _ => gives_pure ?_
  exact ⟨h.record_valid, h.link, h.localEndpoint, h.members, h.backing, h.intent⟩

/-- What the decoder requires of a fence. -/
structure PublisherFence.Decoded (fence : PublisherFence) : Prop where
  publisher : fence.publisher.valid = true
  workerBoot : fence.workerBoot.valid = true
  reason : validateText fence.reason limits.maxDetailLength = none

theorem gives_decodeFence : Gives decodeFence PublisherFence.Decoded :=
  gives_readId.bind fun _ hp => gives_readId.bind fun _ hb => (gives_true _).bind fun _ _ =>
    (gives_readText _).bind fun _ hr => gives_pure ⟨hp, hb, hr⟩

/-! ## Journals -/

/-- What the decoder requires of a link within its journal. -/
structure PersistedLink.Decoded (link : PersistedLink) (globalGeneration : GlobalGeneration)
    (globalStateGeneration : LinkStateGeneration) : Prop where
  record : link.record.Decoded
  topologyGeneration : link.record.binding.topologyGeneration.isZero = false
  stateGeneration : link.record.stateGeneration ≤ globalStateGeneration
  global : link.record.globalGeneration ≤ globalGeneration
  retired : ¬ (link.record.state = .retired ∧ link.record.everEstablished = false ∧
    link.record.stateGeneration.value = 0)

theorem PersistedLink.Decoded.wellFormed {link : PersistedLink} {g : GlobalGeneration}
    {gs : LinkStateGeneration} (h : link.Decoded g gs) : link.record.binding.WellFormed where
  link := h.record.link
  localEndpoint := h.record.localEndpoint
  topologyGeneration := h.topologyGeneration
  members := h.record.members.2
  backing := h.record.backing.2

/-- What a decoded journal holds. -/
structure JournalPayload.Decoded (payload : JournalPayload) : Prop where
  links : ∀ link ∈ payload.links, link.Decoded payload.globalGeneration payload.globalStateGeneration
  distinct : (payload.links.map (·.record.binding.link)).Nodup
  fences : payload.fences.length ≤ limits.maxPublishers ∧ ∀ fence ∈ payload.fences, fence.Decoded
  uncounted : payload.snapshotCounter = 0 ∧ payload.transitionCounter = 0

theorem gives_decodeLinkOf (header : JournalHeader) (before : List PersistedLink) :
    Gives (decodeLinkOf header before) fun link =>
      link.Decoded header.globalGeneration header.globalStateGeneration ∧
      link.record.binding.link ∉ before.map (·.record.binding.link) := by
  refine gives_decodeLink.bind fun link hlink => gives_check.bind fun _ hnew => gives_check.bind
    fun _ htg => gives_check.bind fun _ hs => gives_check.bind fun _ hg => gives_check.bind
      fun _ hr => gives_pure ⟨⟨hlink, htg, hs, hg, hr⟩, fun hmem => hnew ?_⟩
  obtain ⟨l, hl, heq⟩ := List.mem_map.mp hmem
  exact List.mem_map.mpr ⟨l, hl, by rw [heq]⟩

theorem nodup_of_prefix {α : Type} {l : List α} (h : ∀ pre x post, l = pre ++ x :: post → x ∉ pre) :
    l.Nodup := by
  induction l using List.reverseRecOn with
  | nil => exact List.nodup_nil
  | append_singleton l x ih =>
    refine List.nodup_append.mpr ⟨ih fun pre y post heq => ?_, List.nodup_singleton x, ?_⟩
    · exact h pre y (post ++ [x]) (by simp [heq])
    · rintro y hy z hz rfl
      exact h l x [] rfl (List.mem_singleton.mp hz ▸ hy)

theorem gives_decodeBody (header : JournalHeader) : Gives (decodeBody header) fun body =>
    (∀ link ∈ body.1, link.Decoded header.globalGeneration header.globalStateGeneration) ∧
    (body.1.map (·.record.binding.link)).Nodup ∧
    (body.2.length ≤ limits.maxPublishers ∧ ∀ fence ∈ body.2, fence.Decoded) := by
  refine (gives_true _).bind fun count _ => (gives_true _).bind fun _ _ =>
    (gives_many (gives_decodeLinkOf header) [] count).bind fun links hlinks =>
      (gives_readList gives_decodeFence).bind fun fences hfences => (gives_true _).bind fun _ _ =>
        gives_pure ⟨?_, ?_, hfences⟩
  all_goals obtain ⟨links, rfl, -, hall⟩ := hlinks
  all_goals simp only [List.nil_append] at hall ⊢
  · intro link hlink
    obtain ⟨pre, post, heq⟩ := List.append_of_mem hlink
    exact (hall pre link post heq).1
  · refine nodup_of_prefix fun pre x post heq => ?_
    obtain ⟨pre, rest, rfl, rfl, hrest⟩ := List.map_eq_append_iff.mp heq
    obtain ⟨link, post, rfl, rfl, rfl⟩ := List.map_eq_cons_iff.mp hrest
    exact (hall pre link post rfl).2

theorem decodeJournal_decoded {bytes : Bytes} {config : PersistenceConfig} {payload : JournalPayload}
    {summary : JournalSummary} (h : decodeJournal bytes config = .ok (payload, summary)) :
    payload.Decoded := by
  unfold decodeJournal at h
  dsimp only at h
  split at h
  · cases h
  split at h
  · cases h
  split at h
  · cases h
  split at h
  · cases h
  split at h
  · cases h
  rename_i hbody
  obtain ⟨hlinks, hdistinct, hfences⟩ := gives_decodeBody _ _ _ _ hbody
  cases h
  exact ⟨hlinks, hdistinct, hfences, rfl, rfl⟩

end LinkState
