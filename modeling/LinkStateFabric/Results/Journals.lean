import LinkStateFabric.Engine.Run
import LinkStateFabric.Journal.Sizes

/-!
# A journal keeps its payload

* `JournalPayload.WithinBounds`: the bounds that the decoder documents, over the keys of evidence
  themselves. Their texts, by which the decoder finds duplicates, are as distinct as they are
  (`EvidenceKey.text_injective`).
* `journal_round_trip`: a payload within bounds is decoded from its journal, but for its counters
  and the histories that the encoding was told to leave out, with the summary of the encoding.
* `canonical_iff`: an accepted journal is the encoding of what it is decoded to exactly where its
  flags are those of the encoder. The decoder looks at no flag, and reads whatever history is there.
-/

namespace LinkState

open Codec

/-! ## Keys and their texts -/

/-- Lists that are equal are cut at the same place by their first separator. -/
theorem cut_eq {α : Type} {separator : α} {a b x y : List α} (ha : separator ∉ a)
    (hb : separator ∉ b) (h : a ++ separator :: x = b ++ separator :: y) : a = b ∧ x = y := by
  induction a generalizing b with
  | nil =>
    cases b with
    | nil => exact ⟨rfl, (List.cons.inj h).2⟩
    | cons d b => exact absurd (List.cons.inj h).1 fun heq => hb (heq ▸ List.mem_cons_self)
  | cons c a ih =>
    cases b with
    | nil => exact absurd (List.cons.inj h).1 fun heq => ha (heq ▸ List.mem_cons_self)
    | cons d b =>
      obtain ⟨rfl, htail⟩ := List.cons.inj h
      obtain ⟨rfl, hxy⟩ := ih (fun hmem => ha (List.mem_cons_of_mem _ hmem))
        (fun hmem => hb (List.mem_cons_of_mem _ hmem)) htail
      exact ⟨rfl, hxy⟩

theorem StrongId.space_notMem {tag : IdTag} (id : StrongId tag) : 0x20 ∉ id.value := fun h =>
  absurd (id.printable _ h).1 (by decide)

/-- How the text of a key names its endpoint. -/
def EvidenceKey.endpointText (key : EvidenceKey) : Text :=
  if key.endpoint.valid then key.endpoint.value else lit "<link>"

theorem EvidenceKey.space_notMem_endpointText (key : EvidenceKey) : 0x20 ∉ key.endpointText := by
  unfold endpointText
  split
  · exact key.endpoint.space_notMem
  · decide

/-- No identifier is written as `<link>`. -/
theorem EvidenceKey.endpointText_injective {a b : EvidenceKey}
    (h : a.endpointText = b.endpointText) : a.endpoint = b.endpoint := by
  have hlink (id : EndpointId) (hid : id.value = lit "<link>") : False := by
    rcases id.encoded with hnull | hvalid
    · rw [hid] at hnull
      cases hnull
    · rw [hid] at hvalid
      revert hvalid
      decide
  unfold endpointText at h
  split at h <;> split at h
  · exact StrongId.ext h
  · exact (hlink _ h).elim
  · exact (hlink _ h.symm).elim
  · rename_i ha hb
    rw [StrongId.valid_eq_false_iff.mp (Bool.eq_false_iff.mpr ha),
      StrongId.valid_eq_false_iff.mp (Bool.eq_false_iff.mpr hb)]

theorem EvidenceKey.text_injective : Function.Injective EvidenceKey.text := by
  intro a b h
  have hsource : lit " source=" = 0x20 :: lit "source=" := by decide
  have hendpoint : lit " endpoint=" = 0x20 :: lit "endpoint=" := by decide
  have hdirection : lit " direction=" = 0x20 :: lit "direction=" := by decide
  have hkind : lit " kind=" = 0x20 :: lit "kind=" := by decide
  have hspace (direction : EvidenceDirection) : 0x20 ∉ direction.text := by
    cases direction <;> decide
  have htext (key : EvidenceKey) : key.text = lit "link=" ++ (key.link.value ++ 0x20 ::
      (lit "source=" ++ (key.source.value ++ 0x20 ::
        (lit "endpoint=" ++ (key.endpointText ++ 0x20 ::
          (lit "direction=" ++ (key.direction.text ++ 0x20 ::
            (lit "kind=" ++ key.kind.text)))))))) := by
    simp only [EvidenceKey.text, EvidenceKey.endpointText, hsource, hendpoint, hdirection, hkind,
      List.append_assoc, List.cons_append]
  rw [htext, htext] at h
  -- No part holds a space, so that each ends where the next begins.
  obtain ⟨hlinkEq, h⟩ := cut_eq a.link.space_notMem b.link.space_notMem (List.append_cancel_left h)
  obtain ⟨hsourceEq, h⟩ :=
    cut_eq a.source.space_notMem b.source.space_notMem (List.append_cancel_left h)
  obtain ⟨hendpointEq, h⟩ := cut_eq a.space_notMem_endpointText b.space_notMem_endpointText
    (List.append_cancel_left h)
  obtain ⟨hdirectionEq, h⟩ := cut_eq (hspace a.direction) (hspace b.direction)
    (List.append_cancel_left h)
  have hkindEq := List.append_cancel_left h
  have hdirections : a.direction = b.direction := by
    revert hdirectionEq
    cases a.direction <;> cases b.direction <;> decide
  have hkinds : a.kind = b.kind := by
    revert hkindEq
    cases a.kind <;> cases b.kind <;> decide
  obtain ⟨⟩ := a
  obtain ⟨⟩ := b
  simp only [EvidenceKey.mk.injEq]
  exact ⟨StrongId.ext hlinkEq, StrongId.ext hsourceEq,
    EvidenceKey.endpointText_injective hendpointEq, hdirections, hkinds⟩

/-! ## Round trip -/

/-- The bounds that the decoder documents for a link of a journal. -/
structure PersistedLink.WithinBounds (link : PersistedLink) (globalGeneration : GlobalGeneration)
    (globalStateGeneration : LinkStateGeneration) : Prop where
  record : link.record.Decoded
  history : link.record.history.length ≤ limits.maxHistoryPerLink
  evidence : link.evidence.length ≤ limits.maxEvidencePerLink
  each : ∀ r ∈ link.evidence, r.Decoded ∧ r.key.link = link.record.binding.link
  distinct : (link.evidence.map (·.key)).Nodup
  generations : link.Decoded globalGeneration globalStateGeneration

/-- The bounds that the decoder documents for a payload. -/
structure JournalPayload.WithinBounds (payload : JournalPayload) : Prop where
  links : ∀ link ∈ payload.links,
    link.WithinBounds payload.globalGeneration payload.globalStateGeneration
  distinct : (payload.links.map (·.record.binding.link)).Nodup
  fences : payload.fences.length ≤ limits.maxPublishers ∧ ∀ fence ∈ payload.fences, fence.Decoded

theorem PersistedLink.WithinBounds.intact {link : PersistedLink} {g : GlobalGeneration}
    {gs : LinkStateGeneration} (h : link.WithinBounds g gs) : link.Intact where
  record := h.record
  history := h.history
  evidence := h.evidence
  each := h.each
  distinct := by
    have htexts := h.distinct.map EvidenceKey.text_injective
    rwa [List.map_map] at htexts

theorem JournalPayload.WithinBounds.loadable {payload : JournalPayload} (h : payload.WithinBounds) :
    payload.Loadable :=
  ⟨fun link hlink => ⟨(h.links link hlink).intact, (h.links link hlink).generations⟩, h.distinct,
    h.fences⟩

theorem LinkStateRecord.Decoded.withHistory {record : LinkStateRecord} (h : record.Decoded)
    (history : List StateHistoryEntry) : LinkStateRecord.Decoded { record with history } :=
  ⟨h.record_valid, h.link, h.localEndpoint, h.members, h.backing, h.intent⟩

/-- Histories that are left out break no bound. -/
theorem JournalPayload.Loadable.kept {payload : JournalPayload} (h : payload.Loadable)
    (includeHistory : Bool) : (payload.kept includeHistory).Loadable := by
  refine ⟨fun link hlink => ?_, ?_, h.fences⟩
  · obtain ⟨link, hmem, rfl⟩ := List.mem_map.mp hlink
    obtain ⟨hintact, hdecoded⟩ := h.links link hmem
    have hrecord := hintact.record.withHistory
      (if includeHistory then link.record.history else [])
    refine ⟨⟨hrecord, ?_, hintact.evidence, hintact.each, hintact.distinct⟩,
      ⟨hrecord, hdecoded.topologyGeneration, hdecoded.stateGeneration, hdecoded.global,
        hdecoded.retired⟩⟩
    cases includeHistory
    · exact Nat.zero_le _
    · exact hintact.history
  · have hlinks : (payload.kept includeHistory).links.map (·.record.binding.link) =
        payload.links.map (·.record.binding.link) := by
      simp only [JournalPayload.kept, List.map_map]
      rfl
    rw [hlinks]
    exact h.distinct

/-- A payload within bounds comes back from its journal, without its counters and, where histories
are left out, without them; the decoder describes the journal as the encoder did. -/
theorem journal_round_trip {payload : JournalPayload} {config : PersistenceConfig}
    (hconfig : config.Valid) (hbounds : payload.WithinBounds)
    (hcount : payload.links.length ≤ config.maxRecords) :
    decodeJournal (encodeJournal payload config).1 config =
      .ok ((payload.kept config.includeHistory).uncounted, (encodeJournal payload config).2) := by
  have hloadable := hbounds.loadable.kept config.includeHistory
  have hkept : (payload.kept config.includeHistory).links.length = payload.links.length :=
    List.length_map _
  have hcount : (payload.kept config.includeHistory).links.length ≤ config.maxRecords :=
    hkept.trans_le hcount
  obtain ⟨hfits, hbody⟩ := hloadable.fits (hcount.trans hconfig.maxRecords_le)
  have hflags : historyFlag config.includeHistory < 2 ^ 16 := by
    cases config.includeHistory <;> decide
  rw [encodeJournal_eq]
  exact (decodeJournal_journalOf hflags hfits hbody config).1 ⟨hconfig, hcount, hloadable⟩

namespace Sample

/-- The evidence of the small run as it is stored. -/
def stored : EvidenceRecord := { observation with recordDigest := observation.computeDigest }

/-- A link with a history and a record of evidence. -/
def persisted : PersistedLink where
  record :=
    { record := .fromValidated (lit "lsr.link-1")
      binding
      state := .up
      resultClass := .authoritativeUp
      stateGeneration := .fromValue 1
      globalGeneration := .fromValue 1
      everEstablished := true
      durable := true
      history := [{ stateGeneration := .fromValue 1, toState := .up }] }
  evidence := [stored]

def payload : JournalPayload where
  layout := .fromValue 1
  epoch := .zero
  globalGeneration := .fromValue 1
  globalStateGeneration := .fromValue 1
  topologyGeneration := .fromValue 1
  snapshotCounter := 3
  links := [persisted]
  fences := []

theorem payload_withinBounds : payload.WithinBounds := by
  have hstored : stored.Decoded := by
    refine ⟨by decide, by decide, by decide, by decide, by decide, by decide, by decide, ?_⟩
    exact observation.computeDigest_recordDigest _
  have hrecord : persisted.record.Decoded := by decide
  refine ⟨List.forall_mem_singleton.mpr ?_, List.nodup_singleton _, by decide,
    List.forall_mem_nil _⟩
  refine ⟨hrecord, by decide, by decide, List.forall_mem_singleton.mpr ⟨hstored, rfl⟩,
    List.nodup_singleton _, ⟨hrecord, by decide, by decide, by decide, by decide⟩⟩

end Sample

theorem journal_round_trip_sample :
    decodeJournal (encodeJournal Sample.payload {}).1 {} =
      .ok ((Sample.payload.kept false).uncounted, (encodeJournal Sample.payload {}).2) :=
  journal_round_trip (by decide) Sample.payload_withinBounds (by decide)

/-! ## One form -/

/-- The flags in the header of a journal. -/
def journalFlags (bytes : Bytes) : Nat := leValue ((bytes.drop 6).take 2)

/-- The bytes are the journal of a payload with a history. -/
def HoldsHistory (bytes : Bytes) : Prop :=
  ∃ flags payload, flags < 2 ^ 16 ∧ payload.Loadable ∧
    payload.links.length ≤ limits.maxPersistedRecords ∧ bytes = journalOf flags payload ∧
    ∃ link ∈ payload.links, link.record.history ≠ []

/-- The encoding of a payload with the histories that the flags of a journal promise. -/
def reencode (bytes : Bytes) (payload : JournalPayload) : Bytes :=
  (encodeJournal payload { includeHistory := journalFlags bytes % 2 = 1 }).1

theorem journalFlags_journalOf {flags : Nat} (h : flags < 2 ^ 16) (payload : JournalPayload) :
    journalFlags (journalOf flags payload) = flags := by
  have hfront : (journalMagic ++ leBytes 2 journalFormatVersion).length = 6 := by decide
  have hsplit : ∃ rest, journalOf flags payload =
      (journalMagic ++ leBytes 2 journalFormatVersion) ++ (leBytes 2 flags ++ rest) := by
    unfold journalOf JournalHeader.bytes headerOf
    dsimp only
    simp only [List.append_assoc]
    exact ⟨_, rfl⟩
  obtain ⟨rest, hrest⟩ := hsplit
  rw [journalFlags, hrest, List.drop_left' hfront, List.take_left' (length_leBytes 2 flags),
    leValue_leBytes, Nat.mod_eq_of_lt (by omega)]

/-- The journal of a loadable payload is decoded to that payload, by whatever configuration accepts
it. -/
theorem decodeJournal_of_journalOf {flags : Nat} {payload : JournalPayload}
    (hflags : flags < 2 ^ 16) (hloadable : payload.Loadable)
    (hcount : payload.links.length ≤ limits.maxPersistedRecords) {config : PersistenceConfig}
    {decoded : JournalPayload} {summary : JournalSummary}
    (h : decodeJournal (journalOf flags payload) config = .ok (decoded, summary)) :
    decoded = payload.uncounted := by
  obtain ⟨hfits, hbody⟩ := hloadable.fits hcount
  obtain ⟨haccept, hreject⟩ := decodeJournal_journalOf hflags hfits hbody config
  by_cases hok : config.Valid ∧ payload.links.length ≤ config.maxRecords ∧ payload.Loadable
  · rw [haccept hok] at h
    exact (Prod.mk.inj (Except.ok.inj h)).1.symm
  · obtain ⟨refusal, hrefusal⟩ := hreject hok
    rw [hrefusal] at h
    cases h

/-- Without histories, an encoding that leaves them out decodes to the payload itself only if it has
none. -/
theorem history_eq_nil_of_kept {payload : JournalPayload}
    (h : payload.links = (payload.kept false).links) :
    ∀ link ∈ payload.links, link.record.history = [] := by
  intro link hlink
  rw [h] at hlink
  obtain ⟨link, -, rfl⟩ := List.mem_map.mp hlink
  rfl

/-- An accepted journal is the encoding of what it is decoded to exactly where its flags say whether
there are histories and nothing else. -/
theorem canonical_iff {bytes : Bytes} {config : PersistenceConfig} {payload : JournalPayload}
    {summary : JournalSummary} (h : decodeJournal bytes config = .ok (payload, summary)) :
    reencode bytes payload = bytes ↔
      journalFlags bytes = 1 ∨ journalFlags bytes = 0 ∧ ¬ HoldsHistory bytes := by
  have hjournal := accepted_of_decodeJournal h
  have hcount := hjournal.records.trans hjournal.valid.maxRecords_le
  have hflags : journalFlags bytes = summary.flags := by
    rw [hjournal.form, journalFlags_journalOf hjournal.short]
  rw [reencode, hflags, encodeJournal_eq]
  dsimp only
  constructor
  · intro heq
    have hshort : historyFlag (decide (summary.flags % 2 = 1)) < 2 ^ 16 := by
      cases decide (summary.flags % 2 = 1) <;> decide
    -- The flags that are written are 1 or 0, whichever the lowest bit of those that were read.
    have hwritten := journalFlags_journalOf hshort (payload.kept (decide (summary.flags % 2 = 1)))
    rw [heq, hflags] at hwritten
    cases hodd : decide (summary.flags % 2 = 1) with
    | true =>
      rw [hodd] at hwritten
      exact .inl hwritten
    | false =>
      rw [hodd] at hwritten heq
      refine .inr ⟨hwritten, ?_⟩
      rintro ⟨flags, stored, hstored, hloadable, hrecords, rfl, link, hlink, hhistory⟩
      have hsame := decodeJournal_of_journalOf hstored hloadable hrecords h
      have hkept : payload = (payload.kept false).uncounted := by
        rw [← heq] at h
        exact decodeJournal_of_journalOf (by decide) (hjournal.loadable.kept false)
          ((List.length_map _).trans_le hcount) h
      have hlinks := congrArg JournalPayload.links hkept
      have hnone := history_eq_nil_of_kept hlinks
      rw [hsame] at hnone
      exact hhistory (hnone link hlink)
  · rintro (hone | ⟨hzero, hnone⟩)
    · have hkept := @JournalPayload.kept_eq_self payload true (.inl rfl)
      rw [hone, hjournal.form, hone]
      exact congrArg (journalOf 1) hkept
    · have hempty (link : PersistedLink) (hlink : link ∈ payload.links) :
          link.record.history = [] := by
        by_contra hhistory
        exact hnone ⟨_, _, hjournal.short, hjournal.loadable, hcount, hjournal.form, link, hlink,
          hhistory⟩
      have hkept := @JournalPayload.kept_eq_self payload false (.inr hempty)
      rw [hzero, hjournal.form, hzero]
      exact congrArg (journalOf 0) hkept

namespace Sample

/-- A journal of the small payload is accepted, under whatever flags. -/
theorem decodeJournal_payload {flags : Nat} (hflags : flags < 2 ^ 16) :
    decodeJournal (journalOf flags payload) {} =
      .ok (payload.uncounted, summaryOf flags payload) := by
  have hloadable := payload_withinBounds.loadable
  obtain ⟨hfits, hbody⟩ := hloadable.fits (by decide)
  exact (decodeJournal_journalOf hflags hfits hbody {}).1 ⟨by decide, by decide, hloadable⟩

end Sample

theorem canonical_sample :
    reencode (journalOf 1 Sample.payload) Sample.payload.uncounted = journalOf 1 Sample.payload ↔
      journalFlags (journalOf 1 Sample.payload) = 1 ∨
        journalFlags (journalOf 1 Sample.payload) = 0 ∧
          ¬ HoldsHistory (journalOf 1 Sample.payload) :=
  canonical_iff (Sample.decodeJournal_payload (by decide))

/-- A journal with a flag that nobody writes is accepted, and so is a journal with a history that
its flags deny; neither is encoded again as it was. -/
theorem lenient_journals :
    (decodeJournal (journalOf 2 Sample.payload) {} =
        .ok (Sample.payload.uncounted, summaryOf 2 Sample.payload) ∧
      reencode (journalOf 2 Sample.payload) Sample.payload.uncounted ≠
        journalOf 2 Sample.payload) ∧
    decodeJournal (journalOf 0 Sample.payload) {} =
        .ok (Sample.payload.uncounted, summaryOf 0 Sample.payload) ∧
      reencode (journalOf 0 Sample.payload) Sample.payload.uncounted ≠
        journalOf 0 Sample.payload := by
  have hreencode (flags : Nat) (hflags : flags < 2 ^ 16) (hodd : decide (flags % 2 = 1) = false) :
      reencode (journalOf flags Sample.payload) Sample.payload.uncounted =
        journalOf 0 (Sample.payload.uncounted.kept false) := by
    rw [reencode, journalFlags_journalOf hflags, hodd, encodeJournal_eq]
    rfl
  refine ⟨⟨Sample.decodeJournal_payload (by decide), fun heq => ?_⟩,
    Sample.decodeJournal_payload (by decide), fun heq => ?_⟩
  · rw [hreencode 2 (by decide) rfl] at heq
    have hflags := congrArg journalFlags heq
    rw [journalFlags_journalOf (by decide), journalFlags_journalOf (by decide)] at hflags
    cases hflags
  · rw [hreencode 0 (by decide) rfl] at heq
    have hdecode := Sample.decodeJournal_payload (show 0 < 2 ^ 16 by decide)
    rw [← heq] at hdecode
    have hkept := decodeJournal_of_journalOf (by decide)
      (Sample.payload_withinBounds.loadable.kept false) (by decide) hdecode
    have hlinks := congrArg JournalPayload.links hkept
    have hnone := history_eq_nil_of_kept hlinks Sample.persisted (List.mem_singleton_self _)
    cases hnone

end LinkState
