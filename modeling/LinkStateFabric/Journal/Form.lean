import LinkStateFabric.Journal.Canonical

/-!
# The form of a journal

* `journalOf flags payload`: the journal of a payload with all its histories, under given flags.
  What `encodeJournal` writes is the journal of what it keeps of a payload (`encodeJournal_eq`).
* `decodeJournal_journalOf`: such a journal is decoded to its payload, exactly where that is
  `Loadable`.
* `accepted_of_decodeJournal`: `decodeJournal` accepts no other bytes.
-/

namespace LinkState

open Codec

/-! ## Headers -/

/-- The bytes of a header. -/
def JournalHeader.bytes (header : JournalHeader) : Bytes :=
  journalMagic ++ leBytes 2 journalFormatVersion ++ leBytes 2 header.flags ++
    encodeGeneration header.layout ++ encodeGeneration header.epoch ++
    encodeGeneration header.globalGeneration ++ encodeGeneration header.globalStateGeneration ++
    encodeGeneration header.topologyGeneration ++ leBytes 8 header.recordCount ++
    leBytes 8 header.payloadLength

theorem JournalHeader.length_bytes (header : JournalHeader) :
    header.bytes.length = journalHeaderBytes := by
  simp only [JournalHeader.bytes, encodeGeneration, List.length_append, length_leBytes]
  rfl

/-- The header of the journal of a payload. -/
def headerOf (flags : Nat) (payload : JournalPayload) (bodySize : Nat) : JournalHeader where
  flags := flags
  layout := payload.layout
  epoch := payload.epoch
  globalGeneration := payload.globalGeneration
  globalStateGeneration := payload.globalStateGeneration
  topologyGeneration := payload.topologyGeneration
  recordCount := payload.links.length
  payloadLength := bodySize

/-- A header with the numbers cut off that do not fit. -/
def JournalHeader.cut (header : JournalHeader) : JournalHeader :=
  { header with
    flags := header.flags % 256 ^ 2
    recordCount := header.recordCount % 256 ^ 8
    payloadLength := header.payloadLength % 256 ^ 8 }

theorem reads_decodeHeader_cut (header : JournalHeader) :
    Reads decodeHeader header.bytes True header.cut := by
  have hversion : journalFormatVersion % 256 ^ 2 = journalFormatVersion := by decide
  refine Reads.conv
    (.bind (.take journalMagic rfl) fun _ => .bind .check fun _ =>
      .bind (.number 2 journalFormatVersion) fun _ =>
      .bind (.number 2 header.flags) fun _ => .bind .check fun _ =>
      .bind (reads_readGeneration header.layout) fun _ =>
      .bind (reads_readGeneration header.epoch) fun _ =>
      .bind (reads_readGeneration header.globalGeneration) fun _ =>
      .bind (reads_readGeneration header.globalStateGeneration) fun _ =>
      .bind (reads_readGeneration header.topologyGeneration) fun _ =>
      .bind (.number 8 header.recordCount) fun _ =>
      .finish (.number 8 header.payloadLength) fun _ => .pure _)
    ?_ ?_ fun _ => rfl
  · simp only [JournalHeader.bytes, List.append_assoc, List.nil_append]
  · simp only [hversion, and_true]

theorem reads_decodeHeader {header : JournalHeader} (hflags : header.flags < 2 ^ 16)
    (hcount : header.recordCount < 2 ^ 64) (hlength : header.payloadLength < 2 ^ 64) :
    Reads decodeHeader header.bytes True header := by
  have hcut : header.cut = header := by
    unfold JournalHeader.cut
    rw [Nat.mod_eq_of_lt (show header.flags < 256 ^ 2 by omega),
      Nat.mod_eq_of_lt (show header.recordCount < 256 ^ 8 by omega),
      Nat.mod_eq_of_lt (show header.payloadLength < 256 ^ 8 by omega)]
  have hreads := reads_decodeHeader_cut header
  rwa [hcut] at hreads

theorem takes_decodeHeader : Takes [] decodeHeader JournalHeader.bytes := by
  refine takes_take.bind fun magic => .check fun hmagic => takes_number.bind fun version =>
    takes_number.bind fun flags => .check fun hversion => takes_readGeneration.bind fun _ =>
    takes_readGeneration.bind fun _ => takes_readGeneration.bind fun _ =>
    takes_readGeneration.bind fun _ => takes_readGeneration.bind fun _ =>
    takes_number.bind fun _ => takes_number.bind fun _ => takes_pure ?_
  subst hmagic hversion
  rfl

/-! ## Bodies -/

/-- The body of the journal of a payload. -/
def bodyOf (payload : JournalPayload) : Bytes :=
  encodeList (encodeLink true) payload.links ++ encodeList encodeFence payload.fences

/-- What the decoder requires of a payload. -/
structure JournalPayload.Loadable (payload : JournalPayload) : Prop where
  links : ∀ link ∈ payload.links, link.Intact ∧
    link.Decoded payload.globalGeneration payload.globalStateGeneration
  distinct : (payload.links.map (·.record.binding.link)).Nodup
  fences : payload.fences.length ≤ limits.maxPublishers ∧ ∀ fence ∈ payload.fences, fence.Decoded

theorem reads_decodeLinkOf (header : JournalHeader) (before : List PersistedLink)
    {link : PersistedLink} (h : link.Fits) :
    Reads (decodeLinkOf header before) (encodeLink true link)
      ((link.Intact ∧ link.Decoded header.globalGeneration header.globalStateGeneration) ∧
        link.record.binding.link ∉ before.map (·.record.binding.link)) link := by
  refine Reads.conv
    (.finish (reads_decodeLink h) fun _ => .finish .check fun _ => .finish .check fun _ =>
      .finish .check fun _ => .finish .check fun _ => .finish .check fun _ => .pure link)
    rfl ?_ fun _ => rfl
  have hvalue : link.record.binding.link.value ∉ before.map (·.record.binding.link.value) ↔
      link.record.binding.link ∉ before.map (·.record.binding.link) := by
    refine not_congr ⟨fun hmem => ?_, fun hmem => ?_⟩ <;>
    · obtain ⟨l, hl, heq⟩ := List.mem_map.mp hmem
      exact List.mem_map.mpr ⟨l, hl, by first | exact StrongId.ext heq | rw [heq]⟩
  rw [hvalue, and_true]
  constructor
  · rintro ⟨⟨hintact, hdecoded⟩, hnew⟩
    exact ⟨hintact, hnew, hdecoded.topologyGeneration, hdecoded.stateGeneration, hdecoded.global,
      hdecoded.retired⟩
  · rintro ⟨hintact, hnew, htg, hs, hg, hr⟩
    exact ⟨⟨hintact, hintact.record, htg, hs, hg, hr⟩, hnew⟩

theorem takes_decodeLinkOf (header : JournalHeader) (before : List PersistedLink) :
    Takes [] (decodeLinkOf header before) (encodeLink true) :=
  takes_decodeLink.bind fun _ => .check fun _ => .check fun _ => .check fun _ => .check fun _ =>
    .check fun _ => takes_pure <| List.nil_append _

/-- The part of `decodeBody` before the end. -/
def decodeItems (header : JournalHeader) :
    JournalReader (List PersistedLink × List PublisherFence) := do
  let count ← number truncated 4
  check (count = header.recordCount) (.persistenceCorrupt,
    lit "journal link count does not match the header record count")
  let links ← many (decodeLinkOf header) [] count
  let fences ← readList limits.maxPublishers (lit "fence count exceeds the accepted maximum")
    fun _ => decodeFence
  pure (links, fences)

theorem decodeBody_eq (header : JournalHeader) :
    decodeBody header = decodeItems header >>= fun p => readEnd >>= fun _ => pure p := by
  unfold decodeBody decodeItems
  simp only [bind_assoc, pure_bind]

/-- The counts and lengths of a payload are not cut off. -/
structure JournalPayload.Fits (payload : JournalPayload) : Prop where
  links : payload.links.length < 2 ^ 32
  eachLink : ∀ link ∈ payload.links, link.Fits
  fences : payload.fences.length < 2 ^ 32
  eachFence : ∀ fence ∈ payload.fences, fence.reason.length < 2 ^ 32

/-- The items of a body are read exactly where their payload is loadable. -/
theorem reads_decodeItems {payload : JournalPayload} (h : payload.Fits) (flags bodySize : Nat) :
    Reads (decodeItems (headerOf flags payload bodySize)) (bodyOf payload) payload.Loadable
      (payload.links, payload.fences) := by
  -- The count is written in four bytes.
  have hmod : payload.links.length % 256 ^ 4 = payload.links.length := Nat.mod_eq_of_lt h.links
  have hitems : Reads (many (decodeLinkOf (headerOf flags payload bodySize)) []
      (payload.links.length % 256 ^ 4)) (payload.links.flatMap (encodeLink true))
      (∀ pre link post, payload.links = pre ++ link :: post →
        (link.Intact ∧ link.Decoded payload.globalGeneration payload.globalStateGeneration) ∧
          link.record.binding.link ∉ ([] ++ pre).map (·.record.binding.link))
      ([] ++ payload.links) := by
    rw [hmod]
    exact Reads.many payload.links [] fun pre link hlink =>
      reads_decodeLinkOf _ pre (h.eachLink link hlink)
  refine Reads.conv
    (.bind (.number 4 payload.links.length) fun _ => .bind .check fun _ => .bind hitems fun _ =>
      .finish (reads_readListEach h.fences fun fence hfence =>
        reads_decodeFence (h.eachFence fence hfence)) fun _ => .pure _)
    ?_ ?_ fun _ => rfl
  · simp only [bodyOf, encodeList, List.append_assoc, List.nil_append]
  · rw [hmod]
    simp only [headerOf, true_and, and_true, List.nil_append]
    -- The loop refuses a link that it has read before, which is that the links are distinct.
    constructor
    · intro h
      refine ⟨fun pre link post heq => ⟨h.links link (by simp [heq]), ?_⟩, h.fences⟩
      exact nodup_map_iff_prefix.mp h.distinct pre link post heq
    · rintro ⟨hlinks, hfences⟩
      refine ⟨fun link hlink => ?_, nodup_map_iff_prefix.mpr fun pre link post heq =>
        (hlinks pre link post heq).2, hfences⟩
      obtain ⟨pre, post, heq⟩ := List.append_of_mem hlink
      exact (hlinks pre link post heq).1

/-- A body is decoded to what it was made of, exactly where its payload is loadable. -/
theorem decodeBody_bodyOf {payload : JournalPayload} (h : payload.Fits) (flags bodySize : Nat) :
    (payload.Loadable → decodeBody (headerOf flags payload bodySize) (bodyOf payload) =
        .ok ((payload.links, payload.fences), [])) ∧
    (¬ payload.Loadable → ∃ refusal,
      decodeBody (headerOf flags payload bodySize) (bodyOf payload) = .error refusal) := by
  have hreads := reads_decodeItems h flags bodySize
  constructor
  · intro hloadable
    have := hreads.accept hloadable []
    rw [List.append_nil] at this
    rw [decodeBody_eq, bind_apply, this]
    rfl
  · intro hloadable
    obtain ⟨refusal, hrefusal⟩ := hreads.reject hloadable []
    rw [List.append_nil] at hrefusal
    exact ⟨refusal, by rw [decodeBody_eq, bind_apply, hrefusal]⟩

/-- What a body is decoded to, it was made of. -/
theorem body_of_decodeBody {header : JournalHeader} {body rest : Bytes}
    {links : List PersistedLink} {fences : List PublisherFence}
    (h : decodeBody header body = .ok ((links, fences), rest)) :
    links.length = header.recordCount ∧
      body = encodeList (encodeLink true) links ++ encodeList encodeFence fences := by
  have hitems : Takes [] (decodeItems header) fun p =>
      encodeList (encodeLink true) p.1 ++ encodeList encodeFence p.2 := by
    refine takes_number.bind fun count => .check fun _ =>
      (takes_many (takes_decodeLinkOf header) count).bind_of gives_many_length
        fun links hlinks => (takes_readList fun _ => takes_decodeFence).bind fun fences =>
          takes_pure ?_
    rw [← hlinks]
    rfl
  have hcount : Gives (decodeItems header) fun p => p.1.length = header.recordCount :=
    (gives_true _).bind fun count _ => gives_check.bind fun _ hcount =>
      gives_many_length.bind fun links hlinks => (gives_true _).bind fun _ _ =>
        gives_pure (hlinks.trans hcount)
  rw [decodeBody_eq, bind_apply] at h
  split at h
  · rename_i p rest' hp
    rw [bind_apply, readEnd] at h
    split at h
    · rename_i hend
      split at hend
      · cases hend
        cases h
        -- Nothing is left of the body, so that it is what the two lists encode.
        obtain rfl := List.isEmpty_iff.mp ‹_›
        have htaken := hitems _ _ _ hp
        rw [List.nil_append, List.append_nil] at htaken
        exact ⟨hcount _ _ _ hp, htaken⟩
      · cases hend
    · cases h
  · cases h

/-! ## Journals -/

/-- The journal of a payload with all its histories, under the given flags. -/
def journalOf (flags : Nat) (payload : JournalPayload) : Bytes :=
  let front := (headerOf flags payload (bodyOf payload).length).bytes ++ bodyOf payload
  front ++ (sha256 (bodyOf payload)).bytes ++ (sha256 front).bytes

/-- The description of that journal. -/
def summaryOf (flags : Nat) (payload : JournalPayload) : JournalSummary where
  formatVersion := journalFormatVersion
  flags := flags
  layout := payload.layout
  epoch := payload.epoch
  globalGeneration := payload.globalGeneration
  globalStateGeneration := payload.globalStateGeneration
  topologyGeneration := payload.topologyGeneration
  recordCount := payload.links.length
  evidenceCount := payload.evidenceCount
  fenceCount := payload.fences.length
  payloadDigest := sha256 (bodyOf payload)
  fileDigest := sha256 ((headerOf flags payload (bodyOf payload).length).bytes ++ bodyOf payload)
  fileSize := journalHeaderBytes + journalTrailerBytes + (bodyOf payload).length

/-- What a journal keeps of a payload. -/
def JournalPayload.uncounted (payload : JournalPayload) : JournalPayload :=
  { payload with snapshotCounter := 0, transitionCounter := 0 }

/-- What an encoding with or without histories keeps of the links. -/
def JournalPayload.kept (payload : JournalPayload) (includeHistory : Bool) : JournalPayload :=
  { payload with
    links := payload.links.map fun link =>
      { link with record := { link.record with
          history := if includeHistory then link.record.history else [] } } }

theorem JournalPayload.kept_eq_self {payload : JournalPayload} {includeHistory : Bool}
    (h : includeHistory = true ∨ ∀ link ∈ payload.links, link.record.history = []) :
    payload.kept includeHistory = payload := by
  have hlinks : payload.links.map (fun link => { link with record := { link.record with
      history := if includeHistory then link.record.history else [] } }) = payload.links := by
    refine (List.map_congr_left fun link hlink => ?_).trans (List.map_id _)
    have hhistory : (if includeHistory then link.record.history else []) = link.record.history := by
      rcases h with h | h
      · exact if_pos h
      · rw [h link hlink, ite_self]
    rw [hhistory]
    rfl
  unfold JournalPayload.kept
  rw [hlinks]

/-- The digest of the frame covers the header and the body. -/
theorem digest_front (header body : Bytes) :
    ((Hasher.new.update header).update body).finalize = sha256 (header ++ body) := by
  rw [Hasher.update_append _ _ _ (by decide)]
  rfl

theorem encodePayload_eq (payload : JournalPayload) (config : PersistenceConfig) :
    encodePayload payload config = bodyOf (payload.kept config.includeHistory) := by
  have hlink (link : PersistedLink) : encodeLink config.includeHistory link =
      encodeLink true { link with record := { link.record with
          history := if config.includeHistory then link.record.history else [] } } := by
    cases config.includeHistory <;> rfl
  simp only [encodePayload, bodyOf, JournalPayload.kept, encodeList, List.length_map,
    List.flatMap_map, funext hlink]

/-- `encodeJournal` writes the journal of what it keeps, and describes it. -/
theorem encodeJournal_eq (payload : JournalPayload) (config : PersistenceConfig) :
    encodeJournal payload config =
      (journalOf (historyFlag config.includeHistory) (payload.kept config.includeHistory),
        summaryOf (historyFlag config.includeHistory) (payload.kept config.includeHistory)) := by
  have hheader : encodeHeader payload config (encodePayload payload config).length =
      (headerOf (historyFlag config.includeHistory) (payload.kept config.includeHistory)
        (bodyOf (payload.kept config.includeHistory)).length).bytes := by
    rw [encodePayload_eq]
    simp only [encodeHeader, JournalHeader.bytes, headerOf, JournalPayload.kept, List.length_map]
  have hcount : (payload.kept config.includeHistory).evidenceCount = payload.evidenceCount := by
    simp only [JournalPayload.evidenceCount, JournalPayload.kept, List.map_map]
    rfl
  have hlinks : (payload.kept config.includeHistory).links.length = payload.links.length :=
    List.length_map _
  unfold encodeJournal
  dsimp only
  rw [hheader, encodePayload_eq, digest_front]
  refine Prod.ext rfl ?_
  dsimp only
  unfold summaryOf
  rw [hcount, hlinks, List.length_append, List.length_append, List.length_append,
    JournalHeader.length_bytes, Digest.size, Digest.size, journalTrailerBytes, Digest.byteCount,
    show ∀ n, journalHeaderBytes + n + 32 + 32 = journalHeaderBytes + 2 * 32 + n by omega]
  rfl

/-- The parts of a journal, found again. -/
theorem split_journal {header body payloadDigest fileDigest : Bytes}
    (hheader : header.length = journalHeaderBytes) (hp : payloadDigest.length = Digest.byteCount)
    (hf : fileDigest.length = Digest.byteCount) :
    let out := header ++ body ++ payloadDigest ++ fileDigest
    out.length = journalHeaderBytes + journalTrailerBytes + body.length ∧
    out.take journalHeaderBytes = header ∧
    (out.drop journalHeaderBytes).take body.length = body ∧
    out.drop (journalHeaderBytes + body.length) = payloadDigest ++ fileDigest ∧
    out.take (journalHeaderBytes + body.length) = header ++ body := by
  have hfront : (header ++ body).length = journalHeaderBytes + body.length := by
    rw [List.length_append, hheader]
  refine ⟨?_, ?_, ?_, ?_, ?_⟩
  · simp only [List.length_append, hheader, hp, hf, journalTrailerBytes]
    omega
  · rw [List.append_assoc, List.append_assoc, ← hheader, List.take_left]
  · rw [List.append_assoc, List.append_assoc, ← hheader, List.drop_left, List.take_left]
  · rw [List.append_assoc, ← hfront, List.drop_left]
  · rw [List.append_assoc, ← hfront, List.take_left]

theorem Digest.ofBytes_bytes (digest : Digest) : Digest.ofBytes digest.bytes = digest := by
  rw [Digest.ofBytes, dif_pos digest.size]

theorem take_journalOf (flags : Nat) (payload : JournalPayload) :
    (journalOf flags payload).take journalHeaderBytes =
      (headerOf flags payload (bodyOf payload).length).bytes := by
  unfold journalOf
  dsimp only
  rw [List.append_assoc, List.append_assoc, ← JournalHeader.length_bytes, List.take_left]

/-- The journal of a payload is decoded to it, with its description, exactly where the payload is
loadable, under a configuration that admits as many records. -/
theorem decodeJournal_journalOf {payload : JournalPayload} {flags : Nat} (hflags : flags < 2 ^ 16)
    (hfits : payload.Fits) (hbody : (bodyOf payload).length < 2 ^ 64) (config : PersistenceConfig) :
    (config.Valid ∧ payload.links.length ≤ config.maxRecords ∧ payload.Loadable →
      decodeJournal (journalOf flags payload) config =
        .ok (payload.uncounted, summaryOf flags payload)) ∧
    (¬ (config.Valid ∧ payload.links.length ≤ config.maxRecords ∧ payload.Loadable) →
      ∃ refusal, decodeJournal (journalOf flags payload) config = .error refusal) := by
  obtain ⟨haccept, hreject⟩ := decodeBody_bodyOf hfits flags (bodyOf payload).length
  have hread := (@reads_decodeHeader (headerOf flags payload (bodyOf payload).length) hflags
    (hfits.links.trans (by decide)) hbody).accept trivial []
  rw [List.append_nil] at hread
  have hsummary : (summaryOf flags payload).fileDigest =
      sha256 ((headerOf flags payload (bodyOf payload).length).bytes ++ bodyOf payload) := rfl
  unfold journalOf
  dsimp only
  -- From here on the header and the body are two byte strings that are put together and split.
  generalize hheader : (headerOf flags payload (bodyOf payload).length).bytes = header at *
  generalize hbodyEq : bodyOf payload = body at *
  obtain ⟨hlength, htake, hmiddle, htrailer, hfront⟩ :=
    @split_journal header body _ _ (hheader ▸ JournalHeader.length_bytes _) (sha256 body).size
      (sha256 (header ++ body)).size
  have hfirst : ((sha256 body).bytes ++ (sha256 (header ++ body)).bytes).take Digest.byteCount =
      (sha256 body).bytes := List.take_left' (sha256 body).size
  have hsecond : ((sha256 body).bytes ++ (sha256 (header ++ body)).bytes).drop Digest.byteCount =
      (sha256 (header ++ body)).bytes := List.drop_left' (sha256 body).size
  have hdigests : checkDigests (header ++ body) body
      ((sha256 body).bytes ++ (sha256 (header ++ body)).bytes) = none := by
    unfold checkDigests
    rw [hfirst, hsecond, if_neg (not_not.mpr rfl), if_neg (not_not.mpr rfl)]
  have hframe : checkFrame (headerOf flags payload body.length) config body.length =
      if config.maxRecords < payload.links.length then
        some (.resourceLimit, lit "journal declares more records than the configured maximum")
      else none := by
    unfold checkFrame headerOf
    rw [if_neg (lt_irrefl body.length), if_neg (not_not.mpr rfl)]
  unfold decodeJournal
  dsimp only
  rw [hlength, if_neg (show ¬ journalHeaderBytes + journalTrailerBytes + body.length <
    journalHeaderBytes + journalTrailerBytes by omega),
    show journalHeaderBytes + journalTrailerBytes + body.length -
      (journalHeaderBytes + journalTrailerBytes) = body.length by omega,
    show journalHeaderBytes + journalTrailerBytes + body.length - journalTrailerBytes =
      journalHeaderBytes + body.length by omega]
  rw [htake, hread, hmiddle, htrailer, hfront]
  dsimp only
  rw [hframe, hdigests, Option.orElse_eq_orElse, Option.orElse_eq_or, Option.or_none]
  -- The three tests that depend on the configuration and the payload, in the order of the source.
  by_cases hvalid : config.validate = []
  · rw [if_neg (not_not.mpr hvalid)]
    by_cases hrecords : payload.links.length ≤ config.maxRecords
    · rw [if_neg (not_lt.mpr hrecords)]
      refine ⟨fun ⟨_, _, hloadable⟩ => ?_, fun hnot => ?_⟩
      · rw [haccept hloadable]
        dsimp only
        rw [hfirst, hsecond, Digest.ofBytes_bytes, Digest.ofBytes_bytes]
        rw [← hbodyEq, ← hheader, ← hbodyEq]
        rfl
      · obtain ⟨refusal, hrefusal⟩ := hreject fun hloadable => hnot ⟨hvalid, hrecords, hloadable⟩
        rw [hrefusal]
        exact ⟨refusal, rfl⟩
    · rw [if_pos (not_le.mp hrecords)]
      exact ⟨fun h => absurd h.2.1 hrecords, fun _ => ⟨_, rfl⟩⟩
  · rw [if_pos hvalid]
    exact ⟨fun h => absurd h.1 hvalid, fun _ => ⟨_, rfl⟩⟩

/-- What the frame of an accepted journal holds. -/
theorem checkFrame_none {header : JournalHeader} {config : PersistenceConfig} {payloadSize : Nat}
    (h : checkFrame header config payloadSize = none) :
    header.recordCount ≤ config.maxRecords ∧ header.payloadLength = payloadSize := by
  unfold checkFrame at h
  split at h
  · cases h
  split at h
  · cases h
  split at h
  · cases h
  · exact ⟨by omega, by omega⟩

theorem checkDigests_none {front body trailer : Bytes} (h : checkDigests front body trailer = none) :
    trailer = (sha256 body).bytes ++ (sha256 front).bytes := by
  unfold checkDigests at h
  split at h
  · cases h
  rename_i hfirst
  split at h
  · cases h
  rename_i hsecond
  rw [not_not.mp hfirst, not_not.mp hsecond, List.take_append_drop]

theorem gives_decodeHeader_flags : Gives decodeHeader fun header => header.flags < 2 ^ 16 :=
  (gives_true _).bind fun _ _ => (gives_true _).bind fun _ _ => (gives_true _).bind fun _ _ =>
    gives_number.bind fun _ hflags => (gives_true _).bind fun _ _ => (gives_true _).bind fun _ _ =>
    (gives_true _).bind fun _ _ => (gives_true _).bind fun _ _ => (gives_true _).bind fun _ _ =>
    (gives_true _).bind fun _ _ => (gives_true _).bind fun _ _ => (gives_true _).bind fun _ _ =>
    gives_pure (lt_of_lt_of_eq hflags (by decide))

theorem gives_decodeBody_intact (header : JournalHeader) :
    Gives (decodeBody header) fun body => ∀ link ∈ body.1, link.Intact := by
  have hlink (before : List PersistedLink) :
      Gives (decodeLinkOf header before) PersistedLink.Intact :=
    gives_decodeLink_intact.bind fun _ h => (gives_true _).bind fun _ _ =>
      (gives_true _).bind fun _ _ => (gives_true _).bind fun _ _ => (gives_true _).bind fun _ _ =>
      (gives_true _).bind fun _ _ => gives_pure h
  refine (gives_true _).bind fun count _ => (gives_true _).bind fun _ _ =>
    (gives_many hlink [] count).bind fun links hlinks => (gives_true _).bind fun _ _ =>
      (gives_true _).bind fun _ _ => gives_pure ?_
  obtain ⟨links, rfl, -, hall⟩ := hlinks
  intro link hmem
  obtain ⟨pre, post, heq⟩ := List.append_of_mem hmem
  exact hall pre link post heq

/-- An accepted journal is the journal of what it is decoded to. -/
structure Accepted (bytes : Bytes) (config : PersistenceConfig) (flags : Nat)
    (payload : JournalPayload) : Prop where
  valid : config.Valid
  records : payload.links.length ≤ config.maxRecords
  loadable : payload.Loadable
  uncounted : payload.uncounted = payload
  short : flags < 2 ^ 16
  form : bytes = journalOf flags payload

theorem accepted_of_decodeJournal {bytes : Bytes} {config : PersistenceConfig}
    {payload : JournalPayload} {summary : JournalSummary}
    (h : decodeJournal bytes config = .ok (payload, summary)) :
    Accepted bytes config summary.flags payload := by
  have hdecoded := decodeJournal_decoded h
  unfold decodeJournal at h
  dsimp only at h
  split at h
  · cases h
  rename_i hvalid
  split at h
  · cases h
  rename_i hlong
  split at h
  · cases h
  rename_i header rest hheader
  split at h
  · cases h
  rename_i hchecks
  obtain ⟨hframe, hdigests⟩ : checkFrame header config _ = none ∧ checkDigests _ _ _ = none := by
    rw [Option.orElse_eq_orElse, Option.orElse_eq_or, Option.or_eq_none_iff] at hchecks
    exact hchecks
  split at h
  · cases h
  rename_i links fences rest' hbody
  cases h
  obtain ⟨hcount, hlength⟩ := checkFrame_none hframe
  obtain ⟨hlinks, hbodyEq⟩ := body_of_decodeBody hbody
  have htrailer := checkDigests_none hdigests
  have hlong : journalHeaderBytes + journalTrailerBytes ≤ bytes.length := not_lt.mp hlong
  have htotal : journalHeaderBytes + journalTrailerBytes = 128 := rfl
  -- The header is read from its 64 bytes alone, and takes all of them.
  have hfront : bytes.take journalHeaderBytes = header.bytes := by
    have htaken := takes_decodeHeader _ _ _ hheader
    have hlen : (bytes.take journalHeaderBytes).length = header.bytes.length := by
      rw [List.length_take, header.length_bytes]
      exact min_eq_left (le_trans (Nat.le_add_right ..) hlong)
    have hrest := congrArg List.length htaken
    rw [List.nil_append, List.length_append, hlen] at hrest
    rw [List.nil_append, List.eq_nil_of_length_eq_zero (by omega : rest.length = 0),
      List.append_nil] at htaken
    exact htaken
  set payloadSize := bytes.length - (journalHeaderBytes + journalTrailerBytes) with hsize
  have hsplit : bytes.take (bytes.length - journalTrailerBytes) =
      header.bytes ++ (bytes.drop journalHeaderBytes).take payloadSize := by
    rw [show bytes.length - journalTrailerBytes = journalHeaderBytes + payloadSize by omega,
      List.take_add, hfront]
  have hwhole : bytes = header.bytes ++ (bytes.drop journalHeaderBytes).take payloadSize ++
      bytes.drop (bytes.length - journalTrailerBytes) := by
    rw [← hsplit, List.take_append_drop]
  have hbodyLength : ((bytes.drop journalHeaderBytes).take payloadSize).length = payloadSize := by
    rw [List.length_take, List.length_drop]
    omega
  have hflags : header.flags < 2 ^ 16 := gives_decodeHeader_flags _ _ _ hheader
  -- Every field of the header that is accepted is determined by the payload.
  have hheaderEq : header = headerOf header.flags
      { layout := header.layout
        epoch := header.epoch
        globalGeneration := header.globalGeneration
        globalStateGeneration := header.globalStateGeneration
        topologyGeneration := header.topologyGeneration
        links, fences } (encodeList (encodeLink true) links ++ encodeList encodeFence fences).length := by
    rw [← hbodyEq, hbodyLength, headerOf]
    dsimp only
    rw [hlinks, ← hlength]
  refine ⟨not_not.mp hvalid, hlinks.trans_le hcount, ⟨fun link hlink => ⟨?_, hdecoded.links link hlink⟩,
    hdecoded.distinct, hdecoded.fences⟩, rfl, hflags, ?_⟩
  · exact gives_decodeBody_intact _ _ _ _ hbody link hlink
  · rw [hwhole, htrailer, hsplit, hbodyEq, ← List.append_assoc]
    unfold journalOf bodyOf
    dsimp only
    rw [← hheaderEq]

/-! ## Short journals -/

theorem TopologyBinding.fits_of_short {binding : TopologyBinding}
    (h : (encodeBinding binding).length < 2 ^ 32) : binding.Fits := by
  simp only [encodeBinding, List.length_append] at h
  refine ⟨(short_of_encodeList (fun member _ => encodeId_pos member) (by omega)).1,
    (@short_of_encodeList _ encodeBacking _ (fun backing _ => ?_) (by omega)).1⟩
  rw [encodeBacking, List.length_append]
  exact Nat.add_pos_left (encodeId_pos _) _

theorem PersistedLink.fits_of_short {link : PersistedLink}
    (h : (encodeLink true link).length < 2 ^ 32) : link.Fits := by
  rw [encodeLink_eq (.inl rfl)] at h
  simp only [encodeRecord, List.length_append] at h
  have hevidence := @short_of_encodeList _ encodeEvidence link.evidence
    (fun r _ => by rw [length_encodeEvidence]; omega) (by omega)
  refine ⟨TopologyBinding.fits_of_short (by omega), ?_, hevidence.1, fun r hr => ?_⟩
  · refine (@short_of_encodeList _ encodeHistoryEntry _ (fun entry _ => ?_) (by omega)).1
    simp only [encodeHistoryEntry, encodeEnum, List.length_append, List.length_singleton]
    omega
  · have hr := hevidence.2 r hr
    rw [length_encodeEvidence] at hr
    exact ⟨by omega, by omega⟩

theorem JournalPayload.fits_of_short {payload : JournalPayload}
    (h : (bodyOf payload).length < 2 ^ 32) : payload.Fits := by
  rw [bodyOf, List.length_append] at h
  have hlinks := @short_of_encodeList _ (encodeLink true) payload.links
    (fun link _ => by
      have := encodeId_pos link.record.record
      rw [encodeLink_eq (.inl rfl)]
      simp only [encodeRecord, List.length_append]
      omega) (by omega)
  have hfences := @short_of_encodeList _ encodeFence payload.fences
    (fun fence _ => by
      have := encodeId_pos fence.publisher
      simp only [encodeFence, List.length_append]
      omega) (by omega)
  refine ⟨hlinks.1, fun link hlink => PersistedLink.fits_of_short (hlinks.2 link hlink),
    hfences.1, fun fence hfence => ?_⟩
  have := hfences.2 fence hfence
  simp only [encodeFence, encodeText, List.length_append] at this
  omega

/-- A journal of a size that can be read back is decoded to what it was made of. -/
theorem decodeJournal_encodeJournal {payload : JournalPayload} {config : PersistenceConfig}
    (hsize : (encodeJournal payload config).1.length ≤ maxJournalBytesCap)
    (hhistory : config.includeHistory = true ∨ ∀ link ∈ payload.links, link.record.history = [])
    (config' : PersistenceConfig) :
    (config'.Valid ∧ payload.links.length ≤ config'.maxRecords ∧ payload.Loadable → ∃ summary,
      decodeJournal (encodeJournal payload config).1 config' = .ok (payload.uncounted, summary)) ∧
    (¬ (config'.Valid ∧ payload.links.length ≤ config'.maxRecords ∧ payload.Loadable) → ∃ refusal,
      decodeJournal (encodeJournal payload config).1 config' = .error refusal) := by
  rw [encodeJournal_eq, JournalPayload.kept_eq_self hhistory] at hsize ⊢
  have hshort : (bodyOf payload).length < 2 ^ 32 := by
    have hcap : maxJournalBytesCap = 2 ^ 31 := rfl
    simp only [journalOf, List.length_append] at hsize
    omega
  have hflags : historyFlag config.includeHistory < 2 ^ 16 := by
    cases config.includeHistory <;> decide
  obtain ⟨haccept, hreject⟩ := decodeJournal_journalOf hflags
    (JournalPayload.fits_of_short hshort) (hshort.trans (by decide)) config'
  exact ⟨fun h => ⟨_, haccept h⟩, hreject⟩

end LinkState
