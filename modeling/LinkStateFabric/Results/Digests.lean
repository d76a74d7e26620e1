import LinkStateFabric.Engine.Sound
import LinkStateFabric.Preimages
import Mathlib.Data.List.Perm.Basic

/-!
# What equal digests say

Digests are compared in place of what they are taken of. Equal digests of inputs that do not collide
(`Collide`) come of equal inputs, so that what the inputs determine is what the digests say.

* `evidence_digests_eq_iff`: the digest of a record of evidence covers what `operator==` compares,
  and the digest of a list its records in whatever order.
* `record_digests_cover_iff`: the digest of a link state record covers all that is authoritative but
  the devices and ports of its endpoints, and so does the digest of the state of an engine.
-/

namespace LinkState

open Codec Sorting

/-- Two inputs are a collision of the hash. -/
def Collide (x y : Bytes) : Prop := x ≠ y ∧ sha256 x = sha256 y

theorem sha256_eq_iff {x y : Bytes} (h : ¬ Collide x y) : sha256 x = sha256 y ↔ x = y :=
  ⟨fun heq => by_contra fun hne => h ⟨hne, heq⟩, fun heq => heq ▸ rfl⟩

/-! ## Lists of digests -/

/-- Digests that follow each other are those of the same items, item by item. -/
theorem encodeDigests_inj {α : Type} {f : α → Digest} {xs ys : List α} :
    encodeList (fun a => (f a).bytes) xs = encodeList (fun a => (f a).bytes) ys ↔
      xs.map f = ys.map f := by
  have hmap (zs : List α) :
      encodeList (fun a => (f a).bytes) zs = encodeList Digest.bytes (zs.map f) := by
    rw [encodeList, encodeList, List.length_map, List.flatMap_map]
  have hpos (digest : Digest) : 0 < digest.bytes.length := by
    rw [digest.size]
    decide
  rw [hmap, hmap]
  constructor
  · intro heq
    obtain ⟨-, hitems⟩ := List.append_inj heq (by simp)
    exact determines_digest.flatMap_inj hpos (fun _ _ => trivial) (fun _ _ => trivial) hitems
  · exact congrArg _

/-- Lists that one function makes the same are made the same by another, if the two tell the same
items from each other. -/
theorem map_eq_map_congr {α β γ : Type} {f : α → β} {g : α → γ} {xs ys : List α}
    (h : ∀ x ∈ xs, ∀ y ∈ ys, f x = f y ↔ g x = g y) : xs.map f = ys.map f ↔ xs.map g = ys.map g := by
  induction xs generalizing ys with
  | nil => simp [eq_comm]
  | cons x xs ih =>
    cases ys with
    | nil => simp
    | cons y ys =>
      rw [List.map_cons, List.map_cons, List.map_cons, List.map_cons, List.cons.injEq,
        List.cons.injEq, h x List.mem_cons_self y List.mem_cons_self,
        ih fun a ha b hb => h a (List.mem_cons_of_mem _ ha) b (List.mem_cons_of_mem _ hb)]

/-! ## Evidence -/

/-- A record with the fields that `operator==` compares only. -/
def EvidenceRecord.compared (record : EvidenceRecord) : EvidenceRecord :=
  { record with
    observedAtUnixNanos := 0, status := .current, evidenceGeneration := .zero
    commitSequence := .zero, recordDigest := .zero }

theorem EvidenceRecord.same_iff {a b : EvidenceRecord} :
    a.same b = true ↔ a.compared = b.compared := by
  simp only [same, compared, Bool.and_eq_true, decide_eq_true_eq, mk.injEq]
  tauto

theorem EvidenceRecord.computeDigest_eq_iff {a b : EvidenceRecord} (ha : a.Limited)
    (hb : b.Limited) (h : ¬ Collide a.preimage b.preimage) :
    a.computeDigest = b.computeDigest ↔ a.compared = b.compared := by
  rw [computeDigest_eq, computeDigest_eq, sha256_eq_iff h, preimage_eq_iff ha hb, same_iff]

theorem ranks_digestLess : Ranks digestLess fun record : EvidenceRecord =>
    toLex (record.key.rank, toLex (record.observation, record.sequence)) := fun a b => by
  unfold digestLess
  refine lex_step EvidenceKey.rank_injective.ne_iff.symm (EvidenceKey.ranks_less _ _) fun _ => ?_
  exact lex_step Iff.rfl decide_eq_true_iff fun _ => decide_eq_true_iff

/-- Records of different keys are sorted in one way. -/
theorem sortBy_digestLess_eq {as bs : List EvidenceRecord} (hp : as.Perm bs)
    (hnodup : (as.map (·.key)).Nodup) : sortBy digestLess as = sortBy digestLess bs := by
  refine ranks_digestLess.sortBy_eq_of_perm hp ?_
  refine List.Nodup.of_map (fun rank => (ofLex rank).1) ?_
  have hranks := hnodup.map EvidenceKey.rank_injective
  rw [List.map_map] at hranks ⊢
  exact hranks

/-- Lists with the same records in whatever order are the same lists when they are sorted. -/
theorem sorted_compared_iff {as bs : List EvidenceRecord} (hbs : (bs.map (·.key)).Nodup) :
    (sortBy digestLess as).map EvidenceRecord.compared =
        (sortBy digestLess bs).map EvidenceRecord.compared ↔
      ∃ bs', bs'.Perm bs ∧ List.Forall₂ (fun a b => a.same b = true) as bs' := by
  have hpairs (xs ys : List EvidenceRecord) :
      List.Forall₂ (fun a b => a.same b = true) xs ys ↔
        xs.map EvidenceRecord.compared = ys.map EvidenceRecord.compared := by
    rw [← List.forall₂_eq_eq_eq, List.forall₂_map_left_iff, List.forall₂_map_right_iff]
    simp only [EvidenceRecord.same_iff]
  constructor
  · intro heq
    obtain ⟨bs', hsame, hp⟩ := List.perm_comp_forall₂ (sortBy_perm digestLess as).symm
      ((hpairs _ _).mpr heq)
    exact ⟨bs', hp.trans (sortBy_perm digestLess bs), hsame⟩
  · rintro ⟨bs', hp, hsame⟩
    have hmap (l : List EvidenceRecord) := @map_sortBy _ digestLess _ digestLess
      EvidenceRecord.compared (fun _ _ => rfl) l
    rw [sortBy_digestLess_eq hp.symm hbs, hmap, hmap, (hpairs _ _).mp hsame]

/-- Where the hash has no collision among the inputs, the digests of two records are equal exactly
when `operator==` holds, and those of two lists of records of different keys exactly when the lists
have the same records in whatever order. -/
theorem evidence_digests_eq_iff :
    (∀ a b : EvidenceRecord, a.Limited → b.Limited → ¬ Collide a.preimage b.preimage →
      (a.computeDigest = b.computeDigest ↔ a.same b = true)) ∧
    ∀ as bs : List EvidenceRecord, (∀ a ∈ as, a.Limited) → (∀ b ∈ bs, b.Limited) →
      (as.map (·.key)).Nodup → (bs.map (·.key)).Nodup →
      (∀ a ∈ as, ∀ b ∈ bs, ¬ Collide a.preimage b.preimage) →
      ¬ Collide (evidencePreimage as) (evidencePreimage bs) →
      (digestEvidenceSet as = digestEvidenceSet bs ↔
        ∃ bs', bs'.Perm bs ∧ List.Forall₂ (fun a b => a.same b = true) as bs') := by
  refine ⟨fun a b ha hb h => ?_, fun as bs has hbs _ hnodup hrecords hset => ?_⟩
  · rw [EvidenceRecord.computeDigest_eq_iff ha hb h, EvidenceRecord.same_iff]
  · calc digestEvidenceSet as = digestEvidenceSet bs
        ↔ evidencePreimage as = evidencePreimage bs := by
          rw [digestEvidenceSet_eq, digestEvidenceSet_eq, sha256_eq_iff hset]
      _ ↔ (sortBy digestLess as).map EvidenceRecord.computeDigest =
          (sortBy digestLess bs).map EvidenceRecord.computeDigest := encodeDigests_inj
      _ ↔ (sortBy digestLess as).map EvidenceRecord.compared =
          (sortBy digestLess bs).map EvidenceRecord.compared := by
        refine map_eq_map_congr fun a ha b hb => ?_
        rw [mem_sortBy] at ha hb
        exact EvidenceRecord.computeDigest_eq_iff (has a ha) (hbs b hb) (hrecords a ha b hb)
      _ ↔ _ := sorted_compared_iff hnodup

namespace Sample

/-- The observation of the small run, as it might be committed. -/
def committed : EvidenceRecord :=
  { observation with observedAtUnixNanos := 7, commitSequence := .fromValue 3 }

/-- An observation for another slot of the link. -/
def sent : EvidenceRecord :=
  { observation with key.direction := .transmit, observation := .fromValidated (lit "obs-2") }

theorem sent_not_collides :
    ¬ Collide observation.preimage sent.preimage ∧ ¬ Collide sent.preimage observation.preimage := by
  have hne : sha256 observation.preimage ≠ sha256 sent.preimage := by decide +kernel
  exact ⟨fun h => hne h.2, fun h => hne h.2.symm⟩

end Sample

/-- Records that differ in bookkeeping have one digest, and so do lists of them in two orders. -/
theorem evidence_digests_sample :
    (Sample.committed.computeDigest = Sample.observation.computeDigest ↔
      Sample.committed.same Sample.observation = true) ∧
    (digestEvidenceSet [Sample.committed, Sample.sent] =
        digestEvidenceSet [Sample.sent, Sample.observation] ↔
      ∃ bs', bs'.Perm [Sample.sent, Sample.observation] ∧
        List.Forall₂ (fun a b => a.same b = true) [Sample.committed, Sample.sent] bs') := by
  have hlimited : Sample.observation.Limited := ⟨by decide, by decide⟩
  have hpreimage : Sample.committed.preimage = Sample.observation.preimage := rfl
  have hsame : ¬ Collide Sample.committed.preimage Sample.observation.preimage := fun h => h.1 rfl
  have hset : evidencePreimage [Sample.committed, Sample.sent] =
      evidencePreimage [Sample.sent, Sample.observation] := rfl
  refine ⟨evidence_digests_eq_iff.1 Sample.committed Sample.observation
      ⟨hlimited.detail, hlimited.metadata⟩ hlimited hsame,
    evidence_digests_eq_iff.2 [Sample.committed, Sample.sent]
      [Sample.sent, Sample.observation] ?_ ?_ (by decide) (by decide) ?_ fun h => h.1 hset⟩
  · simp only [List.forall_mem_cons]
    exact ⟨⟨hlimited.detail, hlimited.metadata⟩, ⟨hlimited.detail, hlimited.metadata⟩,
      List.forall_mem_nil _⟩
  · simp only [List.forall_mem_cons]
    exact ⟨⟨hlimited.detail, hlimited.metadata⟩, hlimited, List.forall_mem_nil _⟩
  · simp only [List.forall_mem_cons]
    exact ⟨⟨hpreimage ▸ Sample.sent_not_collides.1, hsame, List.forall_mem_nil _⟩,
      ⟨fun h => h.1 rfl, Sample.sent_not_collides.2, List.forall_mem_nil _⟩, List.forall_mem_nil _⟩

/-! ## Link state records -/

namespace Impl

/-- The record of a link. -/
def recordOf (impl : Impl) (link : LinkId) : Option LinkStateRecord :=
  (impl.entryOf link).map (·.record)

/-- The records whose digests make up the digest of the state. -/
def stateRecords (impl : Impl) : List LinkStateRecord :=
  (listing impl.store.links.keys).filterMap impl.recordOf

theorem stateDigest_eq (impl : Impl) : impl.stateDigest = sha256 (recordsPreimage impl.stateRecords) :=
  digestRecords_eq impl.stateRecords

theorem mem_stateRecords {impl : Impl} {record : LinkStateRecord} :
    record ∈ impl.stateRecords ↔ ∃ link, impl.recordOf link = some record := by
  simp only [stateRecords, List.mem_filterMap, mem_listing, Finmap.mem_keys]
  refine exists_congr fun link => and_iff_right_of_imp fun h => ?_
  obtain ⟨entry, hentry, -⟩ := Option.map_eq_some_iff.mp h
  exact Finmap.mem_of_lookup_eq_some hentry

end Impl

/-- Sorting by links does not depend on the devices and ports. -/
theorem map_placeless_sortBy (records : List LinkStateRecord) :
    (sortBy (fun lhs rhs => lhs.binding.link < rhs.binding.link) records).map
        LinkStateRecord.placeless =
      sortBy (fun lhs rhs => lhs.binding.link < rhs.binding.link)
        (records.map LinkStateRecord.placeless) :=
  @map_sortBy _ (fun lhs rhs => lhs.binding.link < rhs.binding.link) _
    (fun lhs rhs => lhs.binding.link < rhs.binding.link) LinkStateRecord.placeless (fun _ _ => rfl)
    records

/-- Records whose links are theirs are the same, link by link, exactly when the lists of them sort
to the same list. -/
theorem sorted_placeless_iff {impl impl' : Impl} (h : Indexed impl) (h' : Indexed impl') :
    (sortBy (fun lhs rhs => lhs.binding.link < rhs.binding.link) impl.stateRecords).map
        LinkStateRecord.placeless =
      (sortBy (fun lhs rhs => lhs.binding.link < rhs.binding.link) impl'.stateRecords).map
        LinkStateRecord.placeless ↔
    ∀ link, (impl.recordOf link).map LinkStateRecord.placeless =
      (impl'.recordOf link).map LinkStateRecord.placeless := by
  have hlink {impl : Impl} (h : Indexed impl) {link : LinkId} {record : LinkStateRecord}
      (hrecord : impl.recordOf link = some record) : record.binding.link = link := by
    obtain ⟨entry, hentry, rfl⟩ := Option.map_eq_some_iff.mp hrecord
    exact (h.slotted link entry hentry).link_eq
  rw [map_placeless_sortBy, map_placeless_sortBy]
  constructor
  · intro heq
    have hp : (impl.stateRecords.map LinkStateRecord.placeless).Perm
        (impl'.stateRecords.map LinkStateRecord.placeless) :=
      ((sortBy_perm _ _).symm.trans (List.Perm.of_eq heq)).trans (sortBy_perm _ _)
    -- A record of the one engine has its like in the other, and both are of the same link.
    have hlike {impl impl' : Impl} (h : Indexed impl) (h' : Indexed impl')
        (hp : (impl.stateRecords.map LinkStateRecord.placeless).Perm
          (impl'.stateRecords.map LinkStateRecord.placeless)) {link : LinkId}
        {record : LinkStateRecord} (hrecord : impl.recordOf link = some record) :
        ∃ record', impl'.recordOf link = some record' ∧ record'.placeless = record.placeless := by
      have hmem := List.mem_map_of_mem (f := LinkStateRecord.placeless)
        (Impl.mem_stateRecords.mpr ⟨link, hrecord⟩)
      obtain ⟨record', hmem', hplaceless⟩ := List.mem_map.mp (hp.mem_iff.mp hmem)
      obtain ⟨link', hrecord'⟩ := Impl.mem_stateRecords.mp hmem'
      obtain rfl : link' = link := by
        rw [← hlink h hrecord, ← hlink h' hrecord']
        exact congrArg (·.binding.link) hplaceless
      exact ⟨record', hrecord', hplaceless⟩
    intro link
    cases hrecord : impl.recordOf link with
    | some record =>
      obtain ⟨record', hrecord', hplaceless⟩ := hlike h h' hp hrecord
      rw [hrecord', Option.map_some, Option.map_some, hplaceless]
    | none =>
      cases hrecord' : impl'.recordOf link with
      | none => rfl
      | some record' =>
        obtain ⟨record, hsome, -⟩ := hlike h' h hp.symm hrecord'
        rw [hrecord] at hsome
        cases hsome
  · intro hall
    have hkeys : impl.store.links.keys = impl'.store.links.keys := by
      ext link
      have hsome (impl : Impl) : link ∈ impl.store.links.keys ↔
          ((impl.recordOf link).map LinkStateRecord.placeless).isSome = true := by
        rw [Finmap.mem_keys, Option.isSome_map, Impl.recordOf, Option.isSome_map,
          Impl.entryOf, Finmap.lookup_isSome]
      rw [hsome, hsome, hall]
    rw [Impl.stateRecords, Impl.stateRecords, List.map_filterMap, List.map_filterMap, hkeys]
    simp only [hall]

/-- The members of every bundle of an engine are identifiers. -/
theorem framed_stateRecords {impl : Impl} (h : impl.Reachable) :
    ∀ record ∈ impl.stateRecords, FramedMembers record.binding.memberLinks := by
  intro record hmem _
  obtain ⟨link, hrecord⟩ := Impl.mem_stateRecords.mp hmem
  obtain ⟨entry, hentry, rfl⟩ := Option.map_eq_some_iff.mp hrecord
  exact (h.entries_sound link entry hentry).wellFormed.members

/-- Engines have one digest of their states exactly when their records agree, link by link, in all
that is authoritative but the devices and ports. -/
theorem stateDigest_eq_iff {impl impl' : Impl} (h : impl.Reachable) (h' : impl'.Reachable)
    (hrecords : ∀ a ∈ impl.stateRecords, ∀ b ∈ impl'.stateRecords, ¬ Collide a.preimage b.preimage)
    (hstate : ¬ Collide (recordsPreimage impl.stateRecords) (recordsPreimage impl'.stateRecords)) :
    impl.stateDigest = impl'.stateDigest ↔
      ∀ link, (impl.recordOf link).map LinkStateRecord.placeless =
        (impl'.recordOf link).map LinkStateRecord.placeless := by
  rw [Impl.stateDigest_eq, Impl.stateDigest_eq, sha256_eq_iff hstate, recordsPreimage,
    recordsPreimage, encodeDigests_inj, ← sorted_placeless_iff h.indexed h'.indexed]
  refine map_eq_map_congr fun a ha b hb => ?_
  rw [mem_sortBy] at ha hb
  rw [digestRecord_eq, digestRecord_eq, sha256_eq_iff (hrecords a ha b hb),
    LinkStateRecord.preimage_eq_iff (framed_stateRecords h a ha) (framed_stateRecords h' b hb)]

/-- Two records that differ in an authoritative field are hashed from different bytes exactly when
they have the same devices and ports, or differ in another authoritative field. The digests of the
states of two engines say as much of their records. -/
theorem record_digests_cover_iff (a b : LinkStateRecord) (ha : FramedMembers a.binding.memberLinks)
    (hb : FramedMembers b.binding.memberLinks) :
    ((a.authoritative ≠ b.authoritative → a.preimage ≠ b.preimage) ↔
      (a.places = b.places ∨ a.placeless ≠ b.placeless)) ∧
    ∀ impl impl' : Impl, impl.Reachable → impl'.Reachable →
      (∀ a ∈ impl.stateRecords, ∀ b ∈ impl'.stateRecords, ¬ Collide a.preimage b.preimage) →
      ¬ Collide (recordsPreimage impl.stateRecords) (recordsPreimage impl'.stateRecords) →
      ((impl.stateDigest = impl'.stateDigest →
          ∀ link, (impl.recordOf link).map LinkStateRecord.authoritative =
            (impl'.recordOf link).map LinkStateRecord.authoritative) ↔
        ((∀ link, (impl.recordOf link).map LinkStateRecord.places =
            (impl'.recordOf link).map LinkStateRecord.places) ∨
          ∃ link, (impl.recordOf link).map LinkStateRecord.placeless ≠
            (impl'.recordOf link).map LinkStateRecord.placeless)) := by
  have hsplit (x y : Option LinkStateRecord) :
      x.map LinkStateRecord.authoritative = y.map LinkStateRecord.authoritative ↔
        x.map LinkStateRecord.placeless = y.map LinkStateRecord.placeless ∧
        x.map LinkStateRecord.places = y.map LinkStateRecord.places := by
    cases x <;> cases y <;> simp [LinkStateRecord.authoritative_eq_iff]
  refine ⟨?_, fun impl impl' h h' hrecords hstate => ?_⟩
  · rw [ne_eq, ne_eq, LinkStateRecord.preimage_eq_iff ha hb, LinkStateRecord.authoritative_eq_iff]
    tauto
  · simp only [stateDigest_eq_iff h h' hrecords hstate, hsplit]
    constructor
    · intro himp
      by_cases hall : ∀ link, (impl.recordOf link).map LinkStateRecord.placeless =
          (impl'.recordOf link).map LinkStateRecord.placeless
      · exact .inl fun link => (himp hall link).2
      · exact .inr (not_forall.mp hall)
    · rintro (hplaces | ⟨link, hne⟩) hall
      · exact fun link => ⟨hall link, hplaces link⟩
      · exact absurd (hall link) hne

/-! ### Two devices -/

namespace LinkStateRecord

theorem preimage_placeless (record : LinkStateRecord) : record.placeless.preimage = record.preimage :=
  rfl

end LinkStateRecord

theorem recordsPreimage_placeless (records : List LinkStateRecord) :
    recordsPreimage (records.map LinkStateRecord.placeless) = recordsPreimage records := by
  rw [recordsPreimage, recordsPreimage, encodeDigests_inj, ← map_placeless_sortBy, List.map_map]
  refine List.map_congr_left fun record _ => ?_
  rw [Function.comp, digestRecord_eq, digestRecord_eq, LinkStateRecord.preimage_placeless]

namespace Sample

def here : DeviceId := .fromValidated (lit "dev-1")
def there : DeviceId := .fromValidated (lit "dev-2")

/-- The link of the small run, with its local end on a device. -/
def placedBinding (device : DeviceId) : TopologyBinding :=
  { binding with endpoints := { binding.endpoints with localDevice := device } }

def placedRecord (device : DeviceId) : LinkStateRecord :=
  { binding := placedBinding device, provenanceDigest := digestEvidenceSet [] }

/-- An engine in which it is bound. -/
def placed (device : DeviceId) : Impl := (Impl.create {}).apply (.bindLink ⟨placedBinding device⟩)

theorem placed_stateRecords (device : DeviceId) :
    (placed device).stateRecords.map LinkStateRecord.authoritative = [placedRecord device] := rfl

theorem placed_placeless : (placed here).stateRecords.map LinkStateRecord.placeless =
    (placed there).stateRecords.map LinkStateRecord.placeless := by
  have hplaceless (record : LinkStateRecord) :
      record.authoritative.placeless = record.placeless := rfl
  have hmap (device : DeviceId) : (placed device).stateRecords.map LinkStateRecord.placeless =
      [(placedRecord device).placeless] := by
    rw [← List.map_singleton, ← placed_stateRecords, List.map_map]
    exact List.map_congr_left fun record _ => (hplaceless record).symm
  rw [hmap, hmap]
  rfl

end Sample

/-- The records of one link on two devices are hashed from the same bytes, and the states of two
engines that differ in this have one digest. -/
theorem devices_not_covered :
    (Sample.placedRecord Sample.here).authoritative ≠
        (Sample.placedRecord Sample.there).authoritative ∧
      (Sample.placedRecord Sample.here).preimage = (Sample.placedRecord Sample.there).preimage ∧
      (Sample.placed Sample.here).stateDigest = (Sample.placed Sample.there).stateDigest ∧
      ((Sample.placed Sample.here).recordOf Sample.link).map LinkStateRecord.authoritative ≠
        ((Sample.placed Sample.there).recordOf Sample.link).map LinkStateRecord.authoritative := by
  have hplaces : Sample.here ≠ Sample.there := by decide
  have hrecord (device : DeviceId) :
      ((Sample.placed device).recordOf Sample.link).map LinkStateRecord.authoritative =
        some (Sample.placedRecord device) := rfl
  have hdevice {a b : LinkStateRecord} (h : a = b) :
      a.binding.endpoints.localDevice = b.binding.endpoints.localDevice := by rw [h]
  refine ⟨fun h => hplaces (hdevice h), ?_, ?_, fun h => ?_⟩
  · rw [← LinkStateRecord.preimage_placeless, ← (Sample.placedRecord Sample.there).preimage_placeless]
    rfl
  · rw [Impl.stateDigest_eq, Impl.stateDigest_eq, ← recordsPreimage_placeless,
      Sample.placed_placeless, recordsPreimage_placeless]
  · rw [hrecord, hrecord] at h
    exact hplaces (hdevice (Option.some.inj h))

theorem record_digests_sample :
    (((Sample.placedRecord Sample.here).authoritative ≠
          (Sample.placedRecord Sample.there).authoritative →
        (Sample.placedRecord Sample.here).preimage ≠
          (Sample.placedRecord Sample.there).preimage) ↔
      ((Sample.placedRecord Sample.here).places = (Sample.placedRecord Sample.there).places ∨
        (Sample.placedRecord Sample.here).placeless ≠
          (Sample.placedRecord Sample.there).placeless)) ∧
    (((Sample.placed Sample.here).stateDigest = (Sample.placed Sample.there).stateDigest →
        ∀ link, ((Sample.placed Sample.here).recordOf link).map LinkStateRecord.authoritative =
          ((Sample.placed Sample.there).recordOf link).map LinkStateRecord.authoritative) ↔
      ((∀ link, ((Sample.placed Sample.here).recordOf link).map LinkStateRecord.places =
          ((Sample.placed Sample.there).recordOf link).map LinkStateRecord.places) ∨
        ∃ link, ((Sample.placed Sample.here).recordOf link).map LinkStateRecord.placeless ≠
          ((Sample.placed Sample.there).recordOf link).map LinkStateRecord.placeless)) := by
  have hframed (device : DeviceId) :
      FramedMembers (Sample.placedRecord device).binding.memberLinks :=
    fun hlength => absurd hlength (by show ¬ 2 ^ 32 ≤ 0; decide)
  have hreachable (device : DeviceId) : (Sample.placed device).Reachable :=
    .step _ (.start ⟨{}, rfl⟩) trivial
  -- Either engine holds one record, and the two differ in their places only.
  have hone (device : DeviceId) : ∀ a ∈ (Sample.placed device).stateRecords,
      a.placeless = (Sample.placedRecord Sample.here).placeless := by
    intro a ha
    have hmem := List.mem_map_of_mem (f := LinkStateRecord.authoritative) ha
    rw [Sample.placed_stateRecords, List.mem_singleton] at hmem
    calc a.placeless = a.authoritative.placeless := rfl
      _ = (Sample.placedRecord device).placeless := by rw [hmem]
      _ = (Sample.placedRecord Sample.here).placeless := rfl
  have h := record_digests_cover_iff (Sample.placedRecord Sample.here)
    (Sample.placedRecord Sample.there) (hframed _) (hframed _)
  refine ⟨h.1, h.2 _ _ (hreachable _) (hreachable _) (fun a ha b hb hcollide => hcollide.1 ?_)
    fun hcollide => hcollide.1 ?_⟩
  · rw [← a.preimage_placeless, ← b.preimage_placeless, hone _ a ha, hone _ b hb]
  · rw [← recordsPreimage_placeless, Sample.placed_placeless, recordsPreimage_placeless]

end LinkState
