import LinkStateFabric.Engine.Publications
import LinkStateFabric.Results.Indexes

/-!
# Publications after a withdrawal

What orders the publications of a key is the record in its slot, and a withdrawal deletes it. A late
copy of the withdrawn publication then finds the slot free and is accepted (`withdrawn_returns`).
As long as no late publication finds its slot free, or with an older record of somebody else in it,
the records of an incarnation are newer than all that it has withdrawn (`Withdrawing.Newer`), and no
late publication is accepted (`withdrawn_kept`).
-/

namespace LinkState

/-- The record is not older than the observation: its source generation is larger, or the same with
a sequence that is not smaller. -/
def EvidenceRecord.AtLeast (record observation : EvidenceRecord) : Prop :=
  observation.sourceGeneration < record.sourceGeneration ∨
    observation.sourceGeneration = record.sourceGeneration ∧
      observation.sequence ≤ record.sequence

instance (record observation : EvidenceRecord) : Decidable (record.AtLeast observation) :=
  inferInstanceAs (Decidable (_ ∨ _))

theorem EvidenceRecord.AtLeast.trans {r r' r'' : EvidenceRecord} (h : r.AtLeast r')
    (h' : r'.AtLeast r'') : r.AtLeast r'' := by
  rcases h with h | ⟨heq, hle⟩
  · exact .inl (h'.elim (·.trans h) fun h' => h'.1 ▸ h)
  · rcases h' with h' | ⟨heq', hle'⟩
    · exact .inl (heq ▸ h')
    · exact .inr ⟨heq'.trans heq, hle'.trans hle⟩

theorem EvidenceRecord.atLeast_of_not {r r' : EvidenceRecord} (h : ¬ r.AtLeast r') :
    r'.AtLeast r := by
  unfold AtLeast at h ⊢
  rcases lt_trichotomy r.sourceGeneration r'.sourceGeneration with hlt | heq | hgt
  · exact .inl hlt
  · exact .inr ⟨heq, (le_total _ _).resolve_right fun hle => h (.inr ⟨heq.symm, hle⟩)⟩
  · exact absurd (.inl hgt) h

/-- A slot whose record is not older than the observation does not take it. -/
theorem judgeSlot_ne_fresh {slot observation : EvidenceRecord} (h : slot.AtLeast observation) :
    judgeSlot slot observation ≠ .fresh := by
  unfold judgeSlot
  rcases h with h | ⟨heq, hle⟩
  · rw [if_pos h]
    nofun
  · rw [if_neg (not_lt.mpr heq.ge), if_pos heq]
    rcases lt_or_eq_of_le hle with hlt | hsame
    · rw [if_pos hlt]
      nofun
    · rw [if_neg (not_lt.mpr hsame.ge), if_pos hsame]
      split <;> nofun

/-! ## Runs with what was withdrawn -/

/-- A record that an incarnation of a publisher has withdrawn. -/
structure Withdrawal where
  publisher : PublisherId
  workerBoot : WorkerBootId
  record : EvidenceRecord

/-- What a request of an incarnation has taken off a link. -/
def Impl.takenOff (impl impl' : Impl) (publisher : PublisherId) (workerBoot : WorkerBootId)
    (link : LinkId) : List Withdrawal :=
  ((impl.currentEvidence link).filter (· ∉ impl'.currentEvidence link)).map
    (⟨publisher, workerBoot, ·⟩)

/-- The records that an operation withdraws. -/
def Impl.withdrawals (impl : Impl) : Op → List Withdrawal
  | .withdrawEvidence request => impl.takenOff (impl.withdrawEvidence request).1
      request.publisher request.workerBoot request.key.link
  | .markRevalidationRequired request => impl.takenOff (impl.markRevalidationRequired request).1
      request.publisher request.workerBoot request.link
  | _ => []

theorem Impl.mem_withdrawals {impl : Impl} {op : Op} {w : Withdrawal} (h : w ∈ impl.withdrawals op) :
    ∃ link, w.record ∈ impl.currentEvidence link ∧
      w.record ∉ (impl.apply op).currentEvidence link := by
  have htaken {impl' : Impl} {publisher : PublisherId} {boot : WorkerBootId} {link : LinkId}
      (h : w ∈ impl.takenOff impl' publisher boot link) :
      w.record ∈ impl.currentEvidence link ∧ w.record ∉ impl'.currentEvidence link := by
    obtain ⟨record, hrecord, rfl⟩ := List.mem_map.mp h
    simpa using hrecord
  cases op with
  | withdrawEvidence request => exact ⟨_, htaken h⟩
  | markRevalidationRequired request => exact ⟨_, htaken h⟩
  | _ => cases h

/-- An engine in a run, with the records that have been withdrawn so far. -/
structure Withdrawing where
  impl : Impl
  withdrawn : List Withdrawal

namespace Withdrawing

/-- Nothing has been withdrawn yet. -/
def Starts (s : Withdrawing) : Prop := s.impl.Reachable ∧ s.withdrawn = []

def apply (s : Withdrawing) (op : Op) : Withdrawing where
  impl := s.impl.apply op
  withdrawn := s.withdrawn ++ s.impl.withdrawals op

/-- The incarnation has withdrawn a record of the key, and the observation is not newer. -/
def Late (s : Withdrawing) (observation : EvidenceRecord) : Prop :=
  ∃ w ∈ s.withdrawn, w.publisher = observation.publisher ∧ w.workerBoot = observation.workerBoot ∧
    w.record.key = observation.key ∧ w.record.AtLeast observation

instance (s : Withdrawing) (observation : EvidenceRecord) : Decidable (s.Late observation) :=
  inferInstanceAs (Decidable (∃ w ∈ s.withdrawn, _))

end Withdrawing

/-- The slot of the observation has a record of the same incarnation, or one that is not older. -/
def Impl.Covers (impl : Impl) (observation : EvidenceRecord) : Prop :=
  ∃ record ∈ impl.currentEvidence observation.key.link, record.key = observation.key ∧
    (record.publisher = observation.publisher ∧ record.workerBoot = observation.workerBoot ∨
      record.AtLeast observation)

instance (impl : Impl) (observation : EvidenceRecord) : Decidable (impl.Covers observation) :=
  inferInstanceAs (Decidable (∃ record ∈ impl.currentEvidence observation.key.link, _))

/-- A check before that of the slot refuses the request. -/
def Impl.Refuses (impl : Impl) (request : PublishEvidenceRequest) : Prop :=
  validateObservation request.observation request.publication ≠ none ∨
    ∀ entry, impl.entryOf request.observation.key.link = some entry →
      impl.refusal entry request ≠ none

namespace Withdrawing

/-- The operation is no load, and no late publication that meets its slot free, or with an older
record of another incarnation. -/
def Guarded (s : Withdrawing) : Op → Prop
  | .publishEvidence request => s.Late request.observation →
      s.impl.Refuses request ∨ s.impl.Covers request.observation
  | op => op.isLoad = false

/-- Current records are newer than those of their key that their incarnation has withdrawn. -/
def Newer (s : Withdrawing) : Prop :=
  ∀ link, ∀ record ∈ s.impl.currentEvidence link, ∀ w ∈ s.withdrawn,
    w.publisher = record.publisher → w.workerBoot = record.workerBoot →
    w.record.key = record.key → ¬ w.record.AtLeast record

variable {s : Withdrawing}

/-- No late publication is admitted. -/
theorem Newer.not_admitted (h : s.Newer) (hreachable : s.impl.Reachable)
    {request : PublishEvidenceRequest} {entry : LinkEntry} {prepared : PreparedCommit}
    (hok : s.Guarded (.publishEvidence request)) (hlate : s.Late request.observation) :
    ¬ Admitted s.impl request entry prepared := by
  intro hadmitted
  rcases hok hlate with (hinvalid | hrefused) | ⟨record, hrecord, hkey, hcovers⟩
  · exact hinvalid hadmitted.valid
  · exact hrefused entry hadmitted.bound hadmitted.refusal_eq
  · obtain ⟨entry', hentry', hmem⟩ := Impl.mem_currentEvidence.mp hrecord
    obtain rfl : entry' = entry := Option.some.inj (hentry'.symm.trans hadmitted.bound)
    have hslot := findSlot_of_mem (hreachable.indexed.slotted _ entry' hentry').nodup hmem
    rw [hkey] at hslot
    refine judgeSlot_ne_fresh ?_ (hadmitted.slot record hslot)
    rcases hcovers with ⟨hpublisher, hboot⟩ | hcovers
    · obtain ⟨w, hw, hwpublisher, hwboot, hwkey, hwlate⟩ := hlate
      exact (EvidenceRecord.atLeast_of_not (h _ record hrecord w hw
        (hwpublisher.trans hpublisher.symm) (hwboot.trans hboot.symm)
        (hwkey.trans hkey.symm))).trans hwlate
    · exact hcovers

/-- An operation that brings no evidence. -/
theorem Newer.of_subset (h : s.Newer) (hreachable : s.impl.Reachable) {op : Op}
    (hsub : ∀ link, (s.impl.apply op).currentEvidence link ⊆ s.impl.currentEvidence link) :
    (s.apply op).Newer := by
  intro link record hrecord w hw hpublisher hboot hkey
  rcases List.mem_append.mp hw with hw | hw
  · exact h link record (hsub link hrecord) w hw hpublisher hboot hkey
  · obtain ⟨link', hbefore, hafter⟩ := Impl.mem_withdrawals hw
    obtain ⟨rfl, hsame⟩ := hreachable.indexed.eq_of_key hbefore (hsub link hrecord) hkey
    exact absurd hrecord (hsame ▸ hafter)

theorem Newer.apply (h : s.Newer) (hreachable : s.impl.Reachable) {op : Op} (hok : s.Guarded op) :
    (s.apply op).Newer := by
  cases op with
  | publishEvidence request =>
    rcases publishEvidence_currentEvidence s.impl request with
      hsub | ⟨entry, prepared, hadmitted, hevidence⟩
    · exact h.of_subset hreachable hsub
    intro link record hrecord w hw hpublisher hboot hkey
    rw [show (s.apply (.publishEvidence request)).withdrawn = s.withdrawn from
      List.append_nil _] at hw
    rcases hevidence link record hrecord with ⟨hmem, -⟩ | ⟨rfl, t, rfl⟩
    · exact h link record hmem w hw hpublisher hboot hkey
    · exact fun hlate => h.not_admitted hreachable hok ⟨w, hw, hpublisher, hboot, hkey, hlate⟩
        hadmitted
  | _ => exact h.of_subset hreachable (evidence_subset_of_ne fun _ heq => by cases heq)

end Withdrawing

/-- In a run without a load, from any reachable engine, in which no late publication meets its slot
free or with an older record of another incarnation: what is current is newer than what its
incarnation has withdrawn under its key, and no late publication commits. -/
theorem withdrawn_kept {s : Withdrawing}
    (h : Runs.Run Withdrawing.Starts Withdrawing.apply Withdrawing.Guarded s) :
    s.Newer ∧ ∀ request, s.Guarded (.publishEvidence request) → s.Late request.observation →
      ¬ s.impl.Commits request := by
  have hreachable : s.impl.Reachable :=
    h.invariant (P := fun s => s.impl.Reachable) (fun _ hstart => hstart.1)
      fun _ op hreachable _ => .step op hreachable trivial
  have hnewer : s.Newer := by
    refine (h.invariant (P := fun s => s.impl.Reachable ∧ s.Newer) (fun s ⟨hreachable, hnone⟩ =>
      ⟨hreachable, fun _ _ _ w hw => ?_⟩) fun s op ⟨hreachable, hnewer⟩ hok =>
        ⟨.step op hreachable trivial, hnewer.apply hreachable hok⟩).2
    rw [hnone] at hw
    cases hw
  refine ⟨hnewer, fun request hok hlate hcommits => ?_⟩
  obtain ⟨entry, prepared, _, _, hpublished⟩ := publishEvidence_published hcommits
  exact hnewer.not_admitted hreachable hok hlate hpublished.admitted

namespace Sample

/-- The small run, and the withdrawal of its record. -/
def withdrawing : Withdrawing := Withdrawing.apply ⟨engine, []⟩ (.withdrawEvidence withdrawal)

theorem withdrawing_run {ok : Withdrawing → Op → Prop}
    (hok : ok ⟨engine, []⟩ (.withdrawEvidence withdrawal)) :
    Runs.Run Withdrawing.Starts Withdrawing.apply ok withdrawing :=
  .step _ (.start ⟨reachable, rfl⟩) hok

/-- A newer publication of the same key. -/
def republish : PublishEvidenceRequest :=
  { observation := { observation with
      observation := .fromValidated (lit "obs-2")
      sequence := 3 }
    publication }

end Sample

/-- The publication of the withdrawn record does not commit again once a newer one has. -/
theorem withdrawn_kept_sample :
    ¬ (Sample.withdrawing.apply (.publishEvidence Sample.republish)).impl.Commits Sample.publish := by
  have hnewer : ¬ Sample.withdrawing.Late Sample.republish.observation := by decide
  have hrun := @Runs.Run.step Withdrawing Op Withdrawing.Starts Withdrawing.apply
    Withdrawing.Guarded _ (.publishEvidence Sample.republish) (Sample.withdrawing_run rfl)
    fun hlate => absurd hlate hnewer
  exact (withdrawn_kept hrun).2 Sample.publish (fun _ => .inr (by decide)) (by decide)

/-- The publication of the withdrawn record, sent again, commits. -/
theorem withdrawn_returns :
    Runs.Run Withdrawing.Starts Withdrawing.apply (fun _ op => op.isLoad = false)
      Sample.withdrawing ∧
    Sample.withdrawing.Late Sample.publish.observation ∧
    Sample.withdrawing.impl.Commits Sample.publish :=
  ⟨Sample.withdrawing_run rfl, by decide, by decide⟩

end LinkState
