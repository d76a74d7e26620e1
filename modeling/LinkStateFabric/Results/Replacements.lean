import LinkStateFabric.Lib.Replace
import LinkStateFabric.Results.Checkpoints

/-!
# Journals on disk

`write_journal_file` writes a temporary file next to the journal, in pieces, and renames it. Every
step of it can fail, the process can die at any moment, and `save` writes after it has released the
lock of the engine.

* `saves_atomic`: saves of which no two have the temporary file at a time replace the journal as
  `writeJournalFile` says, whatever fails and whenever the process dies.
* `torn_journal_refused`: a journal that is not whole is refused, and loading it changes nothing.
* `overlapping_saves_tear`: two saves that have the temporary file at a time can leave the journal
  torn although one of them reports success.
-/

namespace LinkState

open Codec Replace

/-! ## Saves -/

/-- What `write_journal_file` writes for `save`, and reports of a valid configuration. -/
def saving (config : PersistenceConfig) : Writing Impl Outcome where
  encode impl := (impl.encode config).1
  refusals := {outcome | outcome = .make .persistenceIoFailure
      (lit "the journal directory does not exist") ∧ config.createParentDirectory = false ∨
    outcome = .make .persistenceIoFailure (lit "the journal directory could not be created") ∧
      config.createParentDirectory = true ∨
    outcome = .make .persistenceIoFailure
      (lit "the temporary journal file could not be created")}
  unwritten := .make .persistenceIoFailure (lit "the temporary journal file could not be written")
  unreplaced := .make .persistenceIoFailure
    (lit "the journal file could not be replaced atomically")

/-- What `write_journal_file` returns. -/
def saveOutcome (result : Option Outcome) : Outcome :=
  result.getD (.make .committed (lit "journal written"))

variable {config : PersistenceConfig}

/-- The steps of a write in which a fault occurs. -/
theorem steps_of_fault (hconfig : config.Valid) {outcome : Outcome}
    (h : outcome ∈ (saving config).faults) : ∃ steps : WriteSteps, ∀ file bytes,
      writeJournalFile config steps file bytes = (outcome, file) := by
  have hvalid : ¬ config.validate ≠ [] := not_not.mpr hconfig
  rcases h with rfl | rfl | ⟨rfl, hcreate⟩ | ⟨rfl, hcreate⟩ | rfl
  · refine ⟨{ writesTemporary := false }, fun file bytes => ?_⟩
    unfold writeJournalFile
    rw [if_neg hvalid]
    rfl
  · refine ⟨{ replacesTarget := false }, fun file bytes => ?_⟩
    unfold writeJournalFile
    rw [if_neg hvalid]
    rfl
  · refine ⟨{ directoryExists := false }, fun file bytes => ?_⟩
    unfold writeJournalFile
    rw [if_neg hvalid, hcreate]
    rfl
  · refine ⟨{ directoryExists := false, createsDirectories := false }, fun file bytes => ?_⟩
    unfold writeJournalFile
    rw [if_neg hvalid, hcreate]
    rfl
  · refine ⟨{ opensTemporary := false }, fun file bytes => ?_⟩
    unfold writeJournalFile
    rw [if_neg hvalid]
    rfl

/-- A write replaces the journal, or fails with a fault and leaves it. -/
theorem writeJournalFile_result (hconfig : config.Valid) (steps : WriteSteps) :
    ∃ result : Option Outcome, (∀ outcome ∈ result, outcome ∈ (saving config).faults) ∧
      ∀ file bytes, writeJournalFile config steps file bytes =
        (saveOutcome result, result.elim (some bytes) fun _ => file) := by
  have hvalid : ¬ config.validate ≠ [] := not_not.mpr hconfig
  have hfault {outcome : Outcome} (hmem : outcome ∈ (saving config).faults)
      (hwrite : ∀ file bytes, writeJournalFile config steps file bytes = (outcome, file)) :
      ∃ result : Option Outcome, (∀ outcome ∈ result, outcome ∈ (saving config).faults) ∧
        ∀ file bytes, writeJournalFile config steps file bytes =
          (saveOutcome result, result.elim (some bytes) fun _ => file) := by
    refine ⟨some outcome, fun outcome' heq => ?_, hwrite⟩
    cases heq
    exact hmem
  -- The steps in the order of the source: the first one that fails is the fault.
  by_cases hmissing : (!steps.directoryExists && !config.createParentDirectory) = true
  · have hcreate : config.createParentDirectory = false := by
      rw [Bool.and_eq_true, Bool.not_eq_true', Bool.not_eq_true'] at hmissing
      exact hmissing.2
    refine hfault (.inr (.inr (.inl ⟨rfl, hcreate⟩))) fun file bytes => ?_
    unfold writeJournalFile
    rw [if_neg hvalid, if_pos hmissing]
  by_cases hfails : (!steps.directoryExists && !steps.createsDirectories) = true
  · have hcreate : config.createParentDirectory = true := by
      rw [Bool.and_eq_true, Bool.not_eq_true'] at hfails hmissing
      rw [Bool.not_eq_true'] at hmissing
      exact Bool.of_not_eq_false fun h => hmissing ⟨hfails.1, h⟩
    refine hfault (.inr (.inr (.inr (.inl ⟨rfl, hcreate⟩)))) fun file bytes => ?_
    unfold writeJournalFile
    rw [if_neg hvalid, if_neg hmissing, if_pos hfails]
  by_cases hopens : (!steps.opensTemporary) = true
  · refine hfault (.inr (.inr (.inr (.inr rfl)))) fun file bytes => ?_
    unfold writeJournalFile
    rw [if_neg hvalid, if_neg hmissing, if_neg hfails, if_pos hopens]
  by_cases hwrites : (!steps.writesTemporary) = true
  · refine hfault (.inl rfl) fun file bytes => ?_
    unfold writeJournalFile
    rw [if_neg hvalid, if_neg hmissing, if_neg hfails, if_neg hopens, if_pos hwrites]
    rfl
  by_cases hreplaces : (!steps.replacesTarget) = true
  · refine hfault (.inr (.inl rfl)) fun file bytes => ?_
    unfold writeJournalFile
    rw [if_neg hvalid, if_neg hmissing, if_neg hfails, if_neg hopens, if_neg hwrites,
      if_pos hreplaces]
    rfl
  refine ⟨none, fun outcome heq => (by cases heq), fun file bytes => ?_⟩
  unfold writeJournalFile
  rw [if_neg hvalid, if_neg hmissing, if_neg hfails, if_neg hopens, if_neg hwrites,
    if_neg hreplaces]
  rfl

/-- What atomic writes leave of a journal, the last one first. -/
def replayed (config : PersistenceConfig) (saves : List Impl) (initial : Option Bytes) :
    Option Bytes :=
  saves.foldr (fun impl file => (writeJournalFile config {} file (impl.encode config).1).2) initial

theorem replayed_eq (hconfig : config.Valid) (saves : List Impl) (initial : Option Bytes) :
    replayed config saves initial = (saves.head?.map (saving config).encode).or initial := by
  cases saves with
  | nil => rfl
  | cons impl saves =>
    unfold replayed
    rw [List.foldr_cons, writeJournalFile_default hconfig]
    rfl

/-- In a run of saves of which no two have the temporary file at a time, whatever fails and
whenever the process dies, the journal is what the saves that replaced it write one at a time, and
each save reports what its write reports, those that report success being among them for good. And
every write is what a save can do that finds the temporary file free. -/
theorem saves_atomic (hconfig : config.Valid) {dir : Dir} (hsound : dir.Sound)
    {s : System Nat Impl Outcome} (hrun : Run (saving config) System.Free { dir } s) :
    s.dir.read .target = replayed config s.past (dir.read .target) ∧
    (∀ w impl result, s.writers w = some ⟨impl, .finished result⟩ →
      (∃ steps : WriteSteps, ∀ file bytes,
        (writeJournalFile config steps file bytes).1 = saveOutcome result) ∧
      (result = none → ∀ s', Run (saving config) System.Free s s' → impl ∈ s'.past)) ∧
    (s.Free → ∀ w impl (steps : WriteSteps), s.writers w = none →
      ∃ s' result, Run (saving config) System.Free s s' ∧
        s'.writers w = some ⟨impl, .finished result⟩ ∧
        writeJournalFile config steps (s.dir.read .target) (impl.encode config).1 =
          (saveOutcome result, s'.dir.read .target)) := by
  have hintact : Intact (saving config) (dir.read .target) s :=
    intact_of_exclusive (intact_idle hsound) hrun
  refine ⟨?_, fun w impl result hw => ⟨?_, ?_⟩, fun hfree w impl steps hw => ?_⟩
  · rw [replayed_eq hconfig]
    exact hintact.target
  · cases result with
    | none =>
      refine ⟨{}, fun file bytes => ?_⟩
      rw [writeJournalFile_default hconfig]
      rfl
    | some outcome =>
      have hfault : outcome ∈ (saving config).faults := hintact.fits w _ hw
      obtain ⟨steps, hsteps⟩ := steps_of_fault hconfig hfault
      exact ⟨steps, fun file bytes => congrArg Prod.fst (hsteps file bytes)⟩
  · rintro rfl s' hrest
    have hmem : impl ∈ s.past := hintact.fits w _ hw
    exact hrest.past_suffix.subset hmem
  -- A save that runs alone goes through the steps of writeJournalFile.
  · obtain ⟨result, hfaults, hwrite⟩ := writeJournalFile_result hconfig steps
    obtain ⟨s', hrest, hwriters, hread⟩ := run_alone (saving config) hintact.sound hfree hw impl
      hfaults
    refine ⟨s', result, hrest, by rw [hwriters, Function.update_self], ?_⟩
    rw [hwrite, hread]
    rfl

/-- Two saves take the temporary file in turn: both report success, and the journal is that of the
second. -/
theorem saves_atomic_sample : ∃ s : System Nat Impl Outcome,
    s.writers 0 = some ⟨.create {}, .finished none⟩ ∧
      s.writers 1 = some ⟨Sample.engine, .finished none⟩ ∧
      (∀ s', Run (saving {}) System.Free s s' → .create {} ∈ s'.past ∧ Sample.engine ∈ s'.past) ∧
      s.dir.read .target = replayed {} s.past none ∧
      s.dir.read .target = some (Sample.engine.encode {}).1 := by
  have hnone : ∀ outcome ∈ (none : Option Outcome), outcome ∈ (saving {}).faults := fun _ h => by
    cases h
  obtain ⟨s₁, hrun₁, hwriters₁, -⟩ := @run_alone Nat Impl Outcome (saving {}) { dir := {} } _ 0
    Dir.sound_empty (free_idle {}) rfl (.create {}) none hnone
  have hsound₁ : s₁.dir.Sound := (intact_of_exclusive (intact_idle Dir.sound_empty) hrun₁).sound
  obtain ⟨s₂, hrun₂, hwriters₂, hread⟩ := run_alone (saving {}) hsound₁
    (free_update (free_idle {}) rfl hwriters₁)
    (by rw [hwriters₁, Function.update_of_ne Nat.one_ne_zero]) Sample.engine hnone
  have hfirst : s₂.writers 0 = some ⟨.create {}, .finished none⟩ := by
    rw [hwriters₂, Function.update_of_ne Nat.zero_ne_one, hwriters₁, Function.update_self]
  have hsecond : s₂.writers 1 = some ⟨Sample.engine, .finished none⟩ := by
    rw [hwriters₂, Function.update_self]
  obtain ⟨htarget, hreported, -⟩ := saves_atomic (by decide) Dir.sound_empty (hrun₁.trans hrun₂)
  exact ⟨s₂, hfirst, hsecond, fun s' hrest =>
    ⟨(hreported 0 _ _ hfirst).2 rfl s' hrest, (hreported 1 _ _ hsecond).2 rfl s' hrest⟩,
    htarget, hread⟩

/-! ## Torn journals -/

theorem length_journalOf (flags : Nat) (payload : JournalPayload) :
    (journalOf flags payload).length =
      journalHeaderBytes + journalTrailerBytes + (bodyOf payload).length :=
  (split_journal (JournalHeader.length_bytes _) (sha256 _).size (sha256 _).size).1

/-- The header of a journal says how long it is. -/
theorem length_of_header {flags flags' : Nat} {payload payload' : JournalPayload}
    (hsize : (bodyOf payload).length < 2 ^ 64) (hsize' : (bodyOf payload').length < 2 ^ 64)
    (h : (journalOf flags payload).take journalHeaderBytes =
      (journalOf flags' payload').take journalHeaderBytes) :
    (journalOf flags payload).length = (journalOf flags' payload').length := by
  rw [take_journalOf, take_journalOf] at h
  have hread := (reads_decodeHeader_cut (headerOf flags payload (bodyOf payload).length)).accept
    trivial []
  have hread' := (reads_decodeHeader_cut (headerOf flags' payload' (bodyOf payload').length)).accept
    trivial []
  rw [h, hread'] at hread
  have hheader := congrArg JournalHeader.payloadLength (Prod.ext_iff.mp (Except.ok.inj hread)).1
  have hbody : (bodyOf payload').length % 256 ^ 8 = (bodyOf payload).length % 256 ^ 8 := hheader
  rw [Nat.mod_eq_of_lt (by omega), Nat.mod_eq_of_lt (by omega)] at hbody
  rw [length_journalOf, length_journalOf, hbody]

/-- What is part of a journal or has one as a part is a journal only if it is the same one. -/
theorem refused_of_length {flags : Nat} {payload : JournalPayload} {bytes : Bytes}
    (hsize : (journalOf flags payload).length < 2 ^ 64)
    (hpart : bytes <+: journalOf flags payload ∨ journalOf flags payload <+: bytes)
    (hshort : bytes.length < 2 ^ 64) (hlength : bytes.length ≠ (journalOf flags payload).length)
    (config : PersistenceConfig) : ∃ refusal, decodeJournal bytes config = .error refusal := by
  cases hdecode : decodeJournal bytes config with
  | error refusal => exact ⟨refusal, rfl⟩
  | ok decoded =>
    obtain ⟨payload', summary⟩ := decoded
    have hform := (accepted_of_decodeJournal hdecode).form
    have hlong (flags : Nat) (payload : JournalPayload) :
        journalHeaderBytes ≤ (journalOf flags payload).length := by
      rw [length_journalOf, Nat.add_assoc]
      exact Nat.le_add_right ..
    have hheader : bytes.take journalHeaderBytes =
        (journalOf flags payload).take journalHeaderBytes := by
      rcases hpart with h | h
      · rw [List.prefix_iff_eq_take.mp h, List.take_take, min_eq_left (hform ▸ hlong _ _)]
      · rw [List.prefix_iff_eq_take.mp h, List.take_take, min_eq_left (hlong _ _)]
    rw [hform] at hheader hlength hshort
    rw [length_journalOf] at hsize hshort
    exact absurd (length_of_header (by omega) (by omega) hheader) hlength

theorem load_of_refused {bytes : Bytes}
    (h : ∃ refusal, decodeJournal bytes config = .error refusal) (steps : ReadSteps)
    (fresh : Impl) : (fresh.load config steps (some bytes)).1 = fresh ∧
      (fresh.load config steps (some bytes)).2.outcome.code ≠ .committed := by
  obtain ⟨refusal, hrefusal⟩ := h
  unfold Impl.load
  cases hread : readJournalFile config steps (some bytes) with
  | error refusal' => exact ⟨rfl, readJournalFile_fails hread⟩
  | ok read =>
    have hsame : bytes = read := Option.some.inj (readJournalFile_ok hread).1
    dsimp only
    rw [← hsame]
    rw [hrefusal]
    exact ⟨rfl, decodeJournal_fails hrefusal⟩

/-- Of the journal of an engine, a part is no journal, nor is one with more behind it: it is refused
under every configuration, and a load of it changes nothing. -/
theorem torn_journal_refused (impl : Impl) (config : PersistenceConfig) {bytes : Bytes}
    (hsize : (impl.encode config).1.length < 2 ^ 64) (hshort : bytes.length < 2 ^ 64)
    (hpart : bytes <+: (impl.encode config).1 ∨ (impl.encode config).1 <+: bytes)
    (hdiffers : bytes ≠ (impl.encode config).1) (config' : PersistenceConfig) (steps : ReadSteps)
    (fresh : Impl) :
    (∃ refusal, decodeJournal bytes config' = .error refusal) ∧
    (fresh.load config' steps (some bytes)).1 = fresh ∧
    (fresh.load config' steps (some bytes)).2.outcome.code ≠ .committed := by
  have hform : (impl.encode config).1 = journalOf (historyFlag config.includeHistory)
      ((impl.buildPayload config.includeHistory).kept config.includeHistory) :=
    congrArg Prod.fst (encodeJournal_eq ..)
  rw [hform] at hsize hpart hdiffers
  have hlength : bytes.length ≠ (journalOf _ _).length := fun heq => hdiffers <| by
    rcases hpart with h | h
    · exact h.eq_of_length heq
    · exact (h.eq_of_length heq.symm).symm
  have hrefused := refused_of_length hsize hpart hshort hlength config'
  exact ⟨hrefused, load_of_refused hrefused steps fresh⟩

namespace Sample

theorem size_empty : ((Impl.create {}).encode {}).1.length = 136 := by
  unfold Impl.encode
  rw [length_encodeJournal]
  decide +kernel

end Sample

theorem torn_journal_refused_sample : ∃ refusal,
    decodeJournal (((Impl.create {}).encode {}).1.take 100) {} = .error refusal := by
  have hlength : (((Impl.create {}).encode {}).1.take 100).length = 100 := by
    rw [List.length_take, Sample.size_empty]
    rfl
  refine (torn_journal_refused (.create {}) {} (by rw [Sample.size_empty]; decide)
    (by rw [hlength]; decide) (.inl (List.take_prefix ..)) (fun heq => ?_) {} {} (.create {})).1
  have hsame := congrArg List.length heq
  rw [hlength, Sample.size_empty] at hsame
  exact absurd hsame (by decide)

/-! ## Overlapping saves -/

/-- Two saves that have the temporary file at a time: one reports success, and the process dies with
a part of what the other one writes as the journal, which no load accepts. -/
theorem overlapping_saves_tear (config : PersistenceConfig) {s : System Nat Impl Outcome}
    (hsound : s.dir.Sound) {w w' : Nat} (hne : w ≠ w') (hw : s.writers w = none)
    (hw' : s.writers w' = none) (impl impl' : Impl) {k : Nat}
    (hk : k < (impl'.encode config).1.length) (hsize : (impl'.encode config).1.length < 2 ^ 64) :
    ∃ s₁ s₂ : System Nat Impl Outcome, Run (saving config) (fun _ => True) s s₁ ∧
      s₁.writers w = some ⟨impl, .finished none⟩ ∧
      Run (saving config) (fun _ => True) s₁ s₂ ∧ (∀ w, s₂.writers w = none) ∧
      s₂.dir.read .target = some ((impl'.encode config).1.take k) ∧
      ∀ config' steps (fresh : Impl), (fresh.load config' steps (s₂.dir.read .target)).1 = fresh ∧
        (fresh.load config' steps (s₂.dir.read .target)).2.outcome.code ≠ .committed := by
  obtain ⟨s₁, hrun, hfinished, hread⟩ := torn_of_overlap (saving config) hsound hne hw hw' impl impl'
    hk.le
  have hread : s₁.dir.read .target = some ((impl'.encode config).1.take k) := hread
  have hlength : ((impl'.encode config).1.take k).length = k := by
    rw [List.length_take, min_eq_left hk.le]
  have hdiffers : (impl'.encode config).1.take k ≠ (impl'.encode config).1 := fun heq =>
    hk.ne (hlength.symm.trans (congrArg List.length heq))
  refine ⟨s₁, _, hrun, hfinished, .single .crash, fun _ => rfl, hread,
    fun config' steps fresh => ?_⟩
  have hload := torn_journal_refused impl' config hsize (by omega) (.inl (List.take_prefix ..))
    hdiffers config' steps fresh
  rw [show Dir.read _ .target = _ from hread]
  exact hload.2

theorem overlapping_saves_tear_sample : ∃ s : System Nat Impl Outcome,
    (∀ w, s.writers w = none) ∧
      s.dir.read .target = some (((Impl.create {}).encode {}).1.take 100) := by
  obtain ⟨-, s, -, -, -, hgone, hread, -⟩ := @overlapping_saves_tear {} { dir := {} } Dir.sound_empty 0 1
    (by decide) rfl rfl (.create {}) (.create {}) 100 (by rw [Sample.size_empty]; decide)
    (by rw [Sample.size_empty]; decide)
  exact ⟨s, hgone, hread⟩

end LinkState
