import LinkStateFabric.Engine.Moves
import LinkStateFabric.Engine.Restored

/-!
# An engine with its journals

A `Session` is an engine beside the journals that it has saved. Its steps are the operations of the
engine, and saving. Where a session loads only what it has saved, what holds of its engine holds of
the engines that its journals were made of (`Session.invariant`), so that a load has to be looked
at only as a restoration of such an engine.
-/

namespace LinkState

/-! ## Entries along runs -/

/-- What holds of new entries, and is kept by every turn and made by every recovery, holds of every
entry in a run. A condition on the engine that is never restored may be assumed of every turn. -/
theorem entries_of_run {ok : Impl → Op → Prop} {K : Impl → Prop}
    {Q : EngineConfig → LinkEntry → Prop} (hK : ∀ a b : Impl, a.Le b → K b → K a)
    (hend : ∀ impl op, ok impl op → K (impl.apply op))
    (hnew : ∀ config entry, entry.New → Q config entry)
    (hturn : ∀ impl op link t t', ok impl op → t.entry.record.state ≠ .retired →
      (op.Single → (t.entry.current.map (·.key)).Nodup) → K (t'.commit link) →
      Turn op link t t' → Q t.impl.config t.entry → Q t.impl.config t'.entry)
    (hload : ∀ (impl : Impl) config steps bytes payload summary,
      ok impl (.load config steps (some bytes)) →
      decodeJournal bytes config = .ok (payload, summary) →
      impl.apply (.load config steps (some bytes)) = (impl.recover payload).impl →
      ∀ persisted ∈ payload.links, Q impl.config (recoveredEntry impl.config persisted))
    {impl : Impl} (h : Runs.Run Impl.Fresh Impl.apply ok impl) :
    ∀ link entry, impl.entryOf link = some entry → Q impl.config entry := by
  have hreachable : ∀ impl, Runs.Run Impl.Fresh Impl.apply ok impl → Indexed impl ∧ impl.Sealed :=
    fun impl h =>
      have h : impl.Reachable := h.mono fun _ _ _ => trivial
      ⟨Impl.Reachable.indexed h, Impl.Reachable.sealed h⟩
  refine @Runs.Run.invariant_of _ _ _ _ _
    (fun impl => ∀ link entry, impl.entryOf link = some entry → Q impl.config entry) _ hreachable ?_
    (fun impl op hreached hQ hok => ?_) impl h
  · rintro _ ⟨config, rfl⟩ link entry hentry
    rw [Impl.entryOf_create] at hentry
    cases hentry
  cases hisLoad : op.isLoad with
  | false =>
    -- An operation takes turns of links, each of which keeps what is known of an entry.
    have hmoves := apply_moves impl hisLoad
    have hconfig : (impl.apply op).config = impl.config := hmoves.le.config
    rw [hconfig]
    refine hmoves.entries (K := fun a => K a ∧ a.config = impl.config)
      (fun a b hle hb => ⟨hK a b hle hb.1, hle.config.symm.trans hb.2⟩) hreached.1 hreached.2
      (fun _ => hnew impl.config) (fun link t t' hlive hnodup hend ht hQt => ?_)
      ⟨hend impl op hok, hconfig⟩ hQ
    obtain ⟨hend, hsame⟩ := hend
    have hsame : t.impl.config = impl.config := ht.frame.config.symm.trans hsame
    rw [← hsame] at hQt ⊢
    exact hturn impl op link t t' hok hlive hnodup hend ht hQt
  | true =>
    cases op with
    | load config steps file =>
      rcases load_cases impl config steps file with
        ⟨_, -, heq⟩ | ⟨bytes, payload, summary, rfl, hdecode, heq, -⟩
      · rw [show impl.apply (.load config steps file) = impl from congrArg Prod.fst heq]
        exact hQ
      · have happly : impl.apply (.load config steps (some bytes)) = (impl.recover payload).impl :=
          heq
        have hdecoded := decodeJournal_decoded hdecode
        intro link entry hentry
        rw [happly] at hentry ⊢
        -- After a load every entry is a recovered one.
        obtain ⟨persisted, hmem, rfl⟩ := entryOf_recover hdecoded hentry
        rw [show (impl.recover payload).impl.config = impl.config from
          (recovers_recover impl hdecoded).config]
        exact hload impl config steps bytes payload summary hok hdecode happly persisted hmem
    | _ => cases hisLoad

/-! ## Sessions -/

/-- An engine, and the journals that have been saved of it. -/
structure Session where
  impl : Impl
  journals : List Bytes := []

namespace Session

/-- A step of a session. -/
inductive Act where
  | op (op : Op)
  | save (config : PersistenceConfig) (steps : WriteSteps) (file : Option Bytes)

/-- The effect of a step. A save that fails leaves no new journal. -/
def apply (s : Session) : Act → Session
  | .op op => { s with impl := s.impl.apply op }
  | .save config steps file =>
    let (outcome, file) := s.impl.save config steps file
    if outcome.isError then s else { s with journals := file.toList ++ s.journals }

theorem apply_load (s : Session) (config : PersistenceConfig) (steps : ReadSteps)
    (file : Option Bytes) :
    (s.apply (.op (.load config steps file))).impl = (s.impl.load config steps file).1 := rfl

/-- A session of a freshly created engine. -/
def Fresh (s : Session) : Prop := s.impl.Fresh ∧ s.journals = []

/-- Observations are published as current. -/
def Act.Ordinary : Act → Prop
  | .op (.load ..) | .save .. => True
  | .op operation => operation.Ordinary

/-- A load is of a journal that the session has saved. -/
def Own (s : Session) : Act → Prop
  | .op (.load _ _ file) => ∀ bytes ∈ file, bytes ∈ s.journals
  | _ => True

theorem writeJournalFile_ok {config : PersistenceConfig} {steps : WriteSteps} {file : Option Bytes}
    {bytes : Bytes} (h : (writeJournalFile config steps file bytes).1.isError = false) :
    (writeJournalFile config steps file bytes).2 = some bytes := by
  unfold writeJournalFile at h ⊢
  split
  · rename_i hvalid
    rw [if_pos hvalid] at h
    cases h
  rename_i hvalid
  rw [if_neg hvalid] at h
  split at h
  · cases h
  rename_i hdirectory
  rw [if_neg hdirectory]
  split at h
  · cases h
  rename_i hcreated
  rw [if_neg hcreated]
  split at h
  · cases h
  rename_i hopened
  rw [if_neg hopened]
  split at h
  · cases h
  rename_i hwritten
  rw [if_neg hwritten]
  split at h
  · cases h
  -- No step has failed, so that the file was replaced.
  rename_i hreplaced
  rw [if_neg hreplaced]

/-- What a save leaves in the file is the journal of the engine. -/
theorem save_journal {impl : Impl} {config : PersistenceConfig} {steps : WriteSteps}
    {file : Option Bytes} (h : (impl.save config steps file).1.isError = false) :
    (impl.save config steps file).2 = some (impl.encode config).1 := by
  unfold Impl.save at h ⊢
  dsimp only at h ⊢
  split at h
  · rename_i herror
    rw [herror] at h
    cases h
  · rename_i hdone
    rw [if_neg hdone]
    exact writeJournalFile_ok (by simpa using hdone)

/-- The journal was made of an engine that satisfies `P`. -/
def JournalOf (P : Impl → Prop) (bytes : Bytes) : Prop :=
  ∃ saved config, P saved ∧ bytes = (Impl.encode saved config).1

/-- What holds of the engine of a session holds of the engines behind its journals: it is enough
that the operations keep it, and the restoration of an engine that satisfies it. -/
theorem invariant {start : Session → Prop} {ok : Session → Act → Prop} {P : Impl → Prop}
    (hown : ∀ s a, ok s a → s.Own a) (hstart : ∀ s, start s → P s.impl ∧ s.journals = [])
    (hindexed : ∀ impl, P impl → Indexed impl)
    (hop : ∀ s op, ok s (.op op) → op.isLoad = false → P s.impl → P (s.impl.apply op))
    (hrestore : ∀ saved impl impl' includeHistory, P saved → P impl →
      Restores saved impl impl' includeHistory → P impl') {s : Session}
    (h : Runs.Run start apply ok s) : P s.impl ∧ ∀ bytes ∈ s.journals, JournalOf P bytes := by
  refine h.invariant (P := fun s => P s.impl ∧ ∀ bytes ∈ s.journals, JournalOf P bytes)
    (fun s hs => ?_) fun s a ⟨hP, hjournals⟩ hok => ?_
  · obtain ⟨hP, hnone⟩ := hstart s hs
    refine ⟨hP, fun bytes hbytes => ?_⟩
    rw [hnone] at hbytes
    cases hbytes
  cases a with
  | save config steps file =>
    unfold apply
    dsimp only
    split
    · exact ⟨hP, hjournals⟩
    · rename_i hdone
      refine ⟨hP, fun bytes hbytes => ?_⟩
      rw [save_journal (by simpa using hdone)] at hbytes
      rcases List.mem_append.mp hbytes with hnew | hold
      · obtain rfl : bytes = (s.impl.encode config).1 := by simpa using hnew
        exact ⟨s.impl, config, hP, rfl⟩
      · exact hjournals bytes hold
  | op op =>
    refine ⟨?_, hjournals⟩
    cases hload : op.isLoad with
    | false => exact hop s op hok hload hP
    | true =>
      cases op with
      | load config steps file =>
        have hsaved := hown s _ hok
        show P (s.impl.load config steps file).1
        cases file with
        | none =>
          rcases load_cases s.impl config steps none with ⟨_, -, heq⟩ | ⟨_, _, _, hfile, -⟩
          · rw [heq]
            exact hP
          · cases hfile
        | some bytes =>
          -- The journal is of an engine of this run, which had the invariant when it was saved.
          obtain ⟨saved, config', hPsaved, rfl⟩ := hjournals bytes (hsaved bytes rfl)
          rcases load_saved (hindexed saved hPsaved) s.impl config' config steps with ⟨_, -, heq⟩ |
            hrestores
          · rw [heq]
            exact hP
          · exact hrestore _ _ _ _ hPsaved hP hrestores
      | _ => cases hload

/-- The sessions of a new engine in which observations are published as current. -/
abbrev Reached : Session → Prop := Runs.Run Fresh apply fun s a => s.Own a ∧ a.Ordinary

end Session

namespace Sample

/-- The session of the small run. -/
def session : Session := (ops.map Session.Act.op).foldl Session.apply ⟨.create {}, []⟩

theorem session_run : Runs.Run Session.Fresh Session.apply Session.Own session :=
  Runs.Run.foldl (.start ⟨⟨{}, rfl⟩, rfl⟩) ⟨trivial, trivial, trivial, trivial⟩

theorem session_impl : session.impl = engine := rfl

theorem engine_storable : (engine.buildPayload false).Storable {} {} := by decide +kernel

/-- A save in which every step succeeds. -/
theorem save_plain (impl : Impl) : (impl.save {} {} none).1.isError = false := rfl

/-- A load in which every step succeeds, of what was saved so. -/
theorem load_plain (config : EngineConfig) {impl : Impl}
    (h : (impl.buildPayload false).Storable {} {}) :
    ((Impl.create config).load {} {} (impl.save {} {} none).2).1 =
      ((Impl.create config).recover (impl.buildPayload false).uncounted).impl ∧
    ((Impl.create config).load {} {} (impl.save {} {} none).2).2.outcome.code = .committed := by
  rw [Session.save_journal (save_plain impl)]
  exact load_storable (.create config) h rfl rfl

/-- The load of the journal of the small run. -/
def rebooted : Impl × LoadOutcome := (Impl.create {}).load {} {} (engine.save {} {} none).2

theorem rebooted_eq :
    rebooted.1 = ((Impl.create {}).recover (engine.buildPayload false).uncounted).impl :=
  (load_plain {} engine_storable).1

theorem session_reached : session.Reached :=
  Runs.Run.foldl (.start ⟨⟨{}, rfl⟩, rfl⟩)
    ⟨⟨trivial, trivial⟩, ⟨trivial, trivial⟩, ⟨trivial, rfl⟩, trivial⟩

end Sample

end LinkState
