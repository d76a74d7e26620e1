import LinkStateFabric.Lib.Maps
import LinkStateFabric.Engine.Sessions
import LinkStateFabric.Results.Atomicity
import LinkStateFabric.Results.Incarnations
import LinkStateFabric.Results.Ownership

/-!
# The journal of the coordinator

The coordinator saves the engine after each request whose outcome says that it was carried out, and
after each incarnation that the end of a session fences. `Saved` is kept by such a step
(`Kept.settle`). It is lost where an error has changed the engine, and at a stop that fences what
the ends of the sessions have left (`journal_complete`).
-/

namespace LinkState

open Sorting

/-! ## What is persisted -/

/-- What is persisted is the same. -/
def SamePayload (impl impl' : Impl) : Prop :=
  ∀ includeHistory, impl'.buildPayload includeHistory = impl.buildPayload includeHistory

/-- Neither dispositions nor statistics are persisted. -/
theorem Untouched.samePayload {impl impl' : Impl} (h : Untouched impl impl') :
    SamePayload impl impl' := fun includeHistory => by
  have hkeys : impl'.store.links.keys = impl.store.links.keys := Finmap.keys_congr fun link => by
    have hentry := congrArg Option.isSome (h.entries link)
    rwa [Option.isSome_map, Option.isSome_map] at hentry
  have hpersist (link : LinkId) : (impl'.entryOf link).map (persistEntry includeHistory) =
      (impl.entryOf link).map (persistEntry includeHistory) := by
    have hentry := congrArg (Option.map (persistEntry includeHistory)) (h.entries link)
    rw [Option.map_map, Option.map_map] at hentry
    exact hentry
  unfold Impl.buildPayload
  rw [hkeys, h.fences, h.epoch, h.globalGeneration, h.globalStateGeneration, h.topologyGeneration,
    h.snapshotCounter, h.transitionCounter]
  simp only [hpersist]

/-- A request that was carried out before changes nothing. -/
theorem apply_of_idempotent {impl : Impl} {op : Op} (hop : op.isRequest = true) {outcome : Outcome}
    (houtcome : impl.outcome op = some outcome) (hcode : outcome.code = .idempotent) :
    impl.apply op = impl := by
  have hno {p : Impl × LinkMutationResult} (h : Declined impl p)
      (hp : p.2.outcome.code = .idempotent) : False := h.code_ne rfl hp
  cases op with
  | publishEvidence request =>
    cases houtcome
    rcases publishEvidence_outcome impl request with h | ⟨_, -, heq, -⟩ | ⟨entry, prepared, -, heq⟩
    · exact (hno h hcode).elim
    · exact heq
    · rw [heq, Edit.publish] at hcode
      dsimp only at hcode
      split at hcode
      · cases hcode
      · unfold publicationResult at hcode
        split at hcode <;> cases hcode
  -- A withdrawal and a registration are refused or committed, never idempotent.
  | withdrawEvidence request =>
    cases houtcome
    rcases withdrawEvidence_outcome impl request with h | ⟨entry, slot, prepared, -, heq⟩
    · exact (hno h hcode).elim
    · rw [heq, Edit.withdraw] at hcode
      dsimp only at hcode
      split at hcode <;> cases hcode
  | registerPublisher request =>
    cases houtcome
    rcases registerPublisher_outcome impl request with h | ⟨_, -, hcommitted⟩ | ⟨_, authority, -, -, heq⟩
    · exact (hno h hcode).elim
    · cases hcode.symm.trans hcommitted
    · rw [heq, Impl.supersedeBoot] at hcode
      dsimp only at hcode
      split at hcode <;> cases hcode
  | invalidatePublisher request =>
    cases houtcome
    rcases invalidatePublisher_outcome impl request with h | ⟨heq, -⟩ | ⟨_, -, -, hcommitted⟩
    · exact (hno h hcode).elim
    · exact heq
    · cases hcode.symm.trans hcommitted
  | _ => cases hop

/-- A request that the coordinator does not save after has changed nothing that is persisted, unless
it was torn. -/
theorem samePayload_of_unsaved {impl : Impl} (h : impl.Reachable) {op : Op}
    (hop : op.isRequest = true) (htears : ¬ impl.Tears op) {outcome : Outcome}
    (houtcome : impl.outcome op = some outcome) (hcommitted : outcome.isCommitted = false)
    (hconflict : outcome.code ≠ .evidenceConflict) : SamePayload impl (impl.apply op) := by
  cases haccepts : outcome.code.accepts with
  | false => exact ((error_atomic_iff h op).mpr htears outcome houtcome haccepts).samePayload
  | true =>
    have hcode : outcome.code = .idempotent := by
      unfold OutcomeCode.accepts at haccepts
      unfold Outcome.isCommitted at hcommitted
      simp only [Bool.or_eq_true, decide_eq_true_eq, Bool.or_eq_false_iff,
        decide_eq_false_iff_not] at haccepts hcommitted
      rcases haccepts with (hcode | hcode) | hcode
      · exact absurd hcode hcommitted.1
      · exact hcode
      · exact absurd hcode hconflict
    rw [apply_of_idempotent hop houtcome hcode]
    exact fun _ => rfl

/-! ## Checkpoints -/

theorem CoordinatorConfig.Valid.persistence {config : CoordinatorConfig} (h : config.Valid)
    (hpath : config.journalPath.isEmpty = false) : config.persistence.Valid := by
  unfold CoordinatorConfig.Valid validate at h
  split at h
  · exact absurd h (by decide)
  split at h
  · exact absurd h (by decide)
  split at h
  · exact absurd h (by decide)
  rw [hpath] at h
  exact h

theorem writeJournalFile_default {config : PersistenceConfig} (h : config.Valid)
    (file : Option Bytes) (bytes : Bytes) :
    writeJournalFile config {} file bytes =
      (.make .committed (lit "journal written"), some bytes) := by
  unfold writeJournalFile
  rw [if_neg (show ¬ config.validate ≠ [] from not_not.mpr h)]
  rfl

/-- A save of which every write succeeds. -/
theorem Disk.save_eq {disk : Disk} {config : PersistenceConfig} (hwrites : disk.writes = [])
    (hvalid : config.Valid) (impl : Impl) :
    disk.save impl config = { journal := some (impl.encode config).1 } := by
  have hwritten : (impl.save config {} disk.journal).1.isError = false := by
    unfold Impl.save
    dsimp only
    rw [writeJournalFile_default hvalid]
    rfl
  unfold Disk.save
  rw [hwrites]
  exact congrArg (fun journal => ({ journal } : Disk)) (Session.save_journal hwritten)

namespace CoordinatorServer

/-- The journal on disk is that of the engine as it is. -/
def Saved (server : CoordinatorServer) : Prop :=
  server.disk.journal = some (server.engine.encode server.config.persistence).1

/-- The coordinator has a journal, every write succeeds, and the engine is saved. -/
structure Kept (server : CoordinatorServer) : Prop where
  valid : server.config.Valid
  path : server.config.journalPath.isEmpty = false
  writes : server.disk.writes = []
  saved : server.Saved

namespace Kept

variable {server server' : CoordinatorServer}

theorem congr (h : server.Kept) (hconfig : server'.config = server.config)
    (hengine : server'.engine = server.engine) (hdisk : server'.disk = server.disk) :
    server'.Kept := by
  refine ⟨hconfig ▸ h.valid, hconfig ▸ h.path, hdisk ▸ h.writes, ?_⟩
  unfold Saved
  rw [hconfig, hengine, hdisk]
  exact h.saved

/-- The engine has changed and is saved, or what is persisted has not changed. -/
theorem settle (h : server.Kept) {engine : Impl} {outcome : Outcome}
    (hsame : outcome.isCommitted = false → outcome.code ≠ .evidenceConflict →
      SamePayload server.engine engine)
    (hconfig : server'.config = server.config) (hengine : server'.engine = engine)
    (hdisk : server'.disk = (checkpoint { server with engine } outcome).disk) : server'.Kept := by
  rw [checkpoint_disk] at hdisk
  dsimp only at hdisk
  rw [h.path, Bool.false_or] at hdisk
  split at hdisk
  · rename_i hskips
    simp only [Bool.and_eq_true, Bool.not_eq_true', decide_eq_true_eq] at hskips
    refine ⟨hconfig ▸ h.valid, hconfig ▸ h.path, hdisk ▸ h.writes, ?_⟩
    unfold Saved Impl.encode
    rw [hconfig, hengine, hdisk, hsame hskips.1 hskips.2]
    exact h.saved
  · rw [Disk.save_eq h.writes (h.valid.persistence h.path)] at hdisk
    refine ⟨hconfig ▸ h.valid, hconfig ▸ h.path, hdisk ▸ rfl, ?_⟩
    unfold Saved
    rw [hconfig, hengine, hdisk]

/-- A fence that changes anything is saved. -/
theorem endRegistration (h : server.Kept) (hreachable : server.engine.Reachable)
    (registration : PublisherId × WorkerBootId) : (server.endRegistration registration).Kept := by
  have hdisk : (server.endRegistration registration).disk =
      (checkpoint
        { server with
          engine := server.engine.endIncarnation (lit "worker session ended") registration }
        (server.fence (lit "worker session ended") registration).2).disk := by
    show ((server.fence (lit "worker session ended") registration).1.checkpoint
      (server.fence (lit "worker session ended") registration).2).disk = _
    rw [checkpoint_disk, checkpoint_disk, (fence_same ..).config, fence_engine]
    rw [show (server.fence (lit "worker session ended") registration).1.disk = server.disk from
      countFence_disk ..]
  refine h.settle (fun hcommitted hconflict => ?_) (endRegistration_same ..).config
    (endRegistration_engine ..) hdisk
  exact samePayload_of_unsaved hreachable rfl id rfl hcommitted hconflict

theorem foldl_endRegistration (h : server.Kept) (hreachable : server.engine.Reachable)
    (registrations : List (PublisherId × WorkerBootId)) :
    (registrations.foldl CoordinatorServer.endRegistration server).Kept := by
  induction registrations generalizing server with
  | nil => exact h
  | cons registration registrations ih =>
    refine ih (h.endRegistration hreachable registration) ?_
    rw [endRegistration_engine]
    exact .step _ hreachable trivial

theorem endSession (h : server.Kept) (hreachable : server.engine.Reachable) (id : Nat) :
    (server.endSession id).Kept := by
  unfold CoordinatorServer.endSession
  dsimp only
  split
  · exact (h.foldl_endRegistration hreachable _).congr rfl rfl rfl
  · exact h.congr rfl rfl rfl

theorem joinSession (h : server.Kept) (hreachable : server.engine.Reachable) (id : Nat) :
    (server.joinSession id).Kept := by
  unfold CoordinatorServer.joinSession
  split
  · exact h
  · exact h.endSession hreachable id

theorem frame (h : server.Kept) (hreachable : server.engine.Reachable) {id : Nat} {frame : Frame}
    (htears : ∀ op, server.operationAt id frame = some op → ¬ server.engine.Tears op)
    (sent : Bool) : (server.receiveFrame id frame sent).Kept := by
  have hhandled := receiveFrame_handled server id frame sent
  cases hop : server.operationAt id frame with
  | none =>
    obtain ⟨hengine, hdisk⟩ := hhandled.idle hop
    exact h.congr hhandled.config hengine hdisk
  | some op =>
    obtain ⟨outcome, houtcome, hengine, hdisk⟩ := hhandled.performs op hop
    refine h.settle (fun hcommitted hconflict => ?_) hhandled.config hengine hdisk
    exact samePayload_of_unsaved hreachable (isRequest_of_operationAt hop) (htears op hop) houtcome
      hcommitted hconflict

theorem accept (h : server.Kept) : server.accept.Kept := by
  unfold CoordinatorServer.accept
  dsimp only
  split
  · exact h.congr rfl rfl rfl
  · exact h.congr rfl rfl rfl

end Kept

/-! ## Sessions at a stop -/

/-- A session whose loop runs has not ended, and one that has ended has no registrations left if it
was fenced. -/
structure Sound (server : CoordinatorServer) : Prop where
  serving : ∀ id, (server.session id).serving = true → (server.session id).finished = false
  ended : server.config.fenceOnDisconnect = true → ∀ id, (server.session id).finished = true →
    (server.session id).registrations = []

namespace Sound

variable {server server' : CoordinatorServer}

theorem congr (h : server.Sound) (hsame : SameSessions server server') : server'.Sound := by
  refine ⟨fun id => ?_, fun hfence id => ?_⟩
  · rw [hsame.session]
    exact h.serving id
  · rw [hsame.session]
    exact h.ended (hsame.config ▸ hfence) id

theorem putSession (h : server.Sound) (id : Nat) {session : Session}
    (hserving : session.serving = true → session.finished = false)
    (hended : server.config.fenceOnDisconnect = true → session.finished = true →
      session.registrations = []) : (server.putSession id session).Sound := by
  refine ⟨fun other => ?_, fun hfence other => ?_⟩
  · by_cases heq : other = id
    · rw [heq, putSession_session]
      exact hserving
    · rw [putSession_session_of_ne _ heq]
      exact h.serving other
  · by_cases heq : other = id
    · rw [heq, putSession_session]
      exact hended hfence
    · rw [putSession_session_of_ne _ heq]
      exact h.ended hfence other

theorem endSession (h : server.Sound) (id : Nat) : (server.endSession id).Sound := by
  unfold CoordinatorServer.endSession
  dsimp only
  split
  · exact (h.congr (CoordinatorServer.foldl_endRegistration ..).2).putSession id nofun
      fun _ _ => rfl
  · rename_i hfence
    exact h.putSession id nofun fun hfence' _ => absurd hfence' hfence

theorem joinSession (h : server.Sound) (id : Nat) : (server.joinSession id).Sound := by
  unfold CoordinatorServer.joinSession
  split
  · exact h
  · exact h.endSession id

theorem shutdownSession (h : server.Sound) (id : Nat) : (server.shutdownSession id).Sound := by
  unfold CoordinatorServer.shutdownSession
  dsimp only
  split
  · exact (h.congr (foldl_fence ..).2).putSession id (h.serving id) fun _ _ => rfl
  · exact h

theorem foldl {f : CoordinatorServer → Nat → CoordinatorServer}
    (hf : ∀ {server : CoordinatorServer}, server.Sound → ∀ id, (f server id).Sound)
    (h : server.Sound) (ids : List Nat) : (ids.foldl f server).Sound := by
  induction ids generalizing server with
  | nil => exact h
  | cons id ids ih => exact ih (hf h id)

theorem frame (h : server.Sound) {id : Nat} (hid : server.Serving id) (frame : Frame)
    (sent : Bool) : (server.receiveFrame id frame sent).Sound := by
  have hhandled := receiveFrame_handled server id frame sent
  have hopen := hhandled.finished.trans (h.serving id hid.2)
  refine ⟨fun other hserving => ?_, fun hfence other hfinished => ?_⟩
  · by_cases heq : other = id
    · rw [heq]
      exact hopen
    · rw [hhandled.others other heq] at hserving ⊢
      exact h.serving other hserving
  · by_cases heq : other = id
    · rw [heq, hopen] at hfinished
      cases hfinished
    · rw [hhandled.others other heq] at hfinished ⊢
      exact h.ended (hhandled.config ▸ hfence) other hfinished

theorem apply (h : server.Sound) {act : Act} (henabled : server.Enabled act) :
    (server.apply act).Sound := by
  cases act with
  | start | op => exact ⟨h.serving, h.ended⟩
  | accept =>
    show server.accept.Sound
    unfold CoordinatorServer.accept
    dsimp only
    split
    · have hnew := @putSession server h server.sessionsAccepted {} (fun _ => rfl) nofun
      exact ⟨hnew.serving, hnew.ended⟩
    · exact ⟨h.serving, h.ended⟩
  | frame id frame sent => exact h.frame henabled frame sent
  | endSession id => exact h.endSession id
  | stop =>
    show server.stop.Sound
    unfold stop
    split
    · exact h
    · have hfenced := Sound.foldl shutdownSession (Sound.foldl joinSession h server.sessions)
        server.sessions
      exact ⟨hfenced.serving, hfenced.ended⟩

end Sound

/-! ## The stop of the coordinator -/

theorem endIncarnation_of_idle {impl : Impl} {p : PublisherId} {b : WorkerBootId}
    (hidle : ¬ impl.ActiveIncarnation p b) (reason : Text) :
    impl.endIncarnation reason (p, b) = impl := by
  rcases invalidatePublisher_cases impl (impl.closing reason (p, b)) with
    ⟨heq, -⟩ | ⟨authority, _, hauthority, hinvalidates, -⟩
  · exact heq
  · obtain ⟨-, rfl, hactive⟩ := closing_invalidates.mp hinvalidates
    exact absurd ⟨authority.core, Impl.authorityOf_eq_some hauthority, hactive⟩ hidle

theorem foldl_endIncarnation_of_idle {impl : Impl}
    {registrations : List (PublisherId × WorkerBootId)}
    (hidle : ∀ r ∈ registrations, ¬ impl.ActiveIncarnation r.1 r.2) (reason : Text) :
    registrations.foldl (Impl.endIncarnation reason) impl = impl := by
  induction registrations with
  | nil => rfl
  | cons r registrations ih =>
    rw [List.foldl_cons, endIncarnation_of_idle (hidle r List.mem_cons_self)]
    exact ih fun r hr => hidle r (List.mem_cons_of_mem _ hr)

theorem foldl_fence_disk (server : CoordinatorServer) (reason : Text)
    (registrations : List (PublisherId × WorkerBootId)) :
    (registrations.foldl (fun server registration => (server.fence reason registration).1)
      server).disk = server.disk := by
  induction registrations generalizing server with
  | nil => rfl
  | cons registration registrations ih => exact (ih _).trans (countFence_disk ..)

/-- The sessions of the list have no registrations left that a stop would fence. -/
def Quiet (server : CoordinatorServer) (ids : List Nat) : Prop :=
  server.config.fenceOnShutdown = true → ∀ id ∈ ids, ∀ r ∈ (server.session id).registrations,
    ¬ server.engine.ActiveIncarnation r.1 r.2

/-- A session at the stop of the coordinator, if it is quiet. -/
theorem shutdownSession_quiet {server : CoordinatorServer} {id : Nat} {ids : List Nat}
    (h : server.Quiet (id :: ids)) : (server.shutdownSession id).config = server.config ∧
      (server.shutdownSession id).engine = server.engine ∧
      (server.shutdownSession id).disk = server.disk ∧ (server.shutdownSession id).Quiet ids := by
  unfold shutdownSession
  dsimp only
  split
  · rename_i hfence
    obtain ⟨hengine, hsame⟩ :=
      foldl_fence server (lit "coordinator shutdown") (server.session id).registrations
    rw [foldl_endIncarnation_of_idle (h hfence id List.mem_cons_self)] at hengine
    refine ⟨hsame.config, hengine, foldl_fence_disk .., fun _ other hother r hr => ?_⟩
    rw [putSession_engine, hengine]
    by_cases heq : other = id
    · rw [heq, putSession_session] at hr
      cases hr
    · rw [putSession_session_of_ne _ heq, hsame.session] at hr
      exact h hfence other (List.mem_cons_of_mem _ hother) r hr
  · exact ⟨rfl, rfl, rfl, fun hfence other hother => h hfence other (List.mem_cons_of_mem _ hother)⟩

theorem shutdownSession_disk (server : CoordinatorServer) (id : Nat) :
    (server.shutdownSession id).disk = server.disk := by
  unfold shutdownSession
  dsimp only
  split
  · exact foldl_fence_disk ..
  · rfl

theorem foldl_shutdownSession_quiet {server : CoordinatorServer} {ids : List Nat}
    (h : server.Quiet ids) : (ids.foldl shutdownSession server).config = server.config ∧
      (ids.foldl shutdownSession server).engine = server.engine ∧
      (ids.foldl shutdownSession server).disk = server.disk := by
  induction ids generalizing server with
  | nil => exact ⟨rfl, rfl, rfl⟩
  | cons id ids ih =>
    obtain ⟨hconfig, hengine, hdisk, hquiet⟩ := shutdownSession_quiet h
    obtain ⟨hconfig', hengine', hdisk'⟩ := ih hquiet
    exact ⟨hconfig'.trans hconfig, hengine'.trans hengine, hdisk'.trans hdisk⟩

/-- Where the ends of sessions fence nothing, they leave everything but the flags of the sessions. -/
theorem foldl_joinSession_unfenced {server : CoordinatorServer} (ids : List Nat)
    (hfence : server.config.fenceOnDisconnect = false) :
    (ids.foldl joinSession server).config = server.config ∧
      (ids.foldl joinSession server).engine = server.engine ∧
      (ids.foldl joinSession server).disk = server.disk ∧
      ∀ id, ((ids.foldl joinSession server).session id).registrations =
        (server.session id).registrations := by
  induction ids generalizing server with
  | nil => exact ⟨rfl, rfl, rfl, fun _ => rfl⟩
  | cons id ids ih =>
    have hjoin : (server.joinSession id).config = server.config ∧
        (server.joinSession id).engine = server.engine ∧
        (server.joinSession id).disk = server.disk ∧
        ∀ other, ((server.joinSession id).session other).registrations =
          (server.session other).registrations := by
      unfold joinSession endSession
      dsimp only
      split
      · exact ⟨rfl, rfl, rfl, fun _ => rfl⟩
      · rw [if_neg (Bool.eq_false_iff.mp hfence)]
        refine ⟨rfl, rfl, rfl, fun other => ?_⟩
        by_cases heq : other = id
        · rw [heq, putSession_session]
        · rw [putSession_session_of_ne _ heq]
    obtain ⟨hconfig, hengine, hdisk, hregistrations⟩ := hjoin
    obtain ⟨hconfig', hengine', hdisk', hregistrations'⟩ := ih (hconfig ▸ hfence)
    exact ⟨hconfig'.trans hconfig, hengine'.trans hengine, hdisk'.trans hdisk,
      fun other => (hregistrations' other).trans (hregistrations other)⟩

theorem stop_disk {server : CoordinatorServer} (hfence : server.config.fenceOnDisconnect = false) :
    server.stop.disk = server.disk := by
  have hshutdown (ids : List Nat) (server : CoordinatorServer) :
      (ids.foldl shutdownSession server).disk = server.disk := by
    induction ids generalizing server with
    | nil => rfl
    | cons id ids ih => exact (ih _).trans (shutdownSession_disk server id)
  unfold stop
  split
  · rfl
  · exact (hshutdown server.sessions _).trans (foldl_joinSession_unfenced _ hfence).2.2.1

namespace Kept

variable {server : CoordinatorServer}

theorem foldl_joinSession (h : server.Kept) (hreachable : server.engine.Reachable)
    (ids : List Nat) : (ids.foldl CoordinatorServer.joinSession server).Kept := by
  induction ids generalizing server with
  | nil => exact h
  | cons id ids ih =>
    exact ih (h.joinSession hreachable id) ((joinSession_operates server id).reachable hreachable)

/-- A stop fences nothing, or only what the ends of the sessions fence. -/
theorem stop (h : server.Kept) (hreachable : server.engine.Reachable) (hsound : server.Sound)
    (hquiet : server.config.fenceOnDisconnect = false → server.Quiet server.sessions) :
    server.stop.Kept := by
  unfold CoordinatorServer.stop
  split
  · exact h
  have hended : (server.sessions.foldl CoordinatorServer.joinSession server).Quiet
      server.sessions := by
    intro hshutdown id hid r hr
    cases hfence : server.config.fenceOnDisconnect with
    | false =>
      obtain ⟨hconfig, hengine, -, hregistrations⟩ :=
        foldl_joinSession_unfenced server.sessions hfence
      rw [hregistrations] at hr
      rw [hengine]
      exact hquiet hfence (hconfig ▸ hshutdown) id hid r hr
    | true =>
      have hcloses := Closes.foldl Closes.joinSession server.sessions server
      have hnil := (Sound.foldl Sound.joinSession hsound server.sessions).ended
        (hcloses.config ▸ hfence) id (foldl_joinSession_finished server.sessions (.inr hid))
      rw [hnil] at hr
      cases hr
  obtain ⟨hconfig, hengine, hdisk⟩ := foldl_shutdownSession_quiet hended
  exact (h.foldl_joinSession hreachable server.sessions).congr hconfig hengine hdisk

end Kept

/-! ## Runs -/

/-- A coordinator whose engine was just saved, and whose writes succeed from now on. -/
structure JustSaved (server : CoordinatorServer) : Prop where
  reachable : server.Reachable
  path : server.config.journalPath ≠ []
  writes : server.disk.writes = []
  saved : server.Saved

/-- The steps that the coordinator makes itself. -/
def Act.isOwn : Act → Bool
  | .op _ => false
  | _ => true

/-- A frame does not ask for what an exhausted counter would tear, and a stop finds nothing to fence
that the ends of the sessions have left. -/
def Checkpoints (server : CoordinatorServer) : Act → Prop
  | .frame id frame _ => ∀ op, server.operationAt id frame = some op → ¬ server.engine.Tears op
  | .stop => server.config.fenceOnDisconnect = false → server.Quiet server.sessions
  | _ => True

theorem Reachable.sound {server : CoordinatorServer} (h : server.Reachable) : server.Sound := by
  refine h.invariant (P := Sound) (fun server hstart => ⟨fun id _ => ?_, fun _ id hfinished => ?_⟩)
    fun _ _ h henabled => h.apply henabled
  · rw [hstart.session]
  · rw [hstart.session] at hfinished
    cases hfinished

theorem Reachable.valid {server : CoordinatorServer} (h : server.Reachable) :
    server.config.Valid := by
  refine h.invariant (P := fun server => server.config.Valid) (fun _ h => h.config)
    fun server act h _ => ?_
  rw [apply_config]
  exact h

theorem Reachable.engine {server : CoordinatorServer} (h : server.Reachable) :
    server.engine.Reachable :=
  h.invariant (P := fun server => server.engine.Reachable) (fun _ h => h.engine)
    fun _ act h _ => apply_reachable h act

theorem JustSaved.kept {server : CoordinatorServer} (h : server.JustSaved) : server.Kept where
  valid := h.reachable.valid
  path := Bool.eq_false_iff.mpr fun hempty => h.path (List.isEmpty_iff.mp hempty)
  writes := h.writes
  saved := h.saved

theorem Kept.apply {server : CoordinatorServer} (h : server.Kept)
    (hreachable : server.engine.Reachable) (hsound : server.Sound) {act : Act}
    (hown : act.isOwn = true) (hact : server.Checkpoints act) : (server.apply act).Kept := by
  cases act with
  | start => exact h.congr rfl rfl rfl
  | accept => exact h.accept
  | frame id frame sent => exact h.frame hreachable hact sent
  | endSession id => exact h.endSession hreachable id
  | stop => exact h.stop hreachable hsound hact
  | op op => cases hown

end CoordinatorServer

open CoordinatorServer

theorem kept_of_run {server : CoordinatorServer}
    (h : Runs.Run JustSaved CoordinatorServer.apply
      (fun server act => server.Enabled act ∧ act.isOwn = true ∧ server.Checkpoints act) server) :
    server.Kept := by
  refine (Runs.Run.invariant
    (P := fun server : CoordinatorServer => server.Kept ∧ server.engine.Reachable ∧ server.Sound)
    (fun server hsaved => ?_) (fun server act ⟨hkept, hreachable, hsound⟩ hok => ?_) h).1
  · exact ⟨hsaved.kept, hsaved.reachable.engine, hsaved.reachable.sound⟩
  · exact ⟨hkept.apply hreachable hsound hok.2.1 hok.2.2, apply_reachable hreachable act,
      hsound.apply hok.1⟩

/-- In every run from a saved engine whose steps tear nothing and leave no fence to the stop, the
journal on disk is that of the engine in every state. -/
theorem journal_complete {server : CoordinatorServer}
    (h : Runs.Run JustSaved CoordinatorServer.apply
      (fun server act => server.Enabled act ∧ act.isOwn = true ∧ server.Checkpoints act) server) :
    server.Saved := (kept_of_run h).saved

/-- A journal that is left as it is when what is persisted grows. -/
theorem not_saved_of_size {server server' : CoordinatorServer} (h : server.Saved)
    (hconfig : server'.config = server.config) (hdisk : server'.disk = server.disk)
    (hsize : (server.engine.buildPayload server.config.journalHistory).size
        server.config.journalHistory ≠
      (server'.engine.buildPayload server.config.journalHistory).size
        server.config.journalHistory) : ¬ server'.Saved := by
  intro h'
  unfold Saved at h h'
  rw [hconfig, hdisk, h] at h'
  have hlength := congrArg List.length (Option.some.inj h')
  unfold Impl.encode at hlength
  rw [length_encodeJournal, length_encodeJournal] at hlength
  exact hsize hlength

namespace Sample

/-- Disconnects are left to the stop. -/
def shutdownConfig : CoordinatorConfig :=
  { fenceOnDisconnect := false, fenceOnShutdown := true, journalPath := lit "/var/links" }

/-- A coordinator that starts on an engine that was just saved. -/
def savedServer (config : CoordinatorConfig) (engine : Impl) : CoordinatorServer where
  config := config
  engine := engine
  disk := { journal := some (engine.encode config.persistence).1 }

theorem savedServer_justSaved {config : CoordinatorConfig} {engine : Impl} (hconfig : config.Valid)
    (hpath : config.journalPath ≠ []) (h : engine.Reachable) :
    (savedServer config engine).JustSaved :=
  ⟨.start ⟨hconfig, h, rfl, fun _ => rfl, rfl⟩, hpath, rfl, rfl⟩

/-- A worker connects and registers. -/
def attendance : List Act := [.accept, .frame 0 (frameOf (client.message .register)) true]

def attended : CoordinatorServer :=
  attendance.foldl CoordinatorServer.apply (savedServer shutdownConfig started.server.engine)

theorem attended_run : Runs.Run JustSaved CoordinatorServer.apply
    (fun server act => server.Enabled act ∧ act.isOwn = true ∧ server.Checkpoints act) attended := by
  have hsaved := @savedServer_justSaved shutdownConfig started.server.engine (by decide) (by decide)
    started_reachable.engine
  have hregister {server : CoordinatorServer} :
      server.operationAt 0 (frameOf (client.message .register)) =
        some (.registerPublisher (registrationOf (client.message .register).registration)) := by
    unfold operationAt requestOf
    rw [decode_frameOf registerMessage_valid]
    rfl
  have hnone : started.server.engine.store.publishers.lookup publisher = none := by decide +kernel
  refine Runs.Run.foldl (.start hsaved) ⟨⟨rfl, rfl, trivial⟩, ⟨by decide +kernel, rfl, ?_⟩, trivial⟩
  intro op hop
  cases hregister.symm.trans hop
  rintro ⟨_, _, -, hsupersedes, -⟩
  cases hnone.symm.trans hsupersedes.known

end Sample

theorem journal_complete_sample : Sample.attended.Saved := journal_complete Sample.attended_run

/-- A stop fences the worker that is left, and the journal does not have the fence. -/
theorem stop_unsaved :
    Runs.Run JustSaved CoordinatorServer.apply
        (fun server act => server.Enabled act ∧ act.isOwn = true ∧ server.Checkpoints act)
        Sample.attended ∧
      Sample.attended.Enabled .stop ∧ ¬ (Sample.attended.apply .stop).Saved := by
  refine ⟨Sample.attended_run, trivial, ?_⟩
  exact not_saved_of_size (kept_of_run Sample.attended_run).saved (apply_config ..)
    (stop_disk (by decide +kernel)) (by decide +kernel)

end LinkState
