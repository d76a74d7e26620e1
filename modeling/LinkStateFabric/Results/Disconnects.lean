import LinkStateFabric.Protocol.Departures
import LinkStateFabric.Results.Incarnations
import LinkStateFabric.Results.Ownership

/-!
# Ends of sessions

The coordinator invalidates the incarnations of a session that ends, one after the other. Each of
these invalidations leaves every other incarnation alone, whatever has happened to the publisher
since (`closing_same`), and ends its own, unless the epoch has changed since it was read
(`endIncarnation_idle`); then the new epoch has ended it.

* `Leaving.Sound`: an incarnation whose turn in the loop has come is at its end, or was registered
  again since.
* `disconnect_fences_own`: what a session leaves behind that ends among the steps of others.
* `disconnect_overtaken`: a boot that is fenced leaves a small registry before the loop is over.
-/

namespace LinkState

open CoordinatorServer

section Ends

variable {impl : Impl} (hindexed : Indexed impl) (hendorsed : impl.Endorsed) (reason : Text)

include hindexed hendorsed in
/-- The coordinator does not invalidate the successor of an incarnation, under whatever epoch. -/
theorem closing_same {p publisher : PublisherId} {b boot : WorkerBootId}
    (hne : (publisher, boot) ≠ (p, b)) (epoch : CoordinatorEpoch) :
    SameIncarnation impl
      (impl.apply (.invalidatePublisher { impl.closing reason (p, b) with epoch })) publisher boot := by
  refine (invalidatePublisher_same_iff hindexed hendorsed _).mpr ?_
  rintro ⟨rfl, authority, -, rfl, hinvalidates⟩
  unfold Impl.invalidates Impl.closing at hinvalidates
  simp only [Option.any_some, Bool.and_eq_true, Bool.not_eq_true', decide_eq_false_iff_not,
    not_not] at hinvalidates
  obtain ⟨⟨⟨-, rfl⟩, -⟩, -⟩ := hinvalidates
  exact hne rfl

include hindexed hendorsed in
theorem endIncarnation_same {p publisher : PublisherId} {b boot : WorkerBootId}
    (hne : (publisher, boot) ≠ (p, b)) :
    SameIncarnation impl (impl.endIncarnation reason (p, b)) publisher boot :=
  closing_same hindexed hendorsed reason hne impl.epoch

/-- The incarnation is not active any more. -/
theorem endIncarnation_idle {p : PublisherId} (hvalid : p.valid = true) (b : WorkerBootId) :
    ¬ (impl.endIncarnation reason (p, b)).ActiveIncarnation p b := by
  rintro ⟨a, ha, hactive⟩
  have hcases := invalidatePublisher_cases impl (impl.closing reason (p, b))
  rcases hcases with ⟨heq, hnone⟩ | ⟨authority, _, hauthority, hinvalidates, -⟩
  · rw [show impl.endIncarnation reason (p, b) = impl from heq] at ha
    obtain ⟨hstanding, hboot⟩ := Option.filter_eq_some_iff.mp ha
    obtain ⟨authority, hauthority, rfl⟩ := Option.map_eq_some_iff.mp hstanding
    have hinvalidates := (@closing_invalidates impl reason p b authority).mpr
      ⟨hvalid, of_decide_eq_true hboot, hactive⟩
    cases hinvalidates.symm.trans (hnone authority hauthority)
  · obtain ⟨-, hboot, -⟩ := closing_invalidates.mp hinvalidates
    have hends := invalidatePublisher_ends hauthority hinvalidates
    rw [hboot] at hends
    cases ha.symm.trans hends
    cases hactive

include hindexed hendorsed

/-- Invalidations of a list of incarnations end these, and leave every other alone. -/
theorem endIncarnations_spec {registrations : List (PublisherId × WorkerBootId)}
    (hvalid : ∀ r ∈ registrations, r.1.valid = true) (publisher : PublisherId)
    (boot : WorkerBootId) :
    ((publisher, boot) ∈ registrations →
      ¬ (registrations.foldl (Impl.endIncarnation reason) impl).ActiveIncarnation publisher boot) ∧
    ((publisher, boot) ∉ registrations →
      SameIncarnation impl (registrations.foldl (Impl.endIncarnation reason) impl) publisher boot) := by
  induction registrations generalizing impl with
  | nil => exact ⟨nofun, fun _ => .refl ..⟩
  | cons r registrations ih =>
    obtain ⟨p, b⟩ := r
    have hindexed' : Indexed (impl.endIncarnation reason (p, b)) := hindexed.apply _
    have hendorsed' : (impl.endIncarnation reason (p, b)).Endorsed := hendorsed.apply hindexed _
    obtain ⟨hends, hleaves⟩ := ih hindexed' hendorsed' fun r hr => hvalid r (List.mem_cons_of_mem _ hr)
    rw [List.foldl_cons]
    refine ⟨fun hmem => ?_, fun hnot => ?_⟩
    · by_cases hlater : (publisher, boot) ∈ registrations
      · exact hends hlater
      · obtain heq | hmem := List.mem_cons.mp hmem
        · cases heq
          rw [(hleaves hlater).active]
          exact endIncarnation_idle reason (hvalid _ List.mem_cons_self) boot
        · exact absurd hmem hlater
    · obtain ⟨hne, hlater⟩ := not_or.mp (mt List.mem_cons.mpr hnot)
      exact (endIncarnation_same hindexed hendorsed reason hne).trans (hleaves hlater)

end Ends

namespace CoordinatorServer

/-! ## The loop of a session that leaves -/

/-- Of the incarnations whose turn has come, each is at its end or was registered again, but for one
whose epoch was read and is still that of the engine. -/
structure Leaving.Sound (leaving : Leaving) (engine : Impl) : Prop where
  turn : leaving.epoch.isSome = true → ∀ r rest, leaving.pending = r :: rest → r ∈ leaving.begun
  ended : ∀ r ∈ leaving.begun, r ∈ leaving.again ∨ ¬ engine.ActiveIncarnation r.1 r.2 ∨
    ∃ rest, leaving.pending = r :: rest ∧ leaving.epoch = some engine.epoch

theorem enrolledBy_of_enlists {engine : Impl} {op : Op} {publisher : PublisherId}
    {boot : WorkerBootId} (h : engine.Enlists op publisher boot) :
    enrolledBy engine op = some (publisher, boot) := by
  obtain ⟨request, rfl, hok, rfl, rfl⟩ := h
  unfold enrolledBy
  dsimp only
  rw [hok]
  rfl

namespace Leaving.Sound

variable {leaving : Leaving} {engine : Impl}

theorem note_none (leaving : Leaving) : leaving.note none = leaving := by
  unfold note
  rw [Option.toList_none, List.filter_nil, List.append_nil]

/-- What else happens to the engine makes an incarnation active only if it registers it. -/
theorem apply (h : leaving.Sound engine) (hdated : engine.Dated) (op : Op) :
    (leaving.note (enrolledBy engine op)).Sound (engine.apply op) := by
  refine ⟨h.turn, fun r hr => ?_⟩
  refine or_iff_not_imp_left.mpr fun hagain => ?_
  obtain ⟨hold, hnew⟩ := not_or.mp (mt List.mem_append.mpr hagain)
  rcases (h.ended r hr).resolve_left hold with hidle | ⟨rest, hpending, hepoch⟩
  · refine .inl fun hactive => hnew ?_
    rw [enrolledBy_of_enlists (enlists_of_active hidle hactive)]
    exact List.mem_filter.mpr ⟨List.mem_singleton_self _, List.contains_iff_mem.mpr hr⟩
  · rcases eq_or_ne (engine.apply op).epoch engine.epoch with hsame | hne
    · exact .inr ⟨rest, hpending, hepoch.trans (congrArg some hsame.symm)⟩
    · exact .inl (idle_of_epoch_ne hdated hne _ _)

/-- An epoch is read, and the turn of an incarnation comes. -/
theorem read (h : leaving.Sound engine) (hreads : leaving.reads = true) :
    (leaving.read engine.epoch).Sound engine := by
  have hnone : leaving.epoch = none := by
    unfold Leaving.reads at hreads
    rw [Bool.and_eq_true, Option.isNone_iff_eq_none] at hreads
    exact hreads.2
  refine ⟨fun _ r rest hpending => ?_, fun r hr => ?_⟩
  · have hhead : leaving.pending = r :: rest := hpending
    refine List.mem_append_right _ ?_
    rw [hhead]
    exact List.mem_singleton_self _
  · rcases List.mem_append.mp hr with hr | hr
    · refine (h.ended r hr).imp_right (.imp_right ?_)
      rintro ⟨_, -, hepoch⟩
      cases hnone.symm.trans hepoch
    · cases hpending : leaving.pending with
      | nil =>
        rw [hpending] at hr
        cases hr
      | cons r' rest =>
        rw [hpending] at hr
        cases List.mem_singleton.mp hr
        exact .inr (.inr ⟨rest, hpending, rfl⟩)

/-- An incarnation is fenced. Where its epoch is over, it was at its end before. -/
theorem fence {r : PublisherId × WorkerBootId} {rest begun again : List (PublisherId × WorkerBootId)}
    {epoch : CoordinatorEpoch} {reason : Text}
    (h : Sound { pending := r :: rest, epoch := some epoch, begun, again } engine)
    (hvalid : r.1.valid = true) : Sound { pending := rest, begun, again }
      (engine.apply (.invalidatePublisher { engine.closing reason r with epoch })) := by
  refine ⟨nofun, fun r' hr => ?_⟩
  rcases h.ended r' hr with hagain | hidle | ⟨_, hpending, hepoch⟩
  · exact .inl hagain
  · refine .inr (.inl fun hactive => ?_)
    obtain ⟨_, hop, -⟩ := enlists_of_active hidle hactive
    cases hop
  · obtain ⟨rfl, rfl⟩ := List.cons.inj hpending
    obtain rfl := Option.some.inj hepoch
    exact .inr (.inl (endIncarnation_idle reason hvalid r.2))

end Leaving.Sound

/-! ## The coordinator -/

/-- What is known of a session that is leaving. -/
structure Audit.Leaves (audit : Audit) (id : Nat) (leaving : Leaving) : Prop where
  mem : id ∈ audit.server.sessions
  finished : (audit.server.session id).finished = false
  serving : (audit.server.session id).serving = false
  pending : ∀ r ∈ leaving.pending, (id, r) ∈ audit.registered
  covered : audit.server.config.fenceOnDisconnect = true →
    ∀ r, (id, r) ∈ audit.registered → r ∈ leaving.begun ∨ r ∈ leaving.pending
  sound : leaving.Sound audit.server.engine

namespace Audit.Leaves

variable {audit audit' : Audit} {id : Nat} {leaving leaving' : Leaving}

/-- A step that leaves the session alone. -/
theorem congr (h : audit.Leaves id leaving) (hmem : id ∈ audit'.server.sessions)
    (hsession : audit'.server.session id = audit.server.session id)
    (hconfig : audit'.server.config = audit.server.config)
    (hregistered : ∀ r, (id, r) ∈ audit'.registered ↔ (id, r) ∈ audit.registered)
    (hpending : leaving'.pending = leaving.pending) (hbegun : leaving'.begun = leaving.begun)
    (hsound : leaving'.Sound audit'.server.engine) : audit'.Leaves id leaving' := by
  refine ⟨hmem, hsession ▸ h.finished, hsession ▸ h.serving, fun r hr => ?_, fun hfence r hr => ?_,
    hsound⟩
  · rw [hpending] at hr
    exact (hregistered r).mpr (h.pending r hr)
  · rw [hpending, hbegun]
    exact h.covered (hconfig ▸ hfence) r ((hregistered r).mp hr)

/-- A step that ends no session. -/
theorem act (h : audit.Leaves id leaving) (htracked : audit.Tracked)
    (hdated : audit.server.engine.Dated) {act : Act} (henabled : audit.server.Enabled act)
    (hapart : audit.server.Apart act) :
    (audit.apply act).Leaves id (leaving.note (audit.server.enrolledAt act)) := by
  have hidle : (leaving.note none).Sound audit.server.engine := by
    rw [Leaving.Sound.note_none]
    exact h.sound
  cases act with
  | start => exact h.congr h.mem rfl rfl (fun _ => Iff.rfl) rfl rfl hidle
  | op op => exact h.congr h.mem rfl rfl (fun _ => Iff.rfl) rfl rfl (h.sound.apply hdated op)
  | endSession => exact hapart.elim
  | accept =>
    have hlive : id ∈ audit.server.sessions.filter fun id => !(audit.server.session id).finished :=
      List.mem_filter.mpr ⟨h.mem, by rw [h.finished]; rfl⟩
    unfold Audit.apply CoordinatorServer.apply CoordinatorServer.accept
    dsimp only
    split
    · refine h.congr (List.mem_append_left _ hlive) ?_ rfl (fun _ => Iff.rfl) rfl rfl hidle
      exact putSession_session_of_ne audit.server (htracked.known id h.mem).ne {}
    · exact h.congr hlive rfl rfl (fun _ => Iff.rfl) rfl rfl hidle
  -- Stop is apart from a session that is leaving, unless it has nothing to do.
  | stop =>
    cases hrunning : audit.server.running with
    | false =>
      have hsame : audit.server.stop = audit.server := by
        rw [CoordinatorServer.stop, hrunning]
        rfl
      unfold Audit.apply CoordinatorServer.apply
      dsimp only
      rw [hsame]
      exact h.congr h.mem rfl rfl (fun _ => Iff.rfl) rfl rfl hidle
    | true => cases h.finished.symm.trans (hapart id h.mem)
  | frame id' frame sent =>
    have hhandled := receiveFrame_handled audit.server id' frame sent
    -- A session that is leaving serves no frame.
    have hne : id ≠ id' := by
      rintro rfl
      cases h.serving.symm.trans henabled.2
    refine h.congr (hhandled.sessions ▸ h.mem) (hhandled.others id hne) hhandled.config
      (fun r => ?_) rfl rfl ?_
    · show (id, r) ∈ audit.registered ++ _ ↔ _
      rw [List.mem_append, or_iff_left]
      intro hmem
      obtain ⟨_, -, heq⟩ := List.mem_map.mp (by rwa [Option.toList_map] at hmem)
      exact hne (congrArg Prod.fst heq).symm
    · show (leaving.note (audit.server.enrolled id' frame)).Sound
        (audit.server.receiveFrame id' frame sent).engine
      unfold enrolled
      cases hop : audit.server.operationAt id' frame with
      | none =>
        rw [(hhandled.idle hop).1]
        exact hidle
      | some op =>
        obtain ⟨_, -, hengine, -⟩ := hhandled.performs op hop
        rw [hengine]
        exact h.sound.apply hdated op

end Audit.Leaves

/-- What every interleaving keeps. -/
structure Departures.Kept (d : Departures) : Prop where
  engine : d.audit.server.engine.Reachable
  tracked : d.audit.Tracked
  leaves : ∀ id leaving, d.leaving id = some leaving → d.audit.Leaves id leaving

namespace Departures.Kept

variable {d : Departures}

/-- A session is put in another state that is not served, and the others stay as they are. -/
theorem put (h : d.Kept) {id : Nat} {session : Session} {leaving : Option Leaving}
    (hserving : session.serving = false) (hkeeps : session.finished = false →
      (d.audit.server.session id).finished = false ∧
      session.registrations = (d.audit.server.session id).registrations)
    (hleaves : ∀ l, leaving = some l →
      Audit.Leaves { d.audit with server := d.audit.server.putSession id session } id l) :
    Kept
      { audit := { d.audit with server := d.audit.server.putSession id session }
        leaving := Function.update d.leaving id leaving } := by
  refine ⟨h.engine, h.tracked.putSession hserving hkeeps, fun other l hl => ?_⟩
  dsimp only at hl
  rcases eq_or_ne other id with rfl | hne
  · rw [Function.update_self] at hl
    exact hleaves l hl
  · rw [Function.update_of_ne hne] at hl
    have hold := h.leaves other l hl
    exact hold.congr hold.mem (putSession_session_of_ne _ hne _) rfl (fun _ => Iff.rfl) rfl rfl
      hold.sound

theorem leave (h : d.Kept) {id : Nat} (henabled : d.Enabled (.leave id)) :
    (d.apply (.leave id)).Kept := by
  obtain ⟨hmem, hopen, -⟩ := henabled
  refine h.put rfl (fun _ => ⟨hopen, rfl⟩) fun l hl => ?_
  obtain rfl := Option.some.inj hl
  have hregistrations := h.tracked.registrations id hmem hopen
  refine ⟨hmem, ?_, ?_, fun r hr => ?_, fun hfence r hr => .inr ?_, ⟨nofun, List.forall_mem_nil _⟩⟩
  · rw [putSession_session]
    exact hopen
  · rw [putSession_session]
  · refine (hregistrations r).mp ?_
    dsimp only at hr
    split at hr
    · exact hr
    · cases hr
  · have hfence : d.audit.server.config.fenceOnDisconnect = true := hfence
    dsimp only
    rw [if_pos hfence]
    exact (hregistrations r).mpr hr

theorem readEpoch (h : d.Kept) {id : Nat} (henabled : d.Enabled (.readEpoch id)) :
    (d.apply (.readEpoch id)).Kept := by
  obtain ⟨leaving, hleaving, hreads⟩ := (Option.any_eq_true _ _).mp henabled
  refine ⟨h.engine, h.tracked, fun other l hl => ?_⟩
  unfold Departures.apply at hl ⊢
  dsimp only at hl ⊢
  rcases eq_or_ne other id with rfl | hne
  · rw [Function.update_self, hleaving] at hl
    obtain rfl := Option.some.inj hl
    have hold := h.leaves other leaving hleaving
    exact ⟨hold.mem, hold.finished, hold.serving, hold.pending, fun hfence r hr =>
      (hold.covered hfence r hr).imp_left (List.mem_append_left _), hold.sound.read hreads⟩
  · rw [Function.update_of_ne hne] at hl
    exact h.leaves other l hl

theorem fence (h : d.Kept) {id : Nat} (henabled : d.Enabled (.fence id)) :
    (d.apply (.fence id)).Kept := by
  obtain ⟨⟨pending, epoch, begun, again⟩, hleaving, hfences⟩ :=
    (Option.any_eq_true _ _).mp henabled
  cases pending with
  | nil => cases hfences
  | cons r rest =>
  cases epoch with
  | none => cases hfences
  | some epoch =>
  rw [apply_fence hleaving]
  have hsame := endRegistrationAs_same d.audit.server epoch r
  have hengine := endRegistrationAs_engine d.audit.server epoch r
  have hold := h.leaves id _ hleaving
  refine ⟨?_, h.tracked.same hsame, fun other l hl => ?_⟩
  · show (d.audit.server.endRegistrationAs epoch r).engine.Reachable
    rw [hengine]
    exact .step _ h.engine trivial
  dsimp only at hl
  rcases eq_or_ne other id with rfl | hne
  · rw [Function.update_self] at hl
    obtain rfl := Option.some.inj hl
    have hvalid := h.tracked.valid other r (hold.pending r List.mem_cons_self)
    have hsession := congrFun hsame.session other
    refine ⟨hsame.sessions ▸ hold.mem, ?_, ?_, fun r' hr => ?_, fun hfence r' hr => ?_, ?_⟩
    · exact (congrArg (·.finished) hsession).trans hold.finished
    · exact (congrArg (·.serving) hsession).trans hold.serving
    · exact hold.pending r' (List.mem_cons_of_mem _ hr)
    -- The registration whose turn it is has been fenced, and the others still wait.
    · rcases hold.covered (hsame.config ▸ hfence) r' hr with hbegun | hpending
      · exact .inl hbegun
      · rcases List.mem_cons.mp hpending with rfl | hrest
        · exact .inl (hold.sound.turn rfl _ _ rfl)
        · exact .inr hrest
    · dsimp only
      rw [hengine]
      exact hold.sound.fence hvalid
  · rw [Function.update_of_ne hne] at hl
    have hother := h.leaves other l hl
    refine hother.congr (hsame.sessions ▸ hother.mem) (congrFun hsame.session other) hsame.config
      (fun _ => Iff.rfl) rfl rfl ?_
    dsimp only
    rw [hengine, ← Leaving.Sound.note_none l]
    exact hother.sound.apply h.engine.dated (.invalidatePublisher _)

theorem finish (h : d.Kept) {id : Nat} :
    (d.apply (.finish id)).Kept :=
  h.put rfl nofun nofun

theorem apply (h : d.Kept) {act : Act} (henabled : d.Enabled act) : (d.apply act).Kept := by
  cases act with
  | act act =>
    refine ⟨apply_reachable h.engine act, h.tracked.apply henabled.1, fun id l hl => ?_⟩
    obtain ⟨leaving, hleaving, rfl⟩ := Option.map_eq_some_iff.mp hl
    exact (h.leaves id leaving hleaving).act h.tracked h.engine.dated henabled.1 henabled.2
  | leave id => exact h.leave henabled
  | readEpoch id => exact h.readEpoch henabled
  | fence id => exact h.fence henabled
  | finish id => exact h.finish

end Departures.Kept

theorem Departures.Reachable.kept {d : Departures} (h : d.Reachable) : d.Kept := by
  refine Runs.Run.invariant (fun d hstart => ?_) (fun _ _ hkept henabled => hkept.apply henabled) h
  obtain ⟨hstart, hnone⟩ := hstart
  refine ⟨hstart.server.engine, Audit.Reachable.tracked (.start hstart), fun id l hl => ?_⟩
  rw [hnone] at hl
  cases hl

/-- The step is one of `end_session` of the session. -/
def Departures.Act.Ends (id : Nat) : Departures.Act → Prop
  | .leave other | .readEpoch other | .fence other | .finish other => other = id
  | .act _ => False

/-- No step of a session that leaves changes an incarnation that the session has not registered. -/
theorem Departures.Kept.spares {d : Departures} (h : d.Kept) {id : Nat} {act : Departures.Act}
    (hends : act.Ends id) {publisher : PublisherId} {boot : WorkerBootId}
    (hnot : (id, publisher, boot) ∉ d.audit.registered) :
    SameIncarnation d.audit.server.engine (d.apply act).audit.server.engine publisher boot := by
  cases act with
  | act act => exact hends.elim
  | leave other => exact .refl ..
  | readEpoch other => exact .refl ..
  | finish other => exact .refl ..
  | fence other =>
    obtain rfl : other = id := hends
    rcases hleaving : d.leaving other with _ | ⟨_ | ⟨r, rest⟩, _ | epoch, begun, again⟩
    case fence.some.cons.some =>
      rw [apply_fence hleaving]
      dsimp only
      rw [endRegistrationAs_engine]
      refine closing_same h.engine.indexed h.engine.endorsed _ (fun heq => hnot ?_) epoch
      rw [heq]
      exact (h.leaves other _ hleaving).pending r List.mem_cons_self
    all_goals
      unfold Departures.apply
      dsimp only
      rw [hleaving]
      exact .refl ..

end CoordinatorServer

/-- When a session has ended, however its steps were mixed with those of others, none of the
incarnations that it has registered is active or keeps evidence, but for those that were registered
again once their turn in the loop had come. Its own steps leave every other incarnation as it is. -/
theorem disconnect_fences_own {d : Departures} (h : d.Reachable)
    (hfence : d.audit.server.config.fenceOnDisconnect = true) (id : Nat) (publisher : PublisherId)
    (boot : WorkerBootId) :
    (∀ leaving, d.leaving id = some leaving → leaving.ended = true →
      (id, publisher, boot) ∈ d.audit.registered → (publisher, boot) ∉ leaving.again →
      ¬ (d.apply (.finish id)).audit.server.engine.ActiveIncarnation publisher boot ∧
      ∀ link, (d.apply (.finish id)).audit.server.engine.evidenceOf publisher boot link = []) ∧
    ∀ act : Departures.Act, act.Ends id → (id, publisher, boot) ∉ d.audit.registered →
      SameIncarnation d.audit.server.engine (d.apply act).audit.server.engine publisher boot := by
  have hkept := Departures.Reachable.kept h
  refine ⟨fun leaving hleaving hover hregistered hagain => ?_, fun act hends hnot =>
    hkept.spares hends hnot⟩
  have hleaves := hkept.leaves id leaving hleaving
  have hnil : leaving.pending = [] := List.isEmpty_iff.mp hover
  -- The loop is over, so that its turn has come.
  have hbegun : (publisher, boot) ∈ leaving.begun :=
    (hleaves.covered hfence _ hregistered).resolve_right (by rw [hnil]; exact List.not_mem_nil)
  have hidle : ¬ d.audit.server.engine.ActiveIncarnation publisher boot := by
    rcases (hleaves.sound.ended _ hbegun).resolve_left hagain with hidle | ⟨rest, hpending, -⟩
    · exact hidle
    · cases hnil.symm.trans hpending
  exact ⟨hidle, hkept.engine.endorsed.evidenceOf hidle⟩

namespace Sample

/-- The session of the old worker ends after its successor has registered. -/
def departing : List Departures.Act := rivals.map .act ++ [.leave 0, .readEpoch 0]

def departed : Departures := departing.foldl Departures.apply { audit := started }

theorem departed_reachable : departed.Reachable :=
  Runs.Run.foldl (.start ⟨started_started, rfl⟩) (by decide +kernel)

/-- The worker of the small run under another boot. -/
def underBoot (boot : Text) : PublisherClient :=
  { client with config := { client.config with workerBoot := .fromValidated boot } }

/-- Another publisher of the worker. -/
def sibling : PublisherClient :=
  { client with config := { client.config with publisher := .fromValidated (lit "pub-2") } }

/-- A coordinator that remembers one fenced boot of a publisher. -/
def shortLived : Audit where
  server :=
    { config := {}
      engine :=
        [Op.bindLink ⟨binding⟩].foldl Impl.apply (.create { fenceRetentionPerPublisher := 1 }) }

theorem shortLived_started : shortLived.Started :=
  ⟨⟨by decide, Impl.Reachable.foldl (.start ⟨_, rfl⟩) _, rfl, fun _ => rfl, rfl⟩, rfl⟩

def registers (id : Nat) (client : PublisherClient) : Departures.Act :=
  .act (.frame id (frameOf (client.message .register)) true)

/-- Between the two fences of a session that leaves, another session registers the first incarnation
again, after two others of its publisher. -/
def recurring : List Departures.Act :=
  [.act .accept, registers 0 client, registers 0 sibling, .act .accept,
    .leave 0, .readEpoch 0, .fence 0,
    registers 1 (underBoot (lit "boot-2")), registers 1 (underBoot (lit "boot-3")),
    registers 1 client, .readEpoch 0, .fence 0]

def recurred : Departures := recurring.foldl Departures.apply { audit := shortLived }

theorem recurred_reachable : recurred.Reachable :=
  Runs.Run.foldl (.start ⟨shortLived_started, rfl⟩) (by decide +kernel)

end Sample

theorem disconnect_fences_own_sample :
    ¬ ((Sample.departed.apply (.fence 0)).apply (.finish 0)).audit.server.engine.ActiveIncarnation
        Sample.publisher Sample.boot ∧
      SameIncarnation Sample.departed.audit.server.engine
        (Sample.departed.apply (.fence 0)).audit.server.engine Sample.publisher
        Sample.successor.config.workerBoot := by
  have hfenced : (Sample.departed.apply (.fence 0)).Reachable :=
    Departures.Reachable.step Sample.departed_reachable (.fence 0) (by decide +kernel)
  have hover : (Sample.departed.apply (.fence 0)).leaving 0 =
      some { pending := [], begun := [(Sample.publisher, Sample.boot)] } := by decide +kernel
  exact ⟨((disconnect_fences_own hfenced (by decide +kernel) 0 _ _).1 _ hover rfl
      (by decide +kernel) List.not_mem_nil).1,
    (disconnect_fences_own Sample.departed_reachable (by decide +kernel) 0 _ _).2 (.fence 0) rfl
      (by decide +kernel)⟩

/-- A boot that is fenced leaves a registry of one boot before the loop is over, and is active when
the session has ended. -/
theorem disconnect_overtaken : ∃ d : Departures, d.Reachable ∧
    d.audit.server.config.fenceOnDisconnect = true ∧
    (0, Sample.publisher, Sample.boot) ∈ d.audit.registered ∧ d.Enabled (.finish 0) ∧
    (d.apply (.finish 0)).audit.server.engine.ActiveIncarnation Sample.publisher Sample.boot := by
  refine ⟨Sample.recurred, Sample.recurred_reachable, by decide +kernel, by decide +kernel,
    by decide +kernel, ?_⟩
  have hstatus : ((Sample.recurred.apply (.finish 0)).audit.server.engine.authorityOf
      Sample.publisher Sample.boot).map (·.status) = some .active := by decide +kernel
  obtain ⟨authority, hauthority, hactive⟩ := Option.map_eq_some_iff.mp hstatus
  exact ⟨authority, hauthority, hactive⟩

end LinkState
