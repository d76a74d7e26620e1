import LinkStateFabric.Protocol.Shutdown
import LinkStateFabric.Results.Disconnects

/-!
# Shutdowns

With `fenceOnShutdown` off, `stop` fences nothing itself. But it ends the sessions, and the end of a
session fences what the session has registered if `fenceOnDisconnect` is on. `stop_spares_iff`: the
shutdown leaves the incarnations of connected sessions alone exactly if that is off or there are
none.
-/

namespace LinkState

open CoordinatorServer

/-- A session that is connected has registered the incarnation, and this is active. -/
def CoordinatorServer.Connected (server : CoordinatorServer) (publisher : PublisherId)
    (boot : WorkerBootId) : Prop :=
  (∃ id, server.Serving id ∧ (publisher, boot) ∈ (server.session id).registrations) ∧
    server.engine.ActiveIncarnation publisher boot

/-- The incarnation, its evidence and the states of the links are as the requests alone leave
them. -/
structure CoordinatorServer.Stopping.Unharmed (s : Stopping) (publisher : PublisherId)
    (boot : WorkerBootId) : Prop where
  incarnation : SameIncarnation s.calm s.server.engine publisher boot
  states : ∀ link, (s.server.engine.linkState link).map (·.record.state) =
    (s.calm.linkState link).map (·.record.state)

/-- However `stop` and the threads interleave, the incarnations of the sessions that are connected
when it is called come out unharmed. -/
def CoordinatorServer.StopSpares (server : CoordinatorServer) : Prop :=
  ∀ s, Stopping.During server s → s.stage = .returned →
    ∀ publisher boot, server.Connected publisher boot → s.Unharmed publisher boot

/-! ## No session fences -/

/-- The engine is as the requests alone leave it, and no thread has anything to fence. -/
structure CoordinatorServer.Stopping.Undisturbed (server : CoordinatorServer) (s : Stopping) :
    Prop where
  config : s.server.config = server.config
  engine : s.server.engine = s.calm
  ending : ∀ id pending, s.ending id = some pending → pending = []

section Undisturbed

variable {server : CoordinatorServer} {s : Stopping}

theorem CoordinatorServer.Stopping.Undisturbed.apply (h : s.Undisturbed server)
    (hdisconnect : server.config.fenceOnDisconnect = false)
    (hshutdown : server.config.fenceOnShutdown = false) {act : Stopping.Act}
    (henabled : s.Enabled act) : (s.apply act).Undisturbed server := by
  rw [← h.config] at hdisconnect hshutdown
  cases act with
  | op op => exact ⟨h.config, congrArg (Impl.apply · op) h.engine, h.ending⟩
  | accept =>
    refine ⟨(apply_config s.server .accept).trans h.config, Eq.trans ?_ h.engine, h.ending⟩
    show s.server.accept.engine = s.server.engine
    unfold CoordinatorServer.accept
    dsimp only
    split <;> rfl
  | frame id frame sent =>
    have hhandled := receiveFrame_handled s.server id frame sent
    refine ⟨hhandled.config.trans h.config, ?_, h.ending⟩
    unfold Stopping.apply
    dsimp only
    cases hop : s.server.operationAt id frame with
    | none => exact (hhandled.idle hop).1.trans h.engine
    | some op =>
      obtain ⟨_, -, hengine, -⟩ := hhandled.performs op hop
      exact hengine.trans (congrArg (Impl.apply · op) h.engine)
  -- A session that leaves has nothing to fence.
  | leave id =>
    refine ⟨h.config, h.engine, fun other pending hpending => ?_⟩
    by_cases heq : other = id
    · subst heq
      unfold Stopping.apply at hpending
      dsimp only at hpending
      rw [Function.update_self, hdisconnect, if_neg Bool.false_ne_true] at hpending
      exact (Option.some.inj hpending).symm
    · exact h.ending other pending ((Function.update_of_ne heq ..).symm.trans hpending)
  | fence id =>
    obtain ⟨r, rest, hpending⟩ := henabled
    cases h.ending id _ hpending
  | finish id =>
    refine ⟨h.config, h.engine, fun other pending hpending => ?_⟩
    by_cases heq : other = id
    · subst heq
      cases (Function.update_self ..).symm.trans hpending
    · exact h.ending other pending ((Function.update_of_ne heq ..).symm.trans hpending)
  | joinAccept => exact ⟨h.config, h.engine, h.ending⟩
  | join =>
    obtain ⟨id, rest, hstage, -⟩ := henabled
    unfold Stopping.apply
    dsimp only
    rw [hstage]
    refine ⟨(Closes.shutdownSession s.server id).config.trans h.config, ?_, h.ending⟩
    rw [shutdownSession_engine, hshutdown, if_neg Bool.false_ne_true]
    exact h.engine
  | returns => exact ⟨h.config, h.engine, h.ending⟩

theorem CoordinatorServer.Stopping.During.undisturbed (h : Stopping.During server s)
    (hdisconnect : server.config.fenceOnDisconnect = false)
    (hshutdown : server.config.fenceOnShutdown = false) : s.Undisturbed server := by
  refine Runs.Run.invariant (fun s hs => ?_)
    (fun s act hs henabled => hs.apply hdisconnect hshutdown henabled) h
  subst hs
  exact ⟨rfl, rfl, nofun⟩

theorem CoordinatorServer.Stopping.Undisturbed.unharmed (h : s.Undisturbed server) (publisher : PublisherId)
    (boot : WorkerBootId) : s.Unharmed publisher boot := by
  have hengine := h.engine
  refine ⟨?_, fun link => by rw [hengine]⟩
  rw [hengine]
  exact .refl ..

end Undisturbed

/-! ## Every session fences -/

section Ends

variable {publisher : PublisherId} {boot : WorkerBootId}

/-- Ends of sessions make no incarnation active. -/
theorem joinSession_idle {server : CoordinatorServer} (h : server.engine.Reachable) (id : Nat)
    (hvalid : (server.session id).finished = false →
      ∀ r ∈ (server.session id).registrations, r.1.valid = true)
    (hidle : ¬ server.engine.ActiveIncarnation publisher boot) :
    ¬ (server.joinSession id).engine.ActiveIncarnation publisher boot := by
  unfold CoordinatorServer.joinSession
  split
  · exact hidle
  rename_i hopen
  rw [endSession_engine]
  split
  · obtain ⟨hends, hleaves⟩ := endIncarnations_spec h.indexed h.endorsed
      (lit "worker session ended") (hvalid (Bool.eq_false_iff.mpr hopen)) publisher boot
    by_cases hmem : (publisher, boot) ∈ (server.session id).registrations
    · exact hends hmem
    · rwa [(hleaves hmem).active]
  · exact hidle

/-- When sessions have ended, what they had registered is idle. -/
theorem foldl_joinSession_idle {server : CoordinatorServer} (h : server.engine.Reachable)
    (hfence : server.config.fenceOnDisconnect = true) {ids : List Nat}
    (hvalid : ∀ id ∈ ids, (server.session id).finished = false →
      ∀ r ∈ (server.session id).registrations, r.1.valid = true)
    (hends : ¬ server.engine.ActiveIncarnation publisher boot ∨
      ∃ id ∈ ids, (server.session id).finished = false ∧
        (publisher, boot) ∈ (server.session id).registrations) :
    ¬ (ids.foldl CoordinatorServer.joinSession server).engine.ActiveIncarnation publisher boot := by
  -- By induction on the sessions: joining one ends its incarnations, and revives none.
  induction ids generalizing server with
  | nil => exact hends.resolve_right fun ⟨_, hid, _⟩ => List.not_mem_nil hid
  | cons next ids ih =>
    have hnext := hvalid next List.mem_cons_self
    have hconfig := (Closes.joinSession server next).config
    refine ih ((joinSession_operates _ next).reachable h) (by rwa [hconfig]) (fun id hid hopen => ?_) ?_
    · have hne : id ≠ next := fun heq => by
        subst heq
        cases hopen.symm.trans (joinSession_finished server id)
      rw [joinSession_session_of_ne server hne] at hopen ⊢
      exact hvalid id (List.mem_cons_of_mem _ hid) hopen
    · obtain hidle | ⟨id, hid, hopen, hmem⟩ := hends
      · exact .inl (joinSession_idle h next hnext hidle)
      · by_cases heq : id = next
        · subst heq
          left
          unfold CoordinatorServer.joinSession
          rw [hopen, if_neg Bool.false_ne_true, endSession_engine, if_pos hfence]
          exact (endIncarnations_spec h.indexed h.endorsed _ (hnext hopen) publisher boot).1 hmem
        · refine .inr ⟨id, (List.mem_cons.mp hid).resolve_left heq, ?_⟩
          rw [joinSession_session_of_ne server heq]
          exact ⟨hopen, hmem⟩

theorem foldl_shutdownSession_engine (server : CoordinatorServer) (ids : List Nat)
    (hshutdown : server.config.fenceOnShutdown = false) :
    (ids.foldl CoordinatorServer.shutdownSession server).engine = server.engine := by
  induction ids generalizing server with
  | nil => rfl
  | cons id ids ih =>
    rw [List.foldl_cons, ih _ ((Closes.shutdownSession server id).config ▸ hshutdown),
      shutdownSession_engine, hshutdown, if_neg Bool.false_ne_true]

/-- `stop` fences the incarnations of connected sessions, whatever is done about shutdowns. -/
theorem stop_fences {audit : Audit} (h : audit.Reachable) (hrunning : audit.server.running = true)
    (hfence : audit.server.config.fenceOnDisconnect = true)
    (hshutdown : audit.server.config.fenceOnShutdown = false)
    (hconnected : audit.server.Connected publisher boot) :
    ¬ audit.server.stop.engine.ActiveIncarnation publisher boot := by
  obtain ⟨⟨id, ⟨hid, hserving⟩, hmem⟩, -⟩ := hconnected
  have hidle := foldl_joinSession_idle h.engine hfence
    (fun id hid hopen r hr => h.tracked.valid id r ((h.tracked.registrations id hid hopen r).mp hr))
    (.inr ⟨id, hid, h.tracked.serving id hserving, hmem⟩)
  have hconfig := (Closes.foldl Closes.joinSession audit.server.sessions audit.server).config
  have hstop : audit.server.stop.engine =
      (audit.server.sessions.foldl CoordinatorServer.joinSession audit.server).engine := by
    unfold stop
    rw [hrunning]
    exact foldl_shutdownSession_engine _ _ (by rwa [hconfig])
  rwa [hstop]

end Ends

/-- With `fenceOnShutdown` off, a shutdown spares the incarnations of the connected sessions exactly
if sessions that end are not fenced either, or none of these incarnations is active. -/
theorem stop_spares_iff {audit : Audit} (h : audit.Reachable)
    (hrunning : audit.server.running = true)
    (hshutdown : audit.server.config.fenceOnShutdown = false) :
    audit.server.StopSpares ↔ audit.server.config.fenceOnDisconnect = false ∨
      ∀ publisher boot, ¬ audit.server.Connected publisher boot := by
  constructor
  · intro hspares
    cases hfence : audit.server.config.fenceOnDisconnect with
    | false => exact .inl rfl
    | true =>
      refine .inr fun publisher boot hconnected => ?_
      have hunharmed := hspares _ (during_stop hrunning) rfl publisher boot hconnected
      exact stop_fences h hrunning hfence hshutdown hconnected
        (hunharmed.incarnation.active.mpr hconnected.2)
  · rintro (hdisconnect | hnone) s hs - publisher boot hconnected
    · exact (Stopping.During.undisturbed hs hdisconnect hshutdown).unharmed publisher boot
    · exact absurd hconnected (hnone publisher boot)

namespace Sample

/-- A worker connects, registers, and reports its link up. -/
def presence : List Act :=
  [.accept, .frame 0 (frameOf (client.message .register)) true,
    .frame 0 (frameOf (client.message (.publish publish))) true]

/-- The coordinator that the worker is connected to, with the flags as they are by default. -/
def present : Audit := presence.foldl Audit.apply started

theorem present_reachable : present.Reachable := started_reachable.foldl (by decide +kernel)

/-- A coordinator that leaves the ends of sessions alone. -/
def lenient : Audit :=
  { started with server := { started.server with config := { fenceOnDisconnect := false } } }

theorem lenient_reachable : lenient.Reachable :=
  .start ⟨⟨by decide, started_reachable.engine, rfl, fun _ => rfl, rfl⟩, rfl⟩

end Sample

theorem stop_spares_sample : (Sample.presence.foldl Audit.apply Sample.lenient).server.StopSpares :=
  (stop_spares_iff (Sample.lenient_reachable.foldl (by decide +kernel)) (by decide +kernel)
    (by decide +kernel)).mpr (.inl (by decide +kernel))

theorem Sample.present_connected :
    Sample.present.server.Connected Sample.publisher Sample.boot := by
  refine ⟨⟨0, by decide +kernel, by decide +kernel⟩, ?_⟩
  have hactive : (Sample.present.server.engine.authorityOf Sample.publisher Sample.boot).any
      (·.status = .active) = true := by decide +kernel
  obtain ⟨authority, hauthority, hstatus⟩ := (Option.any_eq_true _ _).mp hactive
  exact ⟨authority, hauthority, of_decide_eq_true hstatus⟩

/-- With the flags as they are by default, a shutdown fences the worker that is connected: its
evidence goes, and its link is not up any more. -/
theorem stop_harms :
    Sample.present.Reachable ∧ Sample.present.server.running = true ∧
      Sample.present.server.config.fenceOnShutdown = false ∧
      Sample.present.server.Connected Sample.publisher Sample.boot ∧
      Sample.present.server.stop.engine.evidenceOf Sample.publisher Sample.boot Sample.link = [] ∧
      ¬ Sample.present.server.StopSpares := by
  have hrunning : Sample.present.server.running = true := by decide +kernel
  refine ⟨Sample.present_reachable, hrunning, by decide +kernel, Sample.present_connected,
    by decide +kernel, fun hspares => ?_⟩
  have hstates := (hspares _ (during_stop hrunning) rfl _ _ Sample.present_connected).states
    Sample.link
  revert hstates
  decide +kernel

end LinkState
