import LinkStateFabric.Results.Calls
import LinkStateFabric.Results.Generations

/-!
# What clients read one after the other

* `Impl.Operates.forward`: the generations of an engine that is operated, as that of a coordinator is
  whatever happens (`Event.apply_operates`), go forward as long as no journal is loaded.
* `reads_monotone`: of two queries, the first of which has returned before the second is made, the
  second is told nothing older, whichever clients make them.
-/

namespace LinkState

open Calls CoordinatorServer PublisherClient

/-! ## Operated engines -/

/-- An engine that is operated goes forward if its global generation is not exhausted at the end. -/
theorem Impl.Operates.forward {impl impl' : Impl} (h : impl.Operates impl')
    (hglobal : impl'.globalGeneration.saturated = false) : impl.Forward impl' := by
  induction h with
  | refl => exact .refl impl
  | tail _ hstep ih =>
    obtain ⟨op, hload, rfl⟩ := hstep
    have hbefore := unsaturated_of_le (apply_steps _ hload).le.globalGeneration hglobal
    exact (ih hbefore).trans (.apply hload fun _ => hbefore)

/-- The event is a load of a journal. -/
def Event.loads : Event → Bool
  | .step (.op op) => op.isLoad
  | _ => false

/-- Whatever happens at a coordinator, its engine is operated. -/
theorem Event.apply_operates (server : CoordinatorServer) {event : Event}
    (h : event.loads = false) : server.engine.Operates (event.apply server).engine := by
  cases event with
  | reject id => exact .refl
  | step act =>
    refine CoordinatorServer.apply_operates server fun op heq => ?_
    subst heq
    exact h

/-! ## Queries -/

namespace Network

variable {network : Network}

theorem serverAt_operates {k k' : Nat} (hk : k ≤ k') (hloads : ∀ m, k ≤ m → m < k' →
      ∀ event ∈ network.log[m]?, event.loads = false) :
    (network.serverAt k).engine.Operates (network.serverAt k').engine := by
  induction k', hk using Nat.le_induction with
  | base => exact .refl
  | succ m hm ih =>
    have hbefore := ih fun j hj hjm => hloads j hj (hjm.trans (Nat.lt_succ_self m))
    cases hevent : network.log[m]? with
    | none =>
      have hsame : network.serverAt (m + 1) = network.serverAt m := by
        unfold serverAt
        rw [List.take_add_one, hevent, Option.toList_none, List.append_nil]
      rw [hsame]
      exact hbefore
    | some event =>
      rw [serverAt_succ hevent]
      exact hbefore.trans
        (Event.apply_operates _ (hloads m hm (Nat.lt_succ_self m) event hevent))

end Network

theorem Reads.of_view {engine : Impl} {link : LinkId} {told : Transaction} (h : Reads engine link told)
    {view : LinkStateView} (hview : told.view = some view) :
    ∃ entry, engine.entryOf link = some entry ∧ Tells link (makeView entry) view := by
  unfold Reads at h
  cases hentry : engine.entryOf link with
  | none =>
    rw [Impl.linkState, hentry] at h
    rw [h.1] at hview
    cases hview
  | some entry =>
    rw [Impl.linkState, hentry] at h
    obtain ⟨-, summary, hsummary, htells⟩ := h
    rw [hview] at hsummary
    cases hsummary
    exact ⟨entry, rfl, htells⟩

theorem Reads.of_entry {engine : Impl} {link : LinkId} {told : Transaction}
    (h : Reads engine link told) {entry : LinkEntry} (hentry : engine.entryOf link = some entry) :
    ∃ view, told.view = some view ∧ Tells link (makeView entry) view := by
  unfold Reads at h
  rw [Impl.linkState, hentry] at h
  exact h.2

/-- A query that is made after another one has returned is told nothing older of a link, whoever
makes them and whatever happens meanwhile, as long as no journal is loaded and the global generation
is not exhausted. It is told of another state only with another generation. -/
theorem reads_monotone {network : Network} (h : network.Reachable) {id id' : Nat}
    {call call' : Call Frame} (hcall : call ∈ (network.conn id).calls)
    (hcall' : call' ∈ (network.conn id').calls) {link : LinkId} {requestId requestId' : U64}
    (hrequest : call.request = requestFrame (queryMessage link) requestId)
    (hrequest' : call'.request = requestFrame (queryMessage link) requestId')
    {frame frame' : Frame} {t t' : Nat} (hended : call.ended = some (.replied frame, t))
    (hended' : call'.ended = some (.replied frame', t')) (hbefore : t ≤ call'.begun)
    (hloads : ∀ m, call.begun ≤ m → m < t' → ∀ event ∈ network.log[m]?, event.loads = false)
    (hglobal : (network.serverAt t').engine.globalGeneration.saturated = false)
    {view : LinkStateView}
    (hview : (accepted (queryMessage link) requestId .queryResult frame).view = some view)
    {response' : Message}
    (haccepted' : (accepted (queryMessage link) requestId' .queryResult frame').response =
      some response') :
    ∃ view', (accepted (queryMessage link) requestId' .queryResult frame').view = some view' ∧
      view.record.stateGeneration ≤ view'.record.stateGeneration ∧
      view.record.evidenceGeneration ≤ view'.record.evidenceGeneration ∧
      view.record.binding.topologyGeneration ≤ view'.record.binding.topologyGeneration ∧
      (view'.record.stateGeneration = view.record.stateGeneration →
        view'.record.state = view.record.state) := by
  obtain ⟨response, haccepted⟩ : ∃ response,
      (accepted (queryMessage link) requestId .queryResult frame).response = some response := by
    obtain ⟨response, hresponse, -⟩ := Option.bind_eq_some_iff.mp hview
    exact ⟨response, hresponse⟩
  obtain ⟨k, hk, hbegun, -, hreads⟩ := h.query hcall hrequest hended haccepted
  obtain ⟨k', hk', hbegun', -, hreads'⟩ := h.query hcall' hrequest' hended' haccepted'
  -- The moment of the first query comes before that of the second.
  have hkk : k ≤ k' := by omega
  have hlast := Network.serverAt_operates hk'.le fun m hm hmt =>
    hloads m (hbegun.trans (hkk.trans hm)) hmt
  have hmiddle := Network.serverAt_operates hkk fun m hm hmt =>
    hloads m (hbegun.trans hm) (hmt.trans hk')
  have hforward := hmiddle.forward
    (unsaturated_of_le (hlast.forward hglobal).globalGeneration hglobal)
  obtain ⟨entry, hentry, htells⟩ := hreads.of_view hview
  obtain ⟨entry', hentry', hlink⟩ := hforward.entries link entry hentry
  obtain ⟨view', hview', htells'⟩ := hreads'.of_entry hentry'
  have hstate : view.record.stateGeneration = entry.record.stateGeneration := htells.stateGeneration
  have hstate' : view'.record.stateGeneration = entry'.record.stateGeneration :=
    htells'.stateGeneration
  refine ⟨view', hview', ?_, ?_, ?_, fun heq => ?_⟩
  · rw [hstate, hstate']
    exact hlink.stateGeneration
  · rw [htells.evidenceGeneration, htells'.evidenceGeneration]
    exact hlink.evidenceGeneration
  · rw [htells.topologyGeneration, htells'.topologyGeneration]
    exact hlink.topologyGeneration
  · rw [hstate, hstate'] at heq
    rw [htells.state, htells'.state]
    exact hlink.state heq

namespace Network

variable {network after : Network} {id other : Nat} {request reply : Frame}

theorem Completed.server_eq (h : network.Completed id request reply after)
    (hfirst : after.first = network.first) :
    after.server = network.server.receiveFrame id request true := by
  unfold server
  rw [h.log, hfirst, List.foldl_append]
  rfl

/-- What the coordinator does of its own leaves the connections as they are. -/
theorem conn_act (act : CoordinatorServer.Act) : (network.apply (.act act)).conn = network.conn := rfl

/-- A call leaves the other sessions as they are. -/
theorem Completed.serving (h : network.Completed id request reply after)
    (hfirst : after.first = network.first) (hother : other ≠ id)
    (hserving : network.server.Serving other) : after.server.Serving other := by
  have hhandled := receiveFrame_handled network.server id request true
  rw [h.server_eq hfirst]
  refine ⟨hhandled.sessions.symm ▸ hserving.1, ?_⟩
  rw [hhandled.others other hother]
  exact hserving.2

end Network

namespace Sample

/-- The network with a second session. -/
def paired : Network := Network.apply network (.act .accept)

theorem paired_reachable : paired.Reachable := by
  refine .step _ network_reachable ⟨rfl, ?_⟩
  intro id move heq
  cases heq

/-- The query of the link, as a frame. -/
def query : Frame := requestFrame (queryMessage link) 1

/-- The first client queries the link, -/
def queried : Network :=
  (Network.wholeCall 0 query (paired.server.replyTo 0 query)).foldl Network.apply paired

/-- it goes down, -/
def downed : Network := queried.apply (.act (.op (observe .down 2)))

/-- and then the second one queries it. -/
def requeried : Network :=
  (Network.wholeCall 1 query (downed.server.replyTo 1 query)).foldl Network.apply downed

theorem queried_completed : paired.Reachable ∧ queried.Reachable ∧
    paired.Completed 0 query (paired.server.replyTo 0 query) queried := by
  have hidle : ¬ (paired.conn 0).Outstanding := by
    rintro ⟨call, rest, heq, -⟩
    cases heq
  obtain ⟨hadmissible, hcompleted⟩ := Network.complete paired_reachable (by decide) rfl hidle
    (show query.payload.length ≤ _ by decide) (length_replyTo _ _ queryMessage_valid trivial 1)
  exact ⟨paired_reachable, paired_reachable.foldl hadmissible, hcompleted⟩

theorem downed_server :
    downed.server = (paired.server.receiveFrame 0 query true).apply (.op (observe .down 2)) := by
  obtain ⟨-, -, hcompleted⟩ := queried_completed
  have hserver : downed.server = queried.server.apply (.op (observe .down 2)) :=
    Network.server_apply
  rw [hserver, hcompleted.server_eq rfl]

theorem requeried_completed : requeried.Reachable ∧
    downed.Completed 1 query (downed.server.replyTo 1 query) requeried := by
  obtain ⟨-, hreachable, hcompleted⟩ := queried_completed
  have hdowned : downed.Reachable := by
    refine .step _ hreachable ⟨trivial, ?_⟩
    intro id move heq
    cases heq
  have hconn : downed.conn 1 = paired.conn 1 := by
    rw [downed, Network.conn_act]
    exact hcompleted.others 1 (by decide)
  have hidle : ¬ (downed.conn 1).Outstanding := by
    rw [hconn]
    rintro ⟨call, rest, heq, -⟩
    cases heq
  have hserving : downed.server.Serving 1 := by
    have hop {server : CoordinatorServer} {op : Op} (h : server.Serving 1) :
        (server.apply (.op op)).Serving 1 := h
    rw [downed_server, ← hcompleted.server_eq rfl]
    exact hop (hcompleted.serving rfl (by decide) (by decide))
  obtain ⟨hadmissible, hcompleted'⟩ := Network.complete hdowned hserving (by rw [hconn]; rfl) hidle
    (show query.payload.length ≤ _ by decide) (length_replyTo _ _ queryMessage_valid trivial 1)
  exact ⟨hdowned.foldl hadmissible, hcompleted'⟩

end Sample

/-- The first client is told that the link is up, and the second one that it is down, with a newer
generation. -/
theorem reads_monotone_sample : ∃ view view',
    (accepted (queryMessage Sample.link) 1 .queryResult
      (Sample.paired.server.replyTo 0 Sample.query)).view = some view ∧
    (accepted (queryMessage Sample.link) 1 .queryResult
      (Sample.downed.server.replyTo 1 Sample.query)).view = some view' ∧
    view.record.state = .up ∧ view'.record.state = .down ∧
    view.record.stateGeneration < view'.record.stateGeneration := by
  obtain ⟨-, -, hfirst⟩ := Sample.queried_completed
  obtain ⟨hreachable, hsecond⟩ := Sample.requeried_completed
  have hcall := hfirst.call
  rw [← Network.conn_act (.op (Sample.observe .down 2))] at hcall
  have hcall := (congrArg Conn.calls (hsecond.others 0 (by decide))).trans hcall
  have hcall' := hsecond.call
  have hbetween : Sample.downed.log =
      Sample.queried.log ++ [.step (.op (Sample.observe .down 2))] := rfl
  have hlog : Sample.requeried.log = [.step .accept, .step .accept,
      .step (.frame 0 Sample.query true), .step (.op (Sample.observe .down 2)),
      .step (.frame 1 Sample.query true)] := by
    rw [hsecond.log, hbetween, hfirst.log]
    rfl
  have hlength : Sample.downed.log.length = 4 := by
    rw [hbetween, hfirst.log]
    rfl
  -- Nothing is loaded between the two moments.
  have hloads : ∀ m, 2 ≤ m → m < 5 → ∀ event ∈ Sample.requeried.log[m]?, event.loads = false := by
    intro m hm hm' event hevent
    rw [hlog] at hevent
    obtain rfl | rfl | rfl : m = 2 ∨ m = 3 ∨ m = 4 := by omega
    all_goals
      cases hevent
      rfl
  have hglobal : (Sample.requeried.serverAt
      (Sample.downed.log.length + 1)).engine.globalGeneration.saturated = false := by
    rw [hlength]
    unfold Network.serverAt
    rw [hlog]
    decide +kernel
  have haccepted : (accepted (queryMessage Sample.link) 1 .queryResult
      (Sample.paired.server.replyTo 0 Sample.query)).response = some _ :=
    accepted_replyTo _ _ Sample.queryMessage_valid trivial 1 rfl
  have haccepted' : (accepted (queryMessage Sample.link) 1 .queryResult
      (Sample.downed.server.replyTo 1 Sample.query)).response = some _ :=
    accepted_replyTo _ _ Sample.queryMessage_valid trivial 1 rfl
  have hup : ((accepted (queryMessage Sample.link) 1 .queryResult
      (Sample.paired.server.replyTo 0 Sample.query)).view).map (·.record.state) = some .up := by
    obtain ⟨-, htype, -, heq⟩ := of_accepted haccepted
    rw [heq, htype]
    decide +kernel
  have hdown : ((accepted (queryMessage Sample.link) 1 .queryResult
      (Sample.downed.server.replyTo 1 Sample.query)).view).map (·.record.state) = some .down := by
    obtain ⟨-, htype, -, heq⟩ := of_accepted haccepted'
    rw [heq, htype, Sample.downed_server]
    decide +kernel
  obtain ⟨view, hview, hstate⟩ := Option.map_eq_some_iff.mp hup
  obtain ⟨view', hview', hle, -, -, hsame⟩ := reads_monotone hreachable
    (hcall.symm ▸ List.mem_cons_self) (hcall'.symm ▸ List.mem_cons_self) rfl rfl rfl rfl
    (by rw [hlength]; decide) (by rw [hlength]; exact hloads) hglobal hview haccepted'
  rw [hview', Option.map_some, Option.some_inj] at hdown
  refine ⟨view, view', hview, hview', hstate, hdown, lt_of_le_of_ne hle fun heq => ?_⟩
  have hchanged := hsame heq.symm
  rw [hstate, hdown] at hchanged
  cases hchanged

end LinkState
