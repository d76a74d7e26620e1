import LinkStateFabric.Results.Checkpoints

/-!
# Sessions that save at the same time

The coordinator carries out a request, encodes the engine, and replaces the journal: three steps,
between which other sessions make theirs.

* `Saving`: a coordinator with what each session has still to save. Its versions are the engines so
  far, by which it is said how old a journal is. `saving_sequence`: the steps of one session with
  nothing between them are what `receiveFrame` makes of the request.
* `Saving.InOrder`: no session replaces the journal by an older one. In runs of which that is true
  nothing is lost (`checkpoints_durable`).
-/

namespace LinkState

open CoordinatorServer

/-! ## Generations of journals -/

/-- The global generation that a journal has in its header. -/
def generationOf (bytes : Bytes) : Option GlobalGeneration :=
  match decodeHeader (bytes.take journalHeaderBytes) with
  | .ok (header, _) => some header.globalGeneration
  | .error _ => none

theorem generationOf_encode (impl : Impl) (config : PersistenceConfig) :
    generationOf (impl.encode config).1 = some impl.globalGeneration := by
  have hread := (reads_decodeHeader_cut (headerOf (historyFlag config.includeHistory)
    ((impl.buildPayload config.includeHistory).kept config.includeHistory)
    (bodyOf ((impl.buildPayload config.includeHistory).kept config.includeHistory)).length)).accept
    trivial []
  rw [List.append_nil] at hread
  unfold generationOf Impl.encode
  rw [encodeJournal_eq, take_journalOf, hread]
  rfl

/-! ## The steps of sessions -/

/-- What a session has still to do for the reply to its request: to encode the engine, or to replace
the journal by what it has encoded. `version` is the engine that the request has made, and `encoded`
the one that was encoded. -/
inductive SaveStage
  | encode (version : Nat)
  | write (version encoded : Nat) (bytes : Bytes)

/-- A coordinator while its sessions save. -/
structure Saving where
  config : CoordinatorConfig
  engine : Impl
  journal : Option Bytes
  stage : Nat → Option SaveStage := fun _ => none
  /-- The engines so far, of which the last is `engine`. -/
  versions : List Impl
  /-- The version on disk, once a session has written one. -/
  written : Option Nat := none
  /-- The versions whose requests were replied to after they had been saved. -/
  replied : List Nat := []

namespace Saving

/-- The coordinator has an engine and a journal, and no session has anything to save. -/
def of (config : CoordinatorConfig) (engine : Impl) (journal : Option Bytes) : Saving :=
  { config, engine, journal, versions := [engine] }

/-- A step of a session. -/
inductive Act
  | mutate (id : Nat) (op : Op)
  | encode (id : Nat)
  | write (id : Nat)

/-- `checkpoint` saves after the operation. -/
def saves (s : Saving) (op : Op) : Bool :=
  !s.config.journalPath.isEmpty &&
    (s.engine.outcome op).any fun outcome =>
      outcome.isCommitted || outcome.code = .evidenceConflict

/-- When a step can be made. A session makes a request when it has saved the last. -/
def Enabled (s : Saving) : Act → Prop
  | .mutate id op => op.isRequest = true ∧ s.stage id = none
  | .encode id => ∃ version, s.stage id = some (.encode version)
  | .write id => ∃ version encoded bytes, s.stage id = some (.write version encoded bytes)

/-- The effect of a step. -/
def apply (s : Saving) : Act → Saving
  | .mutate id op =>
    { s with
      engine := s.engine.apply op
      versions := s.versions ++ [s.engine.apply op]
      stage :=
        if s.saves op then Function.update s.stage id (some (.encode s.versions.length))
        else s.stage }
  | .encode id => match s.stage id with
    | some (.encode version) =>
      let encoding := (s.engine.encode s.config.persistence).1
      { s with
        stage := Function.update s.stage id
          (some (.write version (s.versions.length - 1) encoding)) }
    | _ => s
  | .write id => match s.stage id with
    | some (.write version encoded bytes) =>
      { s with
        journal := (writeJournalFile s.config.persistence {} s.journal bytes).2
        stage := Function.update s.stage id none
        written := some encoded
        replied := version :: s.replied }
    | _ => s

/-- The journal on disk, if there is one, is not ahead of the engine. -/
structure Started (s : Saving) : Prop where
  config : s.config.Valid
  fresh : s = of s.config s.engine s.journal
  behind : ∀ bytes ∈ s.journal, ∀ g ∈ generationOf bytes, g ≤ s.engine.globalGeneration

/-- A session that replaces the journal has not encoded an older version than the one on disk. -/
def InOrder (s : Saving) : Act → Prop
  | .write id => ∀ version encoded bytes, s.stage id = some (.write version encoded bytes) →
      ∀ w ∈ s.written, w ≤ encoded
  | _ => True

/-- The coordinators that runs reach in which every step satisfies a condition. -/
abbrev Reached (ok : Saving → Act → Prop) : Saving → Prop :=
  Runs.Run Started apply fun s act => s.Enabled act ∧ ok s act

/-! ## What is claimed of them -/

/-- The journal reflects every request that was saved and replied to: it is that of an engine which
the request or one after it has made. -/
def Durable (s : Saving) : Prop :=
  ∀ version ∈ s.replied, ∃ w impl, version ≤ w ∧ s.versions[w]? = some impl ∧
    s.journal = some (impl.encode s.config.persistence).1

/-- The step does not replace the journal by one with a lower global generation. -/
def KeepsGeneration (s : Saving) (act : Act) : Prop :=
  ∀ bytes ∈ s.journal, ∀ g ∈ generationOf bytes,
    ∃ bytes' ∈ (s.apply act).journal, ∃ g' ∈ generationOf bytes', g ≤ g'

end Saving

/-! ## One session -/

namespace Saving

section Steps

variable {s : Saving} {id version encoded : Nat} {bytes : Bytes}

theorem apply_encode (h : s.stage id = some (.encode version)) : s.apply (.encode id) =
    { s with
      stage := Function.update s.stage id (some (.write version (s.versions.length - 1)
        (s.engine.encode s.config.persistence).1)) } := by
  unfold apply
  dsimp only
  rw [h]

theorem apply_write (h : s.stage id = some (.write version encoded bytes)) : s.apply (.write id) =
    { s with
      journal := (writeJournalFile s.config.persistence {} s.journal bytes).2
      stage := Function.update s.stage id none
      written := some encoded
      replied := version :: s.replied } := by
  unfold apply
  dsimp only
  rw [h]

/-- The coordinator saves to a journal that it may have. -/
theorem persistence_of_saves {op : Op} (hvalid : s.config.Valid) (hsaves : s.saves op = true) :
    s.config.persistence.Valid := by
  unfold saves at hsaves
  simp only [Bool.and_eq_true, Bool.not_eq_true'] at hsaves
  exact hvalid.persistence hsaves.1

end Steps

end Saving

/-- A session that nothing comes between does what `receiveFrame` does of the request. -/
theorem saving_sequence {server : CoordinatorServer} (hvalid : server.config.Valid)
    (hwrites : server.disk.writes = []) {id : Nat} {frame : Frame} {op : Op}
    (hop : server.operationAt id frame = some op) (sent : Bool) :
    let s := [Saving.Act.mutate id op, .encode id, .write id].foldl Saving.apply
      (.of server.config server.engine server.disk.journal)
    s.engine = (server.receiveFrame id frame sent).engine ∧
      s.journal = (server.receiveFrame id frame sent).disk.journal := by
  obtain ⟨outcome, houtcome, hengine, hdisk⟩ :=
    (receiveFrame_handled server id frame sent).performs op hop
  rw [checkpoint_disk] at hdisk
  dsimp only at hdisk
  simp only [List.foldl_cons, List.foldl_nil]
  rw [hengine, hdisk]
  generalize hstart : Saving.of server.config server.engine server.disk.journal = start
  have hconfig : start.config = server.config := by rw [← hstart]; rfl
  -- The checkpoint after a request is the one that this session owes.
  have hsaves : start.saves op = (!server.config.journalPath.isEmpty &&
      (outcome.isCommitted || outcome.code = .evidenceConflict)) := by
    rw [← hstart]
    show (_ && (server.engine.outcome op).any _) = _
    rw [houtcome]
    rfl
  have hskips : (server.config.journalPath.isEmpty ||
      (!outcome.isCommitted && outcome.code ≠ .evidenceConflict)) = !start.saves op := by
    rw [hsaves]
    cases server.config.journalPath.isEmpty <;> cases outcome.isCommitted <;> simp
  rw [hskips]
  cases hsaved : start.saves op with
  | false =>
    have hidle : (start.apply (.mutate id op)).stage id = none := by
      unfold Saving.apply
      dsimp only
      rw [hsaved, ← hstart]
      rfl
    have hstays : (start.apply (.mutate id op)).apply (.encode id) = start.apply (.mutate id op) ∧
        (start.apply (.mutate id op)).apply (.write id) = start.apply (.mutate id op) := by
      generalize start.apply (.mutate id op) = idle at hidle
      unfold Saving.apply
      dsimp only
      rw [hidle]
      exact ⟨rfl, rfl⟩
    rw [hstays.1, hstays.2, ← hstart]
    exact ⟨rfl, rfl⟩
  | true =>
    have hstage : (start.apply (.mutate id op)).stage id = some (.encode start.versions.length) := by
      unfold Saving.apply
      dsimp only
      rw [hsaved, if_pos rfl, Function.update_self]
    have hvalid' := Saving.persistence_of_saves (hconfig ▸ hvalid) hsaved
    rw [Saving.apply_encode hstage, Saving.apply_write (Function.update_self ..),
      Disk.save_eq hwrites (hconfig ▸ hvalid')]
    refine ⟨by rw [← hstart]; rfl, (congrArg Prod.snd (writeJournalFile_default hvalid' _ _)).trans ?_⟩
    rw [← hstart]
    rfl

/-! ## Sessions in order -/

namespace Saving

/-- The versions grow older towards the front, a session writes a version that contains its request,
and the journal is the last version that was written. -/
structure Ordered (s : Saving) : Prop where
  config : s.config.Valid
  current : s.versions[s.versions.length - 1]? = some s.engine
  newest : ∀ impl ∈ s.versions, impl.globalGeneration ≤ s.engine.globalGeneration
  grows : s.versions.Pairwise fun a b => a.globalGeneration ≤ b.globalGeneration
  encode : ∀ id version, s.stage id = some (.encode version) →
    s.config.persistence.Valid ∧ version < s.versions.length
  write : ∀ id version encoded bytes, s.stage id = some (.write version encoded bytes) →
    s.config.persistence.Valid ∧ version ≤ encoded ∧
      ∃ impl, s.versions[encoded]? = some impl ∧ bytes = (impl.encode s.config.persistence).1
  unwritten : s.written = none → s.replied = [] ∧ ∀ bytes ∈ s.journal, ∀ g ∈ generationOf bytes,
    ∀ impl ∈ s.versions, g ≤ impl.globalGeneration
  onDisk : ∀ w ∈ s.written, (∀ version ∈ s.replied, version ≤ w) ∧ ∃ impl,
    s.versions[w]? = some impl ∧ s.journal = some (impl.encode s.config.persistence).1

namespace Ordered

variable {s : Saving}

theorem generation_le (h : s.Ordered) {i j : Nat} {a b : Impl} (hij : i ≤ j)
    (ha : s.versions[i]? = some a) (hb : s.versions[j]? = some b) :
    a.globalGeneration ≤ b.globalGeneration := by
  obtain ⟨hi, rfl⟩ := List.getElem?_eq_some_iff.mp ha
  obtain ⟨hj, rfl⟩ := List.getElem?_eq_some_iff.mp hb
  rcases hij.lt_or_eq with hlt | rfl
  · exact List.pairwise_iff_getElem.mp h.grows i j hi hj hlt
  · exact le_rfl

theorem started (h : s.Started) : s.Ordered := by
  obtain ⟨hvalid, hfresh, hbehind⟩ := h
  rw [hfresh]
  refine ⟨hvalid, rfl, fun impl himpl => ?_, List.pairwise_singleton .., nofun, nofun,
    fun _ => ⟨rfl, fun bytes hbytes g hg impl himpl => ?_⟩, nofun⟩
  · rw [List.mem_singleton.mp himpl]
    exact le_rfl
  · rw [List.mem_singleton.mp himpl]
    exact hbehind bytes hbytes g hg

theorem mutate (h : s.Ordered) {id : Nat} {op : Op} (hop : op.isRequest = true) :
    (s.apply (.mutate id op)).Ordered := by
  have hraises : s.engine.globalGeneration ≤ (s.engine.apply op).globalGeneration :=
    (apply_moves s.engine (isLoad_of_isRequest hop)).le.globalGeneration
  have hkept {i : Nat} {impl : Impl} (himpl : s.versions[i]? = some impl) :
      (s.versions ++ [s.engine.apply op])[i]? = some impl := by
    rw [List.getElem?_append_left (List.getElem?_eq_some_iff.mp himpl).1, himpl]
  have hnewest : ∀ impl ∈ s.versions, impl.globalGeneration ≤
      (s.engine.apply op).globalGeneration := fun impl himpl => (h.newest impl himpl).trans hraises
  -- The session owes a version now, and the others are where they were.
  have hstage {other : Nat} {stage : SaveStage}
      (hstage : (s.apply (.mutate id op)).stage other = some stage) : s.stage other = some stage ∨
        stage = .encode s.versions.length ∧ s.config.persistence.Valid := by
    unfold Saving.apply at hstage
    dsimp only at hstage
    split at hstage
    · rename_i hsaves
      by_cases heq : other = id
      · subst heq
        rw [Function.update_self] at hstage
        exact .inr ⟨(Option.some.inj hstage).symm, persistence_of_saves h.config hsaves⟩
      · exact .inl ((Function.update_of_ne heq ..).symm.trans hstage)
    · exact .inl hstage
  have hlength : (s.apply (.mutate id op)).versions.length = s.versions.length + 1 :=
    List.length_append
  refine ⟨h.config, ?_, fun impl himpl => ?_, ?_, fun other version hother => ?_,
    fun other version encoded bytes hother => ?_, fun hnone => ?_, fun w hw => ?_⟩
  · rw [hlength]
    exact List.getElem?_concat_length
  · rcases List.mem_append.mp himpl with himpl | himpl
    · exact hnewest impl himpl
    · rw [List.mem_singleton.mp himpl]
      exact le_rfl
  · refine List.pairwise_append.mpr ⟨h.grows, List.pairwise_singleton .., fun a ha b hb => ?_⟩
    rw [List.mem_singleton.mp hb]
    exact hnewest a ha
  · rw [hlength]
    rcases hstage hother with hold | ⟨heq, hvalid⟩
    · obtain ⟨hvalid, hlt⟩ := h.encode other version hold
      exact ⟨hvalid, hlt.trans (Nat.lt_succ_self _)⟩
    · cases heq
      exact ⟨hvalid, Nat.lt_succ_self _⟩
  · rcases hstage hother with hold | ⟨heq, -⟩
    · obtain ⟨hvalid, hle, impl, himpl, hbytes⟩ := h.write other version encoded bytes hold
      exact ⟨hvalid, hle, impl, hkept himpl, hbytes⟩
    · cases heq
  · obtain ⟨hreplied, hbehind⟩ := h.unwritten hnone
    refine ⟨hreplied, fun bytes hbytes g hg impl himpl => ?_⟩
    rcases List.mem_append.mp himpl with himpl | himpl
    · exact hbehind bytes hbytes g hg impl himpl
    · rw [List.mem_singleton.mp himpl]
      exact (hbehind bytes hbytes g hg s.engine (List.mem_of_getElem? h.current)).trans hraises
  · obtain ⟨hreplied, impl, himpl, hjournal⟩ := h.onDisk w hw
    exact ⟨hreplied, impl, hkept himpl, hjournal⟩

theorem encodes (h : s.Ordered) {id version : Nat}
    (hstage : s.stage id = some (.encode version)) : (s.apply (.encode id)).Ordered := by
  obtain ⟨hvalid, hlt⟩ := h.encode id version hstage
  rw [apply_encode hstage]
  refine ⟨h.config, h.current, h.newest, h.grows, fun other v hother => ?_,
    fun other v encoded bytes hother => ?_, h.unwritten, h.onDisk⟩
  · by_cases heq : other = id
    · subst heq
      cases (Function.update_self ..).symm.trans hother
    · exact h.encode other v ((Function.update_of_ne heq ..).symm.trans hother)
  · by_cases heq : other = id
    · subst heq
      cases (Function.update_self ..).symm.trans hother
      exact ⟨hvalid, Nat.le_sub_one_of_lt hlt, s.engine, h.current, rfl⟩
    · exact h.write other v encoded bytes ((Function.update_of_ne heq ..).symm.trans hother)

theorem writes (h : s.Ordered) {id version encoded : Nat} {bytes : Bytes}
    (hstage : s.stage id = some (.write version encoded bytes))
    (horder : ∀ w ∈ s.written, w ≤ encoded) : (s.apply (.write id)).Ordered := by
  obtain ⟨hvalid, hle, impl, himpl, hbytes⟩ := h.write id version encoded bytes hstage
  have hothers {other : Nat} {stage : SaveStage}
      (hother : Function.update s.stage id none other = some stage) : s.stage other = some stage := by
    by_cases heq : other = id
    · subst heq
      cases (Function.update_self ..).symm.trans hother
    · exact (Function.update_of_ne heq ..).symm.trans hother
  rw [apply_write hstage]
  refine ⟨h.config, h.current, h.newest, h.grows, fun other v hother => h.encode other v (hothers hother),
    fun other v e bs hother => h.write other v e bs (hothers hother), nofun, fun w hw => ?_⟩
  cases hw
  refine ⟨fun v hv => ?_, impl, himpl,
    (congrArg Prod.snd (writeJournalFile_default hvalid _ _)).trans (congrArg some hbytes)⟩
  rcases List.mem_cons.mp hv with rfl | hv
  · exact hle
  · cases hwritten : s.written with
    | none =>
      rw [(h.unwritten hwritten).1] at hv
      cases hv
    | some w' => exact ((h.onDisk w' hwritten).1 v hv).trans (horder w' hwritten)

theorem apply (h : s.Ordered) {act : Act} (henabled : s.Enabled act) (horder : s.InOrder act) :
    (s.apply act).Ordered := by
  cases act with
  | mutate id op => exact h.mutate henabled.1
  | encode id =>
    obtain ⟨version, hstage⟩ := henabled
    exact h.encodes hstage
  | write id =>
    obtain ⟨version, encoded, bytes, hstage⟩ := henabled
    exact h.writes hstage (horder version encoded bytes hstage)

theorem durable (h : s.Ordered) : s.Durable := by
  intro version hversion
  cases hwritten : s.written with
  | none =>
    rw [(h.unwritten hwritten).1] at hversion
    cases hversion
  | some w =>
    obtain ⟨hreplied, impl, himpl, hjournal⟩ := h.onDisk w hwritten
    exact ⟨w, impl, hreplied version hversion, himpl, hjournal⟩

theorem keepsGeneration (h : s.Ordered) {act : Act} (henabled : s.Enabled act)
    (horder : s.InOrder act) : s.KeepsGeneration act := by
  intro bytes hbytes g hg
  cases act with
  | mutate id op => exact ⟨bytes, hbytes, g, hg, le_rfl⟩
  | encode id =>
    obtain ⟨version, hstage⟩ := henabled
    rw [apply_encode hstage]
    exact ⟨bytes, hbytes, g, hg, le_rfl⟩
  | write id =>
    obtain ⟨version, encoded, _, hstage⟩ := henabled
    obtain ⟨hvalid, -, impl, himpl, rfl⟩ := h.write id version encoded _ hstage
    rw [apply_write hstage]
    refine ⟨_, congrArg Prod.snd (writeJournalFile_default hvalid _ _), _,
      generationOf_encode impl s.config.persistence, ?_⟩
    cases hwritten : s.written with
    | none => exact (h.unwritten hwritten).2 bytes hbytes g hg impl (List.mem_of_getElem? himpl)
    | some w =>
      obtain ⟨-, before, hbefore, hjournal⟩ := h.onDisk w hwritten
      rw [hjournal] at hbytes
      cases hbytes
      rw [generationOf_encode] at hg
      cases hg
      exact h.generation_le (horder version encoded _ hstage w hwritten) hbefore himpl

end Ordered

end Saving

/-- In every run in which no session replaces the journal by an older one, each request that was
saved and replied to is in the journal, and the global generation of the journal never falls. -/
theorem checkpoints_durable {s : Saving} (h : Saving.Reached Saving.InOrder s) :
    s.Durable ∧ ∀ act, s.Enabled act → s.InOrder act → s.KeepsGeneration act := by
  have hordered : s.Ordered := Runs.Run.invariant (P := Saving.Ordered)
    (fun _ hs => Saving.Ordered.started hs) (fun _ _ hs hact => hs.apply hact.1 hact.2) h
  exact ⟨hordered.durable, fun _ henabled horder => hordered.keepsGeneration henabled horder⟩

/-! ## Sessions that overtake each other -/

namespace Saving

/-- Two sessions have made their requests and encoded the engine, one after the other, and the later
one writes first. -/
def overtaking (op op' : Op) : List Act :=
  [.mutate 0 op, .encode 0, .mutate 1 op', .encode 1, .write 1]

section Overtaking

variable {s : Saving} {op op' : Op}

/-- The first session has encoded the engine. -/
def raced (s : Saving) (op : Op) : Saving :=
  { s with
    engine := s.engine.apply op
    versions := [s.engine, s.engine.apply op]
    stage := Function.update (fun _ => none) 0
      (some (.write 1 1 ((s.engine.apply op).encode s.config.persistence).1)) }

theorem Reached.go {ok : Saving → Act → Prop} (h : Reached ok s) (act : Act)
    (henabled : s.Enabled act) (hok : ok s act) : Reached ok (s.apply act) :=
  Runs.Run.step act h ⟨henabled, hok⟩

theorem raced_eq (h : s.Started) (hsaves : s.saves op = true) :
    (s.apply (.mutate 0 op)).stage 0 = some (.encode 1) ∧
      (s.apply (.mutate 0 op)).apply (.encode 0) = s.raced op := by
  have hmutate : s.apply (.mutate 0 op) =
      { s with
        engine := s.engine.apply op
        versions := [s.engine, s.engine.apply op]
        stage := Function.update (fun _ => none) 0 (some (.encode 1)) } := by
    unfold apply
    dsimp only
    rw [if_pos hsaves, h.fresh]
    rfl
  rw [hmutate]
  refine ⟨rfl, ?_⟩
  rw [@apply_encode _ 0 1 rfl, Function.update_idem]
  rfl

/-- The second session has encoded the engine too. -/
def raced' (s : Saving) (op op' : Op) : Saving :=
  { s with
    engine := (s.engine.apply op).apply op'
    versions := [s.engine, s.engine.apply op, (s.engine.apply op).apply op']
    stage := Function.update (s.raced op).stage 1
      (some (.write 2 2 (((s.engine.apply op).apply op').encode s.config.persistence).1)) }

theorem raced'_eq (hsaves : (s.raced op).saves op' = true) :
    ((s.raced op).apply (.mutate 1 op')).stage 1 = some (.encode 2) ∧
      ((s.raced op).apply (.mutate 1 op')).apply (.encode 1) = s.raced' op op' := by
  have hmutate : (s.raced op).apply (.mutate 1 op') =
      { s with
        engine := (s.engine.apply op).apply op'
        versions := [s.engine, s.engine.apply op, (s.engine.apply op).apply op']
        stage := Function.update (s.raced op).stage 1 (some (.encode 2)) } := by
    unfold apply
    dsimp only
    rw [if_pos hsaves]
    rfl
  rw [hmutate]
  refine ⟨rfl, ?_⟩
  rw [@apply_encode _ 1 2 rfl, Function.update_idem]
  rfl

/-- When both have written, the later request is not on disk, where it was before. -/
theorem overtaking_spec (h : s.Started) (hop : op.isRequest = true) (hop' : op'.isRequest = true)
    (hsaves : s.saves op = true) (hsaves' : (s.raced op).saves op' = true) :
    let before := (overtaking op op').foldl apply s
    Reached (fun _ _ => True) before ∧ before.Enabled (.write 0) ∧ before.replied = [2] ∧
      before.journal = some (((s.engine.apply op).apply op').encode s.config.persistence).1 ∧
      (before.apply (.write 0)).journal = some ((s.engine.apply op).encode s.config.persistence).1 ∧
      (before.apply (.write 0)).replied = [1, 2] ∧
      (before.apply (.write 0)).versions =
        [s.engine, s.engine.apply op, (s.engine.apply op).apply op'] := by
  have hvalid := persistence_of_saves h.config hsaves
  obtain ⟨hencode, hraced⟩ := raced_eq h hsaves
  obtain ⟨hencode', hraced'⟩ := raced'_eq hsaves'
  have hidle : s.stage 0 = none := by rw [h.fresh]; rfl
  have hstart : Reached (fun _ _ => True) s := .start h
  -- Session 0 encodes before session 1 changes anything, and writes after it has written.
  have hfirst := Reached.go (Reached.go hstart (.mutate 0 op) ⟨hop, hidle⟩ trivial) (.encode 0)
    ⟨1, hencode⟩ trivial
  rw [hraced] at hfirst
  have hsecond := Reached.go (Reached.go hfirst (.mutate 1 op') ⟨hop', rfl⟩ trivial) (.encode 1)
    ⟨2, hencode'⟩ trivial
  rw [hraced'] at hsecond
  have hwrite := Reached.go hsecond (.write 1) ⟨2, 2, _, rfl⟩ trivial
  have hbefore : (overtaking op op').foldl apply s = (s.raced' op op').apply (.write 1) := by
    unfold overtaking
    rw [List.foldl_cons, List.foldl_cons, hraced, List.foldl_cons, List.foldl_cons, hraced']
    rfl
  have hwritten (file : Option Bytes) (bytes : Bytes) :
      (writeJournalFile s.config.persistence {} file bytes).2 = some bytes :=
    congrArg Prod.snd (writeJournalFile_default hvalid file bytes)
  have hreplied : s.replied = [] := by rw [h.fresh]; rfl
  dsimp only
  rw [hbefore]
  rw [@apply_write _ 1 2 2 _ rfl] at hwrite ⊢
  refine ⟨hwrite, ⟨1, 1, _, rfl⟩, congrArg (2 :: ·) hreplied, hwritten .., ?_⟩
  rw [@apply_write _ 0 1 1 _ rfl]
  exact ⟨hwritten .., congrArg (1 :: 2 :: ·) hreplied, rfl⟩

end Overtaking

end Saving

namespace Sample

/-- A coordinator with a journal, on the engine of the small run before anything is published. -/
def unsaved : Saving := .of { journalPath := lit "/var/links" } registered none

theorem unsaved_started : unsaved.Started := ⟨by decide, rfl, nofun⟩

/-- One session publishes and another withdraws; they write in the order of their requests. -/
def secured : Saving :=
  ((unsaved.raced' (.publishEvidence publish) (.withdrawEvidence withdrawal)).apply
    (.write 0)).apply (.write 1)

theorem secured_reached : Saving.Reached Saving.InOrder secured := by
  obtain ⟨hencode, hraced⟩ := @Saving.raced_eq unsaved (.publishEvidence publish) unsaved_started
    (by decide +kernel)
  obtain ⟨hencode', hraced'⟩ := @Saving.raced'_eq unsaved (.publishEvidence publish)
    (.withdrawEvidence withdrawal) (by decide +kernel)
  have hstart : Saving.Reached Saving.InOrder unsaved := .start unsaved_started
  have hfirst := (hstart.go (.mutate 0 (.publishEvidence publish)) ⟨rfl, rfl⟩ trivial).go
    (.encode 0) ⟨1, hencode⟩ trivial
  rw [hraced] at hfirst
  have hsecond := (hfirst.go (.mutate 1 (.withdrawEvidence withdrawal)) ⟨rfl, rfl⟩ trivial).go
    (.encode 1) ⟨2, hencode'⟩ trivial
  rw [hraced'] at hsecond
  -- No version is on disk at the first write, and version 1 at the second, which writes version 2.
  refine (hsecond.go (.write 0) ⟨1, 1, _, rfl⟩ fun _ _ _ _ _ hw => by cases hw).go (.write 1)
    ⟨2, 2, _, rfl⟩ fun version encoded bytes hstage w hw => ?_
  rw [@Saving.apply_write _ 0 1 1 _ rfl] at hstage hw
  cases hstage
  cases hw
  exact Nat.le_succ 1

end Sample

theorem checkpoints_durable_sample : Sample.secured.Durable :=
  (checkpoints_durable Sample.secured_reached).1

/-- One session publishes and is overtaken by one that withdraws: the withdrawal was replied to, but
the journal has the evidence again and a lower global generation than before. -/
theorem update_lost : ∃ s, Saving.Reached (fun _ _ => True) s ∧ s.Enabled (.write 0) ∧
    ¬ s.KeepsGeneration (.write 0) ∧ ¬ (s.apply (.write 0)).Durable := by
  obtain ⟨hreached, henabled, -, hjournal, hjournal', hreplied, hversions⟩ :=
    @Saving.overtaking_spec Sample.unsaved (.publishEvidence Sample.publish)
      (.withdrawEvidence Sample.withdrawal) Sample.unsaved_started rfl rfl (by decide +kernel)
      (by decide +kernel)
  have hraises : (Sample.registered.apply (.publishEvidence Sample.publish)).globalGeneration <
      ((Sample.registered.apply (.publishEvidence Sample.publish)).apply
        (.withdrawEvidence Sample.withdrawal)).globalGeneration := by decide +kernel
  refine ⟨_, hreached, henabled, fun hkeeps => ?_, fun hdurable => ?_⟩
  · obtain ⟨bytes, hbytes, g, hg, hle⟩ := hkeeps _ hjournal _ (generationOf_encode ..)
    cases hjournal'.symm.trans hbytes
    cases (generationOf_encode ..).symm.trans hg
    exact absurd hraises (not_lt.mpr hle)
  · obtain ⟨w, impl, hw, himpl, heq⟩ := hdurable 2 (by rw [hreplied]; decide)
    rw [hversions] at himpl
    obtain ⟨hlt, -⟩ := List.getElem?_eq_some_iff.mp himpl
    obtain rfl : w = 2 := le_antisymm (Nat.le_of_lt_succ hlt) hw
    cases himpl
    have hsame := congrArg (Option.bind · generationOf) (hjournal'.symm.trans heq)
    dsimp only [Option.bind_some] at hsame
    rw [generationOf_encode, generationOf_encode] at hsame
    exact absurd (Option.some.inj hsame) hraises.ne

end LinkState
