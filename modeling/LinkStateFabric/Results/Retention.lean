import LinkStateFabric.Lib.Recent
import LinkStateFabric.Engine.Shelf
import LinkStateFabric.Results.Bounds

/-!
# Retained snapshots

* `snapshotIdFor`: the identifiers of the snapshots that an engine takes between two loads differ.
* `retained_exact`: the snapshots that an engine retains are the last ones it took since the journal
  was loaded, as it returned them.
-/

namespace LinkState

open Recent

/-! ## Identifiers -/

/-- The text of the identifier of a snapshot. -/
def snapshotIdFor (generation : LinkStateGeneration) (counter : Nat) : Text :=
  lit "snap." ++ generation.text ++ lit "." ++ formatU64 counter

theorem scanIdentifier_alphanumeric {front rest : Text}
    (h : ∀ ch ∈ front, isAlphanumeric ch = true) :
    scanIdentifier (front ++ rest) = scanIdentifier rest := by
  induction front with
  | nil => rfl
  | cons ch front ih =>
    rw [List.cons_append, scanIdentifier_cons (h ch List.mem_cons_self)]
    exact ih fun c hc => h c (List.mem_cons_of_mem _ hc)

theorem isAlphanumeric_of_digit {value : Nat} {ch : UInt8} (h : ch ∈ formatU64 value) :
    isAlphanumeric ch = true := by
  have hdigit := digit_of_mem_formatU64 h
  simp [isAlphanumeric, ascii, hdigit]

theorem validateIdentifier_snapshot (generation : LinkStateGeneration) {counter : Nat}
    (hcounter : counter < 2 ^ 64) :
    validateIdentifier (snapshotIdFor generation counter) = .ok := by
  have hsnap : lit "snap." = [115, 110, 97, 112] ++ [46] := by decide
  have hdot : lit "." = [46] := by decide
  have hletters : ([115, 110, 97, 112] : Text).all isAlphanumeric = true := by decide
  have hdigits : ∀ ch ∈ generation.text, isAlphanumeric ch = true :=
    fun ch hch => isAlphanumeric_of_digit hch
  have hshort : generation.text.length ≤ 20 := length_formatU64_le generation.bounded
  have hscan : scanIdentifier (lit "snap." ++ generation.text ++ lit ".") = .ok := by
    rw [hsnap, hdot, List.append_assoc, List.append_assoc,
      scanIdentifier_alphanumeric (List.all_eq_true.mp hletters)]
    obtain ⟨digit, digits, htext⟩ := List.exists_cons_of_ne_nil (formatU64_ne_nil generation.value)
    have htext : generation.text = digit :: digits := htext
    rw [htext] at hdigits ⊢
    rw [List.singleton_append, List.cons_append, scanIdentifier, if_neg (by decide), if_neg,
      ← List.cons_append, scanIdentifier_alphanumeric hdigits]
    · rfl
    · exact fun h => ne_dot_of_isAlphanumeric (hdigits digit List.mem_cons_self)
        (Option.some.inj h.2)
  refine validateIdentifier_numbered ?_ hscan ?_ hcounter
  · rw [hsnap]
    rfl
  · have hlength : (lit "snap." ++ generation.text ++ lit ".").length =
        6 + generation.text.length := by
      rw [List.length_append, List.length_append, hsnap, hdot]
      simp only [List.length_append, List.length_cons, List.length_nil]
      omega
    have hmax : limits.maxIdentifierLength = 128 := rfl
    omega

/-- The counter is what follows the last dot. -/
theorem snapshotIdFor_injective {generation generation' : LinkStateGeneration}
    {counter counter' : Nat}
    (h : snapshotIdFor generation counter = snapshotIdFor generation' counter') :
    counter = counter' := by
  have hdot : lit "." = [46] := by decide
  have hnone (value : Nat) : (46 : UInt8) ∉ formatU64 value := fun hmem =>
    absurd (digit_of_mem_formatU64 hmem).1 (by decide)
  unfold snapshotIdFor StrongGeneration.text at h
  rw [hdot, List.append_assoc, List.append_assoc, List.append_assoc, List.append_assoc] at h
  have htail := List.append_cancel_left h
  rw [List.singleton_append, List.singleton_append,
    List.append_cons_inj_of_notMem (hnone _) (hnone _)] at htail
  exact formatU64_injective htail.2.2

/-! ## Runs -/

/-- The snapshot that an operation takes and retains. -/
def Impl.takes (impl : Impl) : Op → Option Snapshot
  | .snapshot request =>
    if limits.maxSnapshotRecords < request.links.length then none
    else some (impl.snapshot request).2
  | _ => none

/-- An engine, and the snapshots that it has taken since a journal was loaded, oldest first. -/
structure Filed where
  impl : Impl
  taken : List Snapshot := []

namespace Filed

/-- The effect of an operation. -/
def apply (t : Filed) (op : Op) : Filed where
  impl := t.impl.apply op
  taken := match op with
    | .load config steps file => (acceptedPayload config steps file).elim t.taken fun _ => []
    | op => t.taken ++ (t.impl.takes op).toList

/-- The runs of a freshly created engine. -/
def Fresh (t : Filed) : Prop := t.impl.Fresh ∧ t.taken = []

/-- Snapshots are numbered as they are taken, and named after their number. -/
structure Numbered (t : Filed) : Prop where
  sequences : t.taken.Pairwise (·.sequence < ·.sequence)
  counted : ∀ snap ∈ t.taken, snap.sequence ≤ t.impl.snapshotCounter
  named : ∀ snap ∈ t.taken, ∃ generation,
    snap.id = .fromValidated (snapshotIdFor generation snap.sequence)

/-- The engine retains the latest snapshots. -/
def Holds (t : Filed) : Prop :=
  Recent.Holds Snapshot.id t.impl.config.maxRetainedSnapshots t.taken t.impl.store.snapshots
    t.impl.store.snapshotOrder

variable {t : Filed}

theorem Numbered.nodup (h : t.Numbered) (hcounter : t.impl.snapshotCounter < 2 ^ 64) :
    (t.taken.map Snapshot.id).Nodup := by
  refine List.pairwise_map.mpr (h.sequences.imp_of_mem fun {snap snap'} hsnap hsnap' hlt heq => ?_)
  have hid {snap : Snapshot} (hsnap : snap ∈ t.taken) :
      ∃ generation, snap.id.value = snapshotIdFor generation snap.sequence := by
    obtain ⟨generation, hnamed⟩ := h.named snap hsnap
    have hshort := (h.counted snap hsnap).trans_lt hcounter
    rw [hnamed, StrongId.value_fromValidated (validateIdentifier_snapshot generation hshort)]
    exact ⟨generation, rfl⟩
  obtain ⟨generation, hvalue⟩ := hid hsnap
  obtain ⟨generation', hvalue'⟩ := hid hsnap'
  rw [heq, hvalue'] at hvalue
  exact hlt.ne (snapshotIdFor_injective hvalue).symm

theorem snapshot_shelf (impl : Impl) (request : SnapshotRequest) :
    (impl.snapshot request).1.snapshotCounter = impl.snapshotCounter + 1 ∧
    (impl.snapshot request).1.config = impl.config ∧
    (impl.snapshot request).2.sequence = impl.snapshotCounter + 1 ∧
    (impl.snapshot request).2.id =
      .fromValidated (snapshotIdFor impl.globalStateGeneration (impl.snapshotCounter + 1)) ∧
    (impl.snapshot request).1.retained =
      if limits.maxSnapshotRecords < request.links.length then impl.retained
      else (impl.retainSnapshot (impl.snapshot request).2).retained := by
  unfold Impl.snapshot
  dsimp only
  split
  all_goals exact ⟨rfl, rfl, rfl, rfl, rfl⟩

/-- What is known of the snapshots of a run. -/
structure Kept (t : Filed) : Prop extends Numbered t where
  holds : t.impl.snapshotCounter < 2 ^ 64 → t.Holds

theorem Kept.of_nil (h : t.taken = []) (hretained : t.impl.retained = (∅, [])) : t.Kept := by
  obtain ⟨hsnapshots, horder⟩ := Prod.ext_iff.mp hretained
  have hnone {P : Snapshot → Prop} : ∀ snap ∈ t.taken, P snap := by
    rw [h]
    exact List.forall_mem_nil P
  refine ⟨⟨by rw [h]; exact .nil, hnone, hnone⟩, fun _ => ?_⟩
  unfold Holds
  rw [h, show t.impl.store.snapshots = ∅ from hsnapshots,
    show t.impl.store.snapshotOrder = [] from horder]
  exact holds_nil ..

/-- An operation that does not touch the shelf. -/
theorem Kept.congr {impl : Impl} (h : t.Kept) (hshelf : impl.shelf = t.impl.shelf) :
    Kept { impl, taken := t.taken } := by
  have hcounter : impl.snapshotCounter = t.impl.snapshotCounter := congrArg Shelf.counter hshelf
  have hsnapshots : impl.store.snapshots = t.impl.store.snapshots :=
    congrArg Shelf.snapshots hshelf
  have horder : impl.store.snapshotOrder = t.impl.store.snapshotOrder := congrArg Shelf.order hshelf
  have hcap : impl.config.maxRetainedSnapshots = t.impl.config.maxRetainedSnapshots :=
    congrArg Shelf.cap hshelf
  refine ⟨⟨h.sequences, fun snap hsnap => ?_, h.named⟩, fun hshort => ?_⟩
  · rw [hcounter]
    exact h.counted snap hsnap
  · unfold Holds
    rw [hsnapshots, horder, hcap]
    exact h.holds (hcounter ▸ hshort)

/-- One more snapshot is numbered higher than all before it. -/
theorem Numbered.concat (h : t.Numbered) {impl : Impl} {snap : Snapshot}
    {generation : LinkStateGeneration}
    (hcounter : impl.snapshotCounter = t.impl.snapshotCounter + 1)
    (hsequence : snap.sequence = impl.snapshotCounter)
    (hid : snap.id = .fromValidated (snapshotIdFor generation snap.sequence)) :
    Numbered { impl, taken := t.taken ++ [snap] } := by
  refine ⟨?_, ?_, ?_⟩
  · refine List.pairwise_append.mpr ⟨h.sequences, List.pairwise_singleton .., ?_⟩
    intro earlier hearlier later hlater
    rw [List.mem_singleton.mp hlater, hsequence, hcounter]
    exact Nat.lt_succ_of_le (h.counted earlier hearlier)
  · intro other hother
    rcases List.mem_append.mp hother with hother | hother
    · dsimp only
      rw [hcounter]
      exact (h.counted other hother).trans (Nat.le_succ _)
    · rw [List.mem_singleton.mp hother]
      exact hsequence.le
  · intro other hother
    rcases List.mem_append.mp hother with hother | hother
    · exact h.named other hother
    · rw [List.mem_singleton.mp hother]
      exact ⟨generation, hid⟩

/-- A snapshot of a new identifier is retained behind the others. -/
theorem Holds.retain (h : t.Holds) {snap : Snapshot}
    (hnodup : ((t.taken ++ [snap]).map Snapshot.id).Nodup) {impl : Impl}
    (hconfig : impl.config = t.impl.config)
    (hretained : impl.retained = (t.impl.retainSnapshot snap).retained) :
    Holds { impl, taken := t.taken ++ [snap] } := by
  have hnew : snap.id ∉ t.taken.map Snapshot.id := by
    rw [List.map_append, List.nodup_append] at hnodup
    exact fun hmem => hnodup.2.2 _ hmem _ (List.mem_singleton_self _) rfl
  have hlookup : t.impl.store.snapshots.lookup snap.id = none := by
    rw [h.lookup]
    refine List.find?_eq_none.mpr fun other hother heq => hnew ?_
    rw [← of_decide_eq_true heq]
    exact List.mem_map_of_mem ((latest_suffix ..).subset hother)
  have hput := h.put hnodup
  obtain ⟨hsnapshots, horder⟩ := Prod.ext_iff.mp hretained
  unfold Impl.retained Impl.retainSnapshot at hsnapshots horder
  rw [hlookup] at hsnapshots
  unfold Holds
  dsimp only at hsnapshots horder ⊢
  rw [hsnapshots, horder, hconfig]
  exact hput

theorem Kept.snapshot (h : t.Kept) (request : SnapshotRequest) :
    (t.apply (.snapshot request)).Kept := by
  obtain ⟨hcounter, hconfig, hsequence, hid, hretained⟩ := snapshot_shelf t.impl request
  rw [← hcounter] at hsequence
  rw [← hcounter, ← hsequence] at hid
  have hshort (hshort : (t.impl.snapshot request).1.snapshotCounter < 2 ^ 64) :
      t.impl.snapshotCounter < 2 ^ 64 := by
    rw [hcounter] at hshort
    exact Nat.lt_of_succ_lt hshort
  -- A snapshot of too many links is not retained, though it takes a number.
  by_cases hlarge : limits.maxSnapshotRecords < request.links.length
  · have htaken : t.apply (.snapshot request) = ⟨(t.impl.snapshot request).1, t.taken⟩ := by
      unfold apply Impl.takes
      dsimp only
      rw [if_pos hlarge]
      exact congrArg (Filed.mk _) (List.append_nil _)
    rw [if_pos hlarge] at hretained
    obtain ⟨hsnapshots, horder⟩ := Prod.ext_iff.mp hretained
    rw [htaken]
    refine ⟨⟨h.sequences, fun snap hsnap => ?_, h.named⟩, fun hbound => ?_⟩
    · dsimp only
      rw [hcounter]
      exact (h.counted snap hsnap).trans (Nat.le_succ _)
    · have hsnapshots : (t.impl.snapshot request).1.store.snapshots = t.impl.store.snapshots :=
        hsnapshots
      have horder : (t.impl.snapshot request).1.store.snapshotOrder =
        t.impl.store.snapshotOrder := horder
      unfold Holds
      dsimp only
      rw [hsnapshots, horder, hconfig]
      exact h.holds (hshort hbound)
  · have htaken : t.apply (.snapshot request) =
        ⟨(t.impl.snapshot request).1, t.taken ++ [(t.impl.snapshot request).2]⟩ := by
      unfold apply Impl.takes
      dsimp only
      rw [if_neg hlarge]
      rfl
    rw [if_neg hlarge] at hretained
    have hnumbered := h.concat hcounter hsequence hid
    rw [htaken]
    exact ⟨hnumbered, fun hbound =>
      (h.holds (hshort hbound)).retain (hnumbered.nodup hbound) hconfig hretained⟩

theorem Kept.apply (h : t.Kept) (op : Op) : (t.apply op).Kept := by
  cases hload : op.isLoad with
  | true =>
    cases op with
    | load config steps file =>
      unfold Filed.apply
      dsimp only
      rw [Impl.apply_load, load_accepted]
      cases hpayload : acceptedPayload config steps file with
      | none => exact h
      | some payload => exact .of_nil rfl (recover_retained t.impl (acceptedPayload_decoded hpayload))
    | _ => cases hload
  | false =>
    cases hsnaps : op.snaps with
    | true =>
      cases op with
      | snapshot request => exact h.snapshot request
      | _ => cases hsnaps
    | false =>
      have htaken : (t.apply op).taken = t.taken := by
        cases op with
        | snapshot => cases hsnaps
        | load => cases hload
        | _ => exact List.append_nil _
      have hkept := h.congr (apply_shelf t.impl hload hsnaps)
      rw [← htaken] at hkept
      exact hkept

end Filed

/-- The snapshots that an engine retains are the last ones it took since a journal was loaded, as
many as are configured, in their order and as it returned them. -/
theorem retained_exact {t : Filed} (h : Runs.Run Filed.Fresh Filed.apply (fun _ _ => True) t)
    (hcounter : t.impl.snapshotCounter < 2 ^ 64) :
    t.impl.retainedSnapshotIds =
      (latest t.impl.config.maxRetainedSnapshots t.taken).map Snapshot.id ∧
    (t.taken.map Snapshot.id).Nodup ∧
    ∀ id snap, t.impl.retainedSnapshot id = some snap ↔
      snap ∈ latest t.impl.config.maxRetainedSnapshots t.taken ∧ snap.id = id := by
  have hkept : t.Kept := by
    refine h.invariant (P := Filed.Kept) ?_ fun _ op hkept _ => hkept.apply op
    rintro s ⟨⟨config, hconfig⟩, htaken⟩
    refine .of_nil htaken ?_
    rw [hconfig]
    rfl
  have hholds := hkept.holds hcounter
  have hnodup := hkept.nodup hcounter
  refine ⟨hholds.order, hnodup, fun id snap => ?_⟩
  rw [Impl.retainedSnapshot, hholds.lookup, Overlay.find?_eq_some_iff]
  exact hnodup.sublist ((latest_suffix ..).sublist.map _)

namespace Sample

/-- Three snapshots, of which an engine retains two. -/
def filed : Filed :=
  [.snapshot {}, .snapshot {}, .snapshot {}].foldl Filed.apply
    { impl := .create { maxRetainedSnapshots := 2 } }

end Sample

theorem retained_exact_sample :
    Sample.filed.impl.retainedSnapshotIds = (latest 2 Sample.filed.taken).map Snapshot.id := by
  have hstart : Runs.Run Filed.Fresh Filed.apply (fun _ _ => True)
      { impl := .create { maxRetainedSnapshots := 2 } } := .start ⟨⟨_, rfl⟩, rfl⟩
  exact (retained_exact (hstart.foldl (l := [.snapshot {}, .snapshot {}, .snapshot {}])
    ⟨trivial, trivial, trivial, trivial⟩) (by decide)).1

end LinkState
