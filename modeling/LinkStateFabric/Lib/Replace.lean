import Mathlib.Data.List.Basic
import Mathlib.Logic.Function.Basic
import Mathlib.Logic.Relation

/-!
# Replacing a file by way of a temporary one

Writers replace a file each by creating a temporary file next to it, writing their bytes to that one
in as many pieces as they like, and renaming it. All of them use the same temporary name. Each step
can fail, and all writers can be gone at any moment.

* `Dir`: names refer to files. Who has opened a file keeps it, whatever becomes of its name.
* `Step`: what a writer does next. Who may create the temporary file is a parameter.
* `intact_of_exclusive`: where a writer creates the temporary file only while no other one has it,
  the file is always what the last replacement wrote, whole, and whoever reports success is among
  those that have replaced it.
* `torn_of_overlap`: otherwise a writer can put in place what another one has written so far.
-/

namespace Replace

abbrev Content := List UInt8

/-! ## Directories -/

inductive Name where
  | target | temporary
  deriving DecidableEq

structure Dir where
  entry : Name → Option Nat := fun _ => none
  content : Nat → Content := fun _ => []
  next : Nat := 0

namespace Dir

def read (dir : Dir) (name : Name) : Option Content := (dir.entry name).map dir.content

/-- Opens a file for writing. It is emptied if it exists, and else created. -/
def openTruncate (dir : Dir) (name : Name) : Dir × Nat :=
  match dir.entry name with
  | some file => ({ dir with content := Function.update dir.content file [] }, file)
  | none =>
    ({ entry := Function.update dir.entry name (some dir.next),
       content := Function.update dir.content dir.next [],
       next := dir.next + 1 }, dir.next)

/-- Writes at an offset. What was skipped is zero. -/
def writeAt (dir : Dir) (file offset : Nat) (bytes : Content) : Dir :=
  let old := dir.content file
  let new := old.take offset ++ List.replicate (offset - old.length) 0 ++ bytes ++
    old.drop (offset + bytes.length)
  { dir with content := Function.update dir.content file new }

/-- A name is moved onto another one. -/
def rename (dir : Dir) (source destination : Name) : Dir :=
  match dir.entry source with
  | none => dir
  | some file =>
    let moved := Function.update dir.entry source none
    { dir with entry := Function.update moved destination (some file) }

def remove (dir : Dir) (name : Name) : Dir :=
  { dir with entry := Function.update dir.entry name none }

/-- The names refer to two files that exist. -/
structure Sound (dir : Dir) : Prop where
  old : ∀ name file, dir.entry name = some file → file < dir.next
  apart : ∀ file, dir.entry .target = some file → dir.entry .temporary ≠ some file

theorem sound_empty : ({} : Dir).Sound :=
  ⟨fun _ _ h => (by cases h), fun _ h => (by cases h)⟩

variable {dir : Dir} {file : Nat}

theorem Sound.openTruncate (h : dir.Sound) : (dir.openTruncate .temporary).1.Sound := by
  unfold Dir.openTruncate
  split
  · exact ⟨h.old, h.apart⟩
  · refine ⟨fun name file hentry => ?_, fun file hentry htemporary => ?_⟩
    · dsimp only at hentry ⊢
      cases name with
      | target => exact Nat.lt_succ_of_lt (h.old .target file hentry)
      | temporary =>
        rw [Function.update_self, Option.some.injEq] at hentry
        rw [← hentry]
        exact Nat.lt_succ_self _
    · dsimp only at htemporary
      rw [Function.update_self, Option.some.injEq] at htemporary
      have hlt := h.old .target file hentry
      rw [← htemporary] at hlt
      exact Nat.lt_irrefl _ hlt

/-- What is written to a file is not seen under a name of another one. -/
theorem read_update {name : Name} (h : dir.entry name ≠ some file) (content : Content) :
    (dir.entry name).map (Function.update dir.content file content) = dir.read name := by
  refine Option.map_congr fun other hother => Function.update_of_ne ?_ _ _
  rintro rfl
  exact h hother

/-- The temporary file is opened, empty, and the target is not touched. -/
theorem openTruncate_spec (h : dir.Sound) :
    (dir.openTruncate .temporary).1.entry .temporary = some (dir.openTruncate .temporary).2 ∧
    (dir.openTruncate .temporary).1.content (dir.openTruncate .temporary).2 = [] ∧
    (dir.openTruncate .temporary).1.read .target = dir.read .target := by
  unfold openTruncate
  cases hentry : dir.entry .temporary with
  | some file =>
    exact ⟨hentry, Function.update_self .., read_update (fun htarget => h.apart file htarget hentry) _⟩
  | none =>
    have hnew : dir.entry .target ≠ some dir.next := fun htarget =>
      Nat.lt_irrefl _ (h.old _ _ htarget)
    unfold read
    dsimp only
    refine ⟨Function.update_self .., Function.update_self .., ?_⟩
    rw [Function.update_of_ne Name.noConfusion]
    exact read_update hnew _

theorem writeAt_read (htarget : dir.entry .target ≠ some file) (offset : Nat) (bytes : Content) :
    (dir.writeAt file offset bytes).read .target = dir.read .target :=
  read_update htarget _

/-- The next piece of what a file is to hold. -/
theorem writeAt_take {bytes : Content} {k : Nat} (h : dir.content file = bytes.take k)
    (hk : k ≤ bytes.length) (n : Nat) :
    (dir.writeAt file k ((bytes.drop k).take n)).content file = bytes.take (k + n) := by
  have hlength : (bytes.take k).length = k := by rw [List.length_take, Nat.min_eq_left hk]
  have hend (m : Nat) : (bytes.take k).drop (k + m) = [] :=
    List.drop_of_length_le (Nat.le_trans (Nat.le_of_eq hlength) (Nat.le_add_right k m))
  unfold writeAt
  dsimp only
  rw [Function.update_self, h, hlength, hend, Nat.sub_self, List.replicate_zero, List.append_nil,
    List.append_nil, List.take_take, Nat.min_self, List.take_add]

theorem rename_read (h : dir.entry .temporary ≠ none) :
    (dir.rename .temporary .target).read .target = dir.read .temporary := by
  obtain ⟨file, hfile⟩ := Option.ne_none_iff_exists'.mp h
  unfold rename read
  rw [hfile]
  dsimp only
  rw [Function.update_self]

theorem Sound.rename (h : dir.Sound) : (dir.rename .temporary .target).Sound := by
  unfold Dir.rename
  split
  · exact h
  · rename_i file hfile
    have htemporary : Function.update (Function.update dir.entry .temporary none) .target
        (some file) .temporary = none := by
      rw [Function.update_of_ne Name.noConfusion, Function.update_self]
    refine ⟨fun name other hentry => ?_, fun other _ hother => ?_⟩
    · dsimp only at hentry ⊢
      cases name with
      | target =>
        rw [Function.update_self, Option.some.injEq] at hentry
        exact hentry ▸ h.old .temporary file hfile
      | temporary =>
        rw [htemporary] at hentry
        cases hentry
    · dsimp only at hother
      rw [htemporary] at hother
      cases hother

theorem Sound.remove (h : dir.Sound) : (dir.remove .temporary).Sound := by
  refine ⟨fun name file hentry => ?_, fun file _ htemporary => ?_⟩
  · unfold Dir.remove at hentry
    dsimp only at hentry
    cases name with
    | target => exact h.old .target file hentry
    | temporary =>
      rw [Function.update_self] at hentry
      cases hentry
  · unfold Dir.remove at htemporary
    dsimp only at htemporary
    rw [Function.update_self] at htemporary
    cases htemporary

end Dir

/-! ## Writers -/

/-- What writers write, and how they report that they could not. -/
structure Writing (β ε : Type*) where
  encode : β → Content
  /-- Before the temporary file is created. -/
  refusals : Set ε
  unwritten : ε
  unreplaced : ε

variable {ω β ε : Type*}

def Writing.faults (writing : Writing β ε) : Set ε :=
  insert writing.unwritten (insert writing.unreplaced writing.refusals)

/-- How far a writer is. A writer that fails after it has created the temporary file removes it. -/
inductive Stage (ε : Type*) where
  | waiting
  | writing (file written : Nat)
  | closed
  | failing (e : ε)
  | finished (result : Option ε)

/-- The writer has the temporary file. -/
def Stage.holds : Stage ε → Bool
  | .writing .. | .closed | .failing _ => true
  | .waiting | .finished _ => false

structure Writer (β ε : Type*) where
  payload : β
  stage : Stage ε

/-- The writers of a directory, and what has replaced the target so far, the latest first. -/
structure System (ω β ε : Type*) where
  dir : Dir := {}
  writers : ω → Option (Writer β ε) := fun _ => none
  past : List β := []

/-- The writer has the temporary file. -/
def System.Holds (s : System ω β ε) (w : ω) : Prop :=
  ∃ writer, s.writers w = some writer ∧ writer.stage.holds = true

/-- No writer has the temporary file. -/
def System.Free (s : System ω β ε) : Prop := ∀ w, ¬ s.Holds w

/-! ## What is known of writers that exclude each other -/

/-- What is known of a writer. -/
def Writer.Fits (writing : Writing β ε) (dir : Dir) (past : List β) (writer : Writer β ε) : Prop :=
  match writer.stage with
  | .waiting => True
  | .writing file written => dir.entry .temporary = some file ∧
      dir.content file = (writing.encode writer.payload).take written ∧
      written ≤ (writing.encode writer.payload).length
  | .closed => dir.read .temporary = some (writing.encode writer.payload)
  | .finished none => writer.payload ∈ past
  | .failing e | .finished (some e) => e ∈ writing.faults

/-- The target is what replaced it last, or what it was in the beginning. -/
structure Intact (writing : Writing β ε) (initial : Option Content) (s : System ω β ε) : Prop where
  sound : s.dir.Sound
  alone : ∀ w w', s.Holds w → s.Holds w' → w = w'
  fits : ∀ w writer, s.writers w = some writer → writer.Fits writing s.dir s.past
  target : s.dir.read .target = (s.past.head?.map writing.encode).or initial

variable {writing : Writing β ε} {initial : Option Content} {s s' : System ω β ε}

theorem Writer.Fits.mono {dir : Dir} {past past' : List β} {writer : Writer β ε}
    (h : writer.Fits writing dir past) (hpast : past ⊆ past') : writer.Fits writing dir past' := by
  obtain ⟨payload, stage⟩ := writer
  rcases stage with _ | _ | _ | _ | (_ | _)
  case finished.none => exact hpast h
  all_goals exact h

/-- A writer without the temporary file does not care for it. -/
theorem Writer.Fits.elsewhere {dir dir' : Dir} {past : List β} {writer : Writer β ε}
    (h : writer.Fits writing dir past) (hholds : writer.stage.holds = false) :
    writer.Fits writing dir' past := by
  obtain ⟨payload, stage⟩ := writer
  rcases stage with _ | _ | _ | _ | (_ | _)
  case writing => cases hholds
  case closed => cases hholds
  all_goals exact h

/-- Where a writer has the temporary file, no other one has it. -/
theorem Intact.others (h : Intact writing initial s) {w : ω} {writer : Writer β ε}
    (hw : s.writers w = some writer) (hholds : writer.stage.holds = true) :
    ∀ w', w' ≠ w → ¬ s.Holds w' :=
  fun w' hne hw' => hne (h.alone w' w hw' ⟨writer, hw, hholds⟩)

theorem free_idle (dir : Dir) : ({ dir } : System ω β ε).Free := by
  rintro w ⟨writer, hw, -⟩
  cases hw

theorem intact_idle {dir : Dir} (h : dir.Sound) :
    Intact writing (dir.read .target) ({ dir } : System ω β ε) :=
  ⟨h, fun w _ hw _ => absurd hw (free_idle dir w), fun _ _ hw => (by cases hw), rfl⟩

/-! ## Steps -/

variable [DecidableEq ω]

def System.put (s : System ω β ε) (w : ω) (payload : β) (stage : Stage ε) : System ω β ε :=
  { s with writers := Function.update s.writers w (some ⟨payload, stage⟩) }

/-- What happens next. -/
inductive Step (writing : Writing β ε) (may : System ω β ε → Prop) (s : System ω β ε) :
    System ω β ε → Prop
  | start (w : ω) (payload : β) (h : s.writers w = none) :
    Step writing may s (s.put w payload .waiting)
  | refuse {w : ω} {payload : β} {e : ε} (h : s.writers w = some ⟨payload, .waiting⟩)
    (he : e ∈ writing.refusals) : Step writing may s (s.put w payload (.finished (some e)))
  | create {w : ω} {payload : β} (h : s.writers w = some ⟨payload, .waiting⟩) (hmay : may s) :
    Step writing may s
      { s.put w payload (.writing (s.dir.openTruncate .temporary).2 0) with
        dir := (s.dir.openTruncate .temporary).1 }
  | write {w : ω} {payload : β} {file written : Nat} (n : Nat)
    (h : s.writers w = some ⟨payload, .writing file written⟩)
    (hn : written + n ≤ (writing.encode payload).length) : Step writing may s
      { s.put w payload (.writing file (written + n)) with
        dir := s.dir.writeAt file written (((writing.encode payload).drop written).take n) }
  | close {w : ω} {payload : β} {file : Nat}
    (h : s.writers w = some ⟨payload, .writing file (writing.encode payload).length⟩) :
    Step writing may s (s.put w payload .closed)
  | fail {w : ω} {payload : β} {file written : Nat}
    (h : s.writers w = some ⟨payload, .writing file written⟩) :
    Step writing may s (s.put w payload (.failing writing.unwritten))
  | replace {w : ω} {payload : β} (h : s.writers w = some ⟨payload, .closed⟩)
    (htemporary : s.dir.entry .temporary ≠ none) : Step writing may s
      { s.put w payload (.finished none) with
        dir := s.dir.rename .temporary .target
        past := payload :: s.past }
  | block {w : ω} {payload : β} (h : s.writers w = some ⟨payload, .closed⟩) :
    Step writing may s (s.put w payload (.failing writing.unreplaced))
  | remove {w : ω} {payload : β} {e : ε} (h : s.writers w = some ⟨payload, .failing e⟩) :
    Step writing may s
      { s.put w payload (.finished (some e)) with dir := s.dir.remove .temporary }
  | keep {w : ω} {payload : β} {e : ε} (h : s.writers w = some ⟨payload, .failing e⟩) :
    Step writing may s (s.put w payload (.finished (some e)))
  | leave {w : ω} {payload : β} {result : Option ε}
    (h : s.writers w = some ⟨payload, .finished result⟩) :
    Step writing may s { s with writers := Function.update s.writers w none }
  | crash : Step writing may s { s with writers := fun _ => none }

/-- What has replaced the target is never forgotten. -/
theorem Step.past_suffix {may : System ω β ε → Prop} (h : Step writing may s s') :
    s.past <:+ s'.past := by
  cases h with
  | replace => exact List.suffix_cons ..
  | _ => exact List.suffix_refl _

/-! ## Writers that exclude each other -/

/-- One writer goes on. If it touches the directory, no other writer has the temporary file. -/
theorem Intact.advance (h : Intact writing initial s) {w : ω} {writer : Writer β ε}
    (hwriters : s'.writers = Function.update s.writers w (some writer)) (hsound : s'.dir.Sound)
    (htarget : s'.dir.read .target = (s'.past.head?.map writing.encode).or initial)
    (hfits : writer.Fits writing s'.dir s'.past) (hpast : s.past ⊆ s'.past)
    (hothers : s'.dir = s.dir ∧ writer.stage.holds = false ∨ ∀ w', w' ≠ w → ¬ s.Holds w') :
    Intact writing initial s' := by
  have hother {w' : ω} (hne : w' ≠ w) : s'.writers w' = s.writers w' := by
    rw [hwriters, Function.update_of_ne hne]
  have hself : s'.writers w = some writer := by rw [hwriters, Function.update_self]
  refine ⟨hsound, fun w₁ w₂ h₁ h₂ => ?_, fun w' writer' hw' => ?_, htarget⟩
  -- Either the writer does not hold the temporary file, or no other one does.
  · rcases hothers with ⟨-, hfree⟩ | hfree
    · have hne {w' : ω} (hw' : s'.Holds w') : w' ≠ w := by
        rintro rfl
        obtain ⟨writer', hw', hholds⟩ := hw'
        rw [hself] at hw'
        cases hw'
        rw [hfree] at hholds
        cases hholds
      have hold {w' : ω} (hw' : s'.Holds w') : s.Holds w' := by
        have hsame := hother (hne hw')
        obtain ⟨writer', hw', hholds⟩ := hw'
        exact ⟨writer', hsame ▸ hw', hholds⟩
      exact h.alone w₁ w₂ (hold h₁) (hold h₂)
    · have heq {w' : ω} (hw' : s'.Holds w') : w' = w := by
        by_contra hne
        obtain ⟨writer', hw', hholds⟩ := hw'
        exact hfree w' hne ⟨writer', hother hne ▸ hw', hholds⟩
      rw [heq h₁, heq h₂]
  · by_cases hne : w' = w
    · subst hne
      rw [hself] at hw'
      cases hw'
      exact hfits
    · rw [hother hne] at hw'
      have hfits' := (h.fits w' writer' hw').mono hpast
      rcases hothers with ⟨hdir, -⟩ | hfree
      · rw [hdir]
        exact hfits'
      · refine hfits'.elsewhere (Bool.eq_false_iff.mpr fun hholds => ?_)
        exact hfree w' hne ⟨writer', hw', hholds⟩

theorem Intact.step (h : Intact writing initial s) (hstep : Step writing System.Free s s') :
    Intact writing initial s' := by
  cases hstep with
  | start w payload hw =>
    exact h.advance rfl h.sound h.target trivial (List.Subset.refl _) (.inl ⟨rfl, rfl⟩)
  | refuse hw he =>
    exact h.advance rfl h.sound h.target (.inr (.inr he)) (List.Subset.refl _) (.inl ⟨rfl, rfl⟩)
  | create hw hfree =>
    obtain ⟨hentry, hempty, hread⟩ := Dir.openTruncate_spec h.sound
    exact h.advance rfl h.sound.openTruncate (hread.trans h.target)
      ⟨hentry, hempty.trans List.take_zero.symm, Nat.zero_le _⟩ (List.Subset.refl _)
      (.inr fun w' _ => hfree w')
  | @write w payload file written n hw hn =>
    obtain ⟨hentry, hcontent, hle⟩ := h.fits w _ hw
    -- The bytes go into the temporary file, and the target is another one.
    have htarget : s.dir.entry .target ≠ some file := fun htarget =>
      h.sound.apart file htarget hentry
    exact h.advance rfl ⟨h.sound.old, h.sound.apart⟩
      ((Dir.writeAt_read htarget ..).trans h.target)
      ⟨hentry, Dir.writeAt_take hcontent hle n, hn⟩ (List.Subset.refl _) (.inr (h.others hw rfl))
  | @close w payload file hw =>
    obtain ⟨hentry, hcontent, -⟩ := h.fits w _ hw
    refine h.advance rfl h.sound h.target ?_ (List.Subset.refl _) (.inr (h.others hw rfl))
    show (s.dir.entry .temporary).map s.dir.content = _
    rw [hentry, Option.map_some, hcontent, List.take_length]
  | fail hw =>
    exact h.advance rfl h.sound h.target (.inl rfl) (List.Subset.refl _) (.inr (h.others hw rfl))
  | @replace w payload hw htemporary =>
    have hclosed : s.dir.read .temporary = some (writing.encode payload) := h.fits w _ hw
    refine h.advance rfl h.sound.rename ?_ List.mem_cons_self
      (List.subset_cons_self _ _) (.inr (h.others hw rfl))
    -- The target becomes the temporary file, which the writer has closed with the whole encoding.
    rw [Dir.rename_read htemporary, hclosed]
    rfl
  | block hw =>
    exact h.advance rfl h.sound h.target (.inr (.inl rfl)) (List.Subset.refl _)
      (.inr (h.others hw rfl))
  | @remove w payload e hw =>
    exact h.advance rfl h.sound.remove h.target (h.fits w _ hw :) (List.Subset.refl _)
      (.inr (h.others hw rfl))
  | @keep w payload e hw =>
    exact h.advance rfl h.sound h.target (h.fits w _ hw :) (List.Subset.refl _)
      (.inr (h.others hw rfl))
  | @leave w payload result hw =>
    have hother {w' : ω} {writer : Writer β ε}
        (hw' : Function.update s.writers w none w' = some writer) :
        s.writers w' = some writer := by
      by_cases hne : w' = w
      · rw [hne, Function.update_self] at hw'
        cases hw'
      · rwa [Function.update_of_ne hne] at hw'
    refine ⟨h.sound, ?_, fun w' writer hw' => h.fits w' writer (hother hw'), h.target⟩
    rintro w₁ w₂ ⟨writer₁, h₁, hholds₁⟩ ⟨writer₂, h₂, hholds₂⟩
    exact h.alone w₁ w₂ ⟨writer₁, hother h₁, hholds₁⟩ ⟨writer₂, hother h₂, hholds₂⟩
  | crash =>
    exact ⟨h.sound, fun w _ hw _ => absurd hw (free_idle s.dir w), fun _ _ hw => (by cases hw),
      h.target⟩

/-- A run of writers. -/
abbrev Run (writing : Writing β ε) (may : System ω β ε → Prop) :
    System ω β ε → System ω β ε → Prop :=
  Relation.ReflTransGen (Step writing may)

theorem Run.past_suffix {may : System ω β ε → Prop} (h : Run writing may s s') :
    s.past <:+ s'.past := by
  induction h with
  | refl => exact List.suffix_refl _
  | tail _ hstep ih => exact ih.trans hstep.past_suffix

theorem intact_of_exclusive (h : Intact writing initial s) (hrun : Run writing System.Free s s') :
    Intact writing initial s' := by
  induction hrun with
  | refl => exact h
  | tail _ hstep ih => exact ih.step hstep

/-! ## Runs of one writer -/

section Alone

variable (writing) {may : System ω β ε → Prop} {w : ω} {payload : β}

theorem run_create (hw : s.writers w = none) (hmay : may (s.put w payload .waiting)) :
    ∃ s' : System ω β ε, Run writing may s s' ∧
      s'.writers = Function.update s.writers w
        (some ⟨payload, .writing (s.dir.openTruncate .temporary).2 0⟩) ∧
      s'.dir = (s.dir.openTruncate .temporary).1 := by
  have hself : (s.put w payload .waiting).writers w = some ⟨payload, .waiting⟩ :=
    Function.update_self w _ s.writers
  refine ⟨_, (Relation.ReflTransGen.single (.start w payload hw)).tail (.create hself hmay), ?_, rfl⟩
  exact Function.update_idem ..

/-- A writer comes as far as it likes with the temporary file. -/
theorem run_write (hsound : s.dir.Sound) (hw : s.writers w = none)
    (hmay : may (s.put w payload .waiting)) {k : Nat} (hk : k ≤ (writing.encode payload).length) :
    ∃ (s' : System ω β ε) (file : Nat), Run writing may s s' ∧ s'.dir.Sound ∧
      s'.writers = Function.update s.writers w (some ⟨payload, .writing file k⟩) ∧
      s'.dir.entry .temporary = some file ∧
      s'.dir.content file = (writing.encode payload).take k ∧
      s'.dir.read .target = s.dir.read .target := by
  obtain ⟨hentry, hempty, hread⟩ := Dir.openTruncate_spec hsound
  have hopened := hsound.openTruncate
  obtain ⟨s₁, hrun, hwriters, hdir⟩ := run_create writing hw hmay
  rw [← hdir] at hentry hempty hread hopened
  generalize (s.dir.openTruncate .temporary).2 = file at *
  have hself : s₁.writers w = some ⟨payload, .writing file 0⟩ := by
    rw [hwriters, Function.update_self]
  have htarget : s₁.dir.entry .target ≠ some file := fun htarget =>
    hopened.apart file htarget hentry
  have hwrite : Step writing may s₁ _ := .write k hself ((Nat.zero_add k).symm ▸ hk)
  refine ⟨_, file, hrun.tail hwrite, ⟨hopened.old, hopened.apart⟩, ?_, hentry, ?_,
    (Dir.writeAt_read htarget ..).trans hread⟩
  · unfold System.put
    dsimp only
    rw [hwriters, Function.update_idem, Nat.zero_add]
  · rw [Dir.writeAt_take (hempty.trans List.take_zero.symm) (Nat.zero_le _), Nat.zero_add]

/-- A writer closes the temporary file with all it has to write. -/
theorem run_close (hsound : s.dir.Sound) (hw : s.writers w = none)
    (hmay : may (s.put w payload .waiting)) :
    ∃ s' : System ω β ε, Run writing may s s' ∧ s'.dir.Sound ∧
      s'.writers = Function.update s.writers w (some ⟨payload, .closed⟩) ∧
      s'.dir.entry .temporary ≠ none ∧
      s'.dir.read .temporary = some (writing.encode payload) ∧
      s'.dir.read .target = s.dir.read .target := by
  obtain ⟨s₁, file, hrun, hsound, hwriters, hentry, hcontent, hread⟩ :=
    run_write writing hsound hw hmay (Nat.le_refl _)
  have hself : s₁.writers w = some ⟨payload, .writing file (writing.encode payload).length⟩ := by
    rw [hwriters, Function.update_self]
  refine ⟨_, hrun.tail (.close hself), hsound, ?_, ?_, ?_, hread⟩
  · unfold System.put
    dsimp only
    rw [hwriters, Function.update_idem]
  · exact fun hnone => Option.some_ne_none file (hentry.symm.trans hnone)
  · show (s₁.dir.entry .temporary).map s₁.dir.content = _
    rw [hentry, Option.map_some, hcontent, List.take_length]

/-- A writer that has the temporary file no longer, or not yet, leaves it free. -/
theorem free_update (h : s.Free) {writer : Writer β ε} (hholds : writer.stage.holds = false)
    (hs' : s'.writers = Function.update s.writers w (some writer)) : s'.Free := by
  rintro w' ⟨writer', hw', hholds'⟩
  rw [hs'] at hw'
  by_cases hne : w' = w
  · subst hne
    cases (Function.update_self ..).symm.trans hw'
    exact Bool.false_ne_true (hholds.symm.trans hholds')
  · exact h w' ⟨writer', (Function.update_of_ne hne ..).symm.trans hw', hholds'⟩

/-- A writer that is alone can succeed, and can fail for every reason. -/
theorem run_alone (hsound : s.dir.Sound) (hfree : s.Free) (hw : s.writers w = none) (payload : β)
    {result : Option ε} (hresult : ∀ e ∈ result, e ∈ writing.faults) :
    ∃ s' : System ω β ε, Run writing System.Free s s' ∧
      s'.writers = Function.update s.writers w (some ⟨payload, .finished result⟩) ∧
      s'.dir.read .target =
        result.elim (some (writing.encode payload)) fun _ => s.dir.read .target := by
  have hmay : (s.put w payload .waiting).Free := free_update hfree rfl rfl
  obtain ⟨s₁, hrun, -, hwriters, hentry, hclosed, hread⟩ :=
    run_close writing hsound hw hmay
  have hself : s₁.writers w = some ⟨payload, .closed⟩ := by rw [hwriters, Function.update_self]
  have hput {s₂ : System ω β ε} {writer writer' : Writer β ε}
      (h : s₂.writers = Function.update s.writers w (some writer)) :
      Function.update s₂.writers w (some writer') = Function.update s.writers w (some writer') := by
    rw [h, Function.update_idem]
  cases result with
  | none =>
    exact ⟨_, hrun.tail (.replace hself hentry), hput hwriters,
      (Dir.rename_read hentry).trans hclosed⟩
  | some e =>
    -- The write fails, the file cannot be put in place, or it is not opened at all.
    rcases hresult e rfl with rfl | rfl | hrefused
    · obtain ⟨s₂, hrun, hwriters, hdir⟩ := run_create writing hw hmay
      have hself : s₂.writers w =
          some ⟨payload, .writing (s.dir.openTruncate .temporary).2 0⟩ := by
        rw [hwriters, Function.update_self]
      refine ⟨_, (hrun.tail (.fail hself)).tail (.keep (Function.update_self ..)),
        (Function.update_idem ..).trans (hput hwriters), ?_⟩
      show s₂.dir.read .target = _
      rw [hdir]
      exact (Dir.openTruncate_spec hsound).2.2
    · exact ⟨_, (hrun.tail (.block hself)).tail (.keep (Function.update_self ..)),
        (Function.update_idem ..).trans (hput hwriters), hread⟩
    · have hstart : Step writing System.Free s (s.put w payload .waiting) := .start w payload hw
      exact ⟨_, (Relation.ReflTransGen.single hstart).tail
        (.refuse (Function.update_self ..) hrefused), Function.update_idem .., rfl⟩

end Alone

/-! ## Writers that do not exclude each other -/

/-- A writer that replaces the target puts in place what another one has written to the temporary
file since it was closed. -/
theorem torn_of_overlap (writing : Writing β ε) (hsound : s.dir.Sound) {w w' : ω} (hne : w ≠ w') (hw : s.writers w = none)
    (hw' : s.writers w' = none) (payload payload' : β) {k : Nat}
    (hk : k ≤ (writing.encode payload').length) :
    ∃ s' : System ω β ε, Run writing (fun _ => True) s s' ∧
      s'.writers w = some ⟨payload, .finished none⟩ ∧
      s'.dir.read .target = some ((writing.encode payload').take k) := by
  obtain ⟨s₁, hrun₁, hsound₁, hwriters₁, -, -, -⟩ :=
    @run_close _ _ _ writing s _ (fun _ => True) w payload hsound hw trivial
  have hw₁' : s₁.writers w' = none := by rw [hwriters₁, Function.update_of_ne hne.symm, hw']
  obtain ⟨s₂, file, hrun₂, hsound₂, hwriters₂, hentry, hcontent, -⟩ :=
    @run_write _ _ _ writing s₁ _ (fun _ => True) w' payload' hsound₁ hw₁' trivial k hk
  -- `w` has closed its own content, and renames that of `w'`.
  have hclosed : s₂.writers w = some ⟨payload, .closed⟩ := by
    rw [hwriters₂, Function.update_of_ne hne, hwriters₁, Function.update_self]
  have htemporary : s₂.dir.entry .temporary ≠ none := fun hnone =>
    Option.some_ne_none file (hentry.symm.trans hnone)
  refine ⟨_, (hrun₁.trans hrun₂).tail (.replace hclosed htemporary), Function.update_self .., ?_⟩
  refine (Dir.rename_read htemporary).trans ?_
  unfold Dir.read
  rw [hentry, Option.map_some, hcontent]

end Replace
