import LinkStateFabric.Text
import Mathlib.Data.List.Lex
import Mathlib.Order.Lattice

/-!
# Identifiers and generations (`ids.hpp`, `ids.cpp`, `generation.hpp`, `limits.hpp`)

* `StrongId tag`: an identifier of one domain. It holds the null identifier or a valid encoding
  and nothing else, as the constructors of the source's class guarantee.
* `StrongGeneration tag`: a counter of 64 bits that fails instead of wrapping (`next`).
-/

namespace LinkState

namespace limits

def maxIdentifierLength : Nat := 128
def maxDetailLength : Nat := 256
def maxEvidenceMetadataBytes : Nat := 2048
def maxBatchSize : Nat := 4096
def maxAuthorityScopeLinks : Nat := 65536
def maxLinks : Nat := 1000000
def maxEvidencePerLink : Nat := 64
def maxPublishers : Nat := 65536
def maxSnapshotRecords : Nat := 1000000
def maxRetainedSnapshots : Nat := 64
def maxHistoryPerLink : Nat := 32
def maxPersistedRecords : Nat := 1000000
def maxFramePayloadBytes : Nat := 2 ^ 20
def maxSessions : Nat := 1024

end limits

/-! ## Identifiers -/

inductive IdValidation where
  | ok | empty | tooLong | invalidCharacter | leadingSeparator | trailingSeparator | dotDot
  deriving DecidableEq, Repr

def IdValidation.text : IdValidation → Text
  | .ok => lit "OK"
  | .empty => lit "EMPTY"
  | .tooLong => lit "TOO_LONG"
  | .invalidCharacter => lit "INVALID_CHARACTER"
  | .leadingSeparator => lit "LEADING_SEPARATOR"
  | .trailingSeparator => lit "TRAILING_SEPARATOR"
  | .dotDot => lit "DOT_DOT"

/-- The code of an ASCII character. -/
def ascii (c : Char) : Nat := c.toNat

def isAlphanumeric (ch : UInt8) : Bool :=
  let c := ch.toNat
  (ascii '0' ≤ c && c ≤ ascii '9') || (ascii 'a' ≤ c && c ≤ ascii 'z') ||
    (ascii 'A' ≤ c && c ≤ ascii 'Z')

def isSeparator (ch : UInt8) : Bool :=
  let c := ch.toNat
  c = ascii '-' || c = ascii '_' || c = ascii '.' || c = ascii ':' || c = ascii '/'

/-- The loop of `validate_identifier`: the first bad character or the first `..`. -/
def scanIdentifier : Text → IdValidation
  | [] => .ok
  | ch :: rest =>
    if !isAlphanumeric ch && !isSeparator ch then .invalidCharacter
    else if ch.toNat = ascii '.' ∧ (rest.head?.map UInt8.toNat) = some (ascii '.') then .dotDot
    else scanIdentifier rest

/-- `validate_identifier`. -/
def validateIdentifier (value : Text) : IdValidation :=
  match value.head?, value.getLast? with
  | some front, some back =>
    if limits.maxIdentifierLength < value.length then .tooLong
    else match scanIdentifier value with
      | .ok =>
        if !isAlphanumeric front then .leadingSeparator
        else if !isAlphanumeric back then .trailingSeparator
        else .ok
      | bad => bad
  | _, _ => .empty

theorem ne_dot_of_isAlphanumeric {ch : UInt8} (h : isAlphanumeric ch = true) :
    ch.toNat ≠ ascii '.' := by
  intro hdot
  obtain rfl : ch = 46 := UInt8.toNat_inj.mp hdot
  exact absurd h (by decide)

theorem scanIdentifier_cons {ch : UInt8} (h : isAlphanumeric ch = true) (rest : Text) :
    scanIdentifier (ch :: rest) = scanIdentifier rest := by
  rw [scanIdentifier, h, if_neg (by simp), if_neg fun hdot => ne_dot_of_isAlphanumeric h hdot.1]

/-- Letters and digits may follow whatever is well formed. -/
theorem scanIdentifier_append {stem rest : Text} (hstem : scanIdentifier stem = .ok)
    (hrest : ∀ ch ∈ rest, isAlphanumeric ch = true) : scanIdentifier (stem ++ rest) = .ok := by
  induction stem with
  | nil =>
    induction rest with
    | nil => rfl
    | cons ch rest ih =>
      rw [List.nil_append, scanIdentifier_cons (hrest ch List.mem_cons_self)]
      exact ih fun c hc => hrest c (List.mem_cons_of_mem _ hc)
  | cons ch stem ih =>
    unfold scanIdentifier at hstem
    split at hstem
    · cases hstem
    rename_i hch
    split at hstem
    · cases hstem
    rename_i hdots
    rw [List.cons_append, scanIdentifier, if_neg hch, if_neg, ih hstem]
    rintro ⟨hdot, hnext⟩
    cases stem with
    | cons next stem => exact hdots ⟨hdot, hnext⟩
    | nil =>
      cases rest with
      | nil => cases hnext
      | cons next rest =>
        exact ne_dot_of_isAlphanumeric (hrest next List.mem_cons_self) (Option.some.inj hnext)

/-- A number may follow a short stem that is well formed but for its end. -/
theorem validateIdentifier_numbered {stem : Text} (hfront : stem.head?.any isAlphanumeric = true)
    (hstem : scanIdentifier stem = .ok) (hlength : stem.length + 20 ≤ limits.maxIdentifierLength)
    {number : Nat} (hnumber : number < 2 ^ 64) :
    validateIdentifier (stem ++ formatU64 number) = .ok := by
  have hdigits : ∀ ch ∈ formatU64 number, isAlphanumeric ch = true := by
    intro ch hch
    have := digit_of_mem_formatU64 hch
    simp [isAlphanumeric, ascii, this]
  obtain ⟨front, hhead, hfront⟩ := Option.any_eq_true _ _ |>.mp hfront
  have hlast := List.getLast?_eq_some_getLast (formatU64_ne_nil number)
  have hshort := length_formatU64_le hnumber
  unfold validateIdentifier
  rw [List.head?_append, hhead, Option.some_or, List.getLast?_append, hlast, Option.some_or]
  dsimp only
  rw [List.length_append, if_neg (by omega), scanIdentifier_append hstem hdigits]
  dsimp only
  rw [if_neg (by simp [hfront]), if_neg (by simp [hdigits _ (List.getLast_mem _)])]

/-- The domains of identifiers. -/
inductive IdTag where
  | fabric | site | device | port | link | endpoint | linkStateRecord | observation | publisher
  | workerBoot | publication | stateTransition | snapshot | source
  deriving DecidableEq, Repr

/-- An identifier: null (no bytes) or a valid encoding. -/
structure StrongId (tag : IdTag) where
  value : Text
  encoded : value = [] ∨ validateIdentifier value = .ok
  deriving DecidableEq

namespace StrongId

variable {tag : IdTag}

/-- The default constructed identifier. -/
def null : StrongId tag := ⟨[], .inl rfl⟩

instance : Inhabited (StrongId tag) := ⟨null⟩

/-- `valid()`: not null. -/
def valid (id : StrongId tag) : Bool := !id.value.isEmpty

/-- `from_validated`: a malformed encoding gives the null identifier. -/
def fromValidated (value : Text) : StrongId tag :=
  if h : validateIdentifier value = .ok then ⟨value, .inr h⟩ else null

@[ext] theorem ext {a b : StrongId tag} (h : a.value = b.value) : a = b := by
  cases a; cases b; simp only at h; subst h; rfl

/-- The bytes as numbers, which order identifiers as `std::string` orders its unsigned bytes. -/
def rank (id : StrongId tag) : List Nat := id.value.map UInt8.toNat

theorem rank_injective : Function.Injective (rank : StrongId tag → List Nat) := fun _ _ h =>
  ext (List.map_injective_iff.mpr (fun _ _ h => UInt8.toNat_inj.mp h) h)

instance : LinearOrder (StrongId tag) := LinearOrder.lift' rank rank_injective

theorem valid_iff {id : StrongId tag} : id.valid = true ↔ id.value ≠ [] := by
  simp [valid]

@[simp] theorem null_valid : (null : StrongId tag).valid = false := rfl

theorem valid_eq_false_iff {id : StrongId tag} : id.valid = false ↔ id = null := by
  rw [← Bool.not_eq_true, valid_iff, not_not]
  exact ⟨fun h => ext h, fun h => by rw [h]; rfl⟩

/-- A valid identifier has a valid encoding. -/
theorem validateIdentifier_value {id : StrongId tag} (h : id.valid = true) :
    validateIdentifier id.value = .ok := id.encoded.resolve_left (valid_iff.mp h)

theorem fromValidated_value (id : StrongId tag) : fromValidated id.value = id := by
  unfold fromValidated
  split
  · rfl
  · rename_i h
    exact ext (id.encoded.resolve_right h).symm

/-- The text of a numbered identifier is kept. -/
theorem value_fromValidated {value : Text} (h : validateIdentifier value = .ok) :
    (fromValidated value : StrongId tag).value = value := by
  rw [fromValidated, dif_pos h]

end StrongId

abbrev FabricId := StrongId .fabric
abbrev SiteId := StrongId .site
abbrev DeviceId := StrongId .device
abbrev PortId := StrongId .port
abbrev LinkId := StrongId .link
abbrev EndpointId := StrongId .endpoint
abbrev LinkStateRecordId := StrongId .linkStateRecord
abbrev ObservationId := StrongId .observation
abbrev PublisherId := StrongId .publisher
abbrev WorkerBootId := StrongId .workerBoot
abbrev PublicationId := StrongId .publication
abbrev StateTransitionId := StrongId .stateTransition
abbrev SnapshotId := StrongId .snapshot
abbrev SourceId := StrongId .source

/-! ## Generations -/

/-- The domains of generation counters. -/
inductive GenTag where
  | linkState | evidence | topology | endpoint | publisher | source | global | coordinatorEpoch
  | layout
  deriving DecidableEq, Repr

/-- A monotonic counter of 64 bits. -/
structure StrongGeneration (tag : GenTag) where
  value : Nat
  bounded : value < 2 ^ 64
  deriving DecidableEq

namespace StrongGeneration

variable {tag : GenTag}

def zero : StrongGeneration tag := ⟨0, by decide⟩

instance : Inhabited (StrongGeneration tag) := ⟨zero⟩

/-- `from_value` of a `std::uint64_t`. -/
def fromValue (value : Nat) : StrongGeneration tag := ⟨value % 2 ^ 64, Nat.mod_lt _ (by decide)⟩

def isZero (g : StrongGeneration tag) : Bool := g.value = 0

/-- The counter is at its last value. -/
def saturated (g : StrongGeneration tag) : Bool := g.value = 2 ^ 64 - 1

/-- `next`: the successor, or `none` when the counter is saturated. -/
def next (g : StrongGeneration tag) : Option (StrongGeneration tag) :=
  if h : g.value = 2 ^ 64 - 1 then none
  else some ⟨g.value + 1, by have := g.bounded; omega⟩

@[ext] theorem ext {a b : StrongGeneration tag} (h : a.value = b.value) : a = b := by
  cases a; cases b; simp only at h; subst h; rfl

theorem value_injective : Function.Injective (value : StrongGeneration tag → Nat) := fun _ _ => ext

instance : LinearOrder (StrongGeneration tag) := LinearOrder.lift' value value_injective

theorem lt_iff {a b : StrongGeneration tag} : a < b ↔ a.value < b.value := Iff.rfl

theorem le_iff {a b : StrongGeneration tag} : a ≤ b ↔ a.value ≤ b.value := Iff.rfl

theorem isZero_iff {g : StrongGeneration tag} : g.isZero = true ↔ g = zero := by
  simp only [isZero, decide_eq_true_eq]
  exact ⟨fun h => ext h, fun h => by rw [h]; rfl⟩

theorem next_eq_some {g g' : StrongGeneration tag} (h : g.next = some g') :
    g'.value = g.value + 1 := by
  unfold next at h
  split at h
  · cases h
  · cases h; rfl

theorem next_eq_none {g : StrongGeneration tag} : g.next = none ↔ g.saturated = true := by
  rw [saturated, decide_eq_true_eq]
  unfold next
  split
  · rename_i h; exact ⟨fun _ => h, fun _ => rfl⟩
  · rename_i h; exact ⟨fun h' => (nomatch h'), fun h' => (h h').elim⟩

theorem lt_next {g g' : StrongGeneration tag} (h : g.next = some g') : g < g' := by
  rw [lt_iff, next_eq_some h]; omega

/-- Nothing is above a saturated counter. -/
theorem saturated_of_le {g g' : StrongGeneration tag} (hg : g.saturated = true) (h : g ≤ g') :
    g'.saturated = true := by
  have := g'.bounded
  rw [le_iff] at h
  simp only [saturated, decide_eq_true_eq] at hg ⊢
  omega

/-- A counter that something is above is not saturated. -/
theorem not_saturated_of_lt {g g' g'' : StrongGeneration tag} (h : g ≤ g') (h' : g' < g'') :
    g.saturated = false := by
  have := g''.bounded
  rw [le_iff] at h
  rw [lt_iff] at h'
  simp only [saturated, decide_eq_false_iff_not]
  omega

@[simp] theorem fromValue_value (g : StrongGeneration tag) : fromValue g.value = g :=
  ext (Nat.mod_eq_of_lt g.bounded)

end StrongGeneration

abbrev LinkStateGeneration := StrongGeneration .linkState
abbrev EvidenceGeneration := StrongGeneration .evidence
abbrev TopologyGeneration := StrongGeneration .topology
abbrev EndpointGeneration := StrongGeneration .endpoint
abbrev PublisherGeneration := StrongGeneration .publisher
abbrev SourceGeneration := StrongGeneration .source
abbrev GlobalGeneration := StrongGeneration .global
abbrev CoordinatorEpoch := StrongGeneration .coordinatorEpoch
abbrev LayoutGeneration := StrongGeneration .layout

/-- `to_string` of a generation. -/
def StrongGeneration.text {tag : GenTag} (g : StrongGeneration tag) : Text := formatU64 g.value

/-- A `std::uint64_t` that is not a generation, such as an observation sequence. -/
abbrev U64 := Fin (2 ^ 64)

instance U64.neZero : NeZero (2 ^ 64) := ⟨by decide⟩

end LinkState
