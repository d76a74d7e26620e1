import Mathlib.Data.List.Infix
import Mathlib.Logic.Basic

/-!
# Calls over a connection

A client calls a server over a connection of two streams of bytes, one call after the other. It
sends a frame and waits for a frame; the server takes frames off what it has received and answers
each with a frame. What was sent arrives in pieces, a send can stop in the middle, and either side
can give up.

* `Framing`: an encoding of frames, and what a receiver finds in its buffer.
* `Conn`: a connection, with the bytes on the way and what has become of the calls. A call that the
  client has given up may still be handled.
* `Conn.Sound`: what is on its way to the server is a part of the newest request, and what is on its
  way to the client a part of the answer to it. Every move keeps this (`Conn.Sound.apply`), so that
  each call is answered at most once, and gets its own answer (`Call.Sound`).
* `Conn.Sound.taken`: the frame that the server takes is the newest request.
-/

namespace Calls

variable {β F : Type*}

/-- What a receiver finds at the front of its buffer. -/
inductive Scan (F : Type*) where
  | incomplete
  | frame (frame : F) (length : Nat)
  | broken

/-- An encoding of frames. Of a part of a frame that may be sent, a receiver takes nothing for a
frame but the whole. -/
structure Framing (β F : Type*) where
  encode : F → List β
  scan : List β → Scan F
  Sendable : F → Prop
  scan_nil : scan [] = .incomplete
  scan_part : ∀ {f g : F} {part : List β} {n : Nat}, Sendable f → part <+: encode f →
    scan part = .frame g n → part = encode f ∧ g = f ∧ n = part.length

/-! ## Connections -/

/-- An answer of the server, with the time at which it carried out the request. It has carried out
nothing where it refused the bytes that it received. -/
structure Answer (F : Type*) where
  frame : F
  moment : Option Nat

inductive Result (F : Type*) where
  | replied (frame : F)
  | failed

/-- A call, with what has become of it. -/
structure Call (F : Type*) where
  request : F
  /-- The request was sent whole. -/
  sent : Bool
  begun : Nat
  answers : List (Answer F) := []
  ended : Option (Result F × Nat) := none

structure Conn (β F : Type*) where
  /-- The client uses the connection. -/
  connected : Bool := true
  /-- The server reads from the connection. -/
  serving : Bool := true
  /-- What the client has sent and the server has not received. -/
  up : List β := []
  /-- What the server has received and not taken. -/
  inbox : List β := []
  /-- What the server has sent and the client has not received. -/
  down : List β := []
  /-- What the client has received and not taken. -/
  buffer : List β := []
  /-- The calls, the newest first. -/
  calls : List (Call F) := []
  clock : Nat := 0

/-- A move of either side. Of what is sent, `n` bytes are. -/
inductive Move (F : Type*) where
  | call (request : F) (n : Nat)
  | arrive (n : Nat)
  | handle (length : Nat) (reply : F) (n : Nat) (keep : Bool)
  | refuse (reply : F) (n : Nat)
  | receive (n : Nat)
  | finish (frame : F)
  | fail

namespace Conn

variable (framing : Framing β F) (c : Conn β F)

/-- The newest call has not ended. -/
def Outstanding : Prop := ∃ call rest, c.calls = call :: rest ∧ call.ended = none

/-- When a move can be made. -/
def Enabled : Move F → Prop
  | .call request _ => c.connected = true ∧ ¬ c.Outstanding ∧ framing.Sendable request
  | .arrive _ => c.serving = true
  | .handle length reply _ _ =>
    c.serving = true ∧ (∃ frame, framing.scan c.inbox = .frame frame length) ∧
      framing.Sendable reply
  | .refuse reply _ => c.serving = true ∧ c.inbox ≠ [] ∧ framing.Sendable reply
  | .receive _ | .fail => c.connected = true ∧ c.Outstanding
  | .finish frame =>
    c.connected = true ∧ c.Outstanding ∧ ∃ length, framing.scan c.buffer = .frame frame length

/-- The newest call takes an answer. -/
def answer (reply : F) (moment : Option Nat) : Conn β F :=
  { c with calls := c.calls.modifyHead fun call =>
      { call with answers := ⟨reply, moment⟩ :: call.answers } }

/-- The newest call ends. -/
def endCall (result : Result F) (now : Nat) : Conn β F :=
  { c with
    calls := c.calls.modifyHead fun call => { call with ended := some (result, now) }
    buffer := [] }

/-- The effect of a move. -/
def apply (now : Nat) : Move F → Conn β F
  | .call request n =>
    let bytes := framing.encode request
    let sent := decide (bytes.length ≤ n)
    { c with
      connected := sent
      up := c.up ++ bytes.take n
      calls :=
        { request, sent, begun := now, ended := if sent then none else some (.failed, now) } ::
          c.calls
      clock := now }
  | .arrive n => { c with inbox := c.inbox ++ c.up.take n, up := c.up.drop n, clock := now }
  | .handle length reply n keep =>
    let bytes := framing.encode reply
    { c.answer reply (some now) with
      inbox := c.inbox.drop length
      down := c.down ++ bytes.take n
      serving := keep && decide (bytes.length ≤ n)
      clock := now + 1 }
  | .refuse reply n =>
    { c.answer reply none with
      down := c.down ++ (framing.encode reply).take n
      serving := false
      clock := now }
  | .receive n => { c with buffer := c.buffer ++ c.down.take n, down := c.down.drop n, clock := now }
  | .finish frame => { c.endCall (.replied frame) now with clock := now }
  | .fail => { c.endCall .failed now with connected := false, clock := now }

end Conn

/-! ## What is on its way -/

/-- The call has been answered at most once, while it lasted if it has ended with a reply, and not
at all if it was not sent. -/
structure Call.Sound (clock : Nat) (call : Call F) : Prop where
  begun : call.begun ≤ clock
  once : call.answers.length ≤ 1
  unsent : call.sent = false → ∀ answer ∈ call.answers, answer.moment = none
  during : ∀ answer ∈ call.answers, ∀ k, answer.moment = some k → call.begun ≤ k ∧ k < clock
  ended : ∀ result t, call.ended = some (result, t) → call.begun ≤ t ∧ t ≤ clock
  replied : ∀ frame t, call.ended = some (.replied frame, t) →
    ∃ moment, call.answers = [⟨frame, moment⟩] ∧ ∀ k, moment = some k → k < t

/-- A call has ended, and what was carried out of it was, before another call began. -/
structure Call.Precedes (earlier later : Call F) : Prop where
  ended : ∃ result t, earlier.ended = some (result, t) ∧ t ≤ later.begun
  carried : ∀ answer ∈ earlier.answers, ∀ k, answer.moment = some k → k < later.begun

namespace Conn

/-- What is on its way to the server is a part of the newest request, which is not answered. -/
def Asks (framing : Framing β F) (c : Conn β F) : Prop :=
  ∃ call rest, c.calls = call :: rest ∧ call.answers = [] ∧ framing.Sendable call.request ∧
    c.inbox ++ c.up <+: framing.encode call.request ∧
    (c.inbox ++ c.up = framing.encode call.request → call.sent = true)

/-- What is on its way to the client is a part of the answer to the newest request. -/
def Replies (framing : Framing β F) (c : Conn β F) : Prop :=
  ∃ call rest answer, c.calls = call :: rest ∧ call.ended = none ∧ call.answers = [answer] ∧
    framing.Sendable answer.frame ∧ c.buffer ++ c.down <+: framing.encode answer.frame

structure Sound (framing : Framing β F) (c : Conn β F) : Prop where
  served : c.serving = true → c.inbox ++ c.up = [] ∨ c.Asks framing
  awaited : c.connected = true → c.buffer ++ c.down = [] ∨ c.Replies framing
  waits : c.connected = true → ∀ call rest, c.calls = call :: rest → call.answers = [] →
    call.ended = none
  calls : ∀ call ∈ c.calls, call.Sound c.clock
  ordered : c.calls.Pairwise fun later earlier => earlier.Precedes later

variable {framing : Framing β F} {c : Conn β F} {now : Nat}

theorem sound_new : ({} : Conn β F).Sound framing where
  served _ := .inl rfl
  awaited _ := .inl rfl
  waits _ _ _ h := by cases h
  calls := List.forall_mem_nil _
  ordered := .nil

theorem Call.Sound.mono {call : Call F} {clock clock' : Nat} (h : call.Sound clock)
    (hle : clock ≤ clock') : call.Sound clock' where
  begun := h.begun.trans hle
  once := h.once
  unsent := h.unsent
  during answer hanswer k hk := ⟨(h.during answer hanswer k hk).1,
    (h.during answer hanswer k hk).2.trans_le hle⟩
  ended result t ht := ⟨(h.ended result t ht).1, (h.ended result t ht).2.trans hle⟩
  replied := h.replied

/-- A scan that finds a frame finds something. -/
theorem ne_nil_of_scan {bytes : List β} {frame : F} {length : Nat}
    (h : framing.scan bytes = .frame frame length) : bytes ≠ [] := by
  rintro rfl
  rw [framing.scan_nil] at h
  cases h

/-- The frame that the server takes is the newest request, whole. -/
theorem Sound.taken (h : c.Sound framing) (hserving : c.serving = true) {frame : F} {length : Nat}
    (hscan : framing.scan c.inbox = .frame frame length) :
    ∃ call rest, c.calls = call :: rest ∧ call.answers = [] ∧ call.request = frame ∧
      call.sent = true ∧ c.inbox.drop length = [] ∧ c.up = [] := by
  rcases h.served hserving with hnil | ⟨call, rest, hcalls, hanswers, hsendable, hpre, hsent⟩
  · exact absurd (List.append_eq_nil_iff.mp hnil).1 (ne_nil_of_scan hscan)
  obtain ⟨hinbox, hframe, hlength⟩ :=
    framing.scan_part hsendable ((List.prefix_append _ _).trans hpre) hscan
  have hup : c.up = [] := by
    have := hpre.length_le
    rw [List.length_append, ← hinbox] at this
    exact List.length_eq_zero_iff.mp (by omega)
  refine ⟨call, rest, hcalls, hanswers, hframe.symm, hsent ?_, ?_, hup⟩
  · rw [hup, List.append_nil, hinbox]
  · rw [hlength, List.drop_length]

/-- The frame that the client takes is the answer to its call, whole. -/
theorem Sound.returned (h : c.Sound framing) (hconnected : c.connected = true) {frame : F}
    {length : Nat} (hscan : framing.scan c.buffer = .frame frame length) :
    ∃ call rest moment, c.calls = call :: rest ∧ call.ended = none ∧
      call.answers = [⟨frame, moment⟩] ∧ c.down = [] := by
  rcases h.awaited hconnected with hnil | ⟨call, rest, answer, hcalls, hended, hanswers, hsendable, hpre⟩
  · exact absurd (List.append_eq_nil_iff.mp hnil).1 (ne_nil_of_scan hscan)
  obtain ⟨hbuffer, rfl, -⟩ :=
    framing.scan_part hsendable ((List.prefix_append _ _).trans hpre) hscan
  have hdown : c.down = [] := by
    have := hpre.length_le
    rw [List.length_append, ← hbuffer] at this
    exact List.length_eq_zero_iff.mp (by omega)
  exact ⟨call, rest, answer.moment, hcalls, hended, hanswers, hdown⟩

/-- Where no call is outstanding, nothing is on its way to a client that is connected. -/
theorem Sound.idle_down (h : c.Sound framing) (hconnected : c.connected = true)
    (hidle : ¬ c.Outstanding) : c.buffer ++ c.down = [] := by
  refine (h.awaited hconnected).resolve_right ?_
  rintro ⟨call, rest, answer, hcalls, hnone, -⟩
  exact hidle ⟨call, rest, hcalls, hnone⟩

/-- Nor to the server, where it still reads. -/
theorem Sound.idle_up (h : c.Sound framing) (hconnected : c.connected = true)
    (hidle : ¬ c.Outstanding) (hserving : c.serving = true) : c.inbox ++ c.up = [] := by
  refine (h.served hserving).resolve_right ?_
  rintro ⟨call, rest, hcalls, hanswers, -⟩
  exact hidle ⟨call, rest, hcalls, h.waits hconnected call rest hcalls hanswers⟩

/-! ## The moves -/

section Moves

variable (h : c.Sound framing) (hnow : c.clock ≤ now)
include h hnow

theorem Sound.call {request : F} (n : Nat) (henabled : c.Enabled framing (.call request n)) :
    (c.apply framing now (.call request n)).Sound framing := by
  obtain ⟨hconnected, hidle, hsendable⟩ := henabled
  -- A client that is idle has no call under way, since only its newest one can be.
  have hended : ∀ call ∈ c.calls, ∃ result t, call.ended = some (result, t) := by
    intro call hcall
    cases hcalls : c.calls with
    | nil => rw [hcalls] at hcall; cases hcall
    | cons head rest =>
      rw [hcalls] at hcall
      rcases List.mem_cons.mp hcall with rfl | hcall
      · cases hend : call.ended with
        | none => exact absurd ⟨call, rest, hcalls, hend⟩ hidle
        | some result => exact ⟨result.1, result.2, rfl⟩
      · have hordered := h.ordered
        rw [hcalls, List.pairwise_cons] at hordered
        obtain ⟨result, t, heq, -⟩ := (hordered.1 call hcall).ended
        exact ⟨result, t, heq⟩
  refine ⟨fun hserving => .inr ⟨_, _, rfl, rfl, hsendable, ?_, ?_⟩, fun _ =>
    .inl (h.idle_down hconnected hidle), ?_, ?_, ?_⟩
  · rw [Conn.apply, ← List.append_assoc, h.idle_up hconnected hidle hserving, List.nil_append]
    exact List.take_prefix _ _
  -- What was sent is as long as the frame, so that nothing of it was cut off.
  · intro heq
    rw [Conn.apply, ← List.append_assoc, h.idle_up hconnected hidle hserving,
      List.nil_append] at heq
    have hlength : ((framing.encode request).take n).length = (framing.encode request).length :=
      congrArg List.length heq
    rw [List.length_take] at hlength
    exact decide_eq_true (by omega)
  · intro hsent call rest hcalls _
    obtain ⟨rfl, -⟩ := List.cons.inj hcalls
    exact if_pos hsent
  · intro call hcall
    rcases List.mem_cons.mp hcall with rfl | hcall
    · refine ⟨le_rfl, Nat.zero_le _, fun _ => List.forall_mem_nil _, List.forall_mem_nil _, ?_, ?_⟩
      · intro result t heq
        dsimp only at heq
        split at heq <;> cases heq
        exact ⟨le_rfl, le_rfl⟩
      · intro frame t heq
        dsimp only at heq
        split at heq <;> cases heq
    · exact Call.Sound.mono (h.calls call hcall) hnow
  · refine List.pairwise_cons.mpr ⟨fun call hcall => ?_, h.ordered⟩
    obtain ⟨result, t, heq⟩ := hended call hcall
    exact ⟨⟨result, t, heq, ((h.calls call hcall).ended result t heq).2.trans hnow⟩,
      fun answer hanswer k hk => ((h.calls call hcall).during answer hanswer k hk).2.trans_le hnow⟩

theorem Sound.arrive (n : Nat) : (c.apply framing now (.arrive n)).Sound framing := by
  have hbytes : c.inbox ++ c.up.take n ++ c.up.drop n = c.inbox ++ c.up := by
    rw [List.append_assoc, List.take_append_drop]
  refine ⟨fun hserving => ?_, h.awaited, h.waits, fun call hcall =>
    Call.Sound.mono (h.calls call hcall) hnow, h.ordered⟩
  unfold Asks
  simp only [Conn.apply, hbytes]
  exact h.served hserving

theorem Sound.receive (n : Nat) : (c.apply framing now (.receive n)).Sound framing := by
  have hbytes : c.buffer ++ c.down.take n ++ c.down.drop n = c.buffer ++ c.down := by
    rw [List.append_assoc, List.take_append_drop]
  refine ⟨h.served, fun hconnected => ?_, h.waits, fun call hcall =>
    Call.Sound.mono (h.calls call hcall) hnow, h.ordered⟩
  unfold Replies
  simp only [Conn.apply, hbytes]
  exact h.awaited hconnected

/-- The newest call is answered for the first time. -/
theorem Sound.answered {call : Call F} {rest : List (Call F)} (hcalls : c.calls = call :: rest)
    (hanswers : call.answers = []) {reply : F} (hreply : framing.Sendable reply)
    {moment : Option Nat} {clock : Nat} (hclock : now ≤ clock)
    (hmoment : ∀ k, moment = some k → call.sent = true ∧ k = now ∧ now < clock)
    (serving : Bool) {inbox : List β} (htaken : serving = true → inbox ++ c.up = []) (n : Nat) :
    ({ c.answer reply moment with
      inbox, serving, clock
      down := c.down ++ (framing.encode reply).take n } : Conn β F).Sound framing := by
  have hcall := h.calls call (by rw [hcalls]; exact List.mem_cons_self)
  have hnewest : (c.answer reply moment).calls =
      { call with answers := [⟨reply, moment⟩] } :: rest := by
    rw [answer, hcalls, List.modifyHead_cons, hanswers]
  have hordered := h.ordered
  rw [hcalls, List.pairwise_cons] at hordered
  refine ⟨fun hserving => .inl (htaken hserving), fun hconnected => .inr ?_, ?_, ?_, ?_⟩
  · refine ⟨_, _, _, hnewest, h.waits hconnected call rest hcalls hanswers, rfl, hreply, ?_⟩
    -- Nothing else can be on its way to the client, since the call had no answer so far.
    have htoClient : c.buffer ++ c.down = [] := by
      refine (h.awaited hconnected).resolve_right ?_
      rintro ⟨call', rest', a, hcalls', -, hone, -⟩
      rw [hcalls] at hcalls'
      cases hcalls'
      rw [hanswers] at hone
      cases hone
    dsimp only [answer]
    rw [← List.append_assoc, htoClient, List.nil_append]
    exact List.take_prefix _ _
  · intro _ call' rest' hcalls' hnone
    dsimp only at hcalls'
    rw [hnewest] at hcalls'
    cases hcalls'
    cases hnone
  · intro call' hcall'
    dsimp only at hcall'
    rw [hnewest] at hcall'
    rcases List.mem_cons.mp hcall' with rfl | hcall'
    · refine ⟨hcall.begun.trans (hnow.trans hclock), le_rfl, fun hsent a ha => ?_,
        fun a ha k hk => ?_, fun result t heq => ?_, fun frame t heq => ?_⟩
      · cases List.mem_singleton.mp ha
        cases hm : moment with
        | none => rfl
        | some k => exact absurd (hmoment k hm).1 (Bool.eq_false_iff.mp hsent)
      · cases List.mem_singleton.mp ha
        obtain ⟨-, rfl, hlt⟩ := hmoment k hk
        exact ⟨hcall.begun.trans hnow, hlt⟩
      · exact ⟨(hcall.ended result t heq).1, (hcall.ended result t heq).2.trans (hnow.trans hclock)⟩
      · -- a call that has got its reply has been answered before
        obtain ⟨_, hone, -⟩ := hcall.replied frame t heq
        rw [hanswers] at hone
        cases hone
    · have hmem : call' ∈ c.calls := by rw [hcalls]; exact List.mem_cons_of_mem _ hcall'
      exact Call.Sound.mono (h.calls call' hmem) (hnow.trans hclock)
  · dsimp only
    rw [hnewest]
    exact List.pairwise_cons.mpr ⟨fun earlier hearlier =>
      ⟨(hordered.1 earlier hearlier).ended, (hordered.1 earlier hearlier).carried⟩, hordered.2⟩

theorem Sound.handle {length n : Nat} {reply : F} {keep : Bool}
    (henabled : c.Enabled framing (.handle length reply n keep)) :
    (c.apply framing now (.handle length reply n keep)).Sound framing := by
  obtain ⟨hserving, ⟨frame, hscan⟩, hreply⟩ := henabled
  obtain ⟨call, rest, hcalls, hanswers, -, hsent, hinbox, hup⟩ := h.taken hserving hscan
  refine h.answered hnow hcalls hanswers hreply (Nat.le_succ now) (fun k hk => ?_) _ (fun _ => ?_) n
  · cases hk
    exact ⟨hsent, rfl, Nat.lt_succ_self now⟩
  · rw [hinbox, hup, List.nil_append]

theorem Sound.refuse {n : Nat} {reply : F} (henabled : c.Enabled framing (.refuse reply n)) :
    (c.apply framing now (.refuse reply n)).Sound framing := by
  obtain ⟨hserving, hinbox, hreply⟩ := henabled
  obtain ⟨call, rest, hcalls, hanswers, -⟩ := (h.served hserving).resolve_left fun hnil =>
    hinbox (List.append_eq_nil_iff.mp hnil).1
  exact h.answered hnow hcalls hanswers hreply le_rfl (fun k hk => by cases hk) false
    (fun hfalse => by cases hfalse) n

/-- The newest call ends. It ends with a reply that it has got. -/
theorem Sound.ends {call : Call F} {rest : List (Call F)} (hcalls : c.calls = call :: rest)
    {result : Result F} {connected : Bool} (hconnected : connected = true → c.connected = true ∧
      c.down = [] ∧ call.answers ≠ [])
    (hresult : ∀ frame, result = .replied frame → ∃ moment, call.answers = [⟨frame, moment⟩]) :
    ({ c.endCall result now with connected, clock := now } : Conn β F).Sound framing := by
  have hcall := h.calls call (by rw [hcalls]; exact List.mem_cons_self)
  -- Only the newest call ends, and the ones before it are as they were.
  have hnewest : (c.endCall result now).calls = { call with ended := some (result, now) } :: rest := by
    rw [endCall, hcalls, List.modifyHead_cons]
  have hordered := h.ordered
  rw [hcalls, List.pairwise_cons] at hordered
  refine ⟨fun hserving => ?_, fun hopen => .inl ?_, ?_, ?_, ?_⟩
  · refine (h.served hserving).imp_right ?_
    -- What the client has sent is still on its way, or half of it.
    rintro ⟨call', rest', hcalls', hanswers, hsendable, hpre, hsent⟩
    rw [hcalls] at hcalls'
    cases hcalls'
    exact ⟨_, _, hnewest, hanswers, hsendable, hpre, hsent⟩
  · exact (hconnected hopen).2.1
  · intro hopen call' rest' hcalls' hanswers
    dsimp only at hcalls'
    rw [hnewest] at hcalls'
    cases hcalls'
    exact absurd hanswers (hconnected hopen).2.2
  · intro call' hcall'
    dsimp only at hcall'
    rw [hnewest] at hcall'
    rcases List.mem_cons.mp hcall' with rfl | hcall'
    · refine ⟨hcall.begun.trans hnow, hcall.once, hcall.unsent, fun a ha k hk =>
        ⟨(hcall.during a ha k hk).1, (hcall.during a ha k hk).2.trans_le hnow⟩,
        fun result' t heq => ?_, fun frame t heq => ?_⟩
      · cases heq
        exact ⟨hcall.begun.trans hnow, le_rfl⟩
      · cases heq
        obtain ⟨moment, hone⟩ := hresult frame rfl
        refine ⟨moment, hone, fun k hk => ?_⟩
        exact (hcall.during _ (by rw [hone]; exact List.mem_singleton_self _) k hk).2.trans_le hnow
    · have hmem : call' ∈ c.calls := by rw [hcalls]; exact List.mem_cons_of_mem _ hcall'
      exact Call.Sound.mono (h.calls call' hmem) hnow
  · dsimp only
    rw [hnewest]
    exact List.pairwise_cons.mpr ⟨fun earlier hearlier =>
      ⟨(hordered.1 earlier hearlier).ended, (hordered.1 earlier hearlier).carried⟩, hordered.2⟩

theorem Sound.finish {frame : F} (henabled : c.Enabled framing (.finish frame)) :
    (c.apply framing now (.finish frame)).Sound framing := by
  obtain ⟨hconnected, -, length, hscan⟩ := henabled
  obtain ⟨call, rest, moment, hcalls, -, hanswers, hdown⟩ := h.returned hconnected hscan
  refine h.ends hnow hcalls (fun _ => ⟨hconnected, hdown, ?_⟩) fun frame' heq => ?_
  · rw [hanswers]
    exact List.cons_ne_nil _ _
  · cases heq
    exact ⟨moment, hanswers⟩

theorem Sound.fail (henabled : c.Enabled framing .fail) :
    (c.apply framing now .fail).Sound framing := by
  obtain ⟨-, call, rest, hcalls, -⟩ := henabled
  exact h.ends hnow hcalls (fun hfalse => by cases hfalse) fun _ heq => by cases heq

theorem Sound.apply {move : Move F} (henabled : c.Enabled framing move) :
    (c.apply framing now move).Sound framing := by
  cases move with
  | call request n => exact h.call hnow n henabled
  | arrive n => exact h.arrive hnow n
  | handle length reply n keep => exact h.handle hnow henabled
  | refuse reply n => exact h.refuse hnow henabled
  | receive n => exact h.receive hnow n
  | finish frame => exact h.finish hnow henabled
  | fail => exact h.fail hnow henabled

end Moves

/-! ## What is carried out -/

/-- What a move answers to a call. -/
def Gives (framing : Framing β F) (c : Conn β F) (now : Nat) (call : Call F) (answer : Answer F) :
    Move F → Prop
  | .handle length reply _ _ =>
    framing.scan c.inbox = .frame call.request length ∧ answer = ⟨reply, some now⟩
  | .refuse reply _ => c.inbox <+: framing.encode call.request ∧ framing.Sendable call.request ∧
    answer = ⟨reply, none⟩
  | _ => False

/-- An answer is there before a move, or is what the move gives. -/
theorem Sound.answers_apply (h : c.Sound framing) {move : Move F}
    (henabled : c.Enabled framing move) {call : Call F}
    (hcall : call ∈ (c.apply framing now move).calls) {answer : Answer F}
    (hanswer : answer ∈ call.answers) :
    (∃ before ∈ c.calls, before.request = call.request ∧ answer ∈ before.answers) ∨
      Gives framing c now call answer move := by
  have hold (hmem : call ∈ c.calls) : ∃ before ∈ c.calls, before.request = call.request ∧
      answer ∈ before.answers := ⟨call, hmem, rfl, hanswer⟩
  have hended (result : Result F) (hmem : call ∈ (c.endCall result now).calls) :
      ∃ before ∈ c.calls, before.request = call.request ∧ answer ∈ before.answers := by
    rw [endCall] at hmem
    cases hcalls : c.calls with
    | nil =>
      rw [hcalls] at hmem
      cases hmem
    | cons head rest =>
      rw [hcalls, List.modifyHead_cons] at hmem
      rcases List.mem_cons.mp hmem with rfl | hmem
      · exact ⟨head, List.mem_cons_self, rfl, hanswer⟩
      · exact ⟨call, List.mem_cons_of_mem _ hmem, rfl, hanswer⟩
  have hanswered {newest : Call F} {rest : List (Call F)} (hcalls : c.calls = newest :: rest)
      (hnone : newest.answers = []) {reply : F} {moment : Option Nat}
      (hmem : call ∈ (c.answer reply moment).calls) :
      (∃ before ∈ c.calls, before.request = call.request ∧ answer ∈ before.answers) ∨
        call.request = newest.request ∧ answer = ⟨reply, moment⟩ := by
    rw [Conn.answer, hcalls, List.modifyHead_cons, hnone] at hmem
    rcases List.mem_cons.mp hmem with rfl | hmem
    · exact .inr ⟨rfl, List.mem_singleton.mp hanswer⟩
    · rw [hcalls]
      exact .inl ⟨call, List.mem_cons_of_mem _ hmem, rfl, hanswer⟩
  -- Only the two moves of the server add an answer, and both give it to the newest call.
  cases move with
  | call request n =>
    rcases List.mem_cons.mp hcall with rfl | hmem
    · cases hanswer
    · exact .inl (hold hmem)
  | arrive n => exact .inl (hold hcall)
  | receive n => exact .inl (hold hcall)
  | finish frame => exact .inl (hended _ hcall)
  | fail => exact .inl (hended _ hcall)
  | handle length reply n keep =>
    obtain ⟨hserving, ⟨frame, hscan⟩, -⟩ := henabled
    obtain ⟨newest, rest, hcalls, hnone, hframe, -⟩ := h.taken hserving hscan
    refine (hanswered hcalls hnone hcall).imp_right ?_
    rintro ⟨hrequest, rfl⟩
    exact ⟨by rw [hscan, hrequest, hframe], rfl⟩
  | refuse reply n =>
    obtain ⟨hserving, hinbox, -⟩ := henabled
    obtain ⟨newest, rest, hcalls, hnone, hsendable, hpre, -⟩ :=
      (h.served hserving).resolve_left fun hnil => hinbox (List.append_eq_nil_iff.mp hnil).1
    refine (hanswered hcalls hnone hcall).imp_right ?_
    rintro ⟨hrequest, rfl⟩
    exact ⟨by rw [hrequest]; exact (List.prefix_append _ _).trans hpre,
      by rw [hrequest]; exact hsendable, rfl⟩

/-- An answer stays. -/
theorem Sound.answered_apply (h : c.Sound framing) {move : Move F}
    (henabled : c.Enabled framing move) {call : Call F} (hcall : call ∈ c.calls)
    {answer : Answer F} (hanswer : call.answers = [answer]) :
    ∃ after ∈ (c.apply framing now move).calls, after.request = call.request ∧
      after.answers = [answer] := by
  have hended (result : Result F) : ∃ after ∈ (c.endCall result now).calls,
      after.request = call.request ∧ after.answers = [answer] := by
    rw [endCall]
    cases hcalls : c.calls with
    | nil =>
      rw [hcalls] at hcall
      cases hcall
    | cons head rest =>
      rw [hcalls] at hcall
      rcases List.mem_cons.mp hcall with rfl | hmem
      · exact ⟨_, List.mem_cons_self, rfl, hanswer⟩
      · exact ⟨call, List.mem_cons_of_mem _ hmem, rfl, hanswer⟩
  have hanswered {newest : Call F} {rest : List (Call F)} (hcalls : c.calls = newest :: rest)
      (hnone : newest.answers = []) (reply : F) (moment : Option Nat) :
      ∃ after ∈ (c.answer reply moment).calls, after.request = call.request ∧
        after.answers = [answer] := by
    rw [hcalls] at hcall
    rcases List.mem_cons.mp hcall with rfl | hmem
    -- The newest call had no answer so far, so that it is not this one.
    · rw [hnone] at hanswer
      cases hanswer
    · rw [Conn.answer, hcalls]
      exact ⟨call, List.mem_cons_of_mem _ hmem, rfl, hanswer⟩
  cases move with
  | call request n => exact ⟨call, List.mem_cons_of_mem _ hcall, rfl, hanswer⟩
  | arrive n => exact ⟨call, hcall, rfl, hanswer⟩
  | receive n => exact ⟨call, hcall, rfl, hanswer⟩
  | finish frame => exact hended _
  | fail => exact hended _
  | handle length reply n keep =>
    obtain ⟨hserving, ⟨frame, hscan⟩, -⟩ := henabled
    obtain ⟨newest, rest, hcalls, hnone, -⟩ := h.taken hserving hscan
    exact hanswered hcalls hnone _ _
  | refuse reply n =>
    obtain ⟨hserving, hinbox, -⟩ := henabled
    obtain ⟨newest, rest, hcalls, hnone, -⟩ := (h.served hserving).resolve_left fun hnil =>
      hinbox (List.append_eq_nil_iff.mp hnil).1
    exact hanswered hcalls hnone _ _

/-- The frame that the server takes is answered as a call. -/
theorem Sound.handled (h : c.Sound framing) {length n : Nat} {reply : F} {keep : Bool}
    (hserving : c.serving = true) {frame : F} (hscan : framing.scan c.inbox = .frame frame length) :
    ∃ after ∈ (c.apply framing now (.handle length reply n keep)).calls, after.request = frame ∧
      after.answers = [⟨reply, some now⟩] := by
  obtain ⟨newest, rest, hcalls, hnone, hframe, -⟩ := h.taken hserving hscan
  rw [Conn.apply, Conn.answer, hcalls]
  refine ⟨_, List.mem_cons_self, hframe, ?_⟩
  dsimp only
  rw [hnone]

end Conn

end Calls
