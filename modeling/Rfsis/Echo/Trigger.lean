import Mathlib.Data.List.TakeWhile
import Rfsis.Transition
import Rfsis.Echo.Datagram

/-!
The remote shutdown of the UDP echo: what sets `udpecho_exit`.

`cb_udpecho` tests the first three bytes of its buffer after every positive
answer. The buffer is cleared once for a call, so a datagram of one or two bytes
is tested together with bytes of an earlier one; the test is made for every piece
of an over-long datagram; and what is behind an empty datagram is not looked at
in that call. `udpecho_exit_exact_iff` says when, all the same, the shutdown is
asked for exactly by the datagrams that begin with "end".
-/

namespace Rfsis.Echo

open Rfsis.Pieces Rfsis.Transition

/-- The echo on its socket. Not in the program: `arrived` keeps every datagram that
has come in. -/
structure Listening where
  app : UdpEcho := {}
  arrived : List UdpFrame := []
deriving DecidableEq, Repr

/-- Datagrams come in, and the stack calls `cb_udpecho` for `PICO_SOCK_EV_RD`. -/
def Listening.step (s : Listening) (batch : List UdpFrame) : Option Listening :=
  some {
    app := cbUdpecho evRd { s.app with qIn := s.app.qIn ++ batch }
    arrived := s.arrived ++ batch }

/-- The runs of the echo from the start of the process. -/
abbrev ListenRun (batches : List (List UdpFrame)) (s : Listening) : Prop :=
  Run Listening.step {} batches s

/-- The payload begins with "end". -/
def UdpFrame.AsksExit (f : UdpFrame) : Prop :=
  endBytes <+: f.payload

instance (f : UdpFrame) : Decidable f.AsksExit :=
  inferInstanceAs (Decidable (_ <+: _))

/-- The shutdown has been asked for and scheduled exactly if some datagram that
has come in begins with "end". -/
def ExactTrigger (s : Listening) : Prop :=
  (s.app.udpechoExit ≠ 0 ∧ s.app.timers ≠ []) ↔ ∃ f ∈ s.arrived, f.AsksExit

instance (s : Listening) : Decidable (ExactTrigger s) :=
  inferInstanceAs (Decidable (_ ↔ _))

/-- The datagrams before the first empty one. -/
def beforeEmpty (q : List UdpFrame) : List UdpFrame :=
  q.takeWhile fun f => f.payload ≠ []

/-- What these datagrams put into the buffer, piece by piece. -/
def handedOut (q : List UdpFrame) : List (List UInt8) :=
  (beforeEmpty q).flatMap fun f => pieces datasize f.payload

/-- At some point of these pieces, the bytes last stored at the first three places
of the buffer are "end". -/
def SpellsEnd (ps : List (List UInt8)) : Prop :=
  ∃ qs ∈ ps.inits, ∀ j < 3, lastAt qs j = endBytes[j]?

instance (ps : List (List UInt8)) : Decidable (SpellsEnd ps) :=
  inferInstanceAs (Decidable (∃ qs ∈ ps.inits, ∀ j < 3, lastAt qs j = endBytes[j]?))

/-- Nothing but whole datagrams decides about the shutdown: either one before the
first empty datagram asks for it, or the pieces of those spell "end" only if one
behind it asks, and then they do. -/
def TriggerFits (s : Listening) (batch : List UdpFrame) : Prop :=
  s.app.udpechoExit = 0 →
    (∃ f ∈ beforeEmpty (s.app.qIn ++ batch), f.AsksExit) ∨
      (SpellsEnd (handedOut (s.app.qIn ++ batch)) ↔
        ∃ f ∈ behindEmpty (s.app.qIn ++ batch), f.AsksExit)

instance (s : Listening) (batch : List UdpFrame) : Decidable (TriggerFits s batch) :=
  inferInstanceAs (Decidable (_ → _))

variable {q batch : List UdpFrame} {batches : List (List UdpFrame)} {s t : Listening}

/-! ### What the test sees -/

theorem receptions_data (q : List UdpFrame) (i : Nat) :
    (receptions q i).map Reception.data = handedOut q := by
  induction q generalizing i with
  | nil => rfl
  | cons f q ih =>
      by_cases empty : f.payload = []
      · simp [receptions, handedOut, beforeEmpty, empty]
      · have rest := ih (i + 1)
        simp [receptions, handedOut, beforeEmpty, empty, rest, UdpFrame.reception,
          Function.comp_def]

theorem beginsEnd_iff (recvbuf : Nat → UInt8) :
    beginsEnd recvbuf ↔ ∀ j < 3, some (recvbuf j) = endBytes[j]? := by
  have bytes : segment recvbuf 0 3 = [recvbuf 0, recvbuf 1, recvbuf 2] := rfl
  rw [beginsEnd, bytes]
  constructor
  · intro same j lt
    rw [← same]
    match j, lt with
    | 0, _ | 1, _ | 2, _ => rfl
  · intro each
    have first : recvbuf 0 = 0x65 := Option.some.inj (each 0 (by decide))
    have second : recvbuf 1 = 0x6e := Option.some.inj (each 1 (by decide))
    have third : recvbuf 2 = 0x64 := Option.some.inj (each 2 (by decide))
    rw [first, second, third]
    rfl

/-- A buffer that was zero spells "end" exactly if the last stored bytes do. -/
theorem beginsEnd_overwritten (ps : List (List UInt8)) :
    beginsEnd (ps.foldl overwrite fun _ => 0) ↔ ∀ j < 3, lastAt ps j = endBytes[j]? := by
  rw [beginsEnd_iff]
  refine forall₂_congr fun j lt => ?_
  rw [overwrites_eq]
  cases lastAt ps j with
  | some byte => rfl
  | none =>
      -- none of the three bytes is zero, and there are three
      have nonzero : ∀ j < 3, some 0 ≠ endBytes[j]? := by decide
      have there : ∀ j < 3, none ≠ endBytes[j]? := by decide
      exact iff_of_false (nonzero j lt) (there j lt)

/-- The test succeeds during a call exactly if the pieces spell "end". -/
theorem triggers_pos_iff (q : List UdpFrame) (i : Nat) :
    0 < triggers (fun _ => 0) (receptions q i) ↔ SpellsEnd (handedOut q) := by
  rw [triggers, receptions_data, hits_pos_iff]
  constructor
  · rintro ⟨qs, -, part, spells⟩
    exact ⟨qs, (List.mem_inits qs _).mpr part, (beginsEnd_overwritten qs).mp spells⟩
  · rintro ⟨qs, mem, spells⟩
    refine ⟨qs, ?_, (List.mem_inits qs _).mp mem, (beginsEnd_overwritten qs).mpr spells⟩
    rintro rfl
    exact absurd (spells 0 (by decide)) (by decide)

/-- The first request of a run comes from a call whose pieces spell "end". -/
theorem UdpEcho.drained_exit_iff (app : UdpEcho) (idle : app.udpechoExit = 0) :
    (app.drained fun _ => 0).udpechoExit ≠ 0 ↔ SpellsEnd (handedOut app.qIn) := by
  have count : (app.drained fun _ => 0).udpechoExit =
      (triggers (fun _ => 0) (receptions app.qIn app.handed) : Int) := by
    rw [UdpEcho.drained, idle, Int.zero_add]
  rw [← triggers_pos_iff app.qIn app.handed, count]
  omega

/-- A datagram that begins with "end" is noticed if it is handed out. -/
theorem spellsEnd_of_asks (asks : ∃ f ∈ beforeEmpty q, f.AsksExit) : SpellsEnd (handedOut q) := by
  obtain ⟨f, mem, begins⟩ := asks
  obtain ⟨early, late, split⟩ := List.append_of_mem mem
  obtain ⟨more, payload⟩ := begins
  have some : f.payload ≠ [] := by
    rw [← payload]
    exact List.append_ne_nil_of_left_ne_nil (List.cons_ne_nil _ _) more
  obtain ⟨ps, cut⟩ := pieces_cons (n := datasize) (by decide) some
  let before := early.flatMap fun g => pieces datasize g.payload
  refine ⟨before ++ [f.payload.take datasize], ?_, ?_⟩
  · rw [List.mem_inits, handedOut, split, List.flatMap_append, List.flatMap_cons, cut]
    exact ⟨ps ++ late.flatMap fun g => pieces datasize g.payload, by simp [before]⟩
  · intro j lt
    have inPiece : j < datasize := Nat.lt_trans lt (by decide)
    have inEnd : j < endBytes.length := lt
    rw [lastAt_concat, List.getElem?_take_of_lt inPiece, ← payload,
      List.getElem?_append_left inEnd, List.getElem?_eq_getElem inEnd, Option.some_or]

/-- An empty datagram asks for nothing. -/
theorem asks_iff (q : List UdpFrame) :
    (∃ f ∈ q, f.AsksExit) ↔
      (∃ f ∈ beforeEmpty q, f.AsksExit) ∨ ∃ f ∈ behindEmpty q, f.AsksExit := by
  induction q with
  | nil => simp [beforeEmpty, behindEmpty]
  | cons f q ih =>
      by_cases empty : f.payload = []
      · have silent : ¬f.AsksExit := by
          rw [UdpFrame.AsksExit, empty]
          decide
        simp [beforeEmpty, behindEmpty, empty, silent]
      · have first : beforeEmpty (f :: q) = f :: beforeEmpty q := by simp [beforeEmpty, empty]
        have left : behindEmpty (f :: q) = behindEmpty q := if_neg empty
        rw [first, left, List.exists_mem_cons_iff, List.exists_mem_cons_iff, ih, or_assoc]

theorem mem_of_behindEmpty {f : UdpFrame} (mem : f ∈ behindEmpty q) : f ∈ q := by
  induction q with
  | nil => exact mem
  | cons g q ih =>
      rw [behindEmpty] at mem
      split at mem
      · exact List.mem_cons_of_mem g mem
      · exact List.mem_cons_of_mem g (ih mem)

/-! ### Along a run -/

/-- What holds in every state: the queue holds datagrams that have come in, and
the shutdown is scheduled if and only if it has been asked for. -/
structure Listening.Sound (s : Listening) : Prop where
  queued : ∀ f ∈ s.app.qIn, f ∈ s.arrived
  scheduled : s.app.timers = [] ↔ s.app.udpechoExit = 0

/-- The state after a call made before the shutdown was asked for. -/
theorem Listening.step_idle (idle : s.app.udpechoExit = 0) (batch : List UdpFrame) :
    s.step batch = some {
      app := UdpEcho.drained { s.app with qIn := s.app.qIn ++ batch } fun _ => 0
      arrived := s.arrived ++ batch } := by
  rw [Listening.step, cbUdpecho_read (by exact idle)]

/-- The state after any later call: datagrams only pile up. -/
theorem Listening.step_exiting (asked : s.app.udpechoExit ≠ 0) (batch : List UdpFrame) :
    s.step batch = some {
      app := { s.app with qIn := s.app.qIn ++ batch }
      arrived := s.arrived ++ batch } := by
  rw [Listening.step, cbUdpecho_exiting (by exact asked)]

theorem Listening.Sound.arrive (sound : s.Sound) {f : UdpFrame}
    (mem : f ∈ s.app.qIn ++ batch) : f ∈ s.arrived ++ batch := by
  rcases List.mem_append.mp mem with old | new
  · exact List.mem_append_left batch (sound.queued f old)
  · exact List.mem_append_right s.arrived new

theorem Listening.Sound.step (sound : s.Sound) (taken : s.step batch = some t) : t.Sound := by
  by_cases idle : s.app.udpechoExit = 0
  · rw [Listening.step_idle idle] at taken
    cases taken
    refine ⟨fun f mem => sound.arrive (mem_of_behindEmpty mem), ?_⟩
    simp [UdpEcho.drained, idle, sound.scheduled.mpr idle]
  · rw [Listening.step_exiting idle] at taken
    cases taken
    exact ⟨fun f mem => sound.arrive mem, sound.scheduled⟩

theorem ListenRun.sound (run : ListenRun batches s) : s.Sound :=
  Run.invariant ⟨fun _ mem => mem, iff_of_true rfl rfl⟩
    (fun _ _ _ sound taken => sound.step taken) run

/-- With the invariant, one flag says it all. -/
theorem Listening.Sound.exactTrigger_iff (sound : s.Sound) :
    ExactTrigger s ↔ (s.app.udpechoExit ≠ 0 ↔ ∃ f ∈ s.arrived, f.AsksExit) := by
  rw [ExactTrigger, Ne, Ne, sound.scheduled, and_self]

/-- One call keeps the trigger exact if and only if it meets the condition. -/
theorem Listening.Sound.exact_iff (sound : s.Sound) (exact_ : ExactTrigger s)
    (taken : s.step batch = some t) : ExactTrigger t ↔ TriggerFits s batch := by
  have after := sound.step taken
  rw [sound.exactTrigger_iff] at exact_
  rw [after.exactTrigger_iff]
  by_cases idle : s.app.udpechoExit = 0
  · rw [Listening.step_idle idle] at taken
    cases taken
    have silent : ∀ f ∈ s.arrived, ¬f.AsksExit := fun f mem asks =>
      exact_.mpr ⟨f, mem, asks⟩ idle
    have asked : (∃ f ∈ s.arrived ++ batch, f.AsksExit) ↔
        ∃ f ∈ s.app.qIn ++ batch, f.AsksExit := by
      constructor
      · rintro ⟨f, mem, asks⟩
        rcases List.mem_append.mp mem with old | new
        · exact absurd asks (silent f old)
        · exact ⟨f, List.mem_append_right s.app.qIn new, asks⟩
      · rintro ⟨f, mem, asks⟩
        exact ⟨f, sound.arrive mem, asks⟩
    have noticed := spellsEnd_of_asks (q := s.app.qIn ++ batch)
    have flag := UdpEcho.drained_exit_iff { s.app with qIn := s.app.qIn ++ batch } idle
    rw [flag, asked, asks_iff, TriggerFits, imp_iff_right idle]
    -- a request that is handed out is noticed; without one, those behind decide
    by_cases front : ∃ f ∈ beforeEmpty (s.app.qIn ++ batch), f.AsksExit
    · exact iff_of_true (iff_of_true (noticed front) (Or.inl front)) (Or.inl front)
    · rw [or_iff_right front, or_iff_right front]
  · rw [Listening.step_exiting idle] at taken
    cases taken
    obtain ⟨f, mem, asks⟩ := exact_.mp idle
    have some : ∃ f ∈ s.arrived ++ batch, f.AsksExit := ⟨f, List.mem_append_left batch mem, asks⟩
    exact iff_of_true (iff_of_true idle some) fun zero => absurd zero idle

/-- **The exact trigger of the remote shutdown.** -/
theorem udpecho_exit_exact_iff (batches : List (List UdpFrame)) :
    Throughout Listening.step ExactTrigger {} batches ↔
      Meets Listening.step TriggerFits {} batches := by
  have enabled : ∀ s batch, ∃ t, Listening.step s batch = some t := fun _ _ => ⟨_, rfl⟩
  obtain ⟨s, run⟩ := Run.total enabled {} batches
  have every : Meets Listening.step (fun _ _ => True) {} batches :=
    Meets.of_forall (fun _ _ => trivial) _ _
  refine Throughout.iff_meets (by decide) ?_ every run
  intro es u batch v before _ now _ taken
  have before : ListenRun es u := before
  exact before.sound.exact_iff now taken

/-- Pieces of three bytes and more spell "end" only by one that begins with it. -/
theorem begins_of_spellsEnd {ps : List (List UInt8)} (cover : ∀ p ∈ ps, 3 ≤ p.length)
    (spells : SpellsEnd ps) : ∃ p ∈ ps, endBytes <+: p := by
  obtain ⟨qs, mem, stored⟩ := spells
  have part := (List.mem_inits qs ps).mp mem
  rcases List.eq_nil_or_concat qs with rfl | ⟨rs, p, rfl⟩
  · exact absurd (stored 0 (by decide)) (by decide)
  · rw [List.concat_eq_append] at part stored
    have here : p ∈ ps := part.subset (List.mem_append_right rs (List.mem_singleton_self p))
    refine ⟨p, here, List.prefix_iff_getElem?.mpr fun j lt => ?_⟩
    -- the last piece covers the three places, so it is the one that counts there
    have covers : j < p.length := Nat.lt_of_lt_of_le lt (cover p here)
    have last := stored j lt
    rw [lastAt_concat, List.getElem?_eq_getElem covers, Option.some_or] at last
    rw [List.getElem?_eq_getElem covers, last, List.getElem?_eq_getElem lt]

theorem beforeEmpty_of_whole (whole : ∀ f ∈ q, f.Whole) : beforeEmpty q = q := by
  rw [beforeEmpty, List.takeWhile_eq_self_iff]
  intro f mem
  exact decide_eq_true (whole f mem).payload_ne_nil

theorem mem_handedOut_of_whole (whole : ∀ f ∈ q, f.Whole) {p : List UInt8}
    (mem : p ∈ handedOut q) : ∃ f ∈ q, p = f.payload := by
  rw [handedOut, beforeEmpty_of_whole whole] at mem
  obtain ⟨f, here, piece⟩ := List.mem_flatMap.mp mem
  rw [pieces_of_le (whole f here).payload_ne_nil (whole f here).2] at piece
  exact ⟨f, here, List.mem_singleton.mp piece⟩

/-- Datagrams that fit into the buffer and cover its first three bytes meet the condition. -/
theorem triggerFits_of_sizes
    (sizes : ∀ f ∈ s.app.qIn ++ batch, 3 ≤ f.payload.length ∧ f.payload.length ≤ datasize) :
    TriggerFits s batch := by
  intro _
  have whole : ∀ f ∈ s.app.qIn ++ batch, f.Whole := fun f mem =>
    ⟨Nat.lt_of_lt_of_le (by decide) (sizes f mem).1, (sizes f mem).2⟩
  rw [beforeEmpty_of_whole whole, behindEmpty_of_whole whole]
  by_cases asks : ∃ f ∈ s.app.qIn ++ batch, f.AsksExit
  · exact Or.inl asks
  · refine Or.inr (iff_of_false (fun spells => ?_) (by simp))
    have cover : ∀ p ∈ handedOut (s.app.qIn ++ batch), 3 ≤ p.length := by
      intro p mem
      obtain ⟨f, here, rfl⟩ := mem_handedOut_of_whole whole mem
      exact (sizes f here).1
    obtain ⟨p, mem, begins⟩ := begins_of_spellsEnd cover spells
    obtain ⟨f, here, rfl⟩ := mem_handedOut_of_whole whole mem
    exact asks ⟨f, here, begins⟩

/-- One datagram of 5003 bytes; its second piece is "end". -/
def overlong : UdpFrame :=
  hostFrame 1 (List.replicate 5000 0x61 ++ endBytes) (by
    rw [List.length_append, List.length_replicate]
    decide)

/-- A piece of a longer datagram spells "end", and so do two short datagrams together. -/
theorem udpecho_exit_spelled :
    (∃ s, ListenRun [[overlong]] s ∧ s.app.udpechoExit = 1 ∧ s.app.timers = [1000] ∧
      ¬(∃ f ∈ s.arrived, f.AsksExit) ∧ ¬ExactTrigger s) ∧
    ∃ s, ListenRun [[hostFrame 1 [0x78, 0x6e, 0x64], hostFrame 2 [0x65]]] s ∧
      s.app.udpechoExit = 1 ∧ s.app.timers = [1000] ∧ ¬(∃ f ∈ s.arrived, f.AsksExit) ∧
        ¬ExactTrigger s :=
  ⟨Run.of_any (by decide +kernel), Run.of_any (by decide)⟩

end Rfsis.Echo
