import Rfsis.Pico.Timers

/-!
picoTCP's timers over whole runs. `pico_check_timers` is taken apart: each turn of its
loop is a step, and so is the return of the callback that a turn calls. In between the
callback adds and cancels timers, its own among them, as the stack does outside a
check. A step that reads or frees a `struct pico_timer` that was freed before has no
result, so a run goes as far as the code is defined. The readings of the clock are
any, also inside a check. Callbacks do not call `pico_stack_tick`.

* `timers_conserved`: a timer that was accepted is pending or has been taken off,
  never both and never twice, and it is taken off only after its expiry.
* `timer_cancelled`: the callback of a timer is not called after the call of
  `pico_timer_cancel` with its id, as long as no id has come twice.
* `timer_stuck`: a timer whose expiry does not fit below the largest reading of the
  32-bit millisecond clock stays pending for ever.
-/

namespace Rfsis.Pico

open BinaryHeap Transition

universe u

/-- Where `pico_check_timers` is, with its `pico_tick`: not running, at the head of its
loop, or in the callback of a reference. -/
inductive Checking (τ : Type u) where
  | idle
  | loop (picoTick : Nat)
  | callback (picoTick : Nat) (tref : PicoTimerRef τ)

/-- The timers and the check. Not in the program: `ran` has the references whose
callbacks were called, and `taken` those that were taken off, each with the reading of
its check. -/
structure TimerState (τ : Type u) where
  timers : Timers τ := {}
  checking : Checking τ := .idle
  ran : List (PicoTimerRef τ × Nat) := []
  taken : List (PicoTimerRef τ × Nat) := []

/-- The calls of the stack and of callbacks, the start of a check, a turn of its loop up
to a callback, and what follows the callback. -/
inductive TimerCall (τ : Type u) where
  | add (now delay : Nat) (t : τ)
  | cancel (id : UInt32)
  | check (now : Nat)
  | turn
  | back

section Runs

variable {τ : Type u}

/-- `pico_tick`, while a check runs. -/
def Checking.picoTick : Checking τ → Option Nat
  | .idle => none
  | .loop now => some now
  | .callback now _ => some now

/-- The loop itself adds and cancels nothing. -/
def Checking.atHead : Checking τ → Bool
  | .loop _ => true
  | _ => false

/-- The end of a turn: `heap_peek` takes the first reference off. -/
def TimerState.peek (s : TimerState τ) (now : Nat) : TimerState τ :=
  let peeked := heapPeek s.timers
  { s with
    timers := peeked.2
    checking := .loop now
    taken := s.taken ++ peeked.1.toList.map fun r => (r, now) }

/-- A turn of the loop of `pico_check_timers`, up to the call of a callback. -/
def TimerState.turn (s : TimerState τ) (now : Nat) : Option (TimerState τ) :=
  match heapFirst s.timers with
  | none => some { s with checking := .idle }
  | some tref =>
      if tref.expire < now then
        if tref.tmr.isSome then
          -- `t->timer` is read here
          if tref.ticket ∈ s.timers.freed then none
          else some { s with checking := .callback now tref, ran := s.ran ++ [(tref, now)] }
        else some (s.peek now)
      else some { s with checking := .idle }

/-- One step. -/
def timerStep (s : TimerState τ) : TimerCall τ → Option (TimerState τ)
  | .add now delay t =>
      if s.checking.atHead then none
      else some { s with timers := (picoTimerAdd now delay t s.timers).2 }
  | .cancel id =>
      if s.checking.atHead then none
      else (picoTimerCancel id s.timers).map fun timers => { s with timers := timers }
  | .check now =>
      match s.checking with
      | .idle => some { s with checking := .loop now }
      | _ => none
  | .turn =>
      match s.checking with
      | .loop now => s.turn now
      | _ => none
  | .back =>
      match s.checking with
      | .callback now tref =>
          (picoFree tref.ticket s.timers).map fun timers =>
            TimerState.peek { s with timers := timers } now
      | _ => none

variable {s t u : TimerState τ} {call : TimerCall τ} {calls more body : List (TimerCall τ)}
  {k now start : Nat} {tref : PicoTimerRef τ}

theorem Checking.picoTick_eq_none {c : Checking τ} : c.picoTick = none ↔ c = .idle := by
  cases c <;> simp [Checking.picoTick]

/-- A call that sets no timer at a reading before `start`. -/
def TimerCall.NotBefore (start : Nat) : TimerCall τ → Prop
  | .add now _ _ => start ≤ now
  | _ => True

theorem TimerCall.notBefore_zero (call : TimerCall τ) : call.NotBefore 0 := by
  cases call with
  | add now => exact Nat.zero_le now
  | _ => trivial

/-- The calls of the stack and of callbacks. -/
def TimerCall.edits : TimerCall τ → Bool
  | .add .. => true
  | .cancel _ => true
  | _ => false

/-- The state between a callback and the end of its turn. -/
def TimerState.freeing (s : TimerState τ) (ticket : Nat) : TimerState τ :=
  { s with timers := { s.timers with freed := ticket :: s.timers.freed } }

/-- What a step can do. -/
inductive TimerStep (s : TimerState τ) : TimerCall τ → TimerState τ → Prop where
  | edit {call : TimerCall τ} {tm : Timers τ} (outside : s.checking.atHead = false)
      (grows : ∀ start, call.NotBefore start → Grows start s.timers tm)
      (edits : call.edits = true) : TimerStep s call { s with timers := tm }
  | check {now : Nat} (idle : s.checking = .idle) :
      TimerStep s (.check now) { s with checking := .loop now }
  | ends {now : Nat} (here : s.checking = .loop now)
      (stops : s.timers.n = 0 ∨ now ≤ (s.timers.top 1).expire) :
      TimerStep s .turn { s with checking := .idle }
  | call {now : Nat} (here : s.checking = .loop now) (some_ : s.timers.n ≠ 0)
      (due : (s.timers.top 1).expire < now) (callback : (s.timers.top 1).tmr.isSome)
      (live : (s.timers.top 1).ticket ∉ s.timers.freed) :
      TimerStep s .turn { s with
        checking := .callback now (s.timers.top 1)
        ran := s.ran ++ [(s.timers.top 1, now)] }
  | dead {now : Nat} (here : s.checking = .loop now) (some_ : s.timers.n ≠ 0)
      (due : (s.timers.top 1).expire < now) (cancelled : (s.timers.top 1).tmr = none) :
      TimerStep s .turn (s.peek now)
  | back {now : Nat} {tref : PicoTimerRef τ} (here : s.checking = .callback now tref)
      (live : tref.ticket ∉ s.timers.freed) :
      TimerStep s .back ((s.freeing tref.ticket).peek now)

theorem TimerState.turn_cases (here : s.checking = .loop now) (turn : s.turn now = some t) :
    TimerStep s .turn t := by
  unfold TimerState.turn heapFirst at turn
  by_cases none_ : s.timers.n = 0
  · rw [if_pos none_] at turn
    obtain rfl := Option.some.inj turn
    exact .ends here (Or.inl none_)
  · rw [if_neg none_] at turn
    dsimp only at turn
    split at turn
    · rename_i due
      split at turn
      · rename_i callback
        split at turn
        · cases turn
        · rename_i live
          obtain rfl := Option.some.inj turn
          exact .call here none_ due callback live
      · rename_i cancelled
        obtain rfl := Option.some.inj turn
        exact .dead here none_ due (by simpa using cancelled)
    · rename_i notDue
      obtain rfl := Option.some.inj turn
      exact .ends here (Or.inr (Nat.not_lt.mp notDue))

theorem timerStep_cases (sound : s.timers.Sound) (step : timerStep s call = some t) :
    TimerStep s call t := by
  cases call with
  | add clock delay a =>
      simp only [timerStep, Option.ite_none_left_eq_some, Bool.not_eq_true] at step
      obtain ⟨outside, added⟩ := step
      obtain rfl := Option.some.inj added
      exact .edit outside (fun _ later => sound.add later) rfl
  | cancel id =>
      simp only [timerStep, Option.ite_none_left_eq_some, Bool.not_eq_true,
        Option.map_eq_some_iff] at step
      obtain ⟨outside, tm, done, rfl⟩ := step
      exact .edit outside (fun _ _ => sound.cancel done) rfl
  | check clock =>
      simp only [timerStep] at step
      split at step
      · rename_i idle
        obtain rfl := Option.some.inj step
        exact .check idle
      · cases step
  | turn =>
      simp only [timerStep] at step
      split at step
      · rename_i now here
        exact TimerState.turn_cases here step
      · cases step
  | back =>
      simp only [timerStep] at step
      split at step
      · rename_i now tref here
        obtain ⟨tm, freed, rfl⟩ := Option.map_eq_some_iff.mp step
        obtain ⟨live, rfl⟩ := picoFree_eq_some.mp freed
        exact .back here live
      · cases step

/-! ### Every step -/

/-- What the checks have taken off. -/
def TimerState.off (s : TimerState τ) : Multiset (Nat × Nat) :=
  s.taken.map fun p => p.1.stub

/-- All tickets that were accepted. -/
def TimerState.tickets (s : TimerState τ) : Multiset Nat :=
  (s.off + s.timers.stubs).map Prod.fst

/-- The reference whose callback runs is due and still in the heap, and its
`struct pico_timer` is freed only if it has lost its callback. -/
structure Running (tm : Timers τ) (now : Nat) (tref : PicoTimerRef τ) : Prop where
  due : tref.expire < now
  callback : tref.tmr.isSome
  here : tref ∈ tm.refs ∨ tref.dead ∈ tm.refs ∧ tref.ticket ∈ tm.freed

/-- What every step keeps. -/
structure TimerState.Sound (s : TimerState τ) : Prop where
  timers : s.timers.Sound
  running : ∀ now tref, s.checking = .callback now tref → Running s.timers now tref
  ranOnce : (s.ran.map fun p => p.1.ticket).Nodup
  ran : ∀ p ∈ s.ran, p.1.ticket ∈ s.timers.freed ∨ ∃ now, s.checking = .callback now p.1

theorem TimerState.sound_empty : TimerState.Sound ({} : TimerState τ) where
  timers := Timers.sound_empty
  running := by
    intro now tref here
    cases here
  ranOnce := List.nodup_nil
  ran := by
    intro p mem
    cases mem

/-- What any number of steps does, of which none sets a timer at a reading before
`start`. -/
structure Advance (start : Nat) (s t : TimerState τ) : Prop where
  sound : t.Sound
  created : s.timers.created ≤ t.timers.created
  taken : ∃ new, t.taken = s.taken ++ new ∧ ∀ p ∈ new, p.1.expire < p.2
  ran : ∃ new, t.ran = s.ran ++ new ∧ (∀ p ∈ new, p.1.expire < p.2) ∧
    ∀ k < s.timers.created, s.timers.Cancelled k → ∀ p ∈ new, p.1.ticket ≠ k
  account : ∃ added, t.off + t.timers.stubs = s.off + s.timers.stubs + added ∧
    (∀ x ∈ added, s.timers.created ≤ x.1 ∧ x.1 < t.timers.created ∧ start ≤ x.2) ∧
      (added.map Prod.fst).Nodup
  stays : ∀ k < s.timers.created, s.timers.Cancelled k → t.timers.Cancelled k

/-- Nothing is taken off. -/
theorem TimerState.taken_same (same : t.taken = s.taken) :
    ∃ new, t.taken = s.taken ++ new ∧ ∀ p ∈ new, p.1.expire < p.2 := by
  refine ⟨[], by rw [same, List.append_nil], ?_⟩
  intro p mem
  cases mem

/-- No callback is called. -/
theorem TimerState.ran_same (same : t.ran = s.ran) :
    ∃ new, t.ran = s.ran ++ new ∧ (∀ p ∈ new, p.1.expire < p.2) ∧
      ∀ k < s.timers.created, s.timers.Cancelled k → ∀ p ∈ new, p.1.ticket ≠ k := by
  refine ⟨[], by rw [same, List.append_nil], ?_, ?_⟩
  · intro p mem
    cases mem
  · intro k _ _ p mem
    cases mem

/-- Steps that leave the references where they are. -/
theorem Advance.still (sound : t.Sound) (refs : t.timers.refs = s.timers.refs)
    (created : t.timers.created = s.timers.created) (taken : t.taken = s.taken)
    (ran : t.ran = s.ran) : Advance start s t where
  sound := sound
  created := created.ge
  taken := TimerState.taken_same taken
  ran := TimerState.ran_same ran
  account := by
    refine ⟨0, ?_, ?_, Multiset.nodup_zero⟩
    · simp [TimerState.off, Timers.stubs, taken, refs]
    · intro x mem
      cases Multiset.notMem_zero x mem
  stays := by
    intro k _ cancelled r mem
    exact cancelled r (refs ▸ mem)

theorem Advance.trans (before : Advance start s t) (after : Advance start t u) :
    Advance start s u where
  sound := after.sound
  created := Nat.le_trans before.created after.created
  taken := by
    obtain ⟨new, eq, late⟩ := before.taken
    obtain ⟨new', eq', late'⟩ := after.taken
    refine ⟨new ++ new', by rw [eq', eq, List.append_assoc], ?_⟩
    intro p mem
    rcases List.mem_append.mp mem with early | later
    · exact late p early
    · exact late' p later
  ran := by
    obtain ⟨new, eq, late, live⟩ := before.ran
    obtain ⟨new', eq', late', live'⟩ := after.ran
    refine ⟨new ++ new', by rw [eq', eq, List.append_assoc], ?_, ?_⟩
    · intro p mem
      rcases List.mem_append.mp mem with early | later
      · exact late p early
      · exact late' p later
    · intro k old cancelled p mem
      rcases List.mem_append.mp mem with early | later
      · exact live k old cancelled p early
      · exact live' k (Nat.lt_of_lt_of_le old before.created) (before.stays k old cancelled) p later
  account := by
    obtain ⟨added, eq, range, nodup⟩ := before.account
    obtain ⟨added', eq', range', nodup'⟩ := after.account
    refine ⟨added + added', by rw [eq', eq, Multiset.add_assoc], ?_, ?_⟩
    · intro x mem
      rcases Multiset.mem_add.mp mem with early | late
      · obtain ⟨old, below, later⟩ := range x early
        exact ⟨old, Nat.lt_of_lt_of_le below after.created, later⟩
      · obtain ⟨old, below, later⟩ := range' x late
        exact ⟨Nat.le_trans before.created old, below, later⟩
    · rw [Multiset.map_add, Multiset.nodup_add]
      refine ⟨nodup, nodup', Multiset.disjoint_left.mpr ?_⟩
      intro k mem mem'
      obtain ⟨x, early, rfl⟩ := Multiset.mem_map.mp mem
      obtain ⟨y, late, same⟩ := Multiset.mem_map.mp mem'
      exact absurd (range x early).2.1 (same ▸ Nat.not_lt.mpr (range' y late).1)
  stays := by
    intro k old cancelled
    exact after.stays k (Nat.lt_of_lt_of_le old before.created) (before.stays k old cancelled)

/-- Tickets that were added and are still pending are new, and none comes twice. -/
theorem Timers.Sound.added {tm : Timers τ} (sound : tm.Sound) {added : Multiset (Nat × Nat)}
    (pending : added ≤ tm.stubs) :
    (∀ x ∈ added, x.1 < tm.created) ∧ (added.map Prod.fst).Nodup := by
  have tickets : tm.stubs.map Prod.fst = tm.refs.map PicoTimerRef.ticket :=
    Multiset.map_map _ _ _
  constructor
  · intro x mem
    obtain ⟨r, here, rfl⟩ := mem_stubs.mp (Multiset.mem_of_le pending mem)
    exact sound.ticket_lt r here
  · exact Multiset.nodup_of_le (Multiset.map_le_map pending) (tickets ▸ sound.nodup)

/-- The callback that runs may cancel its own timer. -/
theorem Running.grows {tm tm' : Timers τ} (running : Running tm now tref)
    (grows : Grows start tm tm') : Running tm' now tref where
  due := running.due
  callback := running.callback
  here := by
    rcases running.here with live | ⟨dead, freed⟩
    · exact (grows.kept tref live).imp_right fun ⟨dead, _, freed⟩ => ⟨dead, freed⟩
    · rcases grows.kept tref.dead dead with kept | ⟨-, live, -⟩
      · exact Or.inr ⟨kept, grows.freed freed⟩
      · exact absurd freed live

theorem Grows.advance {tm : Timers τ} (grows : Grows start s.timers tm) (sound : s.Sound) :
    Advance start s { s with timers := tm } where
  sound := {
    timers := grows.sound
    running := fun now tref here => (sound.running now tref here).grows grows
    ranOnce := sound.ranOnce
    ran := fun p mem => (sound.ran p mem).imp_left fun freed => grows.freed freed }
  created := grows.created
  taken := TimerState.taken_same rfl
  ran := TimerState.ran_same rfl
  account := by
    obtain ⟨added, eq, new⟩ := grows.stubs
    have pending : added ≤ tm.stubs := by
      rw [eq]
      exact Multiset.le_add_left _ _
    obtain ⟨below, nodup⟩ := grows.sound.added pending
    refine ⟨added, ?_, fun x mem => ⟨(new x mem).1, below x mem, (new x mem).2⟩, nodup⟩
    show s.off + tm.stubs = _
    rw [eq, Multiset.add_assoc]
  stays := grows.stays

/-- The end of a turn takes one timer out. -/
theorem TimerState.stubs_peek (sound : s.timers.Sound) (some_ : s.timers.n ≠ 0) (now : Nat) :
    s.timers.stubs = (s.timers.top 1).stub ::ₘ (s.peek now).timers.stubs := by
  obtain ⟨-, -, refs, -, -⟩ := heapPeek_spec sound some_
  rw [Timers.stubs, refs, Multiset.map_cons]
  rfl

/-- The end of a turn, when no callback is left half-way. -/
theorem TimerState.peek_advance (sound : s.timers.Sound) (some_ : s.timers.n ≠ 0)
    (due : (s.timers.top 1).expire < now) (ranOnce : (s.ran.map fun p => p.1.ticket).Nodup)
    (ran : ∀ p ∈ s.ran, p.1.ticket ∈ s.timers.freed) :
    Advance start s (s.peek now) ∧ (s.peek now).taken = s.taken ++ [(s.timers.top 1, now)] ∧
      s.timers.refs = s.timers.top 1 ::ₘ (s.peek now).timers.refs := by
  obtain ⟨first, sound', refs, created, freed⟩ := heapPeek_spec sound some_
  have taken : (s.peek now).taken = s.taken ++ [(s.timers.top 1, now)] := by
    simp [TimerState.peek, first]
  refine ⟨?_, taken, refs⟩
  constructor
  · refine ⟨sound', ?_, ranOnce, ?_⟩
    · intro clock tref here
      cases here
    · intro p mem
      exact Or.inl (freed.symm ▸ ran p mem)
  · exact created.ge
  · refine ⟨_, taken, ?_⟩
    intro p mem
    rw [List.mem_singleton.mp mem]
    exact due
  · exact TimerState.ran_same rfl
  · refine ⟨0, ?_, ?_, Multiset.nodup_zero⟩
    · have stubs := TimerState.stubs_peek sound some_ now
      simp [TimerState.off, taken, stubs, ← Multiset.coe_add, Multiset.add_assoc]
    · intro x mem
      cases Multiset.notMem_zero x mem
  · intro k _ cancelled r mem
    apply cancelled r
    rw [refs]
    exact Multiset.mem_cons_of_mem mem

/-- The first reference is due when the callback returns, whichever it is. -/
theorem Running.first_due {tm : Timers τ} (running : Running tm now tref) (sound : tm.Sound) :
    tm.n ≠ 0 ∧ (tm.top 1).expire < now := by
  obtain ⟨r, mem, same⟩ : ∃ r ∈ tm.refs, r.stub = tref.stub :=
    running.here.elim (fun live => ⟨tref, live, rfl⟩) fun dead => ⟨tref.dead, dead.1, rfl⟩
  have least := sound.first_le (mem_stubs.mpr ⟨r, mem, same⟩)
  exact ⟨Timers.some_of_mem mem, Nat.lt_of_le_of_lt least running.due⟩

/-- Between two turns the callbacks that were called have been freed. -/
theorem TimerState.Sound.ran_freed (sound : s.Sound)
    (between : ∀ now tref, s.checking ≠ .callback now tref) :
    ∀ p ∈ s.ran, p.1.ticket ∈ s.timers.freed := by
  intro p mem
  rcases sound.ran p mem with freed | ⟨now, here⟩
  · exact freed
  · exact absurd here (between now p.1)

theorem Checking.loop_ne_callback (here : s.checking = .loop now) :
    ∀ clock tref, s.checking ≠ .callback clock tref := by
  intro clock tref other
  rw [here] at other
  cases other

theorem TimerState.Sound.freeing (sound : s.Sound) (here : s.checking = .callback now tref) :
    (s.freeing tref.ticket).Sound where
  timers := by
    apply sound.timers.free
    rcases (sound.running now tref here).here with live | ⟨dead, -⟩
    · exact sound.timers.ticket_lt tref live
    · exact sound.timers.ticket_lt tref.dead dead
  running := by
    intro clock tref' here'
    obtain ⟨due, callback, place⟩ := sound.running clock tref' here'
    exact ⟨due, callback, place.imp_right fun ⟨dead, freed⟩ =>
      ⟨dead, List.mem_cons_of_mem _ freed⟩⟩
  ranOnce := sound.ranOnce
  ran := by
    intro p mem
    rcases sound.ran p mem with freed | ⟨clock, same⟩
    · exact Or.inl (List.mem_cons_of_mem _ freed)
    · cases here.symm.trans same
      exact Or.inl List.mem_cons_self

/-- Every step is an advance. -/
theorem TimerStep.advance (step : TimerStep s call t) (sound : s.Sound)
    (later : call.NotBefore start) : Advance start s t := by
  cases step with
  | edit outside grows edits => exact (grows start later).advance sound
  | check idle =>
      refine Advance.still ⟨sound.timers, ?_, sound.ranOnce, ?_⟩ rfl rfl rfl rfl
      · intro clock tref here
        cases here
      · intro p mem
        refine Or.inl (sound.ran_freed ?_ p mem)
        intro clock tref here
        rw [idle] at here
        cases here
  | ends here stops =>
      refine Advance.still ⟨sound.timers, ?_, sound.ranOnce, ?_⟩ rfl rfl rfl rfl
      · intro clock tref other
        cases other
      · intro p mem
        exact Or.inl (sound.ran_freed (Checking.loop_ne_callback here) p mem)
  | @call now here some_ due callback live =>
      have freed := sound.ran_freed (Checking.loop_ne_callback here)
      have running : Running s.timers now (s.timers.top 1) :=
        ⟨due, callback, Or.inl (Timers.first_mem some_)⟩
      have same : Advance start s { s with checking := .callback now (s.timers.top 1) } := by
        refine Advance.still ⟨sound.timers, ?_, sound.ranOnce, ?_⟩ rfl rfl rfl rfl
        · intro clock tref other
          cases other
          exact running
        · exact fun p mem => Or.inl (freed p mem)
      refine ⟨⟨sound.timers, same.sound.running, ?_, ?_⟩, same.created, same.taken, ?_,
        same.account, same.stays⟩
      · simp only [List.map_append, List.map_cons, List.map_nil, List.nodup_append_comm,
          List.singleton_append, List.nodup_cons]
        refine ⟨?_, sound.ranOnce⟩
        intro mem
        obtain ⟨p, old, same⟩ := List.mem_map.mp mem
        exact live (same ▸ freed p old)
      · intro p mem
        rcases List.mem_append.mp mem with old | new
        · exact Or.inl (freed p old)
        · rw [List.mem_singleton.mp new]
          exact Or.inr ⟨now, rfl⟩
      · refine ⟨_, rfl, ?_, ?_⟩
        · intro p mem
          rw [List.mem_singleton.mp mem]
          exact due
        · intro k _ cancelled p mem ticket
          rw [List.mem_singleton.mp mem] at ticket
          rw [cancelled _ (Timers.first_mem some_) ticket] at callback
          cases callback
  | dead here some_ due cancelled =>
      exact (TimerState.peek_advance sound.timers some_ due sound.ranOnce
        (sound.ran_freed (Checking.loop_ne_callback here))).1
  | @back now tref here live =>
      have freed := sound.freeing here
      obtain ⟨some_, due⟩ := (sound.running now tref here).first_due sound.timers
      have marked : Advance start s (s.freeing tref.ticket) :=
        Advance.still freed rfl rfl rfl rfl
      refine marked.trans (TimerState.peek_advance freed.timers some_ due sound.ranOnce ?_).1
      intro p mem
      rcases freed.ran p mem with done | ⟨clock, same⟩
      · exact done
      · cases here.symm.trans same
        exact List.mem_cons_self

/-- So is every run. -/
theorem timerRun_advance (sound : s.Sound) (later : ∀ call ∈ calls, call.NotBefore start)
    (run : Run timerStep s calls t) : Advance start s t := by
  refine Run.history (P := fun es v => (∀ call ∈ es, call.NotBefore start) → Advance start s v)
    ?_ ?_ run later
  · intro _
    exact Advance.still sound rfl rfl rfl rfl
  · intro es v call w _ ih step later
    have before := ih fun call mem => later call (List.mem_append_left _ mem)
    have here := later call (List.mem_append_right _ (List.mem_singleton_self _))
    exact before.trans ((timerStep_cases before.sound.timers step).advance before.sound here)

/-- At any readings of the clock. -/
theorem timerRun_advance_any (sound : s.Sound) (run : Run timerStep s calls t) :
    Advance 0 s t :=
  timerRun_advance sound (fun call _ => call.notBefore_zero) run

theorem timerStep_advance_any (sound : s.Sound) (step : timerStep s call = some t) :
    Advance 0 s t :=
  have one : Run timerStep s [call] t := Run.cons_iff.mpr ⟨t, step, Run.nil_iff.mpr rfl⟩
  timerRun_advance_any sound one

/-- The tickets after an advance are those before, and new ones. -/
theorem Advance.nodup (advance : Advance start s t) (nodup : s.tickets.Nodup)
    (old : ∀ k ∈ s.tickets, k < s.timers.created) :
    t.tickets.Nodup ∧ ∀ k ∈ t.tickets, k < t.timers.created := by
  obtain ⟨added, eq, range, fresh⟩ := advance.account
  have tickets : t.tickets = s.tickets + added.map Prod.fst := by
    rw [TimerState.tickets, eq, Multiset.map_add]
    rfl
  rw [tickets]
  constructor
  · rw [Multiset.nodup_add]
    refine ⟨nodup, fresh, Multiset.disjoint_left.mpr ?_⟩
    intro k mem mem'
    obtain ⟨x, new, rfl⟩ := Multiset.mem_map.mp mem'
    exact absurd (old _ mem) (Nat.not_lt.mpr (range x new).1)
  · intro k mem
    rcases Multiset.mem_add.mp mem with early | late
    · exact Nat.lt_of_lt_of_le (old k early) advance.created
    · obtain ⟨x, new, rfl⟩ := Multiset.mem_map.mp late
      exact (range x new).2.1

/-- A run from the start of the stack. -/
abbrev TimerRun (calls : List (TimerCall τ)) (s : TimerState τ) : Prop :=
  Run timerStep {} calls s

theorem TimerRun.advance (run : TimerRun calls s) : Advance 0 {} s :=
  timerRun_advance_any TimerState.sound_empty run

theorem TimerRun.nodup (run : TimerRun calls s) :
    s.tickets.Nodup ∧ ∀ k ∈ s.tickets, k < s.timers.created :=
  run.advance.nodup Multiset.nodup_zero fun k mem => absurd mem (Multiset.notMem_zero k)

/-- A ticket that was taken off is not pending. -/
theorem TimerState.apart (nodup : s.tickets.Nodup) {x y : Nat × Nat} (off : x ∈ s.off)
    (pending : y ∈ s.timers.stubs) : x.1 ≠ y.1 := by
  rw [tickets, Multiset.map_add, Multiset.nodup_add] at nodup
  intro same
  have here := Multiset.mem_map_of_mem Prod.fst pending
  exact Multiset.disjoint_left.mp nodup.2.2 (Multiset.mem_map_of_mem Prod.fst off) (same ▸ here)

/-- A timer that was pending is pending or was taken off. -/
theorem Advance.mem (advance : Advance start s t) {x : Nat × Nat} (pending : x ∈ s.timers.stubs) :
    x ∈ t.off ∨ x ∈ t.timers.stubs := by
  obtain ⟨added, eq, -⟩ := advance.account
  apply Multiset.mem_add.mp
  rw [eq]
  exact Multiset.mem_add.mpr (Or.inl (Multiset.mem_add.mpr (Or.inr pending)))

/-- What was taken off or called had expired. -/
theorem TimerRun.expired (run : TimerRun calls s) :
    (∀ p ∈ s.taken, p.1.expire < p.2) ∧ ∀ p ∈ s.ran, p.1.expire < p.2 := by
  obtain ⟨taken, eqTaken, takenLate⟩ := run.advance.taken
  obtain ⟨ran, eqRan, ranLate, -⟩ := run.advance.ran
  rw [eqTaken, eqRan]
  exact ⟨takenLate, ranLate⟩

/-- In every run, a timer that was accepted is pending or has been taken off, never
both and never twice, its callback is called once at most, and what was taken off or
called had expired. -/
theorem timers_conserved (run : TimerRun calls s) (later : Run timerStep s more t) :
    (t.taken.map fun p => p.1.ticket).Nodup ∧ (t.ran.map fun p => p.1.ticket).Nodup ∧
      (∀ p ∈ t.taken, p.1.expire < p.2) ∧ (∀ p ∈ t.ran, p.1.expire < p.2) ∧
        ∀ x ∈ s.timers.stubs,
          (x ∈ t.timers.stubs ∧ x ∉ t.off) ∨ (x ∈ t.off ∧ x ∉ t.timers.stubs) := by
  have whole : TimerRun (calls ++ more) t := Run.append_iff.mpr ⟨s, run, later⟩
  obtain ⟨nodup, -⟩ := whole.nodup
  refine ⟨?_, whole.advance.sound.ranOnce, whole.expired.1, whole.expired.2, ?_⟩
  · have off := Multiset.nodup_of_le
      (Multiset.map_le_map (Multiset.le_add_right t.off t.timers.stubs)) nodup
    have list : t.off.map Prod.fst = (t.taken.map fun p => p.1.ticket : List Nat) := by
      simp [TimerState.off, PicoTimerRef.stub, Function.comp_def]
    rw [list] at off
    exact Multiset.coe_nodup.mp off
  · intro x mem
    rcases (timerRun_advance_any run.advance.sound later).mem mem with off | pending
    · exact Or.inr ⟨off, fun pending => TimerState.apart nodup off pending rfl⟩
    · exact Or.inl ⟨pending, fun off => TimerState.apart nodup off pending rfl⟩

/-- Two timers; the callback of the second sets a timer again, as that of the ARP budget
does, and the first is cancelled before it is due. -/
theorem timers_conserved_rearm : ∃ s t : TimerState Unit,
    TimerRun [.add 0 20 (), .add 0 10 ()] s ∧
      Run timerStep s
        [.check 15, .turn, .add 15 1000 (), .back, .turn, .cancel 1, .check 30, .turn, .turn] t ∧
        t.taken.map (fun p => (p.1.ticket, p.2)) = [(1, 15), (0, 30)] ∧
          t.ran.map (fun p => (p.1.ticket, p.2)) = [(1, 15)] ∧
            (t.taken.map fun p => p.1.ticket).Nodup ∧ (t.ran.map fun p => p.1.ticket).Nodup ∧
              (∀ p ∈ t.taken, p.1.expire < p.2) ∧ (∀ p ∈ t.ran, p.1.expire < p.2) ∧
                ∀ x ∈ s.timers.stubs,
                  (x ∈ t.timers.stubs ∧ x ∉ t.off) ∨ (x ∈ t.off ∧ x ∉ t.timers.stubs) := by
  obtain ⟨s, run⟩ : ∃ s : TimerState Unit, TimerRun [.add 0 20 (), .add 0 10 ()] s := ⟨_, rfl⟩
  obtain ⟨t, later, taken, ran⟩ : ∃ t, Run timerStep s
      [.check 15, .turn, .add 15 1000 (), .back, .turn, .cancel 1, .check 30, .turn, .turn] t ∧
        t.taken.map (fun p => (p.1.ticket, p.2)) = [(1, 15), (0, 30)] ∧
          t.ran.map (fun p => (p.1.ticket, p.2)) = [(1, 15)] := by
    cases run
    exact Run.of_any (by decide +kernel)
  exact ⟨s, t, run, later, taken, ran, timers_conserved run later⟩

/-! ### Cancelled timers -/

/-- A cancellation with the id of a ticket takes its callback, if no id has come twice. -/
theorem Timers.Sound.cancelled {tm tm' : Timers τ} (sound : tm.Sound)
    (few : tm.created ≤ 2 ^ 32 - 1) (old : k < tm.created)
    (done : picoTimerCancel (timerId k) tm = some tm') : tm'.Cancelled k := by
  have live : ∀ r ∈ tm.refs, r.id = timerId k → r.ticket = k ∧ r.tmr.isSome := by
    intro r mem same
    have some_ : r.tmr.isSome := by
      cases callback : r.tmr with
      | none => exact absurd ((sound.id_none r mem callback) ▸ same).symm (timerId_ne_zero k)
      | some a => rfl
    have ids := (sound.id_eq r mem some_).symm.trans same
    exact ⟨timerId_inj (Nat.lt_of_lt_of_le (sound.ticket_lt r mem) few)
      (Nat.lt_of_lt_of_le old few) ids, some_⟩
  unfold picoTimerCancel at done
  rw [if_neg (timerId_ne_zero k)] at done
  split at done
  · rename_i none_
    obtain rfl := Option.some.inj done
    intro r mem ticket
    by_contra callback
    have some_ : r.tmr.isSome := Option.isSome_iff_ne_none.mpr callback
    obtain ⟨i, pos, le, rfl⟩ := mem_contents.mp mem
    have other := List.find?_eq_none.mp none_ i (List.mem_range'_1.mpr ⟨pos, by omega⟩)
    apply other
    rw [decide_eq_true_iff, sound.id_eq _ mem some_, ticket]
  · rename_i i found
    have range := List.mem_range'_1.mp (List.mem_of_find?_eq_some found)
    have le : i ≤ tm.n := by omega
    have here : tm.top i ∈ tm.refs := mem_contents.mpr ⟨i, range.1, le, rfl⟩
    have id : (tm.top i).id = timerId k := by simpa using List.find?_some found
    obtain ⟨ticket, some_⟩ := live _ here id
    rw [if_pos some_] at done
    obtain ⟨free, freed, rfl⟩ := Option.map_eq_some_iff.mp done
    obtain ⟨-, rfl⟩ := picoFree_eq_some.mp freed
    have tickets := (refs_dead range.1 le rfl).2.2.1
    have nodup := tickets ▸ sound.nodup
    intro r mem same
    have dead : (tm.top i).dead ∈ contents tm.n (Function.update tm.top i (tm.top i).dead) :=
      mem_contents.mpr ⟨i, range.1, le, Function.update_self _ _ _⟩
    have eq := Multiset.inj_on_of_nodup_map nodup r mem _ dead (same.trans ticket.symm)
    rw [eq]
    rfl

/-- An accepted timer has the id of its ticket. -/
theorem picoTimerAdd_id {tm : Timers τ} (sound : tm.Sound) {delay : Nat} {a : τ}
    (accepted : (picoTimerAdd now delay a tm).1 ≠ 0) :
    (picoTimerAdd now delay a tm).1 = timerId tm.created := by
  unfold picoTimerAdd at accepted ⊢
  dsimp only at accepted ⊢
  split at accepted
  · exact absurd rfl accepted
  · exact sound.tmrId

theorem picoTimerAdd_created (now delay : Nat) (a : τ) (tm : Timers τ) :
    (picoTimerAdd now delay a tm).2.created = tm.created + 1 := by
  unfold picoTimerAdd
  dsimp only
  split
  · rfl
  · rename_i added room
    exact (heapInsert_globals room).2.1

/-- The callback of a timer is not called after the call of `pico_timer_cancel` with the
id that `pico_timer_add` returned for it, if fewer than 2^32 timers came before. Both
calls may be those of callbacks. -/
theorem timer_cancelled (run : TimerRun calls s) {delay : Nat} {a : τ} {id : UInt32}
    (accepted : (picoTimerAdd now delay a s.timers).1 = id) (valid : id ≠ 0)
    {between : List (TimerCall τ)}
    (pending : Run timerStep s (.add now delay a :: between) u)
    (few : u.timers.created < 2 ^ 32)
    (cancelled : Run timerStep u (.cancel id :: more) t) :
    ∃ new, t.ran = u.ran ++ new ∧ ∀ p ∈ new, p.1.ticket ≠ s.timers.created := by
  have sound := run.advance.sound
  have idEq : id = timerId s.timers.created := by
    rw [← accepted]
    exact picoTimerAdd_id sound.timers (accepted.symm ▸ valid)
  have soundU := (timerRun_advance_any sound pending).sound
  obtain ⟨v, added, rest⟩ := Run.cons_iff.mp pending
  have soundV := (timerStep_advance_any sound added).sound
  have old : s.timers.created < u.timers.created := by
    have later := (timerRun_advance_any soundV rest).created
    simp only [timerStep, Option.ite_none_left_eq_some] at added
    obtain ⟨-, added⟩ := added
    obtain rfl := Option.some.inj added
    have counted := picoTimerAdd_created now delay a s.timers
    exact Nat.lt_of_lt_of_le (counted ▸ Nat.lt_succ_self _) later
  obtain ⟨w, dropped, after⟩ := Run.cons_iff.mp cancelled
  have soundW := (timerStep_advance_any soundU dropped).sound
  simp only [timerStep, Option.ite_none_left_eq_some, Option.map_eq_some_iff] at dropped
  obtain ⟨-, tm, done, rfl⟩ := dropped
  have dead : tm.Cancelled s.timers.created :=
    soundU.timers.cancelled (by omega) old (idEq ▸ done)
  have grows : Grows 0 u.timers tm := soundU.timers.cancel done
  obtain ⟨new, eq, -, runs⟩ := (timerRun_advance_any soundW after).ran
  exact ⟨new, eq, runs _ (Nat.lt_of_lt_of_le old grows.created) dead⟩

/-- A callback cancels the timer that is due next. -/
theorem timer_cancelled_rearm : ∃ s u t : TimerState Unit,
    TimerRun [.add 0 10 ()] s ∧
      Run timerStep s [.add 0 20 (), .check 30, .turn] u ∧
        Run timerStep u [.cancel 2, .back, .turn, .turn] t ∧
          t.taken.map (fun p => p.1.ticket) = [0, 1] ∧
            ∃ new, t.ran = u.ran ++ new ∧ ∀ p ∈ new, p.1.ticket ≠ s.timers.created := by
  obtain ⟨s, run⟩ : ∃ s : TimerState Unit, TimerRun [.add 0 10 ()] s := ⟨_, rfl⟩
  obtain ⟨u, pending, accepted, few⟩ : ∃ u, Run timerStep s [.add 0 20 (), .check 30, .turn] u ∧
      (picoTimerAdd 0 20 () s.timers).1 = 2 ∧ u.timers.created < 2 ^ 32 := by
    cases run
    exact Run.of_any (by decide +kernel)
  obtain ⟨t, cancelled, taken⟩ : ∃ t, Run timerStep u [.cancel 2, .back, .turn, .turn] t ∧
      t.taken.map (fun p => p.1.ticket) = [0, 1] := by
    cases run
    cases pending
    exact Run.of_any (by decide +kernel)
  exact ⟨s, u, t, run, pending, cancelled, taken,
    timer_cancelled run accepted (by decide) pending few cancelled⟩

/-! ### The wrap of the clock -/

/-- The readings in a state are those of checks that have begun. -/
structure TimerState.Reads (s : TimerState τ) (calls : List (TimerCall τ)) : Prop where
  taken : ∀ p ∈ s.taken, .check p.2 ∈ calls
  ran : ∀ p ∈ s.ran, .check p.2 ∈ calls
  picoTick : ∀ now, s.checking.picoTick = some now → .check now ∈ calls

theorem TimerState.Reads.peek (reads : s.Reads calls) (here : .check now ∈ calls) :
    (s.peek now).Reads calls where
  taken := by
    intro p mem
    rcases List.mem_append.mp mem with old | new
    · exact reads.taken p old
    · obtain ⟨r, -, rfl⟩ := List.mem_map.mp new
      exact here
  ran := reads.ran
  picoTick := by
    intro clock same
    cases same
    exact here

theorem TimerState.Reads.mono (reads : s.Reads calls) (sub : calls ⊆ more) : s.Reads more where
  taken := fun p mem => sub (reads.taken p mem)
  ran := fun p mem => sub (reads.ran p mem)
  picoTick := fun now same => sub (reads.picoTick now same)

theorem TimerStep.reads (step : TimerStep s call t) (reads : s.Reads calls)
    (here : call ∈ calls) : t.Reads calls := by
  cases step with
  | edit => exact ⟨reads.taken, reads.ran, reads.picoTick⟩
  | check =>
      refine ⟨reads.taken, reads.ran, ?_⟩
      intro clock same
      cases same
      exact here
  | ends =>
      refine ⟨reads.taken, reads.ran, ?_⟩
      intro clock same
      cases same
  | @call now under =>
      have begun := reads.picoTick now (congrArg Checking.picoTick under)
      refine ⟨reads.taken, ?_, ?_⟩
      · intro p mem
        rcases List.mem_append.mp mem with old | new
        · exact reads.ran p old
        · rw [List.mem_singleton.mp new]
          exact begun
      · intro clock same
        cases same
        exact begun
  | dead under => exact reads.peek (reads.picoTick _ (congrArg Checking.picoTick under))
  | @back now tref under =>
      have marked : (s.freeing tref.ticket).Reads calls := ⟨reads.taken, reads.ran, reads.picoTick⟩
      exact marked.peek (reads.picoTick _ (congrArg Checking.picoTick under))

theorem TimerRun.reads (run : TimerRun calls s) : s.Reads calls := by
  refine Run.history (P := fun es v => v.Reads es) ?_ ?_ run
  · constructor
    · intro p mem
      cases mem
    · intro p mem
      cases mem
    · intro now same
      cases same
  · intro es v call w before ih taken
    have sound := (TimerRun.advance before).sound
    exact (timerStep_cases sound.timers taken).reads (ih.mono (List.subset_append_left es [call]))
      (List.mem_append_right es (List.mem_singleton_self call))

/-- A timer that is set for the last millisecond of the 32-bit clock, or later, is never
taken off, and its callback is not called: no check reads a clock beyond it. -/
theorem timer_stuck (run : TimerRun calls s) (later : Run timerStep s more t)
    (clock : ∀ now, .check now ∈ calls ++ more → now < 2 ^ 32) {x : Nat × Nat}
    (pending : x ∈ s.timers.stubs) (late : 2 ^ 32 - 1 ≤ x.2) :
    x ∈ t.timers.stubs ∧ x ∉ t.off ∧ ∀ p ∈ t.ran, p.1.stub ≠ x := by
  have whole : TimerRun (calls ++ more) t := Run.append_iff.mpr ⟨s, run, later⟩
  have reads := whole.reads
  obtain ⟨taken, ran⟩ := whole.expired
  have notOff : x ∉ t.off := by
    intro off
    obtain ⟨p, mem, rfl⟩ := List.mem_map.mp (Multiset.mem_coe.mp off)
    have expired : p.1.stub.2 < p.2 := taken p mem
    have small := clock p.2 (reads.taken p mem)
    omega
  have kept := (timerRun_advance_any run.advance.sound later).mem pending
  refine ⟨kept.resolve_left notOff, notOff, ?_⟩
  rintro p mem rfl
  have expired : p.1.stub.2 < p.2 := ran p mem
  have small := clock p.2 (reads.ran p mem)
  omega

/-- A timer of one second, set half a second before the wrap. -/
theorem timer_stuck_rearm : ∃ s t : TimerState Unit,
    TimerRun [.add 4294966795 1000 ()] s ∧
      Run timerStep s [.check 4294967295, .turn, .check 0, .turn, .check 2000, .turn] t ∧
        (0, 4294967795) ∈ t.timers.stubs ∧ (0, 4294967795) ∉ t.off ∧
          ∀ p ∈ t.ran, p.1.stub ≠ (0, 4294967795) := by
  refine ⟨_, _, rfl, rfl, timer_stuck (rfl : TimerRun [.add 4294966795 1000 ()] _)
    (rfl : Run timerStep _ [.check 4294967295, .turn, .check 0, .turn, .check 2000, .turn] _)
    ?_ ?_ (by decide)⟩
  · intro now mem
    simp only [List.cons_append, List.nil_append, List.mem_cons, TimerCall.check.injEq,
      List.not_mem_nil, reduceCtorEq, or_false, false_or] at mem
    omega
  · exact Multiset.mem_singleton_self _

end Runs

end Rfsis.Pico
