import Rfsis.Pico.TimerRuns

/-!
One check of picoTCP's timers, from its start to its last turn.

* `timers_taken_when_due`: a check that ends has taken off what was due, in the order
  of the expiry, and called the callbacks that were not cancelled.
* `timers_defined`: what callbacks must keep to for a run not to come to freed memory;
  `timers_check_ends`: under the same condition on the clock every check ends.
-/

namespace Rfsis.Pico

open BinaryHeap Transition

universe u

section Checks

variable {τ : Type u} {s t u : TimerState τ} {call : TimerCall τ}
  {calls body : List (TimerCall τ)} {now start : Nat} {tref : PicoTimerRef τ}

/-! ### One check -/

/-- A timer that is due is in the heap with a `struct pico_timer` that is freed: another
one was taken off in its place. The check cannot end any more. -/
structure TimerState.Lost (s : TimerState τ) (now : Nat) : Prop where
  here : ∃ r ∈ s.timers.refs, r.tmr.isSome ∧ r.ticket ∈ s.timers.freed ∧ r.expire < now ∧
    ∀ clock tref, s.checking = .callback clock tref → (s.timers.top 1).ticket ≠ r.ticket

/-- What a turn leaves in the heap. -/
theorem TimerState.mem_peek (sound : s.timers.Sound) {r : PicoTimerRef τ}
    (mem : r ∈ s.timers.refs) (other : (s.timers.top 1).ticket ≠ r.ticket) :
    r ∈ (s.peek now).timers.refs ∧ (s.peek now).timers.freed = s.timers.freed := by
  obtain ⟨-, -, refs, -, freed⟩ := heapPeek_spec sound (Timers.some_of_mem mem)
  refine ⟨?_, freed⟩
  rcases Multiset.mem_cons.mp (refs ▸ mem) with first | kept
  · exact absurd (first ▸ rfl) other
  · exact kept

theorem TimerState.Lost.step (lost : s.Lost now) (sound : s.Sound)
    (under : s.checking.picoTick = some now) (step : TimerStep s call t) :
    t.Lost now ∧ t.checking.picoTick = some now := by
  obtain ⟨r, mem, callback, freed, due, first⟩ := lost.here
  cases step with
  | edit outside grows edits =>
      have grows := grows 0 call.notBefore_zero
      refine ⟨⟨r, ?_, callback, grows.freed freed, due, ?_⟩, under⟩
      · rcases grows.kept r mem with kept | ⟨-, live, -⟩
        · exact kept
        · exact absurd freed live
      · intro clock tref here
        obtain ⟨-, same | new⟩ := grows.first (Timers.some_of_mem mem)
        · exact same ▸ first clock tref here
        · rw [new.1]
          exact (sound.timers.ticket_lt r mem).ne'
  | check idle =>
      rw [idle] at under
      cases under
  | ends here stops =>
      rw [here] at under
      cases under
      have zero := sound.timers.due_eq_zero stops
      have mem : r.stub ∈ s.timers.due now :=
        Multiset.mem_filter.mpr ⟨mem_stubs.mpr ⟨r, mem, rfl⟩, due⟩
      exact absurd (zero ▸ mem) (Multiset.notMem_zero _)
  | call here some_ due' callback' live =>
      refine ⟨⟨r, mem, callback, freed, due, ?_⟩, ?_⟩
      · intro clock tref _ same
        exact live (same ▸ freed)
      · rwa [here] at under
  | dead here some_ due' cancelled =>
      rw [here] at under
      cases under
      have other : (s.timers.top 1).ticket ≠ r.ticket := by
        intro same
        rw [← sound.timers.eq_of_ticket (Timers.first_mem some_) mem same, cancelled] at callback
        cases callback
      obtain ⟨kept, freed'⟩ := TimerState.mem_peek sound.timers mem other
      refine ⟨⟨r, kept, callback, freed' ▸ freed, due, ?_⟩, rfl⟩
      intro clock tref gone
      cases gone
  | @back now' tref here live =>
      rw [here] at under
      cases under
      obtain ⟨kept, freed'⟩ := TimerState.mem_peek (sound.freeing here).timers mem
        (first now tref here)
      refine ⟨⟨r, kept, callback, freed' ▸ List.mem_cons_of_mem _ freed, due, ?_⟩, rfl⟩
      intro clock tref' gone
      cases gone

/-- What is taken off next is not due before `expire`. -/
def TimerState.After (s : TimerState τ) (expire : Nat) : Prop :=
  match s.checking with
  | .callback _ tref => expire ≤ tref.expire
  | _ => ∀ x ∈ s.timers.stubs, expire ≤ x.2

theorem TimerState.After.first {expire : Nat} (after : s.After expire)
    (here : s.checking = .loop now) (some_ : s.timers.n ≠ 0) :
    expire ≤ (s.timers.top 1).expire := by
  simp only [TimerState.After, here] at after
  exact after _ (mem_stubs.mpr ⟨_, Timers.first_mem some_, rfl⟩)

/-- The callback that runs, with the reading of its check. -/
def Checking.running : Checking τ → List (PicoTimerRef τ × Nat)
  | .callback now tref => [(tref, now)]
  | _ => []

theorem Checking.running_idle : (Checking.idle : Checking τ).running = [] := rfl

theorem Checking.running_loop (now : Nat) : (Checking.loop now : Checking τ).running = [] := rfl

/-- How far a check that began in `s` has come in `t`, having taken off `new`. -/
structure Halfway (now : Nat) (s t : TimerState τ) (new : List (PicoTimerRef τ)) : Prop where
  taken : t.taken = s.taken ++ new.map fun r => (r, now)
  ran : t.ran = s.ran ++ (new.filter fun r => r.tmr.isSome).map (fun r => (r, now)) ++
    t.checking.running
  sorted : new.Pairwise fun r r' => r.expire ≤ r'.expire
  after : ∀ r ∈ new, t.After r.expire

/-- A turn takes off the next reference. -/
theorem Halfway.peek {new : List (PicoTimerRef τ)} (sound : t.timers.Sound)
    (some_ : t.timers.n ≠ 0) (taken : t.taken = s.taken ++ new.map fun r => (r, now))
    (ran : t.ran = s.ran ++
      ((new ++ [t.timers.top 1]).filter fun r => r.tmr.isSome).map fun r => (r, now))
    (sorted : new.Pairwise fun r r' => r.expire ≤ r'.expire)
    (before : ∀ r ∈ new, r.expire ≤ (t.timers.top 1).expire) :
    Halfway now s (t.peek now) (new ++ [t.timers.top 1]) := by
  obtain ⟨first, -⟩ := heapPeek_spec sound some_
  refine ⟨?_, ran.trans (List.append_nil _).symm, ?_, ?_⟩
  · simp [TimerState.peek, first, taken]
  · refine List.pairwise_append.mpr ⟨sorted, List.pairwise_singleton _ _, ?_⟩
    intro r mem r' last
    rw [List.mem_singleton.mp last]
    exact before r mem
  · intro r mem x left
    have least : (t.timers.top 1).expire ≤ x.2 := by
      apply sound.first_le
      rw [TimerState.stubs_peek sound some_ now]
      exact Multiset.mem_cons_of_mem left
    rcases List.mem_append.mp mem with early | last
    · exact (before r early).trans least
    · rw [List.mem_singleton.mp last]
      exact least

theorem Halfway.step {new : List (PicoTimerRef τ)} (halfway : Halfway now s t new)
    (sound : t.Sound) (under : t.checking.picoTick = some now) (step : TimerStep t call u) :
    u.checking = .idle ∨
      u.checking.picoTick = some now ∧ (u.Lost now ∨ ∃ new, Halfway now s u new) := by
  obtain ⟨taken, ran, sorted, after⟩ := halfway
  cases step with
  | edit outside grows edits =>
      refine Or.inr ⟨under, Or.inr ⟨new, taken, ran, sorted, ?_⟩⟩
      cases here : t.checking with
      | idle =>
          rw [here] at under
          cases under
      | loop clock =>
          rw [here] at outside
          cases outside
      | callback clock tref =>
          intro r mem
          simpa [TimerState.After, here] using after r mem
  | check idle =>
      rw [idle] at under
      cases under
  | ends here stops => exact Or.inl rfl
  | call here some_ due callback live =>
      rw [here] at under
      cases under
      rw [here, Checking.running_loop, List.append_nil] at ran
      refine Or.inr ⟨rfl, Or.inr ⟨new, taken, ?_, sorted, ?_⟩⟩
      · rw [ran]
        rfl
      · exact fun r mem => (after r mem).first here some_
  | dead here some_ due cancelled =>
      rw [here] at under
      cases under
      rw [here, Checking.running_loop, List.append_nil] at ran
      refine Or.inr ⟨rfl, Or.inr ⟨_, Halfway.peek sound.timers some_ taken ?_ sorted ?_⟩⟩
      · simp [ran, cancelled]
      · exact fun r mem => (after r mem).first here some_
  | @back now' tref here live =>
      rw [here] at under
      cases under
      have running := sound.running now tref here
      have mem := running.here.resolve_right fun gone => live gone.2
      have some_ := Timers.some_of_mem mem
      have freed := (sound.freeing here).timers
      refine Or.inr ⟨rfl, ?_⟩
      by_cases same : (t.timers.top 1).ticket = tref.ticket
      · have first := sound.timers.eq_of_ticket (Timers.first_mem some_) mem same
        rw [here, Checking.running] at ran
        refine Or.inr ⟨_, Halfway.peek freed some_ taken ?_ sorted ?_⟩
        · simp [TimerState.freeing, ran, first, running.callback]
        · intro r old
          simpa [TimerState.freeing, TimerState.After, here, first] using after r old
      · obtain ⟨kept, freed'⟩ := TimerState.mem_peek freed mem same
        refine Or.inl ⟨tref, kept, running.callback, freed' ▸ List.mem_cons_self, running.due, ?_⟩
        intro clock tref' gone
        cases gone

/-- A check, up to its end: nothing is lost as long as it goes on. -/
theorem check_halfway (sound : s.Sound) (begin_ : s.checking = .loop now)
    (quiet : ∀ clock, .check clock ∉ body) (run : Run timerStep s body t) :
    t.Sound ∧ (t.checking = .idle ∨
      t.checking.picoTick = some now ∧ (t.Lost now ∨ ∃ new, Halfway now s t new)) := by
  refine Run.history (P := fun es v => (∀ clock, .check clock ∉ es) → v.Sound ∧
    (v.checking = .idle ∨
      v.checking.picoTick = some now ∧ (v.Lost now ∨ ∃ new, Halfway now s v new)))
    ?_ ?_ run quiet
  · intro _
    refine ⟨sound, Or.inr ⟨by rw [begin_]; rfl, Or.inr ⟨[], by simp, ?_, List.Pairwise.nil, ?_⟩⟩⟩
    · simp [begin_, Checking.running]
    · intro r mem
      cases mem
  · intro es v call w _ ih taken quiet
    obtain ⟨sound, place⟩ := ih fun clock mem => quiet clock (List.mem_append_left _ mem)
    have step := timerStep_cases sound.timers taken
    refine ⟨(timerStep_advance_any sound taken).sound, ?_⟩
    rcases place with idle | ⟨under, lost | ⟨new, halfway⟩⟩
    · left
      cases step with
      | edit outside grows edits => exact idle
      | check _ =>
          exact absurd (List.mem_append_right _ (List.mem_singleton_self _)) (quiet _)
      | ends here => rfl
      | call here =>
          rw [here] at idle
          cases idle
      | dead here =>
          rw [here] at idle
          cases idle
      | back here =>
          rw [here] at idle
          cases idle
    · obtain ⟨lost, under⟩ := lost.step sound under step
      exact Or.inr ⟨under, Or.inl lost⟩
    · exact halfway.step sound under step

/-- What an account says when one side of it is due and the other is not. -/
theorem due_of_account {new left stubs added : Multiset (Nat × Nat)}
    (account : new + left = stubs + added) (due : ∀ x ∈ new, x.2 < now)
    (notDue : ∀ x ∈ left, ¬ x.2 < now) :
    new = stubs.filter (fun x => x.2 < now) + added.filter (fun x => x.2 < now) ∧
      left = stubs.filter (fun x => ¬ x.2 < now) + added.filter (fun x => ¬ x.2 < now) := by
  have early := congrArg (Multiset.filter fun x => x.2 < now) account
  have late := congrArg (Multiset.filter fun x => ¬ x.2 < now) account
  have noneDue : new.filter (fun x => ¬ x.2 < now) = 0 :=
    Multiset.filter_eq_nil.mpr fun x mem => not_not.mpr (due x mem)
  rw [Multiset.filter_add, Multiset.filter_add, Multiset.filter_eq_self.mpr due,
    Multiset.filter_eq_nil.mpr notDue, Multiset.add_zero] at early
  rw [Multiset.filter_add, Multiset.filter_add, Multiset.filter_eq_self.mpr notDue, noneDue,
    Multiset.zero_add] at late
  exact ⟨early, late⟩

theorem TimerStep.turn_loop (step : TimerStep s .turn t) : ∃ now, s.checking = .loop now := by
  cases step with
  | edit _ _ edits => cases edits
  | ends here => exact ⟨_, here⟩
  | call here => exact ⟨_, here⟩
  | dead here => exact ⟨_, here⟩

/-- The last turn of a check. -/
theorem check_ends (sound : s.Sound) (check : Run timerStep s (.check now :: body ++ [.turn]) t)
    (one : ∀ clock, .check clock ∉ body) (ended : t.checking = .idle) :
    (∃ new, Halfway now s t new) ∧ t.timers.due now = 0 := by
  obtain ⟨v, begins, run⟩ := Run.cons_iff.mp check
  obtain ⟨w, run, ends⟩ := Run.snoc_iff.mp run
  have soundV := (timerStep_advance_any sound begins).sound
  have begins := timerStep_cases sound.timers begins
  obtain ⟨soundW, place⟩ : w.Sound ∧ (w.checking = .idle ∨
      w.checking.picoTick = some now ∧ (w.Lost now ∨ ∃ new, Halfway now s w new)) := by
    cases begins with
    | edit _ _ edits => cases edits
    | check idle =>
        obtain ⟨soundW, place⟩ := check_halfway soundV rfl one run
        refine ⟨soundW, place.imp_right fun ⟨under, place⟩ => ⟨under, place.imp_right ?_⟩⟩
        rintro ⟨new, taken, ran, sorted, after⟩
        exact ⟨new, taken, ran, sorted, after⟩
  have ends := timerStep_cases soundW.timers ends
  rcases place with idle | ⟨under, lost | ⟨new, taken, ran, sorted, after⟩⟩
  · obtain ⟨clock, here⟩ := ends.turn_loop
    rw [here] at idle
    cases idle
  · have goesOn := (lost.step soundW under ends).2
    rw [ended] at goesOn
    cases goesOn
  · cases ends with
    | edit _ _ edits => cases edits
    | ends here stops =>
        rw [here] at under
        cases under
        refine ⟨⟨new, taken, ?_, sorted, ?_⟩, soundW.timers.due_eq_zero stops⟩
        · rw [here, Checking.running_loop] at ran
          exact ran
        · simpa [TimerState.After, here] using after
    | call => cases ended
    | dead => cases ended

/-- In every run, a check that ends has taken off exactly the timers that were due or
became due while it ran, in the order of their expiry, and has called the callbacks of
those that were not cancelled; only what is not due is left. If no callback set a timer
at a reading before that of the check, these are the timers that were due at its start. -/
theorem timers_taken_when_due (run : TimerRun calls s)
    (check : Run timerStep s (.check now :: body ++ [.turn]) t)
    (one : ∀ clock, .check clock ∉ body) (ended : t.checking = .idle) :
    ∃ (new : List (PicoTimerRef τ)) (added : Multiset (Nat × Nat)),
      t.taken = s.taken ++ new.map (fun r => (r, now)) ∧
        t.ran = s.ran ++ (new.filter fun r => r.tmr.isSome).map (fun r => (r, now)) ∧
          new.Pairwise (fun r r' => r.expire ≤ r'.expire) ∧
            (∀ x ∈ added, s.timers.created ≤ x.1 ∧ x.1 < t.timers.created) ∧
              (new.map PicoTimerRef.stub : Multiset (Nat × Nat)) =
                s.timers.due now + added.filter (fun x => x.2 < now) ∧
                t.timers.stubs = s.timers.notDue now + added.filter (fun x => ¬ x.2 < now) ∧
                  ((∀ call ∈ body, call.NotBefore now) →
                    (new.map PicoTimerRef.stub : Multiset (Nat × Nat)) = s.timers.due now) := by
  have sound := run.advance.sound
  obtain ⟨⟨new, taken, ran, sorted, -⟩, none_⟩ := check_ends sound check one ended
  rw [ended, Checking.running_idle, List.append_nil] at ran
  have account {start : Nat} (advance : Advance start s t) :
      ∃ added : Multiset (Nat × Nat),
        (new.map PicoTimerRef.stub : Multiset (Nat × Nat)) + t.timers.stubs =
          s.timers.stubs + added ∧
            ∀ x ∈ added, s.timers.created ≤ x.1 ∧ x.1 < t.timers.created ∧ start ≤ x.2 := by
    obtain ⟨added, eq, range, -⟩ := advance.account
    refine ⟨added, ?_, range⟩
    have off : t.off = s.off + (new.map PicoTimerRef.stub : Multiset (Nat × Nat)) := by
      simp [TimerState.off, taken, Function.comp_def]
    rw [off, Multiset.add_assoc, Multiset.add_assoc] at eq
    exact Multiset.add_right_inj.mp eq
  have due : ∀ x ∈ (new.map PicoTimerRef.stub : Multiset (Nat × Nat)), x.2 < now := by
    intro x mem
    obtain ⟨r, here, rfl⟩ := List.mem_map.mp (Multiset.mem_coe.mp mem)
    obtain ⟨new', eq, late⟩ := (timerRun_advance_any sound check).taken
    have same := List.append_cancel_left (taken.symm.trans eq)
    exact late (r, now) (same ▸ List.mem_map_of_mem here)
  have notDue : ∀ x ∈ t.timers.stubs, ¬ x.2 < now := Multiset.filter_eq_nil.mp none_
  obtain ⟨added, eq, range⟩ := account (timerRun_advance_any sound check)
  obtain ⟨early, late⟩ := due_of_account eq due notDue
  refine ⟨new, added, taken, ran, sorted, fun x mem => ⟨(range x mem).1, (range x mem).2.1⟩,
    early, late, ?_⟩
  intro later
  have all : ∀ call ∈ (.check now :: body ++ [.turn] : List (TimerCall τ)), call.NotBefore now := by
    intro call mem
    rcases List.mem_append.mp mem with front | last
    · rcases List.mem_cons.mp front with rfl | inside
      · trivial
      · exact later call inside
    · rw [List.mem_singleton.mp last]
      trivial
  obtain ⟨added', eq', range'⟩ := account (timerRun_advance sound all check)
  have early' := (due_of_account eq' due notDue).1
  have noneDue : added'.filter (fun x => x.2 < now) = 0 :=
    Multiset.filter_eq_nil.mpr fun x mem => Nat.not_lt.mpr (range' x mem).2.2
  rwa [noneDue, Multiset.add_zero] at early'

/-- The clock steps back while the first callback runs, and the timer it sets is due in
the same check; the second timer was cancelled. In the next check it only goes on. -/
theorem timers_taken_when_due_rearm : ∃ s t u : TimerState Unit,
    TimerRun [.add 0 10 (), .add 0 12 (), .add 0 40 (), .cancel 2] s ∧
      Run timerStep s
        (.check 15 :: [.turn, .add 5 8 (), .back, .turn, .turn, .back] ++ [.turn]) t ∧
        t.taken.map (fun p => p.1.ticket) = [0, 1, 3] ∧
          (∃ (new : List (PicoTimerRef Unit)) (added : Multiset (Nat × Nat)),
            t.taken = s.taken ++ new.map (fun r => (r, 15)) ∧
              t.ran = s.ran ++ (new.filter fun r => r.tmr.isSome).map (fun r => (r, 15)) ∧
                new.Pairwise (fun r r' => r.expire ≤ r'.expire) ∧
                  (∀ x ∈ added, s.timers.created ≤ x.1 ∧ x.1 < t.timers.created) ∧
                    (new.map PicoTimerRef.stub : Multiset (Nat × Nat)) =
                      s.timers.due 15 + added.filter (fun x => x.2 < 15) ∧
                      t.timers.stubs =
                        s.timers.notDue 15 + added.filter (fun x => ¬ x.2 < 15)) ∧
            Run timerStep t (.check 50 :: [.turn, .add 51 8 (), .back] ++ [.turn]) u ∧
              ∃ new : List (PicoTimerRef Unit), u.taken = t.taken ++ new.map (fun r => (r, 50)) ∧
                (new.map PicoTimerRef.stub : Multiset (Nat × Nat)) = t.timers.due 50 := by
  obtain ⟨s, run⟩ : ∃ s : TimerState Unit,
    TimerRun [.add 0 10 (), .add 0 12 (), .add 0 40 (), .cancel 2] s := ⟨_, rfl⟩
  obtain ⟨t, check, taken, ended, again⟩ : ∃ t, Run timerStep s
      (.check 15 :: [.turn, .add 5 8 (), .back, .turn, .turn, .back] ++ [.turn]) t ∧
        t.taken.map (fun p => p.1.ticket) = [0, 1, 3] ∧ t.checking.picoTick = none ∧
          (exec timerStep t (.check 50 :: [.turn, .add 51 8 (), .back] ++ [.turn])).any
            fun u => u.checking.picoTick = none := by
    cases run
    exact Run.of_any (by decide +kernel)
  obtain ⟨u, check', ended'⟩ := Run.of_any again
  obtain ⟨new, added, off, ran, sorted, fresh, due, left, -⟩ :=
    timers_taken_when_due run check (by simp) (Checking.picoTick_eq_none.mp ended)
  obtain ⟨new', -, off', -, -, -, -, -, due'⟩ := timers_taken_when_due
    (Run.append_iff.mpr ⟨s, run, check⟩) check' (by simp) (Checking.picoTick_eq_none.mp ended')
  exact ⟨s, t, u, run, check, taken, ⟨new, added, off, ran, sorted, fresh, due, left⟩, check',
    new', off', due' (by simp [TimerCall.NotBefore])⟩

/-! ### What callbacks must keep to -/

/-- No timer is set at a reading before that of the check, and no callback cancels the
timer it runs for. -/
def TimerState.Careful (s : TimerState τ) : TimerCall τ → Prop
  | .add clock _ _ => ∀ now, s.checking.picoTick = some now → now ≤ clock
  | .cancel id => ∀ now tref, s.checking = .callback now tref → tref.id ≠ id
  | _ => True

/-- What is freed cannot be reached any more. -/
structure TimerState.Defined (s : TimerState τ) : Prop where
  sound : s.Sound
  live : ∀ r ∈ s.timers.refs, r.tmr.isSome → r.ticket ∉ s.timers.freed
  first : ∀ now tref, s.checking = .callback now tref →
    tref ∈ s.timers.refs ∧ (s.timers.top 1).ticket = tref.ticket

theorem TimerState.defined_empty : TimerState.Defined ({} : TimerState τ) where
  sound := TimerState.sound_empty
  live := by
    intro r mem
    cases Multiset.notMem_zero r mem
  first := by
    intro now tref here
    cases here

/-- A careful call does not free the timer whose callback runs. -/
theorem TimerState.Defined.spares (defined : s.Defined) (careful : s.Careful call)
    (taken : timerStep s call = some t) (edits : call.edits)
    (here : s.checking = .callback now tref) : tref.ticket ∉ t.timers.freed := by
  obtain ⟨mem, -⟩ := defined.first now tref here
  have live := defined.live tref mem (defined.sound.running now tref here).callback
  cases call with
  | add clock delay a =>
      simp only [timerStep, Option.ite_none_left_eq_some] at taken
      obtain ⟨-, added⟩ := taken
      obtain rfl := Option.some.inj added
      dsimp only [picoTimerAdd]
      split
      · have old := defined.sound.timers.ticket_lt tref mem
        simp [old.ne, live]
      · rename_i added room
        rw [(heapInsert_globals room).2.2]
        exact live
  | cancel id =>
      simp only [timerStep, Option.ite_none_left_eq_some, Option.map_eq_some_iff] at taken
      obtain ⟨-, tm, done, rfl⟩ := taken
      rcases picoTimerCancel_cases done with rfl | ⟨i, pos, le, same, -, rfl⟩
      · exact live
      · intro freed
        have ticket := (List.mem_cons.mp freed).resolve_right live
        have place : s.timers.top i ∈ s.timers.refs := mem_contents.mpr ⟨i, pos, le, rfl⟩
        have own := defined.sound.timers.eq_of_ticket mem place ticket
        exact careful now tref here (own ▸ same)
  | check => cases edits
  | turn => cases edits
  | back => cases edits

theorem TimerState.Defined.step (defined : s.Defined) (careful : s.Careful call)
    (taken : timerStep s call = some t) : t.Defined := by
  have sound := (timerStep_advance_any defined.sound taken).sound
  have step := timerStep_cases defined.sound.timers taken
  have spares (edits : call.edits) (now : Nat) (tref : PicoTimerRef τ)
      (here : s.checking = .callback now tref) : tref.ticket ∉ t.timers.freed :=
    defined.spares careful taken edits here
  cases step with
  | edit outside grows edits =>
      refine ⟨sound, ?_, ?_⟩
      · intro r mem callback freed
        obtain ⟨old, gone⟩ := (grows 0 call.notBefore_zero).live r mem callback freed
        exact defined.live r old callback gone
      · intro now tref here
        obtain ⟨mem, first⟩ := defined.first now tref here
        have later : call.NotBefore now := by
          cases call with
          | add clock => exact careful now (congrArg Checking.picoTick here)
          | _ => trivial
        have grows := grows now later
        have kept := (grows.kept tref mem).resolve_right fun gone =>
          spares edits now tref here gone.2.2
        refine ⟨kept, ?_⟩
        obtain ⟨-, same | ⟨-, late⟩⟩ := grows.first (Timers.some_of_mem mem)
        · exact same.trans first
        · have least := grows.sound.first_le (mem_stubs.mpr ⟨tref, kept, rfl⟩)
          have due := (defined.sound.running now tref here).due
          exact absurd (Nat.lt_of_le_of_lt least due) (Nat.not_lt.mpr late)
  | check idle =>
      refine ⟨sound, defined.live, ?_⟩
      intro now tref here
      cases here
  | ends here stops =>
      refine ⟨sound, defined.live, ?_⟩
      intro now tref other
      cases other
  | call here some_ due callback live =>
      refine ⟨sound, defined.live, ?_⟩
      intro now tref same
      cases same
      exact ⟨Timers.first_mem some_, rfl⟩
  | dead here some_ due cancelled =>
      obtain ⟨-, -, refs, -, freed⟩ := heapPeek_spec defined.sound.timers some_
      refine ⟨sound, ?_, ?_⟩
      · intro r mem callback
        rw [TimerState.peek, freed]
        exact defined.live r (refs ▸ Multiset.mem_cons_of_mem mem) callback
      · intro now tref other
        cases other
  | @back now tref here live =>
      obtain ⟨mem, first⟩ := defined.first now tref here
      have timers := (defined.sound.freeing here).timers
      obtain ⟨-, -, refs, -, freed⟩ := heapPeek_spec timers (Timers.some_of_mem mem)
      refine ⟨sound, ?_, ?_⟩
      · intro r mem' callback
        have nodup := refs ▸ timers.nodup
        rw [Multiset.map_cons, Multiset.nodup_cons] at nodup
        rw [TimerState.peek, freed]
        have old : r ∈ s.timers.refs := refs ▸ Multiset.mem_cons_of_mem mem'
        intro gone
        rcases List.mem_cons.mp gone with same | gone
        · exact nodup.1 (Multiset.mem_map.mpr ⟨r, mem', same.trans first.symm⟩)
        · exact defined.live r old callback gone
      · intro now tref other
        cases other

/-- A cancellation frees a callback that the heap still has. -/
theorem picoTimerCancel_some {tm : Timers τ}
    (live : ∀ r ∈ tm.refs, r.tmr.isSome → r.ticket ∉ tm.freed) (id : UInt32) :
    ∃ tm', picoTimerCancel id tm = some tm' := by
  unfold picoTimerCancel
  split
  · exact ⟨_, rfl⟩
  · split
    · exact ⟨_, rfl⟩
    · rename_i i found
      split
      · rename_i callback
        have range := List.mem_range'_1.mp (List.mem_of_find?_eq_some found)
        have mem : tm.top i ∈ tm.refs := mem_contents.mpr ⟨i, range.1, by omega, rfl⟩
        simp [picoFree, live _ mem callback]
      · exact ⟨_, rfl⟩

/-- If callbacks keep to that, no run comes to what C leaves undefined: a check goes on,
callbacks return, and any timer can be cancelled. -/
theorem timers_defined (run : TimerRun calls s)
    (careful : Meets timerStep TimerState.Careful {} calls) :
    (∀ now, s.checking = .loop now → ∃ t, timerStep s .turn = some t) ∧
      (∀ now tref, s.checking = .callback now tref → ∃ t, timerStep s .back = some t) ∧
        ∀ id, s.checking.atHead = false → ∃ t, timerStep s (.cancel id) = some t := by
  have defined : s.Defined := Meets.invariant TimerState.defined_empty
    (fun _ _ _ defined careful taken => defined.step careful taken) careful run
  refine ⟨?_, ?_, ?_⟩
  · intro now here
    simp only [timerStep, here, TimerState.turn, heapFirst]
    split
    · exact ⟨_, rfl⟩
    · rename_i tref first
      split at first
      · cases first
      · rename_i some_
        obtain rfl := Option.some.inj first
        split
        · split
          · rename_i callback
            rw [if_neg (defined.live _ (Timers.first_mem some_) callback)]
            exact ⟨_, rfl⟩
          · exact ⟨_, rfl⟩
        · exact ⟨_, rfl⟩
  · intro now tref here
    have live := defined.live tref (defined.first now tref here).1
      (defined.sound.running now tref here).callback
    simp [timerStep, here, picoFree, live]
  · intro id outside
    obtain ⟨tm, done⟩ := picoTimerCancel_some defined.live id
    simp [timerStep, outside, done]

/-- A callback that cancels the timer it runs for, as `sntp_receive_timeout` does, frees
it a second time when it returns. -/
example : (exec timerStep {} [.add 0 10 (), .check 30, .turn, .cancel 1]).isSome ∧
    exec timerStep {} [.add 0 10 (), .check 30, .turn, .cancel 1, .back] = none := by
  constructor
  · decide +kernel
  · apply Option.isNone_iff_eq_none.mp
    decide +kernel

/-- A timer whose callback sets one that is due before it stays in the heap with what is
freed, and is the first again in the next turn. -/
example : exec timerStep {} [.add 0 10 (), .check 30, .turn, .add 2 3 (), .back, .turn] = none := by
  apply Option.isNone_iff_eq_none.mp
  decide +kernel

/-! ### The end of a check -/

def TimerCall.isTurn : TimerCall τ → Bool
  | .turn => true
  | _ => false

/-- The turns that were begun and have taken nothing off: that of the callback which
runs, and the last one of a check. -/
def Checking.begun : Checking τ → Nat
  | .loop _ => 0
  | _ => 1

/-- What a turn takes off is not due any more. -/
theorem TimerState.due_peek (sound : s.timers.Sound) (some_ : s.timers.n ≠ 0)
    (due : (s.timers.top 1).expire < now) :
    (s.timers.due now).card = ((s.peek now).timers.due now).card + 1 := by
  rw [Timers.due, TimerState.stubs_peek sound some_ now,
    Multiset.filter_cons_of_pos (p := fun x : Nat × Nat => x.2 < now) _ due, Multiset.card_cons]
  rfl

/-- Each step settles what is due, one timer for one turn. -/
theorem TimerStep.settles (step : TimerStep s call t) (sound : s.Sound)
    (under : s.checking = .idle ∨ s.checking.picoTick = some now) (later : call.NotBefore now)
    (one : ∀ clock, call ≠ .check clock) :
    (t.checking = .idle ∨ t.checking.picoTick = some now) ∧
      (if call.isTurn then 1 else 0) + (t.timers.due now).card + s.checking.begun ≤
        (s.timers.due now).card + t.checking.begun := by
  cases step with
  | edit outside grows edits =>
      obtain ⟨added, eq, new⟩ := (grows now later).stubs
      have none_ : added.filter (fun x => x.2 < now) = 0 :=
        Multiset.filter_eq_nil.mpr fun x mem => Nat.not_lt.mpr (new x mem).2
      have quiet : call.isTurn = false := by
        cases call with
        | turn => cases edits
        | _ => rfl
      refine ⟨under, ?_⟩
      simp [Timers.due, eq, Multiset.filter_add, none_, quiet]
  | check idle => exact absurd rfl (one _)
  | ends here stops =>
      refine ⟨Or.inl rfl, ?_⟩
      simp [TimerCall.isTurn, Checking.begun, here]
      omega
  | call here some_ due callback live =>
      refine ⟨?_, ?_⟩
      · simpa [here, Checking.picoTick] using under
      · simp [TimerCall.isTurn, Checking.begun, here]
        omega
  | @dead clock here some_ due cancelled =>
      have tick : clock = now := by simpa [here, Checking.picoTick] using under
      subst tick
      have fewer := TimerState.due_peek sound.timers some_ due
      refine ⟨Or.inr rfl, ?_⟩
      have ended : (s.peek clock).checking.begun = 0 := rfl
      simp only [TimerCall.isTurn, here, Checking.begun, if_true]
      omega
  | @back clock tref here live =>
      have tick : clock = now := by simpa [here, Checking.picoTick] using under
      subst tick
      obtain ⟨some_, due⟩ := (sound.running clock tref here).first_due sound.timers
      have fewer := TimerState.due_peek (sound.freeing here).timers some_ due
      have same : (s.freeing tref.ticket).timers.due clock = s.timers.due clock := rfl
      have ended : ((s.freeing tref.ticket).peek clock).checking.begun = 0 := rfl
      rw [same] at fewer
      refine ⟨Or.inr rfl, ?_⟩
      simp only [TimerCall.isTurn, here, Checking.begun, Bool.false_eq_true, if_false]
      omega

/-- If no callback sets a timer at a reading before that of its check, the check ends,
at the latest in the turn after those for what was due. -/
theorem timers_check_ends (run : TimerRun calls s) (check : Run timerStep s (.check now :: body) t)
    (one : ∀ clock, .check clock ∉ body) (later : ∀ call ∈ body, call.NotBefore now) :
    body.countP TimerCall.isTurn ≤ (s.timers.due now).card + 1 := by
  have sound := run.advance.sound
  obtain ⟨v, begins, run⟩ := Run.cons_iff.mp check
  have soundV := (timerStep_advance_any sound begins).sound
  have begins := timerStep_cases sound.timers begins
  have settled : t.Sound ∧ (t.checking = .idle ∨ t.checking.picoTick = some now) ∧
      body.countP TimerCall.isTurn + (t.timers.due now).card ≤
        (s.timers.due now).card + t.checking.begun := by
    refine Run.history (P := fun es w => (∀ clock, .check clock ∉ es) →
      (∀ call ∈ es, call.NotBefore now) → w.Sound ∧
        (w.checking = .idle ∨ w.checking.picoTick = some now) ∧
          es.countP TimerCall.isTurn + (w.timers.due now).card ≤
            (s.timers.due now).card + w.checking.begun) ?_ ?_ run one later
    · intro _ _
      cases begins with
      | edit _ _ edits => cases edits
      | check idle => exact ⟨soundV, Or.inr rfl, by simp [Checking.begun]⟩
    · intro es w call x _ ih taken one later
      obtain ⟨sound, under, count⟩ := ih (fun clock mem => one clock (List.mem_append_left _ mem))
        fun call mem => later call (List.mem_append_left _ mem)
      have step := timerStep_cases sound.timers taken
      have here := later call (List.mem_append_right _ (List.mem_singleton_self _))
      obtain ⟨under', settles⟩ := step.settles sound under here fun clock same =>
        one clock (same ▸ List.mem_append_right _ (List.mem_singleton_self _))
      refine ⟨(timerStep_advance_any sound taken).sound, under', ?_⟩
      rw [List.countP_append, List.countP_singleton]
      omega
  have begun : t.checking.begun ≤ 1 := by cases t.checking <;> simp [Checking.begun]
  omega

end Checks

end Rfsis.Pico
