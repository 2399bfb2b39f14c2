import Rfsis.Failover.Takeover

/-!
The timer threads of the sniffer, against the heartbeats that started them.

Timer threads pile up, run at any speed and end in any order. What separates
the current one from a stale one is that its `timerThreadId` is the counter:
`Counting` says so for every reachable state before a timeout, and `Sound` that
a thread past its loop has waited. `pending_of_run` is the other direction: the
thread of the newest heartbeat is still there until a timeout is recorded.
-/

namespace Rfsis.Failover

open Rfsis.Transition Rfsis.Pico Rfsis.Node

variable {plat : Platform} {config : ConfigJson} {s t : Standby} {es : List Event}

/-! ### The heartbeats of a run -/

/-- The time at which the event delivers a frame of the main, if it does. -/
def mainArp (config : ConfigJson) (e : Event) : Option Nat :=
  match e.act with
  | .deliver arp => if fromMain config arp then some e.now else none
  | _ => none

/-- The times at which the run delivered a frame of the main. -/
def mainArps (config : ConfigJson) (es : List Event) : List Nat :=
  es.filterMap (mainArp config)

theorem mainArps_snoc (config : ConfigJson) (es : List Event) (e : Event) :
    mainArps config (es ++ [e]) = mainArps config es ++ (mainArp config e).toList := by
  cases found : mainArp config e <;> simp [mainArps, found]

theorem mainArp_deliver {now : Nat} {arp : PicoArpHdr} (main : fromMain config arp) :
    mainArp config ⟨now, .deliver arp⟩ = some now :=
  if_pos main

theorem mainArp_other {now : Nat} {arp : PicoArpHdr} (other : ¬fromMain config arp) :
    mainArp config ⟨now, .deliver arp⟩ = none :=
  if_neg other

/-- A configured address that libtins rejects makes no frame a heartbeat. -/
theorem mainArps_rejected (rejected : inetPton config.ipv4Addr = none) (es : List Event) :
    mainArps config es = [] := by
  refine List.filterMap_eq_nil_iff.mpr fun e _ => ?_
  obtain ⟨now, act⟩ := e
  cases act with
  | deliver arp => exact mainArp_other fun main => by cases rejected.symm.trans main
  | timerStart | timerWake | timerCheck | iterate => rfl

/-- Before a timeout the heartbeats are the frames that are counted. -/
theorem mainArp_none_iff {e : Event} (flag : s.sniffer.macFlag ≠ 1) :
    mainArp config e = none ↔ ¬Counts config s e := by
  obtain ⟨now, act⟩ := e
  cases act with
  | deliver arp =>
      by_cases main : fromMain config arp
      · simp [mainArp_deliver main, Counts, flag, main]
      · simp [mainArp_other main, Counts, main]
  | timerStart | timerWake | timerCheck | iterate => simp [mainArp, Counts]

/-! ### Where the timers after a step come from -/

/-- Each timer after a step is one that was there, moved on or not, or the new
timer of a heartbeat. -/
inductive TimerFrom (s : Standby) (now : Nat) (act : Action) (t : TimerThread) : Prop
  | kept (mem : t ∈ s.timers)
  | started (old : TimerThread) (mem : old ∈ s.timers)
      (moved : t = { old with phase := .sleeping now })
  | woken (old : TimerThread) (mem : old ∈ s.timers) (start : Nat)
      (phase : old.phase = .sleeping start) (expired : timerMicros < elapsedMicros start now)
      (moved : t = { old with phase := .awake })
  | new (arp : PicoArpHdr) (act : act = .deliver arp) (main : fromMain s.conf.toConfigJson arp)
      (flag : s.sniffer.macFlag ≠ 1) (fresh : t = ⟨incrInt s.sniffer.threadCount, now, .created⟩)

theorem step_timers {now : Nat} {act : Action} (taken : s.step plat ⟨now, act⟩ = some t)
    {thread : TimerThread} (mem : thread ∈ t.timers) : TimerFrom s now act thread := by
  obtain ⟨-, effect⟩ := step_effect taken
  cases effect with
  | counted arp sniffing flag main =>
      rcases List.mem_append.mp mem with old | new
      · exact .kept old
      · exact .new arp rfl main flag (List.mem_singleton.mp new)
  | started i old here phase =>
      rcases List.mem_or_eq_of_mem_set mem with kept | moved
      · exact .kept kept
      · exact .started old (List.mem_of_getElem? here) moved
  | woken i old start here phase expired =>
      rcases List.mem_or_eq_of_mem_set mem with kept | moved
      · exact .kept kept
      · exact .woken old (List.mem_of_getElem? here) start phase expired moved
  | checked i old here phase => exact .kept (List.mem_of_mem_eraseIdx mem)
  | timedOut | ignored | ticked | tookOver => exact .kept mem

/-! ### A thread past its loop has waited -/

/-- What the clock readings of a timer thread say at time `clock`. -/
structure TimerThread.Sound (clock : Nat) (t : TimerThread) : Prop where
  created : t.created ≤ clock
  sleeping : ∀ start, t.phase = .sleeping start → t.created ≤ start
  awake : t.phase = .awake → timerMicros < elapsedMicros t.created clock

theorem elapsedMicros_mono {start start' now now' : Nat} (starts : start' ≤ start)
    (ends : now ≤ now') : elapsedMicros start now ≤ elapsedMicros start' now' := by
  unfold elapsedMicros
  apply Nat.div_le_div_right
  omega

theorem TimerThread.Sound.later {clock clock' : Nat} {t : TimerThread}
    (sound : TimerThread.Sound clock t) (later : clock ≤ clock') : TimerThread.Sound clock' t where
  created := sound.created.trans later
  sleeping := sound.sleeping
  awake := fun phase =>
    (sound.awake phase).trans_le (elapsedMicros_mono (le_refl t.created) later)

/-- Every timer of a reachable state is sound. -/
theorem timers_sound (run : StandbyRun plat config es s) :
    ∀ thread ∈ s.timers, TimerThread.Sound s.clock thread := by
  refine Run.invariant (I := fun u => ∀ thread ∈ u.timers, TimerThread.Sound u.clock thread)
    (fun _ mem => by cases mem) ?_ run
  rintro u ⟨now, act⟩ w before taken thread mem
  have later : u.clock ≤ now := (step_effect taken).1
  rw [step_clock taken]
  cases step_timers taken mem with
  | kept mem => exact (before thread mem).later later
  | started old mem moved =>
      have sound := before old mem
      subst moved
      refine ⟨sound.created.trans later, ?_, fun phase => TimerPhase.noConfusion phase⟩
      rintro start same
      cases same
      exact sound.created.trans later
  | woken old mem start phase expired moved =>
      have sound := before old mem
      subst moved
      refine ⟨sound.created.trans later, fun _ same => TimerPhase.noConfusion same, fun _ => ?_⟩
      exact expired.trans_le (elapsedMicros_mono (sound.sleeping start phase) (le_refl now))
  | new arp act main flag fresh =>
      subst fresh
      exact ⟨le_refl now, fun _ same => TimerPhase.noConfusion same,
        fun same => TimerPhase.noConfusion same⟩

/-! ### Only the newest timer carries the counter -/

/-- The `int` counter counts as long as it does not reach its bound. -/
theorem incrInt_natCast {n : Nat} (small : n + 1 < 2 ^ 31) : incrInt n = (n + 1 : Nat) := by
  unfold incrInt
  rw [Int.bmod_eq_of_le] <;> omega

/-- Before a timeout the counter is the number of heartbeats, and a timer whose
id is the counter was started by the last heartbeat. -/
structure Counting (config : ConfigJson) (es : List Event) (s : Standby) : Prop where
  count : s.sniffer.threadCount = ((mainArps config es).length : Nat)
  ids : ∀ thread ∈ s.timers, 1 ≤ thread.timerThreadId ∧
    thread.timerThreadId ≤ s.sniffer.threadCount
  newest : ∀ thread ∈ s.timers, thread.timerThreadId = s.sniffer.threadCount →
    (mainArps config es).getLast? = some thread.created

/-- A step that counts nothing keeps `Counting`. -/
theorem Counting.quiet (settled : Settled plat config s) (counting : Counting config es s)
    {e : Event} (taken : s.step plat e = some t) (flag : s.sniffer.macFlag ≠ 1)
    (quiet : ¬Counts config s e) : Counting config (es ++ [e]) t := by
  obtain ⟨count, -⟩ := step_uncounted settled taken quiet
  have same : mainArps config (es ++ [e]) = mainArps config es := by
    rw [mainArps_snoc, (mainArp_none_iff flag).mpr quiet]
    exact List.append_nil _
  have old : ∀ thread ∈ t.timers, ∃ before ∈ s.timers,
      thread.timerThreadId = before.timerThreadId ∧ thread.created = before.created := by
    obtain ⟨now, act⟩ := e
    intro thread mem
    cases step_timers taken mem with
    | kept mem => exact ⟨thread, mem, rfl, rfl⟩
    | started old mem' moved | woken old mem' _ _ _ moved =>
        subst moved
        exact ⟨old, mem', rfl, rfl⟩
    | new arp act main flag fresh =>
        exact absurd ⟨flag, arp, act, (settled.fromMain_iff arp).mp main⟩ quiet
  refine ⟨?_, ?_, ?_⟩
  · rw [count, same, counting.count]
  · intro thread mem
    obtain ⟨before, mem', id, -⟩ := old thread mem
    rw [id, count]
    exact counting.ids before mem'
  · intro thread mem newest
    obtain ⟨before, mem', id, created⟩ := old thread mem
    rw [same, created]
    exact counting.newest before mem' (by rw [← id, newest, count])

/-- A step that counts a heartbeat keeps `Counting`, below the bound of the counter. -/
theorem Counting.counted (settled : Settled plat config s) (counting : Counting config es s)
    {e : Event} (taken : s.step plat e = some t) (counts : Counts config s e)
    (small : (mainArps config es).length + 1 < 2 ^ 31) : Counting config (es ++ [e]) t := by
  obtain ⟨now, act⟩ := e
  have heard := counts
  obtain ⟨-, arp, rfl, main⟩ := heard
  have arps : mainArps config (es ++ [⟨now, .deliver arp⟩]) = mainArps config es ++ [now] := by
    rw [mainArps_snoc, mainArp_deliver main]
    rfl
  have next : incrInt s.sniffer.threadCount = ((mainArps config es).length + 1 : Nat) := by
    rw [counting.count, incrInt_natCast small]
  have count := (s.sniffer.count_threadCount s.conf arp).trans next
  have bound := counting.count
  rw [counts_effect settled counts taken]
  constructor
  · rw [arps, List.length_append]
    exact count
  · intro thread mem
    rw [count]
    rcases List.mem_append.mp mem with old | new
    · have ids := counting.ids thread old
      omega
    · have first : (1 : Int) ≤ ((mainArps config es).length + 1 : Nat) := by omega
      rw [List.mem_singleton.mp new, next]
      exact ⟨first, le_refl _⟩
  · intro thread mem newest
    rw [arps, List.getLast?_concat]
    rw [count] at newest
    rcases List.mem_append.mp mem with old | new
    · have ids := counting.ids thread old
      omega
    · rw [List.mem_singleton.mp new]

theorem counting_of_run (run : StandbyRun plat config es s)
    (few : (mainArps config es).length < 2 ^ 31) (flag : s.sniffer.macFlag ≠ 1) :
    Counting config es s := by
  refine Run.history (P := fun es s => (mainArps config es).length < 2 ^ 31 →
    s.sniffer.macFlag ≠ 1 → Counting config es s) ?_ ?_ run few flag
  · intro _ _
    exact ⟨rfl, fun _ mem => (by cases mem), fun _ mem => (by cases mem)⟩
  · intro es u e w before ih taken few flag
    have flag' : u.sniffer.macFlag ≠ 1 := fun set => flag ((Later.of_step taken).macFlag set)
    have settled := StandbyRun.settled before
    rw [mainArps_snoc, List.length_append] at few
    have counting := ih (by omega) flag'
    by_cases counts : Counts config u e
    · refine counting.counted settled taken counts ?_
      have here : mainArp config e ≠ none := fun none =>
        (mainArp_none_iff flag').mp none counts
      obtain ⟨now, found⟩ := Option.ne_none_iff_exists'.mp here
      rw [found] at few
      exact few
    · exact counting.quiet settled taken flag' counts

/-! ### The newest timer is there until a timeout -/

/-- A timeout is recorded, or no heartbeat has come, or the timer of the last
heartbeat is alive. -/
def Pending (config : ConfigJson) (es : List Event) (s : Standby) : Prop :=
  s.sniffer.macFlag = 1 ∨ mainArps config es = [] ∨
    ∃ thread ∈ s.timers, thread.timerThreadId = s.sniffer.threadCount ∧
      (mainArps config es).getLast? = some thread.created

theorem mem_set_or_eq {l : List TimerThread} {i : Nat} {old x : TimerThread}
    (here : l[i]? = some old) (mem : x ∈ l) (new : TimerThread) :
    x = old ∨ x ∈ l.set i new := by
  obtain ⟨j, there⟩ := List.mem_iff_getElem?.mp mem
  by_cases same : j = i
  · subst same
    exact Or.inl (Option.some.inj (there.symm.trans here))
  · right
    apply List.mem_of_getElem? (i := j)
    rw [List.getElem?_set_ne (Ne.symm same), there]

theorem mem_eraseIdx_or_eq {l : List TimerThread} {i : Nat} {old x : TimerThread}
    (here : l[i]? = some old) (mem : x ∈ l) : x = old ∨ x ∈ l.eraseIdx i := by
  obtain ⟨j, there⟩ := List.mem_iff_getElem?.mp mem
  by_cases same : j = i
  · subst same
    exact Or.inl (Option.some.inj (there.symm.trans here))
  · exact Or.inr (List.mem_eraseIdx_iff_getElem?.mpr ⟨j, same, there⟩)

/-- The timer that carries the counter stays alive, or its test records a timeout. -/
theorem newest_survives {e : Event} (taken : s.step plat e = some t) {thread : TimerThread}
    (mem : thread ∈ s.timers) (newest : thread.timerThreadId = s.sniffer.threadCount) :
    t.sniffer.macFlag = 1 ∨ ∃ after ∈ t.timers, after.timerThreadId = thread.timerThreadId ∧
      after.created = thread.created := by
  obtain ⟨now, act⟩ := e
  obtain ⟨-, effect⟩ := step_effect taken
  cases effect with
  | counted => exact Or.inr ⟨thread, List.mem_append_left _ mem, rfl, rfl⟩
  | started i old here | woken i old _ here =>
      right
      have inside : i < s.timers.length := (List.getElem?_eq_some_iff.mp here).1
      rcases mem_set_or_eq here mem _ with same | kept
      · subst same
        exact ⟨_, List.mem_set inside _, rfl, rfl⟩
      · exact ⟨thread, kept, rfl, rfl⟩
  | checked i old here =>
      rcases mem_eraseIdx_or_eq here mem with same | kept
      · left
        subst same
        rw [ArpSniffer.timerCheck, if_pos newest.symm]
      · exact Or.inr ⟨thread, kept, rfl, rfl⟩
  | timedOut | ignored | ticked | tookOver => exact Or.inr ⟨thread, mem, rfl, rfl⟩

theorem pending_of_run (run : StandbyRun plat config es s) : Pending config es s := by
  refine Run.history (P := Pending config) (Or.inr (Or.inl rfl)) ?_ run
  rintro es u ⟨now, act⟩ w before ih taken
  have settled := StandbyRun.settled before
  by_cases flag : u.sniffer.macFlag = 1
  · exact Or.inl ((Later.of_step taken).macFlag flag)
  by_cases counts : Counts config u ⟨now, act⟩
  · have heard := counts
    obtain ⟨-, arp, rfl, main⟩ := heard
    rw [counts_effect settled counts taken]
    refine Or.inr (Or.inr ⟨_, List.mem_append_right _ (List.mem_singleton.mpr rfl), ?_, ?_⟩)
    · exact (u.sniffer.count_threadCount u.conf arp).symm
    · rw [mainArps_snoc, mainArp_deliver main]
      exact List.getLast?_concat
  · obtain ⟨count, -⟩ := step_uncounted settled taken counts
    have arps : mainArps config (es ++ [⟨now, act⟩]) = mainArps config es := by
      rw [mainArps_snoc, (mainArp_none_iff flag).mpr counts]
      exact List.append_nil _
    rcases ih with set | none | ⟨thread, mem, newest, last⟩
    · exact absurd set flag
    · exact Or.inr (Or.inl (arps.trans none))
    · rcases newest_survives taken mem newest with set | ⟨after, alive, id, created⟩
      · exact Or.inl set
      · refine Or.inr (Or.inr ⟨after, alive, ?_, ?_⟩)
        · rw [id, newest, count]
        · rw [arps, last, created]

end Rfsis.Failover
