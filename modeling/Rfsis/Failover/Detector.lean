import Rfsis.Failover.Timers

/-!
The failure detector of the standby: accuracy, completeness, configuration.

* `detector_accurate` — a timeout is recorded only when the last heartbeat is
  more than 1.5 s old, however the timer threads are scheduled; a main that
  keeps sending is never suspected.
* `detector_completes_iff` — a silence is always recorded if the main was ever
  heard, but the role is handed over by the next frame and by nothing else.
* `timeout_agrees_iff` — the wait is a constant, so the configured `timeout` is
  respected exactly when it is at most that constant.
* `lifeSign_counts_or_promotes` — a heartbeat that comes after the timeout does
  not withdraw it: it is the frame that hands the role over.
-/

namespace Rfsis.Failover

open Rfsis.Transition Rfsis.Pico Rfsis.Node

variable {plat : Platform} {config : ConfigJson} {s t : Standby} {es : List Event}

/-! ### Accuracy -/

/-- At every event of the run the last heartbeat before it, if there is one, is
at most `limit` nanoseconds old. -/
def Fed (config : ConfigJson) (limit : Nat) (es : List Event) : Prop :=
  ∀ es₁ e es₂, es = es₁ ++ e :: es₂ →
    ∀ last, (mainArps config es₁).getLast? = some last → e.now ≤ last + limit

instance (config : ConfigJson) (limit : Nat) (es : List Event) : Decidable (Fed config limit es) :=
  decidable_of_iff (∀ i < es.length, ∀ e, es[i]? = some e →
      ∀ last, (mainArps config (es.take i)).getLast? = some last → e.now ≤ last + limit) <| by
    constructor
    · rintro all es₁ e es₂ rfl last found
      refine all es₁.length ?_ e ?_ last ?_
      · rw [List.length_append, List.length_cons]
        omega
      · rw [List.getElem?_append_right (le_refl _), Nat.sub_self, List.getElem?_cons_zero]
      · rw [List.take_left]
        exact found
    · intro fed i inside e here
      obtain ⟨_, rfl⟩ := List.getElem?_eq_some_iff.mp here
      refine fed (es.take i) es[i] (es.drop (i + 1)) ?_
      rw [List.cons_getElem_drop_succ, List.take_append_drop]

theorem fed_snoc {limit : Nat} {e : Event} :
    Fed config limit (es ++ [e]) ↔ Fed config limit es ∧
      ∀ last, (mainArps config es).getLast? = some last → e.now ≤ last + limit := by
  constructor
  · intro fed
    refine ⟨fun es₁ f es₂ split => ?_, fed es e [] rfl⟩
    exact fed es₁ f (es₂ ++ [e]) (by rw [split, List.append_assoc, List.cons_append])
  · rintro ⟨fed, last⟩ es₁ f es₂ split
    rcases List.eq_nil_or_concat es₂ with rfl | ⟨es₃, g, rfl⟩
    · obtain ⟨rfl, same⟩ := List.append_inj' split rfl
      cases same
      exact last
    · rw [List.concat_eq_append, ← List.cons_append, ← List.append_assoc] at split
      obtain ⟨inner, -⟩ := List.append_inj' split rfl
      exact fed es₁ f es₃ inner

/-- The step that records a timeout is the test of the newest timer, which has
waited since the last heartbeat. -/
theorem timeout_late (run : StandbyRun plat config es s)
    (few : (mainArps config es).length < 2 ^ 31) {e : Event} (taken : s.step plat e = some t)
    (unset : s.sniffer.macFlag ≠ 1) (set : t.sniffer.macFlag = 1) :
    ∃ last, (mainArps config es).getLast? = some last ∧ last + 1500000 * 1000 < e.now := by
  have counting := counting_of_run run few unset
  have sound := timers_sound run
  obtain ⟨now, act⟩ := e
  obtain ⟨later, effect⟩ := step_effect taken
  cases effect with
  | checked i thread here phase =>
      have mem := List.mem_of_getElem? here
      unfold ArpSniffer.timerCheck at set
      split at set
      · rename_i newest
        refine ⟨thread.created, counting.newest thread mem newest.symm, ?_⟩
        have waited := (sound thread mem).awake phase
        unfold elapsedMicros timerMicros at waited
        have later : s.clock ≤ now := later
        show thread.created + 1500000 * 1000 < now
        omega
      · exact absurd set unset
  | timedOut _ _ flag => exact absurd flag unset
  | counted arp =>
      rw [s.sniffer.count_macFlag] at set
      exact absurd set unset
  | ignored | started | woken | ticked | tookOver => exact absurd set unset

/-- A main that keeps sending is not suspected. -/
theorem fed_unset (run : StandbyRun plat config es t)
    (few : (mainArps config es).length < 2 ^ 31) (fed : Fed config (1500000 * 1000) es) :
    t.sniffer.macFlag ≠ 1 := by
  refine Run.history (P := fun es t => (mainArps config es).length < 2 ^ 31 →
    Fed config (1500000 * 1000) es → t.sniffer.macFlag ≠ 1) ?_ ?_ run few fed
  · intro _ _ set
    cases set
  · intro es u e w before ih taken few fed set
    obtain ⟨fed, recent⟩ := fed_snoc.mp fed
    rw [mainArps_snoc, List.length_append] at few
    have few : (mainArps config es).length < 2 ^ 31 := by omega
    obtain ⟨last, found, late⟩ := timeout_late before few taken (ih few fed) set
    have early := recent last found
    omega

/-- The application runs exactly when `cloneFlag` is set. -/
theorem Roles.program_iff (roles : Roles plat config t) :
    Call.program ∈ t.calls ↔ t.cloneFlag = 1 := by
  rw [roles.calls]
  split <;> simp [*]

/-- A node without a recorded timeout is a backup that has not started the application. -/
theorem Roles.waiting (roles : Roles plat config t) (flag : t.sniffer.macFlag ≠ 1) :
    t.sniffer.macFlag = 0 ∧ t.conf.backup = true ∧ Call.program ∉ t.calls := by
  have cloned : t.sniffer.macCloned = false :=
    Bool.eq_false_iff.mpr fun cloned => flag (roles.cloned cloned)
  have backup : t.conf.backup = true := by rw [roles.handedOver, cloned, Bool.not_false]
  refine ⟨roles.macFlag.resolve_right flag, backup, fun program => ?_⟩
  have active := roles.active (roles.program_iff.mp program)
  exact Bool.noConfusion (active.symm.trans backup)

/-- **A suspicion is always more than 1.5 s late.** The step that sets `macFlag`
comes after some heartbeat, and the last one is more than 1500000 µs old; so a
main whose heartbeats are at most 1.5 s apart is never suspected and the standby
never starts the application. -/
theorem detector_accurate (backup : config.backup = true) (run : StandbyRun plat config es t)
    (few : (mainArps config es).length < 2 ^ 31) :
    (∀ es₁ e es₂ s u, es = es₁ ++ e :: es₂ → StandbyRun plat config es₁ s →
      s.step plat e = some u → s.sniffer.macFlag = 0 → u.sniffer.macFlag = 1 →
      ∃ last, (mainArps config es₁).getLast? = some last ∧ last + 1500000 * 1000 < e.now) ∧
    (Fed config (1500000 * 1000) es →
      t.sniffer.macFlag = 0 ∧ t.conf.backup = true ∧ Call.program ∉ t.calls) := by
  constructor
  · rintro es₁ e es₂ s u rfl before taken unset set
    have few : (mainArps config es₁).length < 2 ^ 31 := by
      rw [mainArps, List.filterMap_append, List.length_append] at few
      exact (Nat.le_add_right _ _).trans_lt few
    refine timeout_late before few taken (fun set => ?_) set
    exact absurd (unset.symm.trans set) (by decide)
  · intro fed
    exact (roles_of_run backup run).waiting (fed_unset run few fed)

/-- Two heartbeats a second apart, the first timer tested late: it is stale. -/
theorem detector_accurate_stale :
    ∃ plat es t, StandbyRun plat configJson es t ∧ t.sniffer.threadCount = 2 ∧
      t.timers.length = 1 ∧ t.sniffer.macFlag = 0 ∧ t.conf.backup = true ∧
        Call.program ∉ t.calls := by
  let arp := hostQuery (longFrom #v[192, 168, 1, 20]) (longFrom #v[192, 168, 1, 20])
  let es : List Event := [⟨0, .deliver arp⟩, ⟨0, .timerStart 0⟩, ⟨1000000000, .deliver arp⟩,
    ⟨1600000000, .timerWake 0⟩, ⟨1700000000, .timerCheck 0⟩]
  have ends : (exec (Standby.step (.zeroed #v[2, 0, 0, 0, 0, 2]))
      (runPicoStack (.zeroed #v[2, 0, 0, 0, 0, 2]) configJson) es).any
        (fun t => t.sniffer.threadCount = 2 ∧ t.timers.length = 1) := by decide
  obtain ⟨t, run, count, left⟩ := Run.of_any ends
  have few : (mainArps configJson es).length < 2 ^ 31 := by decide
  have fed : Fed configJson (1500000 * 1000) es := by decide
  exact ⟨_, es, t, run, count, left, (detector_accurate rfl run few).2 fed⟩

/-! ### Completeness -/

/-- The thread has been there for longer than the wait. -/
def TimerThread.due (now : Nat) (t : TimerThread) : Prop :=
  timerMicros < elapsedMicros t.created now

/-- No heartbeat has come since `since`, which is longer than the wait ago, and
no thread that is due is left. -/
structure Silent (config : ConfigJson) (es : List Event) (t : Standby) (since : Nat) : Prop where
  quiet : ∀ last ∈ mainArps config es, last ≤ since
  long : timerMicros < elapsedMicros since t.clock
  checked : ∀ thread ∈ t.timers, ¬TimerThread.due t.clock thread

/-- Some frame, of whatever sender, was delivered in a state with a recorded timeout. -/
def DeliveredSince (plat : Platform) (config : ConfigJson) (es : List Event) : Prop :=
  ∃ es₁ now arp es₂ s, es = es₁ ++ ⟨now, .deliver arp⟩ :: es₂ ∧
    StandbyRun plat config es₁ s ∧ s.sniffer.macFlag = 1

/-- The role is handed over by a frame delivered after the timeout, and by nothing else. -/
theorem macCloned_iff (run : StandbyRun plat config es t) :
    t.sniffer.macCloned = true ↔ DeliveredSince plat config es := by
  constructor
  · refine Run.history (P := fun es t =>
      t.sniffer.macCloned = true → DeliveredSince plat config es) ?_ ?_ run
    · intro cloned
      cases cloned
    · rintro es u ⟨now, act⟩ w before ih taken cloned
      by_cases already : u.sniffer.macCloned = true
      · obtain ⟨es₁, now', arp, es₂, s, rfl, earlier, flag⟩ := ih already
        exact ⟨es₁, now', arp, es₂ ++ [⟨now, act⟩], s, by simp, earlier, flag⟩
      · obtain ⟨-, effect⟩ := step_effect taken
        cases effect with
        | timedOut arp sniffing flag => exact ⟨es, now, arp, [], u, rfl, before, flag⟩
        | counted arp =>
            rw [u.sniffer.count_macCloned] at cloned
            exact absurd cloned already
        | checked i thread =>
            have same : (u.sniffer.timerCheck thread.timerThreadId).macCloned =
                u.sniffer.macCloned := by
              unfold ArpSniffer.timerCheck
              split <;> rfl
            exact absurd (same.symm.trans cloned) already
        | ignored | started | woken | ticked | tookOver => exact absurd cloned already
  · rintro ⟨es₁, now, arp, es₂, s, rfl, before, flag⟩
    obtain ⟨u, taken, rest⟩ := Run.cons_iff.mp (Run.suffix run before)
    apply (Later.of_run rest).macCloned
    obtain ⟨-, effect⟩ := step_effect taken
    cases effect with
    | timedOut => exact s.sniffer.promote_macCloned s.conf flag
    | ignored _ _ unset | counted _ _ unset => exact absurd flag unset

theorem mainArps_of_flag (run : StandbyRun plat config es t) (flag : t.sniffer.macFlag = 1) :
    mainArps config es ≠ [] := by
  rcases record_of_run run with ⟨-, unset⟩ | ⟨arp, v, last, -⟩
  · exact absurd flag unset
  · obtain ⟨earlier, now, rest, u, rfl, -, ⟨-, arp', same, main⟩, -⟩ := last
    cases same
    simp [mainArps, mainArp_deliver main]

/-- After a silence in which every due timer has run, a main that was ever heard is suspected. -/
theorem silent_flag (run : StandbyRun plat config es t) {since : Nat}
    (silent : Silent config es t since) (heard : mainArps config es ≠ []) :
    t.sniffer.macFlag = 1 := by
  rcases pending_of_run run with set | none | ⟨thread, mem, -, last⟩
  · exact set
  · exact absurd none heard
  · have before := silent.quiet _ (List.mem_of_getLast? last)
    have late := silent.long.trans_le (elapsedMicros_mono before (le_refl t.clock))
    exact absurd late (silent.checked thread mem)

/-- **When the next iteration starts the application after a silence.** The
timeout is recorded if and only if the main was ever heard, and the iteration
leaves the application started if and only if, besides, some frame was delivered
after the timeout was recorded. (Where such a frame was delivered the main had been
heard, by `mainArps_of_flag`; and only the first part needs the silence.) -/
theorem detector_completes_iff (backup : config.backup = true)
    (run : StandbyRun plat config es t) {since : Nat} (silent : Silent config es t since) :
    (t.sniffer.macFlag = 1 ↔ mainArps config es ≠ []) ∧
    ∀ now work u, t.step plat ⟨now, .iterate work⟩ = some u →
      (Call.program ∈ u.calls ↔ mainArps config es ≠ [] ∧ DeliveredSince plat config es) := by
  have roles := roles_of_run backup run
  refine ⟨⟨mainArps_of_flag run, silent_flag run silent⟩, fun now work u taken => ?_⟩
  have handed : t.conf.backup = false ↔
      mainArps config es ≠ [] ∧ DeliveredSince plat config es := by
    rw [← macCloned_iff run, roles.handedOver, Bool.not_eq_false']
    exact ⟨fun cloned => ⟨mainArps_of_flag run (roles.cloned cloned), cloned⟩, And.right⟩
  rw [← handed]
  obtain ⟨-, effect⟩ := step_effect taken
  cases effect with
  | ticked _ stays =>
      rw [roles.program_iff]
      refine ⟨roles.active, fun active => ?_⟩
      exact roles.cloneFlag.resolve_left fun unset => stays ⟨active, unset⟩
  | tookOver _ dev opened branch => simp [branch.1]

/-- A heartbeat, a silence, and a frame of somebody else: the application starts. -/
theorem detector_completes_handover :
    ∃ plat es t u, StandbyRun plat configJson es t ∧
      t.step plat ⟨3000000000, .iterate []⟩ = some u ∧ Call.program ∈ u.calls := by
  let main := hostQuery (longFrom #v[192, 168, 1, 20]) (longFrom #v[192, 168, 1, 20])
  let other := hostQuery (longFrom #v[192, 168, 1, 9]) (longFrom #v[192, 168, 1, 20])
  let heard : List Event := [⟨0, .deliver main⟩, ⟨0, .timerStart 0⟩, ⟨1600000000, .timerWake 0⟩,
    ⟨1700000000, .timerCheck 0⟩]
  let plat : Platform := .zeroed #v[2, 0, 0, 0, 0, 2]
  have suspects : (exec (Standby.step plat) (runPicoStack plat configJson) heard).any
      (fun s => s.sniffer.macFlag = 1) := by decide
  have ends : (exec (Standby.step plat) (runPicoStack plat configJson)
      (heard ++ [⟨2000000000, .deliver other⟩])).any (fun t => t.timers = [] ∧
        t.clock = 2000000000 ∧ (t.step plat ⟨3000000000, .iterate []⟩).isSome) := by decide
  obtain ⟨s, before, flag⟩ := Run.of_any suspects
  obtain ⟨t, run, none, clock, next⟩ := Run.of_any ends
  obtain ⟨u, taken⟩ := Option.isSome_iff_exists.mp next
  have silent : Silent configJson (heard ++ [⟨2000000000, .deliver other⟩]) t 0 := by
    refine ⟨by decide, ?_, ?_⟩
    · rw [clock]
      decide
    · rw [none]
      exact fun _ mem => absurd mem List.not_mem_nil
  have started := ((detector_completes_iff rfl run silent).2 _ _ u taken).mpr
    ⟨by decide, heard, _, other, [], s, rfl, before, flag⟩
  exact ⟨plat, _, t, u, run, taken, started⟩

/-- A main that was dead from the start is never suspected, and one that was heard
is suspected but not replaced as long as no frame arrives. -/
theorem detector_incomplete :
    ∃ plat, (∃ es t u, StandbyRun plat configJson es t ∧ Silent configJson es t 0 ∧
        t.step plat ⟨3000000000, .iterate []⟩ = some u ∧ mainArps configJson es = [] ∧
          Call.program ∉ u.calls) ∧
      ∃ es t u, StandbyRun plat configJson es t ∧ Silent configJson es t 0 ∧
        t.step plat ⟨3000000000, .iterate []⟩ = some u ∧ t.sniffer.macFlag = 1 ∧
          Call.program ∉ u.calls := by
  let main := hostQuery (longFrom #v[192, 168, 1, 20]) (longFrom #v[192, 168, 1, 20])
  let dead : List Event := [⟨2000000000, .iterate []⟩]
  let heard : List Event := [⟨0, .deliver main⟩, ⟨0, .timerStart 0⟩, ⟨1600000000, .timerWake 0⟩,
    ⟨2000000000, .timerCheck 0⟩]
  let plat : Platform := .zeroed #v[2, 0, 0, 0, 0, 2]
  have deadEnds : (exec (Standby.step plat) (runPicoStack plat configJson) dead).any
      (fun t => t.timers = [] ∧ t.clock = 2000000000 ∧
        (t.step plat ⟨3000000000, .iterate []⟩).any fun u => Call.program ∉ u.calls) := by decide
  have heardEnds : (exec (Standby.step plat) (runPicoStack plat configJson) heard).any
      (fun t => t.timers = [] ∧ t.clock = 2000000000 ∧ t.sniffer.macFlag = 1 ∧
        (t.step plat ⟨3000000000, .iterate []⟩).any fun u => Call.program ∉ u.calls) := by decide
  have silent : ∀ es t, (∀ last ∈ mainArps configJson es, last ≤ 0) → t.timers = [] →
      t.clock = 2000000000 → Silent configJson es t 0 := by
    intro es t quiet none clock
    refine ⟨quiet, ?_, ?_⟩
    · rw [clock]
      decide
    · rw [none]
      exact fun _ mem => absurd mem List.not_mem_nil
  obtain ⟨t, run, none, clock, next⟩ := Run.of_any deadEnds
  obtain ⟨u, taken, idle⟩ := (Option.any_eq_true _ _).mp next
  obtain ⟨t', run', none', clock', flag, next'⟩ := Run.of_any heardEnds
  obtain ⟨u', taken', idle'⟩ := (Option.any_eq_true _ _).mp next'
  exact ⟨plat, ⟨dead, t, u, run, silent dead t (by decide) none clock, taken, by decide,
      of_decide_eq_true idle⟩,
    heard, t', u', run', silent heard t' (by decide) none' clock', taken', flag,
      of_decide_eq_true idle'⟩

/-! ### The configured timeout -/

/-- No run whose heartbeats are at most the configured timeout apart, and fewer
than the counter can hold, makes the standby suspect the main. -/
def TimeoutRespected (plat : Platform) (config : ConfigJson) : Prop :=
  ∀ es t, StandbyRun plat config es t → (mainArps config es).length < 2 ^ 31 →
    Fed config (config.timeout.toNat * 1000) es →
      t.sniffer.macFlag = 0 ∧ Call.program ∉ t.calls

theorem fed_of_early {limit : Nat} (early : ∀ e ∈ es, e.now ≤ limit) : Fed config limit es := by
  rintro es₁ e es₂ rfl last -
  have bound := early e (by simp)
  omega

theorem Fed.mono {limit limit' : Nat} (fed : Fed config limit es) (le : limit ≤ limit') :
    Fed config limit' es := by
  intro es₁ e es₂ split last found
  have bound := fed es₁ e es₂ split last found
  omega

/-- One heartbeat at the start and then silence, until its timer is tested at `late`. -/
def loneHeartbeat (arp : PicoArpHdr) (late : Nat) : List Event :=
  [⟨0, .deliver arp⟩, ⟨0, .timerStart 0⟩, ⟨late, .timerWake 0⟩, ⟨late, .timerCheck 0⟩]

theorem loneHeartbeat_suspects {arp : PicoArpHdr} (main : fromMain config arp) {late : Nat}
    (expired : timerMicros < elapsedMicros 0 late) :
    ∃ t, StandbyRun plat config (loneHeartbeat arp late) t ∧ t.sniffer.macFlag = 1 := by
  have unset : (runPicoStack plat config).sniffer.macFlag ≠ 1 := by
    show ¬(0 : Int) = 1
    decide
  refine ⟨_, Run.cons_iff.mpr ⟨_, step_of_effect (Nat.le_refl 0) (.counted arp rfl unset main),
    Run.cons_iff.mpr ⟨_, step_of_effect (Nat.le_refl 0) (.started 0 _ rfl rfl),
    Run.cons_iff.mpr ⟨_, step_of_effect (Nat.zero_le late) (.woken 0 _ 0 rfl rfl expired),
    Run.cons_iff.mpr ⟨_, step_of_effect (Nat.le_refl late) (.checked 0 _ rfl rfl),
    Run.nil_iff.mpr rfl⟩⟩⟩⟩, ?_⟩
  exact congrArg ArpSniffer.macFlag
    (if_pos ((runPicoStack plat config).sniffer.count_threadCount _ arp))

/-- **When the configured timeout is the one the detector keeps.** Whatever the
heartbeat period, it is respected if and only if it is at most 1500000 µs, or no
frame can count as the main's. -/
theorem timeout_agrees_iff (plat : Platform) (backup : config.backup = true) :
    TimeoutRespected plat config ↔ config.timeout ≤ 1500000 ∨ inetPton config.ipv4Addr = none := by
  constructor
  · intro respected
    by_contra wrong
    obtain ⟨long, parses⟩ := not_or.mp wrong
    obtain ⟨src, parsed⟩ := Option.ne_none_iff_exists'.mp parses
    let arp := hostQuery src src
    have main : fromMain config arp := parsed
    obtain ⟨t, run, set⟩ := loneHeartbeat_suspects main
      (show timerMicros < elapsedMicros 0 1500001000 by decide)
    have few : (mainArps config (loneHeartbeat arp 1500001000)).length < 2 ^ 31 :=
      (List.length_filterMap_le _ _).trans_lt (show 4 < 2 ^ 31 by decide)
    have fed : Fed config (config.timeout.toNat * 1000) (loneHeartbeat arp 1500001000) := by
      refine fed_of_early fun e mem => ?_
      have early : e.now ≤ 1500001000 := by
        simp only [loneHeartbeat, List.mem_cons, List.not_mem_nil, or_false] at mem
        rcases mem with rfl | rfl | rfl | rfl
        · exact Nat.zero_le _
        · exact Nat.zero_le _
        · exact le_refl _
        · exact le_refl _
      omega
    have unset := (respected _ t run few fed).1
    exact absurd (unset.symm.trans set) (by decide)
  · rintro (short | rejected) es t run few fed
    · have fed := Fed.mono fed (show config.timeout.toNat * 1000 ≤ 1500000 * 1000 by omega)
      obtain ⟨unset, -, idle⟩ := (roles_of_run backup run).waiting (fed_unset run few fed)
      exact ⟨unset, idle⟩
    · have none := mainArps_rejected rejected es
      have unset : t.sniffer.macFlag ≠ 1 := fun set => mainArps_of_flag run set none
      obtain ⟨unset, -, idle⟩ := (roles_of_run backup run).waiting unset
      exact ⟨unset, idle⟩

theorem timeout_agrees_short : TimeoutRespected (.zeroed #v[2, 0, 0, 0, 0, 2])
    { configJson with timeout := 1500000 } :=
  (timeout_agrees_iff _ rfl).mpr (Or.inl (le_refl _))

/-- With the repository's own file, a heartbeat gap of 1.7 s, which the configured
3 s allow, makes the standby suspect the main and start the application. -/
theorem timeout_ignored :
    ∃ plat, 1 ≤ configJson.heartbeatTimer ∧
      configJson.heartbeatTimer * 1000000 < configJson.timeout ∧
        ¬TimeoutRespected plat configJson ∧
          ∃ es t, StandbyRun plat configJson es t ∧
            Fed configJson (configJson.timeout.toNat * 1000) es ∧
              t.sniffer.macFlag = 1 ∧ Call.program ∈ t.calls := by
  let main := hostQuery (longFrom #v[192, 168, 1, 20]) (longFrom #v[192, 168, 1, 20])
  let es := loneHeartbeat main 1600000000 ++
    [⟨1700000000, .deliver main⟩, ⟨2000000000, .iterate []⟩]
  let plat : Platform := .zeroed #v[2, 0, 0, 0, 0, 2]
  have ends : (exec (Standby.step plat) (runPicoStack plat configJson) es).any
      (fun t => t.sniffer.macFlag = 1 ∧ Call.program ∈ t.calls) := by decide
  obtain ⟨t, run, set, started⟩ := Run.of_any ends
  have few : (mainArps configJson es).length < 2 ^ 31 := by decide
  have fed : Fed configJson (configJson.timeout.toNat * 1000) es := by decide
  refine ⟨plat, by decide, by decide, fun respected => ?_, es, t, run, fed, set, started⟩
  exact (respected es t run few fed).2 started

/-! ### A late heartbeat -/

/-- **What a heartbeat does to a node that is still a backup.** Before the timeout
it is counted and starts a timer of its own; after it the role is handed over and
nothing is counted. -/
theorem lifeSign_counts_or_promotes (backup : config.backup = true)
    (run : StandbyRun plat config es s) (still : s.conf.backup = true) {now : Nat}
    {arp : PicoArpHdr} (main : fromMain config arp)
    (taken : s.step plat ⟨now, .deliver arp⟩ = some t) :
    (s.sniffer.macFlag = 0 ∧ t.conf.backup = true ∧ t.sniffer.macFlag = 0 ∧
      t.sniffer.threadCount = incrInt s.sniffer.threadCount ∧
        t.timers = s.timers ++ [⟨t.sniffer.threadCount, now, .created⟩]) ∨
    (s.sniffer.macFlag = 1 ∧ t.conf.backup = false ∧ t.sniffer.macFlag = 1 ∧
      t.sniffer.threadCount = s.sniffer.threadCount ∧ t.timers = s.timers) := by
  have roles := roles_of_run backup run
  obtain ⟨-, effect⟩ := step_effect taken
  cases effect with
  | timedOut _ _ flag =>
      right
      refine ⟨flag, s.sniffer.promote_backup s.conf flag roles.handedOver, ?_, ?_, rfl⟩
      · exact (s.sniffer.promote_macFlag s.conf).trans flag
      · exact s.sniffer.promote_threadCount s.conf
  | ignored _ _ _ other =>
      exact absurd ((run.settled.fromMain_iff arp).mpr main) other
  | counted _ _ flag =>
      left
      have unset : s.sniffer.macFlag = 0 := roles.macFlag.resolve_right flag
      have kept : (s.sniffer.count s.conf arp).conf.backup = s.conf.backup := by
        rw [s.sniffer.count_conf s.conf arp]
      refine ⟨unset, kept.trans still, ?_, s.sniffer.count_threadCount s.conf arp, ?_⟩
      · exact (s.sniffer.count_macFlag s.conf arp).trans unset
      · show _ = s.timers ++ [⟨(s.sniffer.count s.conf arp).sniffer.threadCount, now, .created⟩]
        rw [s.sniffer.count_threadCount]

/-- A second heartbeat in time is counted, and starts the timer with number 2. -/
theorem lifeSign_counts_second :
    ∃ plat es s t arp, StandbyRun plat configJson es s ∧ s.sniffer.threadCount = 1 ∧
      s.step plat ⟨1000000000, .deliver arp⟩ = some t ∧ t.conf.backup = true ∧
        t.sniffer.macFlag = 0 ∧ t.timers = s.timers ++ [⟨2, 1000000000, .created⟩] := by
  let arp := hostQuery (longFrom #v[192, 168, 1, 20]) (longFrom #v[192, 168, 1, 20])
  let plat : Platform := .zeroed #v[2, 0, 0, 0, 0, 2]
  let es : List Event := [⟨0, .deliver arp⟩, ⟨0, .timerStart 0⟩]
  have ends : (exec (Standby.step plat) (runPicoStack plat configJson) es).any (fun s =>
      s.sniffer.threadCount = 1 ∧ s.conf.backup = true ∧ s.sniffer.macFlag ≠ 1 ∧
        (s.step plat ⟨1000000000, .deliver arp⟩).isSome) := by decide
  obtain ⟨s, run, count, still, flag, next⟩ := Run.of_any ends
  obtain ⟨t, taken⟩ := Option.isSome_iff_exists.mp next
  have main : fromMain configJson arp := by decide
  rcases lifeSign_counts_or_promotes rfl run still main taken with counted | ⟨set, -⟩
  · obtain ⟨-, backup, unset, number, timers⟩ := counted
    rw [number, count] at timers
    exact ⟨plat, es, s, t, arp, run, count, taken, backup, unset, timers⟩
  · exact absurd set flag

/-- **A heartbeat after the timeout promotes the node** instead of withdrawing the
suspicion: the main is heard at 0 s and, after the test of its timer, at 1.7 s. -/
theorem lifeSign_promotes :
    ∃ plat es s t arp, StandbyRun plat configJson es s ∧ s.conf.backup = true ∧
      fromMain configJson arp ∧ s.step plat ⟨1700000000, .deliver arp⟩ = some t ∧
        t.conf.backup = false ∧ t.sniffer.macFlag = 1 ∧ t.timers = s.timers := by
  let arp := hostQuery (longFrom #v[192, 168, 1, 20]) (longFrom #v[192, 168, 1, 20])
  let plat : Platform := .zeroed #v[2, 0, 0, 0, 0, 2]
  have ends : (exec (Standby.step plat) (runPicoStack plat configJson)
      (loneHeartbeat arp 1600000000)).any (fun s => s.conf.backup = true ∧
        (s.step plat ⟨1700000000, .deliver arp⟩).any fun t => t.conf.backup = false ∧
          t.sniffer.macFlag = 1 ∧ t.timers = s.timers) := by decide
  obtain ⟨s, run, still, next⟩ := Run.of_any ends
  obtain ⟨t, taken, reached⟩ := (Option.any_eq_true _ _).mp next
  have promoted := of_decide_eq_true reached
  exact ⟨plat, _, s, t, arp, run, still, by decide, taken, promoted⟩

end Rfsis.Failover
