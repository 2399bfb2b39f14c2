import Rfsis.Node.Sniffer
import Rfsis.Transition

/-!
A node started with `backup = true`, as a step function.

Three kinds of threads act on it: the sniffer (`deliver`), the detached timer
threads (`timerStart`, `timerWake`, `timerCheck`) and the loop of
`runPicoStack` (`iterate`). An event carries the clock reading at which it
happens and readings never go back; a run is any list of events, so every
interleaving is a run. Each event is one atomic step of the source: one
callback, one clock reading of a timer, its final test, one loop iteration.
-/

namespace Rfsis.Node

open Rfsis.Pico

/-- What the takeover branch has done that cannot be seen in a flag. -/
inductive Call where
  | program
  | announce (dst : Ip4)
deriving DecidableEq, Repr

/-- The state of the process: `conf`, the sniffer object, the timer threads
still alive, the local `cloneFlag`, the stack, the calls made by the takeover
branch so far, and the last clock reading. -/
structure Standby where
  conf : ConfigParser
  sniffer : ArpSniffer := {}
  timers : List TimerThread := []
  cloneFlag : Int := 0
  stack : PicoStack
  calls : List Call := []
  clock : Nat := 0
deriving DecidableEq, Repr

/-- What a thread of the node does. -/
inductive Action where
  | deliver (arp : PicoArpHdr)
  | timerStart (i : Nat)
  | timerWake (i : Nat)
  | timerCheck (i : Nat)
  | iterate (work : List StackWork)
deriving DecidableEq, Repr

/-- An action and the clock reading at which it happens, in nanoseconds. -/
structure Event where
  now : Nat
  act : Action
deriving DecidableEq, Repr

/-- `runPicoStack` up to its loop, for a node whose file says `backup = true`. -/
def runPicoStack (plat : Platform) (config : ConfigJson) : Standby :=
  let conf := ConfigParser.new config
  let (dev, stack) := initPicotcp plat conf {}
  { conf := { conf with dev := dev }, stack := stack }

/-- The sniffer thread runs the callback on a frame. -/
def Standby.deliver (s : Standby) (now : Nat) (arp : PicoArpHdr) : Option Standby :=
  if s.sniffer.sniffing then
    let left := s.sniffer.callback s.conf arp
    some { s with
      conf := left.conf
      sniffer := left.sniffer
      timers := s.timers ++ (left.arpTimer.map fun id => ⟨id, now, .created⟩).toList }
  else none

/-- A timer thread reads the clock for the first time. -/
def Standby.timerStart (s : Standby) (now i : Nat) : Option Standby :=
  (s.timers[i]?).bind fun t =>
    match t.phase with
    | .created => some { s with timers := s.timers.set i { t with phase := .sleeping now } }
    | _ => none

/-- A timer thread reads the clock in its loop and leaves the loop. -/
def Standby.timerWake (s : Standby) (now i : Nat) : Option Standby :=
  (s.timers[i]?).bind fun t =>
    match t.phase with
    | .sleeping start =>
        if timerMicros < elapsedMicros start now then
          some { s with timers := s.timers.set i { t with phase := .awake } }
        else none
    | _ => none

/-- A timer thread past its loop makes its test and returns. -/
def Standby.timerCheck (s : Standby) (i : Nat) : Option Standby :=
  (s.timers[i]?).bind fun t =>
    match t.phase with
    | .awake =>
        some { s with
          sniffer := s.sniffer.timerCheck t.timerThreadId
          timers := s.timers.eraseIdx i }
    | _ => none

/-- The condition of the takeover branch, `!conf.getBackup() && cloneFlag == 0`. -/
def Standby.takesOver (s : Standby) : Prop :=
  s.conf.backup = false ∧ s.cloneFlag = 0

instance (s : Standby) : Decidable s.takesOver :=
  inferInstanceAs (Decidable (_ ∧ _))

/-- One iteration of the loop of `runPicoStack`. Without a device the announcement
dereferences a null pointer, and the iteration has no next state. -/
def Standby.iterate (plat : Platform) (s : Standby) (work : List StackWork) : Option Standby :=
  let stack := match s.conf.dev with
    | none => s.stack
    | some dev => picoStackTick dev s.stack work
  if s.takesOver then
    s.conf.dev.map fun dev =>
      let ipaddr := parseInto (plat.indeterminate .takeoverIpaddr) s.conf.ipv4Addr
      { s with
        conf := { s.conf with backup := false }
        stack := stack.send (picoArpRequest dev stack.ipv4 ipaddr .announce)
        calls := s.calls ++ [.program, .announce ipaddr]
        cloneFlag := 1 }
  else some { s with stack := stack }

/-- The action, at a clock reading. -/
def Standby.act (plat : Platform) (s : Standby) (now : Nat) : Action → Option Standby
  | .deliver arp => s.deliver now arp
  | .timerStart i => s.timerStart now i
  | .timerWake i => s.timerWake now i
  | .timerCheck i => s.timerCheck i
  | .iterate work => s.iterate plat work

/-- One event of the node. -/
def Standby.step (plat : Platform) (s : Standby) (e : Event) : Option Standby :=
  if s.clock ≤ e.now then (s.act plat e.now e.act).map fun t => { t with clock := e.now } else none

/-! ### What a step does -/

/-- The stack after the ticks of an iteration. -/
def Standby.ticked (s : Standby) (work : List StackWork) : PicoStack :=
  match s.conf.dev with
  | none => s.stack
  | some dev => picoStackTick dev s.stack work

/-- Every way a step can change the node, with the condition under which it does. -/
inductive Effect (plat : Platform) (s : Standby) (now : Nat) : Action → Standby → Prop
  | timedOut (arp : PicoArpHdr) (sniffing : s.sniffer.sniffing = true)
      (flag : s.sniffer.macFlag = 1) :
      Effect plat s now (.deliver arp) { s with
        conf := (s.sniffer.promote s.conf).1
        sniffer := { (s.sniffer.promote s.conf).2 with
          sniffing := (inetPton s.conf.ipv4Addr).isSome }
        clock := now }
  | ignored (arp : PicoArpHdr) (sniffing : s.sniffer.sniffing = true)
      (flag : s.sniffer.macFlag ≠ 1) (other : ¬fromMain s.conf.toConfigJson arp) :
      Effect plat s now (.deliver arp) { s with
        sniffer := { s.sniffer with sniffing := (inetPton s.conf.ipv4Addr).isSome }
        clock := now }
  | counted (arp : PicoArpHdr) (sniffing : s.sniffer.sniffing = true)
      (flag : s.sniffer.macFlag ≠ 1) (main : fromMain s.conf.toConfigJson arp) :
      Effect plat s now (.deliver arp) { s with
        conf := (s.sniffer.count s.conf arp).conf
        sniffer := (s.sniffer.count s.conf arp).sniffer
        timers := s.timers ++ [⟨incrInt s.sniffer.threadCount, now, .created⟩]
        clock := now }
  | started (i : Nat) (t : TimerThread) (here : s.timers[i]? = some t)
      (phase : t.phase = .created) :
      Effect plat s now (.timerStart i) { s with
        timers := s.timers.set i { t with phase := .sleeping now }
        clock := now }
  | woken (i : Nat) (t : TimerThread) (start : Nat) (here : s.timers[i]? = some t)
      (phase : t.phase = .sleeping start) (expired : timerMicros < elapsedMicros start now) :
      Effect plat s now (.timerWake i) { s with
        timers := s.timers.set i { t with phase := .awake }
        clock := now }
  | checked (i : Nat) (t : TimerThread) (here : s.timers[i]? = some t) (phase : t.phase = .awake) :
      Effect plat s now (.timerCheck i) { s with
        sniffer := s.sniffer.timerCheck t.timerThreadId
        timers := s.timers.eraseIdx i
        clock := now }
  | ticked (work : List StackWork) (stays : ¬s.takesOver) :
      Effect plat s now (.iterate work) { s with
        stack := s.ticked work
        clock := now }
  | tookOver (work : List StackWork) (dev : PicoDevice) (opened : s.conf.dev = some dev)
      (branch : s.takesOver) :
      Effect plat s now (.iterate work) { s with
        conf := { s.conf with backup := false }
        stack := (s.ticked work).send <| picoArpRequest dev (s.ticked work).ipv4
          (parseInto (plat.indeterminate .takeoverIpaddr) s.conf.ipv4Addr) .announce
        calls := s.calls ++
          [.program, .announce (parseInto (plat.indeterminate .takeoverIpaddr) s.conf.ipv4Addr)]
        cloneFlag := 1
        clock := now }

variable {plat : Platform} {s t : Standby}

/-- The inversion of a step: time has not gone back, and the change is one of the effects. -/
theorem step_effect {e : Event} (taken : s.step plat e = some t) :
    s.clock ≤ e.now ∧ Effect plat s e.now e.act t := by
  obtain ⟨now, act⟩ := e
  unfold Standby.step at taken
  split at taken
  · rename_i later
    refine ⟨later, ?_⟩
    obtain ⟨u, acted, rfl⟩ := Option.map_eq_some_iff.mp taken
    cases act with
    | deliver arp =>
        simp only [Standby.act, Standby.deliver, Option.ite_none_right_eq_some,
          Option.some.injEq] at acted
        obtain ⟨sniffing, rfl⟩ := acted
        by_cases flag : s.sniffer.macFlag = 1
        · have effect : Effect plat s now _ _ := .timedOut arp sniffing flag
          simpa [s.sniffer.callback_timedOut s.conf arp flag, sniffing] using effect
        · by_cases main : fromMain s.conf.toConfigJson arp
          · have effect : Effect plat s now _ _ := .counted arp sniffing flag main
            simpa [s.sniffer.callback_waiting s.conf arp flag, main] using effect
          · have effect : Effect plat s now _ _ := .ignored arp sniffing flag main
            simpa [s.sniffer.callback_waiting s.conf arp flag, main, sniffing] using effect
    | timerStart i =>
        simp only [Standby.act, Standby.timerStart, Option.bind_eq_some_iff] at acted
        obtain ⟨thread, here, acted⟩ := acted
        split at acted
        · rename_i phase
          cases acted
          exact .started i thread here phase
        · cases acted
    | timerWake i =>
        simp only [Standby.act, Standby.timerWake, Option.bind_eq_some_iff] at acted
        obtain ⟨thread, here, acted⟩ := acted
        split at acted
        · rename_i start phase
          split at acted
          · rename_i expired
            cases acted
            exact .woken i thread start here phase expired
          · cases acted
        · cases acted
    | timerCheck i =>
        simp only [Standby.act, Standby.timerCheck, Option.bind_eq_some_iff] at acted
        obtain ⟨thread, here, acted⟩ := acted
        split at acted
        · rename_i phase
          cases acted
          exact .checked i thread here phase
        · cases acted
    | iterate work =>
        simp only [Standby.act, Standby.iterate] at acted
        split at acted
        · rename_i branch
          obtain ⟨dev, opened, rfl⟩ := Option.map_eq_some_iff.mp acted
          exact .tookOver work dev opened branch
        · rename_i stays
          cases acted
          exact .ticked work stays
  · cases taken

/-- Every effect is a step, as long as time does not go back. -/
theorem step_of_effect {now : Nat} {act : Action} (later : s.clock ≤ now)
    (effect : Effect plat s now act t) : s.step plat ⟨now, act⟩ = some t := by
  cases effect with
  | timedOut arp sniffing flag =>
      simp [Standby.step, later, Standby.act, Standby.deliver, sniffing,
        s.sniffer.callback_timedOut s.conf arp flag]
  | ignored arp sniffing flag other =>
      simp [Standby.step, later, Standby.act, Standby.deliver, sniffing,
        s.sniffer.callback_waiting s.conf arp flag, other]
  | counted arp sniffing flag main =>
      simp [Standby.step, later, Standby.act, Standby.deliver, sniffing,
        s.sniffer.callback_waiting s.conf arp flag, main]
  | started i thread here phase =>
      simp [Standby.step, later, Standby.act, Standby.timerStart, here, phase]
  | woken i thread start here phase expired =>
      simp [Standby.step, later, Standby.act, Standby.timerWake, here, phase, expired]
  | checked i thread here phase =>
      simp [Standby.step, later, Standby.act, Standby.timerCheck, here, phase]
  | ticked work stays =>
      simp [Standby.step, later, Standby.act, Standby.iterate, stays, Standby.ticked]
  | tookOver work dev opened branch =>
      simp [Standby.step, later, Standby.act, Standby.iterate, branch, opened, Standby.ticked]

theorem step_clock {e : Event} (taken : s.step plat e = some t) : t.clock = e.now := by
  obtain ⟨now, act⟩ := e
  obtain ⟨-, effect⟩ := step_effect taken
  cases effect <;> rfl

/-! ### What never changes -/

/-- The run of a node from its start. -/
abbrev StandbyRun (plat : Platform) (config : ConfigJson) (es : List Event) (s : Standby) : Prop :=
  Transition.Run (Standby.step plat) (runPicoStack plat config) es s

/-- A state of the node started with `config`: what it read from the file except
the role, its device and its tables are those of the start. -/
structure Settled (plat : Platform) (config : ConfigJson) (s : Standby) : Prop where
  settings : ∀ role, { s.conf.toConfigJson with backup := role } = { config with backup := role }
  dev : s.conf.dev = plat.picoTapCreate config.tapDeviceName
  tables : s.stack.ipv4 = (initPicotcp plat (ConfigParser.new config) {}).2.ipv4

variable {config : ConfigJson}

theorem Standby.ticked_ipv4 (s : Standby) (work : List StackWork) :
    (s.ticked work).ipv4 = s.stack.ipv4 := by
  unfold Standby.ticked
  split
  · rfl
  · exact picoStackTick_ipv4 _ _ _

theorem runPicoStack_settled (plat : Platform) (config : ConfigJson) :
    Settled plat config (runPicoStack plat config) where
  settings := fun _ => rfl
  dev := by
    show (initPicotcp plat (ConfigParser.new config) {}).1 = plat.picoTapCreate config.tapDeviceName
    unfold initPicotcp
    show Prod.fst (match plat.picoTapCreate config.tapDeviceName with
      | none => _
      | some dev => _) = _
    cases plat.picoTapCreate config.tapDeviceName <;> rfl
  tables := rfl

theorem Settled.step (settled : Settled plat config s) {e : Event}
    (taken : s.step plat e = some t) : Settled plat config t := by
  obtain ⟨now, act⟩ := e
  obtain ⟨-, effect⟩ := step_effect taken
  cases effect with
  | timedOut arp sniffing flag =>
      have promoted := s.sniffer.promote_conf s.conf
      exact ⟨by rw [promoted]; exact settled.settings,
        by rw [promoted]; exact settled.dev, settled.tables⟩
  | counted arp sniffing flag main =>
      have counted := s.sniffer.count_conf s.conf arp
      exact ⟨by rw [counted]; exact settled.settings, by rw [counted]; exact settled.dev,
        settled.tables⟩
  | ticked work stays =>
      exact ⟨settled.settings, settled.dev, (s.ticked_ipv4 work).trans settled.tables⟩
  | tookOver work dev opened branch =>
      exact ⟨settled.settings, settled.dev,
        (s.ticked_ipv4 work).trans settled.tables⟩
  | ignored | started | woken | checked =>
      exact ⟨settled.settings, settled.dev, settled.tables⟩

theorem StandbyRun.settled {es : List Event} (run : StandbyRun plat config es s) :
    Settled plat config s :=
  Transition.Run.invariant (runPicoStack_settled plat config)
    (fun _ _ _ before taken => before.step taken) run

/-- In every state the link table holds the address of the node's start and no other. -/
theorem Settled.links (settled : Settled plat config s) {dev : PicoDevice}
    (opened : plat.picoTapCreate config.tapDeviceName = some dev) :
    ∃ netmask, s.stack.ipv4.treeDevLink =
      [⟨initAddress plat (ConfigParser.new config), netmask, dev⟩] := by
  rw [settled.tables]
  exact ⟨_, initPicotcp_linked opened⟩

theorem Settled.ipv4Addr (settled : Settled plat config s) :
    s.conf.ipv4Addr = config.ipv4Addr := by
  have same := congrArg ConfigJson.ipv4Addr (settled.settings true)
  exact same

theorem Settled.backupAddr (settled : Settled plat config s) :
    s.conf.backupAddr = config.backupAddr := by
  have same := congrArg ConfigJson.backupAddr (settled.settings true)
  exact same

theorem Settled.fromMain_iff (settled : Settled plat config s) (arp : PicoArpHdr) :
    fromMain s.conf.toConfigJson arp ↔ fromMain config arp := by
  rw [fromMain, fromMain, settled.ipv4Addr]

end Rfsis.Node
