import Rfsis.Failover.Detector
import Rfsis.Node.Main

/-!
Main and standby together, over a network that loses nothing.

The bounds of the network and of the heartbeat thread are guards on time: no
event happens more than a second after the last heartbeat of a running main, or
more than 0.4 s after a heartbeat that is still in flight. Nothing else relates
the two nodes. In particular nothing tells a main that starts, or starts again,
whether the standby has taken over: `start_unconditional` is a run that ends
with both active. `mutual_exclusion` says when a start is safe. It must find the
standby without a suspicion, and with its last heartbeat recent enough that the
first heartbeat of the new main arrives before the timer of that one is over.
-/

namespace Rfsis.Failover

open Rfsis.Transition Rfsis.Pico Rfsis.Node

/-- The longest time between two heartbeats of a running main, in nanoseconds. -/
def beatPeriod : Nat := 1000000000

/-- The longest time a heartbeat is in flight. -/
def beatDelay : Nat := 400000000

/-- The time a timer thread waits. -/
def suspicionTime : Nat := timerMicros * 1000

/-- Two nodes and their files: one of each role, with one service address. -/
structure Deployment where
  mainPlat : Platform
  standbyPlat : Platform
  main : ConfigJson
  standby : ConfigJson
  mainRole : main.backup = false
  standbyRole : standby.backup = true
  service : main.ipv4Addr = standby.ipv4Addr

/-- A heartbeat in flight. -/
structure Beat where
  sent : Nat
  frame : PicoArpHdr
deriving DecidableEq, Repr

/-- The two nodes, the heartbeats in flight, the time of the last heartbeat of
the main (of its start, before the first), and the events of the standby so far. -/
structure Pair where
  main : MainNode
  standby : Standby
  wire : List Beat := []
  lastBeat : Nat := 0
  history : List Event := []
  clock : Nat := 0
deriving DecidableEq, Repr

/-- What happens on either node. `standby` covers the timer threads, the loop and
the delivery of any ARP frame that is not a heartbeat. -/
inductive PairAction where
  | mainBoot
  | mainProgram
  | mainHeartbeat
  | mainTick (work : List StackWork)
  | mainCrash
  | arrive (i : Nat)
  | standby (act : Action)
deriving DecidableEq, Repr

/-- An action and the time at which it happens. -/
structure PairEvent where
  now : Nat
  act : PairAction
deriving DecidableEq, Repr

/-- Both nodes before anything ran: the main is down, the standby has started. -/
def Deployment.start (d : Deployment) : Pair where
  main := { runPicoStackMain d.mainPlat d.main with phase := .down }
  standby := runPicoStack d.standbyPlat d.standby

/-- The standby takes an event. -/
def Deployment.onStandby (d : Deployment) (p : Pair) (e : Event) : Option Pair :=
  (p.standby.step d.standbyPlat e).map fun s =>
    { p with standby := s, history := p.history ++ [e] }

/-- An action of the pair at a time. -/
def Deployment.act (d : Deployment) (p : Pair) (now : Nat) : PairAction → Option Pair
  | .mainBoot =>
      if p.main.phase = .down then
        some { p with main := runPicoStackMain d.mainPlat d.main } else none
  | .mainProgram =>
      if p.main.phase = .started then
        some { p with main := { p.main with phase := .active }, lastBeat := now } else none
  | .mainHeartbeat =>
      if p.main.phase = .active then
        (p.main.arpCheck d.mainPlat).map fun f =>
          { p with wire := p.wire ++ [⟨now, f⟩], lastBeat := now }
      else none
  | .mainTick work =>
      if p.main.phase = .active then some { p with main := p.main.tick work } else none
  | .mainCrash =>
      if p.main.phase = .down then none
      else some { p with main := { p.main with phase := .down } }
  | .arrive i =>
      (p.wire[i]?).bind fun b =>
        d.onStandby { p with wire := p.wire.eraseIdx i } ⟨now, .deliver b.frame⟩
  | .standby act => d.onStandby p ⟨now, act⟩

/-- Time may be `now`: a running main has sent a heartbeat within its period, and
no heartbeat in flight is late. -/
def Pair.timely (p : Pair) (now : Nat) : Prop :=
  p.clock ≤ now ∧ (p.main.phase = .active → now ≤ p.lastBeat + beatPeriod) ∧
    ∀ b ∈ p.wire, now ≤ b.sent + beatDelay

instance (p : Pair) (now : Nat) : Decidable (p.timely now) :=
  inferInstanceAs (Decidable (_ ∧ _ ∧ _))

/-- One event of the pair. -/
def Deployment.step (d : Deployment) (p : Pair) (e : PairEvent) : Option Pair :=
  if p.timely e.now then (d.act p e.now e.act).map fun q => { q with clock := e.now } else none

/-- The application runs on both nodes. -/
def Pair.bothActive (p : Pair) : Prop :=
  p.main.phase = .active ∧ Call.program ∈ p.standby.calls

instance (p : Pair) : Decidable p.bothActive :=
  inferInstanceAs (Decidable (_ ∧ _))

/-- The main may start its application: the standby suspects nothing, and if it
has counted a heartbeat, the last one is at most 0.1 s old. -/
def SafeStart (d : Deployment) (p : Pair) (e : PairEvent) : Prop :=
  e.act = .mainProgram → p.standby.sniffer.macFlag = 0 ∧
    ∀ last, (mainArps d.standby p.history).getLast? = some last →
      e.now + beatPeriod + beatDelay ≤ last + suspicionTime

instance (d : Deployment) (p : Pair) (e : PairEvent) : Decidable (SafeStart d p e) :=
  inferInstanceAs (Decidable (_ → _ ∧ _))

variable {d : Deployment} {p q : Pair}

/-! ### What a step does -/

/-- Every way the pair can change. -/
inductive PairEffect (d : Deployment) (p : Pair) (now : Nat) : PairAction → Pair → Prop
  | booted (down : p.main.phase = .down) :
      PairEffect d p now .mainBoot
        { p with main := runPicoStackMain d.mainPlat d.main, clock := now }
  | began (started : p.main.phase = .started) :
      PairEffect d p now .mainProgram
        { p with main := { p.main with phase := .active }, lastBeat := now, clock := now }
  | beat (active : p.main.phase = .active) (f : PicoArpHdr)
      (sent : p.main.arpCheck d.mainPlat = some f) :
      PairEffect d p now .mainHeartbeat
        { p with wire := p.wire ++ [⟨now, f⟩], lastBeat := now, clock := now }
  | ticked (work : List StackWork) (active : p.main.phase = .active) :
      PairEffect d p now (.mainTick work) { p with main := p.main.tick work, clock := now }
  | crashed (running : p.main.phase ≠ .down) :
      PairEffect d p now .mainCrash
        { p with main := { p.main with phase := .down }, clock := now }
  | arrived (i : Nat) (b : Beat) (here : p.wire[i]? = some b) (s : Standby)
      (taken : p.standby.step d.standbyPlat ⟨now, .deliver b.frame⟩ = some s) :
      PairEffect d p now (.arrive i) { p with
        wire := p.wire.eraseIdx i
        standby := s
        history := p.history ++ [⟨now, .deliver b.frame⟩]
        clock := now }
  | moved (act : Action) (s : Standby)
      (taken : p.standby.step d.standbyPlat ⟨now, act⟩ = some s) :
      PairEffect d p now (.standby act) { p with
        standby := s
        history := p.history ++ [⟨now, act⟩]
        clock := now }

theorem pair_effect {now : Nat} {act : PairAction} (taken : d.step p ⟨now, act⟩ = some q) :
    p.timely now ∧ PairEffect d p now act q := by
  unfold Deployment.step at taken
  split at taken
  · rename_i timely
    refine ⟨timely, ?_⟩
    obtain ⟨r, acted, rfl⟩ := Option.map_eq_some_iff.mp taken
    cases act with
    | mainBoot =>
        simp only [Deployment.act, Option.ite_none_right_eq_some, Option.some.injEq] at acted
        obtain ⟨down, rfl⟩ := acted
        exact .booted down
    | mainProgram =>
        simp only [Deployment.act, Option.ite_none_right_eq_some, Option.some.injEq] at acted
        obtain ⟨started, rfl⟩ := acted
        exact .began started
    | mainHeartbeat =>
        simp only [Deployment.act, Option.ite_none_right_eq_some, Option.map_eq_some_iff] at acted
        obtain ⟨active, f, sent, rfl⟩ := acted
        exact .beat active f sent
    | mainTick work =>
        simp only [Deployment.act, Option.ite_none_right_eq_some, Option.some.injEq] at acted
        obtain ⟨active, rfl⟩ := acted
        exact .ticked work active
    | mainCrash =>
        simp only [Deployment.act, Option.ite_none_left_eq_some, Option.some.injEq] at acted
        obtain ⟨running, rfl⟩ := acted
        exact .crashed running
    | arrive i =>
        simp only [Deployment.act, Deployment.onStandby, Option.bind_eq_some_iff,
          Option.map_eq_some_iff] at acted
        obtain ⟨b, here, s, moved, rfl⟩ := acted
        exact .arrived i b here s moved
    | standby act =>
        simp only [Deployment.act, Deployment.onStandby, Option.map_eq_some_iff] at acted
        obtain ⟨s, moved, rfl⟩ := acted
        exact .moved act s moved
  · cases taken

/-! ### What holds in every state -/

/-- The standby of the pair is a standby: its history is a run of its own. The
heartbeats in flight are the main's. -/
structure Pair.Sound (d : Deployment) (p : Pair) : Prop where
  standby : StandbyRun d.standbyPlat d.standby p.history p.standby
  main : p.main.Settled d.mainPlat d.main
  wire : ∀ b ∈ p.wire, inetPton d.standby.ipv4Addr ≠ none → fromMain d.standby b.frame
  lastBeat : p.lastBeat ≤ p.clock

theorem Deployment.start_sound (d : Deployment) : d.start.Sound d where
  standby := rfl
  main := ⟨rfl, rfl⟩
  wire := fun _ mem => by cases mem
  lastBeat := le_refl 0

theorem Pair.Sound.step (sound : p.Sound d) {e : PairEvent} (taken : d.step p e = some q) :
    q.Sound d := by
  obtain ⟨now, act⟩ := e
  obtain ⟨⟨later, -, -⟩, effect⟩ := pair_effect taken
  have beat : p.lastBeat ≤ now := sound.lastBeat.trans later
  cases effect with
  | booted => exact ⟨sound.standby, ⟨rfl, rfl⟩, sound.wire, beat⟩
  | began => exact ⟨sound.standby, ⟨sound.main.conf, sound.main.tables⟩, sound.wire, le_refl now⟩
  | beat active f sent =>
      refine ⟨sound.standby, sound.main, ?_, le_refl now⟩
      intro b mem parses
      rcases List.mem_append.mp mem with old | new
      · exact sound.wire b old parses
      · rw [List.mem_singleton.mp new]
        exact sound.main.arpCheck_fromMain d.mainRole sent d.service parses
  | ticked work => exact ⟨sound.standby, sound.main.tick work, sound.wire, beat⟩
  | crashed => exact ⟨sound.standby, ⟨sound.main.conf, sound.main.tables⟩, sound.wire, beat⟩
  | arrived i b here s moved =>
      refine ⟨Run.snoc_iff.mpr ⟨_, sound.standby, moved⟩, sound.main, ?_, beat⟩
      exact fun b mem => sound.wire b (List.mem_of_mem_eraseIdx mem)
  | moved act s moved =>
      exact ⟨Run.snoc_iff.mpr ⟨_, sound.standby, moved⟩, sound.main, sound.wire, beat⟩

/-- While the main runs, the timer of the last counted heartbeat cannot be over
before the next heartbeat arrives: one is in flight that arrives before, or one
will be sent early enough. -/
structure Covered (d : Deployment) (p : Pair) : Prop where
  unset : p.standby.sniffer.macFlag ≠ 1
  next : ∀ last, (mainArps d.standby p.history).getLast? = some last →
    (∃ b ∈ p.wire, b.sent + beatDelay ≤ last + suspicionTime) ∨
      p.lastBeat + beatPeriod + beatDelay ≤ last + suspicionTime

/-- A standby that moves at a timely moment records no timeout. -/
theorem Covered.standby_unset (sound : p.Sound d) (covered : Covered d p)
    (few : (mainArps d.standby p.history).length < 2 ^ 31) {now : Nat} (timely : p.timely now)
    (active : p.main.phase = .active) {act : Action} {s : Standby}
    (taken : p.standby.step d.standbyPlat ⟨now, act⟩ = some s) : s.sniffer.macFlag ≠ 1 := by
  intro set
  obtain ⟨-, period, delay⟩ := timely
  have early := period active
  obtain ⟨last, found, late⟩ := timeout_late sound.standby few taken covered.unset set
  have late : last + suspicionTime < now := late
  rcases covered.next last found with ⟨b, mem, before⟩ | before
  · have arrives := delay b mem
    omega
  · omega

/-- After the standby moved, with the heartbeat just delivered taken off the wire
or none, the main is still covered. -/
theorem Covered.standby_step (sound : p.Sound d) (covered : Covered d p)
    (few : (mainArps d.standby p.history).length < 2 ^ 31) {now : Nat} (timely : p.timely now)
    (active : p.main.phase = .active) {act : Action} {s : Standby}
    (taken : p.standby.step d.standbyPlat ⟨now, act⟩ = some s) {wire : List Beat}
    (kept : mainArp d.standby ⟨now, act⟩ = none →
      (mainArps d.standby p.history).getLast? ≠ none → wire = p.wire) :
    Covered d { p with
      wire := wire, standby := s, history := p.history ++ [⟨now, act⟩], clock := now } := by
  refine ⟨covered.standby_unset sound few timely active taken, fun last found => ?_⟩
  have beat : p.lastBeat ≤ now := sound.lastBeat.trans timely.1
  have found : (mainArps d.standby (p.history ++ [⟨now, act⟩])).getLast? = some last := found
  rw [mainArps_snoc] at found
  cases counted : mainArp d.standby ⟨now, act⟩ with
  | none =>
      rw [counted, Option.toList_none, List.append_nil] at found
      have same := kept counted (by rw [found]; exact Option.some_ne_none last)
      exact same ▸ covered.next last found
  | some at' =>
      right
      have here : at' = now := by
        cases act with
        | deliver arp =>
            have counted : (if fromMain d.standby arp then some now else none) = some at' := counted
            split at counted
            · exact (Option.some.inj counted).symm
            · cases counted
        | timerStart | timerWake | timerCheck | iterate => cases counted
      rw [counted, Option.toList_some, List.getLast?_concat, here] at found
      have newest := Option.some.inj found
      show p.lastBeat + beatPeriod + beatDelay ≤ last + suspicionTime
      have margin : beatPeriod + beatDelay ≤ suspicionTime := by decide
      omega

theorem mainArps_length_snoc (config : ConfigJson) (es : List Event) (e : Event) :
    (mainArps config es).length ≤ (mainArps config (es ++ [e])).length := by
  rw [mainArps_snoc, List.length_append]
  exact Nat.le_add_right _ _

theorem Covered.step (sound : p.Sound d)
    (covered : (mainArps d.standby p.history).length < 2 ^ 31 → p.main.phase = .active →
      Covered d p)
    {e : PairEvent} (safe : SafeStart d p e) (taken : d.step p e = some q)
    (few : (mainArps d.standby q.history).length < 2 ^ 31) (active : q.main.phase = .active) :
    Covered d q := by
  obtain ⟨now, act⟩ := e
  obtain ⟨timely, effect⟩ := pair_effect taken
  cases effect with
  | booted => cases active
  | began started =>
      obtain ⟨unset, recent⟩ := safe rfl
      refine ⟨fun set => ?_, fun last found => Or.inr (recent last found)⟩
      exact absurd (unset.symm.trans set) (by decide)
  | beat active f sent =>
      have before := covered few active
      refine ⟨before.unset, fun last found => Or.inl ?_⟩
      rcases before.next last found with ⟨b, mem, early⟩ | early
      · exact ⟨b, List.mem_append_left _ mem, early⟩
      · -- The heartbeat sent now takes over the cover of the period it ends.
        refine ⟨⟨now, f⟩, List.mem_append_right _ (List.mem_singleton.mpr rfl), ?_⟩
        have period := timely.2.1 active
        show now + beatDelay ≤ last + suspicionTime
        omega
  | ticked work running =>
      have before := covered few running
      exact ⟨before.unset, before.next⟩
  | crashed => cases active
  | arrived i b here s moved =>
      have few := (mainArps_length_snoc d.standby p.history _).trans_lt few
      have before := covered few active
      refine before.standby_step sound few timely active moved fun uncounted found => ?_
      have parses : inetPton d.standby.ipv4Addr ≠ none := fun rejected =>
        found (by rw [mainArps_rejected rejected]; rfl)
      have main := sound.wire b (List.mem_of_getElem? here) parses
      cases uncounted.symm.trans (mainArp_deliver main)
  | moved act s moved =>
      have few := (mainArps_length_snoc d.standby p.history _).trans_lt few
      exact (covered few active).standby_step sound few timely active moved fun _ _ => rfl

/-! ### Mutual exclusion -/

/-- **The application never runs on both nodes**, as long as every start of the
main's application is safe and the standby's counter does not overflow. -/
theorem mutual_exclusion {es : List PairEvent}
    (safe : Meets d.step (SafeStart d) d.start es) (run : Run d.step d.start es p)
    (few : (mainArps d.standby p.history).length < 2 ^ 31) : ¬p.bothActive := by
  have all : p.Sound d ∧ ((mainArps d.standby p.history).length < 2 ^ 31 →
      p.main.phase = .active → Covered d p) := by
    refine Meets.invariant (I := fun p => p.Sound d ∧
      ((mainArps d.standby p.history).length < 2 ^ 31 → p.main.phase = .active → Covered d p))
      ⟨d.start_sound, fun _ active => by cases active⟩ ?_ safe run
    rintro u e w ⟨sound, covered⟩ safe taken
    exact ⟨sound.step taken, Covered.step sound covered safe taken⟩
  rintro ⟨active, started⟩
  have unset := (all.2 few active).unset
  exact ((roles_of_run d.standbyRole all.1.standby).waiting unset).2.2 started

/-- The repository's file on both nodes, with an address of its own for the main. -/
def Deployment.twoNodes : Deployment where
  mainPlat := .zeroed #v[2, 0, 0, 0, 0, 1]
  standbyPlat := .zeroed #v[2, 0, 0, 0, 0, 2]
  main := { configJson with backup := false, ipv4Addr := "192.168.1.10" }
  standby := { configJson with ipv4Addr := "192.168.1.10" }
  mainRole := rfl
  standbyRole := rfl
  service := rfl

/-- A main that crashes and is back within 0.1 s of its last heartbeat. -/
theorem mutual_exclusion_restart :
    ∃ es p, Run Deployment.twoNodes.step Deployment.twoNodes.start es p ∧
      p.main.phase = .active ∧ p.standby.sniffer.threadCount = 2 ∧ ¬p.bothActive := by
  let es : List PairEvent := [⟨0, .mainBoot⟩, ⟨0, .mainProgram⟩, ⟨900000000, .mainHeartbeat⟩,
    ⟨1200000000, .arrive 0⟩, ⟨1200000000, .standby (.timerStart 0)⟩, ⟨1210000000, .mainCrash⟩,
    ⟨1250000000, .mainBoot⟩, ⟨1290000000, .mainProgram⟩, ⟨2200000000, .mainHeartbeat⟩,
    ⟨2500000000, .arrive 0⟩, ⟨2800000000, .standby (.timerWake 0)⟩,
    ⟨2800000000, .standby (.timerCheck 0)⟩, ⟨3000000000, .standby (.iterate [])⟩]
  have safe : Meets Deployment.twoNodes.step (SafeStart Deployment.twoNodes)
      Deployment.twoNodes.start es := by decide
  have ends : (exec Deployment.twoNodes.step Deployment.twoNodes.start es).any (fun p =>
      p.main.phase = .active ∧ p.standby.sniffer.threadCount = 2 ∧
        (mainArps Deployment.twoNodes.standby p.history).length < 2 ^ 31) := by decide
  obtain ⟨p, run, active, count, few⟩ := Run.of_any ends
  exact ⟨es, p, run, active, count, mutual_exclusion safe run few⟩

/-- **Nothing stops a main that comes back.** The main crashes after a heartbeat,
the standby takes over, the main is restarted: the application runs on both. -/
theorem start_unconditional :
    ∃ es p, Run Deployment.twoNodes.step Deployment.twoNodes.start es p ∧ p.bothActive := by
  let other := hostQuery (longFrom #v[192, 168, 1, 9]) (longFrom #v[192, 168, 1, 20])
  let es : List PairEvent := [⟨0, .mainBoot⟩, ⟨0, .mainProgram⟩, ⟨500000000, .mainHeartbeat⟩,
    ⟨600000000, .arrive 0⟩, ⟨600000000, .standby (.timerStart 0)⟩, ⟨700000000, .mainCrash⟩,
    ⟨2200000000, .standby (.timerWake 0)⟩, ⟨2200000000, .standby (.timerCheck 0)⟩,
    ⟨2300000000, .standby (.deliver other)⟩, ⟨3000000000, .standby (.iterate [])⟩,
    ⟨4000000000, .mainBoot⟩, ⟨4000000000, .mainProgram⟩]
  have ends : (exec Deployment.twoNodes.step Deployment.twoNodes.start es).any
      fun p => p.bothActive := by decide
  obtain ⟨p, run, both⟩ := Run.of_any ends
  exact ⟨es, p, run, both⟩

end Rfsis.Failover
