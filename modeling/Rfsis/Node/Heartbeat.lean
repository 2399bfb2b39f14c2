import Mathlib.Data.Rat.Floor
import Rfsis.Accumulator
import Rfsis.Node.Main
import Rfsis.Transition

/-!
The loop of `Heartbeat::arp_check`: when it asks for the backup's address.

The loop reads the clock as fast as it can and adds what has passed to
`time_counter`. Once that is more than a period it subtracts the period and
issues one request, so `time_counter` carries the rest over: the loop is an
`Accumulator` of clock ticks. `arp_check_drift_free` is its account over all runs.

`time_counter` is an exact integer here; the source keeps it in a double. A label
of a run is a reading of `clock()`, and readings do not decrease.
-/

namespace Rfsis.Node

open Rfsis.Pico Rfsis.Transition

/-- `CLOCKS_PER_SEC`. -/
def clocksPerSec : Int := 1000000

/-- `class Heartbeat`. -/
structure Heartbeat where
  mainIp : String
  dev : Option PicoDevice
  heartbeatSec : Int
deriving DecidableEq, Repr

/-- The object that `runPicoStack` constructs on a main. -/
def Heartbeat.new (conf : ConfigParser) : Heartbeat where
  mainIp := conf.backupAddr
  dev := conf.dev
  heartbeatSec := conf.heartbeatTimer

/-- `heartbeat_sec * CLOCKS_PER_SEC`. -/
def Heartbeat.period (hb : Heartbeat) : Int :=
  hb.heartbeatSec * clocksPerSec

/-- The local variables of `arp_check`, and the addresses that it has passed to
`pico_arp_request` so far. -/
structure ArpCheck where
  count : Int := 1
  timeCounter : Int := 0
  lastTime : Int
  requests : List Ip4 := []
deriving DecidableEq, Repr

/-- One iteration of the loop, with the reading of the clock. -/
def Heartbeat.iterate (plat : Platform) (hb : Heartbeat) (l : ArpCheck) (thisTime : Int) :
    ArpCheck :=
  let l := { l with timeCounter := l.timeCounter + (thisTime - l.lastTime), lastTime := thisTime }
  if hb.period < l.timeCounter then
    { l with
      timeCounter := l.timeCounter - hb.period
      requests := l.requests ++ [parseInto (plat.indeterminate .heartbeatIp) hb.mainIp]
      count := l.count + 1 }
  else l

/-- An iteration whose reading is not before the last one. -/
def Heartbeat.step (plat : Platform) (hb : Heartbeat) (l : ArpCheck) (thisTime : Int) :
    Option ArpCheck :=
  if l.lastTime ≤ thisTime then some (hb.iterate plat l thisTime) else none

/-- The iterations of `arp_check` on the readings after the first one. -/
abbrev HeartbeatRun (plat : Platform) (hb : Heartbeat) (first : Int) (readings : List Int)
    (l : ArpCheck) : Prop :=
  Run (hb.step plat) { lastTime := first } readings l

/-- How many requests have been issued. -/
def ArpCheck.sent (l : ArpCheck) : Nat :=
  l.requests.length

/-- The loop as a counter of clock ticks. -/
def ArpCheck.account (l : ArpCheck) : Accumulator Int :=
  ⟨l.timeCounter, l.sent⟩

/-- The reading comes at most a period after the last one. -/
def Heartbeat.Prompt (hb : Heartbeat) (l : ArpCheck) (thisTime : Int) : Prop :=
  thisTime - l.lastTime ≤ hb.period

instance (hb : Heartbeat) (l : ArpCheck) (thisTime : Int) : Decidable (hb.Prompt l thisTime) :=
  inferInstanceAs (Decidable (_ ≤ _))

variable {plat : Platform} {hb : Heartbeat} {l l' : ArpCheck} {first thisTime : Int}
  {readings : List Int}

/-! ### One iteration -/

theorem Heartbeat.iterate_account (plat : Platform) (hb : Heartbeat) (l : ArpCheck)
    (thisTime : Int) :
    (hb.iterate plat l thisTime).account = l.account.add hb.period (thisTime - l.lastTime) := by
  unfold Heartbeat.iterate Accumulator.add
  dsimp only
  split
  · rename_i due
    rw [if_pos (by exact due)]
    simp [ArpCheck.account, ArpCheck.sent]
  · rename_i early
    rw [if_neg (by exact early)]
    rfl

theorem Heartbeat.iterate_lastTime : (hb.iterate plat l thisTime).lastTime = thisTime := by
  unfold Heartbeat.iterate
  dsimp only
  split <;> rfl

/-- What an iteration passes to `pico_arp_request`, if anything. -/
theorem Heartbeat.iterate_requests (plat : Platform) (hb : Heartbeat) (l : ArpCheck)
    (thisTime : Int) :
    (hb.iterate plat l thisTime).requests = l.requests ∨
      (hb.iterate plat l thisTime).requests =
        l.requests ++ [parseInto (plat.indeterminate .heartbeatIp) hb.mainIp] := by
  unfold Heartbeat.iterate
  dsimp only
  split
  · exact Or.inr rfl
  · exact Or.inl rfl

theorem Heartbeat.step_iff :
    hb.step plat l thisTime = some l' ↔
      l.lastTime ≤ thisTime ∧ hb.iterate plat l thisTime = l' := by
  rw [Heartbeat.step, Option.ite_none_right_eq_some, Option.some.injEq]

/-- At most one request in an iteration. -/
theorem Heartbeat.step_sent (taken : hb.step plat l thisTime = some l') :
    l'.sent = l.sent ∨ l'.sent = l.sent + 1 := by
  obtain ⟨-, rfl⟩ := Heartbeat.step_iff.mp taken
  have fired := l.account.add_fired hb.period (thisTime - l.lastTime)
  rw [← hb.iterate_account plat] at fired
  exact fired

/-! ### Along a run -/

theorem HeartbeatRun.lastTime (run : HeartbeatRun plat hb first readings l) :
    l.lastTime = readings.getLastD first := by
  induction readings using List.reverseRecOn with
  | nil => exact congrArg ArpCheck.lastTime (Run.nil_iff.mp run)
  | append_singleton readings last _ =>
      obtain ⟨u, -, taken⟩ := Run.snoc_iff.mp run
      obtain ⟨-, rfl⟩ := Heartbeat.step_iff.mp taken
      rw [Heartbeat.iterate_lastTime, List.getLastD_concat]

/-- Every tick between the first and the last reading is accounted for. -/
theorem HeartbeatRun.total (run : HeartbeatRun plat hb first readings l) :
    l.account.total hb.period = l.lastTime - first := by
  refine Run.invariant (I := fun l => l.account.total hb.period = l.lastTime - first) ?_ ?_ run
  · simp [Accumulator.total, ArpCheck.account, ArpCheck.sent]
  · intro u reading w account taken
    obtain ⟨-, rfl⟩ := Heartbeat.step_iff.mp taken
    rw [Heartbeat.iterate_account, Accumulator.add_total, account, Heartbeat.iterate_lastTime]
    omega

theorem HeartbeatRun.notEarly (run : HeartbeatRun plat hb first readings l) :
    l.account.NotEarly := by
  refine Run.invariant (I := fun l => l.account.NotEarly) ?_ ?_ run
  · exact ⟨Int.le_refl 0, fun fired => absurd fired (Nat.lt_irrefl 0)⟩
  · intro u reading w early taken
    obtain ⟨later, rfl⟩ := Heartbeat.step_iff.mp taken
    rw [Heartbeat.iterate_account]
    exact early.add (Int.sub_nonneg_of_le later)

/-- Prompt readings leave at most a period in the counter. -/
theorem HeartbeatRun.timeCounter_le (positive : 0 < hb.heartbeatSec)
    (prompt : Meets (hb.step plat) hb.Prompt { lastTime := first } readings)
    (run : HeartbeatRun plat hb first readings l) : l.timeCounter ≤ hb.period := by
  refine Meets.invariant (I := fun l => l.account.carry ≤ hb.period) ?_ ?_ prompt run
  · exact Int.mul_nonneg positive.le (by decide)
  · intro u reading w carry soon taken
    obtain ⟨-, rfl⟩ := Heartbeat.step_iff.mp taken
    rw [Heartbeat.iterate_account]
    exact Accumulator.add_carry_le carry soon

/-- **The heartbeats do not drift.** -/
theorem arp_check_drift_free (positive : 0 < hb.heartbeatSec)
    (run : HeartbeatRun plat hb first readings l) :
    l.sent * hb.period + l.timeCounter = readings.getLastD first - first ∧
      (0 < l.sent → l.sent * hb.period < readings.getLastD first - first) ∧
      (∀ thisTime l', hb.step plat l thisTime = some l' →
        l'.sent = l.sent ∨ l'.sent = l.sent + 1) ∧
      (Meets (hb.step plat) hb.Prompt { lastTime := first } readings →
        0 ≤ l.timeCounter ∧ l.timeCounter ≤ hb.period ∧
          (first < readings.getLastD first →
            (l.sent : Int) =
              ⌈((readings.getLastD first - first : Int) : ℚ) / (hb.period : ℚ)⌉ - 1)) := by
  have total : l.sent * hb.period + l.timeCounter = readings.getLastD first - first := by
    rw [← run.lastTime]
    exact run.total
  have early := run.notEarly
  refine ⟨total, ?_, fun thisTime l' taken => Heartbeat.step_sent taken, fun prompt => ?_⟩
  · intro some
    rw [← total]
    exact early.lt_total some
  · have le := run.timeCounter_le positive prompt
    refine ⟨early.nonneg, le, fun passed => ?_⟩
    -- something is left in the counter: after a request, or because no tick was given back
    have left : 0 < l.timeCounter := by
      rcases Nat.eq_zero_or_pos l.sent with none | some
      · rw [none] at total
        omega
      · exact early.pos some
    have account : ((l.sent : Int) : ℚ) * hb.period + l.timeCounter =
        (readings.getLastD first - first : Int) := by
      exact_mod_cast total
    exact eq_ceil_sub_one account (by exact_mod_cast left) (by exact_mod_cast le)

/-- A period of one second: the reading on the second boundary issues nothing, and
the next one a tick later does. -/
theorem arp_check_drift_free_boundary :
    ∃ l, HeartbeatRun (.zeroed #v[2, 0, 0, 0, 1, 1]) ⟨"192.168.1.21", none, 1⟩ 0
        [600000, 1200000, 2000000, 2000001] l ∧
      l.sent = 2 ∧ l.timeCounter = 1 ∧
        (l.sent : Int) = ⌈((2000001 - 0 : Int) : ℚ) / ((1 * clocksPerSec : Int) : ℚ)⌉ - 1 := by
  let plat : Platform := .zeroed #v[2, 0, 0, 0, 1, 1]
  let hb : Heartbeat := ⟨"192.168.1.21", none, 1⟩
  let readings : List Int := [600000, 1200000, 2000000, 2000001]
  have ends : (exec (hb.step plat) { lastTime := 0 } readings).any
      fun l => l.sent = 2 ∧ l.timeCounter = 1 := by decide
  have prompt : Meets (hb.step plat) hb.Prompt { lastTime := 0 } readings := by decide
  obtain ⟨l, run, sent, left⟩ := Run.of_any ends
  have positive : 0 < hb.heartbeatSec := by decide
  obtain ⟨-, -, -, bounded⟩ := arp_check_drift_free positive run
  exact ⟨l, run, sent, left, (bounded prompt).2.2 (by decide)⟩

end Rfsis.Node
