import Rfsis.Node.Standby

/-!
The takeover of a node started as backup: one way, at most once, with the
sniffer's record of the main frozen from the timeout on.

* `Roles` ties the four flags and the calls of the takeover branch together, in
  every reachable state.
* `Later` is what may change between two states of one run: each flag only from
  unset to set, and once `macFlag` is set neither `threadCount` nor `hwaddress`.
* `LastCounted` finds the last counted heartbeat of a run; `takeover_lawful`
  puts the three together.
-/

namespace Rfsis.Failover

open Rfsis.Transition Rfsis.Pico Rfsis.Node

variable {plat : Platform} {config : ConfigJson} {s t : Standby} {es : List Event}

/-- The address the takeover branch announces. -/
def takeoverAddress (plat : Platform) (config : ConfigJson) : Ip4 :=
  parseInto (plat.indeterminate .takeoverIpaddr) config.ipv4Addr

/-! ### The flags and the calls -/

/-- How the flags of the sniffer, of `conf` and of the loop hang together. -/
structure Roles (plat : Platform) (config : ConfigJson) (s : Standby) : Prop where
  macFlag : s.sniffer.macFlag = 0 ∨ s.sniffer.macFlag = 1
  handedOver : s.conf.backup = !s.sniffer.macCloned
  cloned : s.sniffer.macCloned = true → s.sniffer.macFlag = 1
  cloneFlag : s.cloneFlag = 0 ∨ s.cloneFlag = 1
  active : s.cloneFlag = 1 → s.conf.backup = false
  calls : s.calls =
    if s.cloneFlag = 1 then [.program, .announce (takeoverAddress plat config)] else []

theorem runPicoStack_roles (backup : config.backup = true) :
    Roles plat config (runPicoStack plat config) where
  macFlag := Or.inl rfl
  handedOver := backup
  cloned := fun cloned => Bool.noConfusion cloned
  cloneFlag := Or.inl rfl
  active := fun set => absurd set (show ¬(0 : Int) = 1 by decide)
  calls := rfl

/-- Only the takeover branch touches `cloneFlag` and the calls, so a step that
leaves both, and keeps the relation between the other flags, keeps `Roles`. -/
theorem Roles.keep (roles : Roles plat config s)
    (macFlag : t.sniffer.macFlag = 0 ∨ t.sniffer.macFlag = 1)
    (handedOver : t.conf.backup = !t.sniffer.macCloned)
    (cloned : t.sniffer.macCloned = true → t.sniffer.macFlag = 1)
    (active : s.conf.backup = false → t.conf.backup = false)
    (sameFlag : t.cloneFlag = s.cloneFlag) (sameCalls : t.calls = s.calls) :
    Roles plat config t where
  macFlag := macFlag
  handedOver := handedOver
  cloned := cloned
  cloneFlag := sameFlag ▸ roles.cloneFlag
  active := fun set => active (roles.active (sameFlag ▸ set))
  calls := by rw [sameCalls, sameFlag, roles.calls]

theorem Roles.step (settled : Settled plat config s) (roles : Roles plat config s) {e : Event}
    (taken : s.step plat e = some t) : Roles plat config t := by
  obtain ⟨now, act⟩ := e
  obtain ⟨-, effect⟩ := step_effect taken
  cases effect with
  | timedOut arp sniffing flag =>
      have promoted := s.sniffer.promote_backup s.conf flag roles.handedOver
      have cloned := s.sniffer.promote_macCloned s.conf flag
      refine roles.keep (Or.inr ?_) ?_ (fun _ => ?_) (fun _ => promoted) rfl rfl
      · exact (s.sniffer.promote_macFlag s.conf).trans flag
      · show (s.sniffer.promote s.conf).1.backup = !(s.sniffer.promote s.conf).2.macCloned
        rw [promoted, cloned, Bool.not_true]
      · exact (s.sniffer.promote_macFlag s.conf).trans flag
  | counted arp sniffing flag main =>
      have kept : (s.sniffer.count s.conf arp).conf.backup = s.conf.backup := by
        rw [s.sniffer.count_conf s.conf arp]
      refine roles.keep ?_ ?_ ?_ kept.trans rfl rfl
      · rw [s.sniffer.count_macFlag]
        exact roles.macFlag
      · rw [kept, s.sniffer.count_macCloned]
        exact roles.handedOver
      · rw [s.sniffer.count_macFlag, s.sniffer.count_macCloned]
        exact roles.cloned
  | checked i thread here phase =>
      unfold ArpSniffer.timerCheck
      split
      · exact roles.keep (Or.inr rfl) roles.handedOver (fun _ => rfl) id rfl rfl
      · exact roles.keep roles.macFlag roles.handedOver roles.cloned id rfl rfl
  | tookOver work dev opened branch =>
      have none : s.calls = [] := by
        rw [roles.calls, branch.2]
        rfl
      refine ⟨roles.macFlag, ?_, roles.cloned, Or.inr rfl, fun _ => rfl, ?_⟩
      · exact branch.1.symm.trans roles.handedOver
      · show s.calls ++ _ = _
        rw [none, settled.ipv4Addr]
        rfl
  | ignored | started | woken | ticked =>
      exact roles.keep roles.macFlag roles.handedOver roles.cloned id rfl rfl

theorem roles_of_run (backup : config.backup = true) (run : StandbyRun plat config es s) :
    Roles plat config s := by
  refine (Run.invariant (I := fun u => Settled plat config u ∧ Roles plat config u)
    ⟨runPicoStack_settled plat config, runPicoStack_roles backup⟩ ?_ run).2
  rintro u e w ⟨settled, roles⟩ taken
  exact ⟨settled.step taken, roles.step settled taken⟩

/-! ### What may change later in a run -/

/-- `t` comes later than `s` in one run. -/
structure Later (s t : Standby) : Prop where
  macFlag : s.sniffer.macFlag = 1 → t.sniffer.macFlag = 1
  macCloned : s.sniffer.macCloned = true → t.sniffer.macCloned = true
  backup : s.conf.backup = false → t.conf.backup = false
  cloneFlag : s.cloneFlag = 1 → t.cloneFlag = 1
  frozen : s.sniffer.macFlag = 1 →
    t.sniffer.threadCount = s.sniffer.threadCount ∧ t.conf.hwaddress = s.conf.hwaddress

theorem Later.refl (s : Standby) : Later s s :=
  ⟨id, id, id, id, fun _ => ⟨rfl, rfl⟩⟩

theorem Later.trans {u : Standby} (first : Later s t) (second : Later t u) : Later s u where
  macFlag := second.macFlag ∘ first.macFlag
  macCloned := second.macCloned ∘ first.macCloned
  backup := second.backup ∘ first.backup
  cloneFlag := second.cloneFlag ∘ first.cloneFlag
  frozen := fun set => by
    obtain ⟨count, address⟩ := first.frozen set
    obtain ⟨count', address'⟩ := second.frozen (first.macFlag set)
    exact ⟨count'.trans count, address'.trans address⟩

theorem Later.of_step {e : Event} (taken : s.step plat e = some t) : Later s t := by
  obtain ⟨now, act⟩ := e
  obtain ⟨-, effect⟩ := step_effect taken
  cases effect with
  | timedOut arp sniffing flag =>
      refine ⟨fun _ => (s.sniffer.promote_macFlag s.conf).trans flag,
        fun _ => s.sniffer.promote_macCloned s.conf flag, fun set => ?_, id, fun _ => ⟨?_, ?_⟩⟩
      · show (s.sniffer.promote s.conf).1.backup = false
        unfold ArpSniffer.promote
        split
        · rfl
        · exact set
      · exact s.sniffer.promote_threadCount s.conf
      · show (s.sniffer.promote s.conf).1.hwaddress = s.conf.hwaddress
        rw [s.sniffer.promote_conf]
  | counted arp sniffing flag main =>
      refine ⟨fun set => absurd set flag, ?_, ?_, id, fun set => absurd set flag⟩
      · exact (s.sniffer.count_macCloned s.conf arp).trans
      · show s.conf.backup = false → (s.sniffer.count s.conf arp).conf.backup = false
        rw [s.sniffer.count_conf]
        exact id
  | checked i thread here phase =>
      unfold ArpSniffer.timerCheck
      split
      · exact ⟨fun _ => rfl, id, id, id, fun _ => ⟨rfl, rfl⟩⟩
      · exact ⟨id, id, id, id, fun _ => ⟨rfl, rfl⟩⟩
  | tookOver work dev opened branch =>
      exact ⟨id, id, fun _ => rfl, fun _ => rfl, fun _ => ⟨rfl, rfl⟩⟩
  | ignored | started | woken | ticked =>
      exact ⟨id, id, id, id, fun _ => ⟨rfl, rfl⟩⟩

theorem Later.of_run (run : Run (Standby.step plat) s es t) : Later s t :=
  Run.relates Later.refl (fun _ _ _ => Later.trans) (fun _ _ _ => Later.of_step) run

/-! ### The last counted heartbeat -/

/-- The callback counts this event as a life sign of the main. -/
def Counts (config : ConfigJson) (s : Standby) (e : Event) : Prop :=
  s.sniffer.macFlag ≠ 1 ∧ ∃ arp, e.act = .deliver arp ∧ fromMain config arp

/-- The last frame that the run counted is `arp`, and its callback left `v`. -/
def LastCounted (plat : Platform) (config : ConfigJson) (es : List Event) (arp : PicoArpHdr)
    (v : Standby) : Prop :=
  ∃ earlier now rest u, es = earlier ++ ⟨now, .deliver arp⟩ :: rest ∧
    StandbyRun plat config earlier u ∧ Counts config u ⟨now, .deliver arp⟩ ∧
    u.step plat ⟨now, .deliver arp⟩ = some v ∧
    Meets (Standby.step plat) (fun w e => ¬Counts config w e) v rest

theorem step_uncounted (settled : Settled plat config s) {e : Event}
    (taken : s.step plat e = some t) (quiet : ¬Counts config s e) :
    t.sniffer.threadCount = s.sniffer.threadCount ∧ t.conf.hwaddress = s.conf.hwaddress := by
  obtain ⟨now, act⟩ := e
  obtain ⟨-, effect⟩ := step_effect taken
  cases effect with
  | timedOut arp sniffing flag => exact (Later.of_step taken).frozen flag
  | counted arp sniffing flag main =>
      exact absurd ⟨flag, arp, rfl, (settled.fromMain_iff arp).mp main⟩ quiet
  | checked i thread here phase =>
      unfold ArpSniffer.timerCheck
      split <;> exact ⟨rfl, rfl⟩
  | ignored | started | woken | ticked | tookOver => exact ⟨rfl, rfl⟩

/-- What the callback leaves when it counts a frame. -/
theorem counts_effect (settled : Settled plat config s) {now : Nat} {arp : PicoArpHdr}
    (counts : Counts config s ⟨now, .deliver arp⟩)
    (taken : s.step plat ⟨now, .deliver arp⟩ = some t) :
    t = { s with
      conf := (s.sniffer.count s.conf arp).conf
      sniffer := (s.sniffer.count s.conf arp).sniffer
      timers := s.timers ++ [⟨incrInt s.sniffer.threadCount, now, .created⟩]
      clock := now } := by
  obtain ⟨flag, arp', same, main⟩ := counts
  cases same
  obtain ⟨-, effect⟩ := step_effect taken
  cases effect with
  | timedOut _ _ set => exact absurd set flag
  | ignored _ _ _ other => exact absurd ((settled.fromMain_iff arp).mpr main) other
  | counted => rfl

/-- A callback that counts a frame and does not throw stores the sender's hardware address. -/
theorem step_counted (settled : Settled plat config s) {now : Nat} {arp : PicoArpHdr}
    (counts : Counts config s ⟨now, .deliver arp⟩)
    (taken : s.step plat ⟨now, .deliver arp⟩ = some t)
    (accepted : (inetPton config.backupAddr).isSome) : t.conf.hwaddress = arp.sMac := by
  rw [counts_effect settled counts taken]
  exact s.sniffer.count_hwaddress s.conf arp (by rwa [settled.backupAddr])

theorem LastCounted.snoc {arp : PicoArpHdr} {v : Standby} (last : LastCounted plat config es arp v)
    (run : StandbyRun plat config es t) {e : Event} (quiet : ¬Counts config t e) :
    LastCounted plat config (es ++ [e]) arp v := by
  obtain ⟨earlier, now, rest, u, rfl, before, counts, taken, since⟩ := last
  refine ⟨earlier, now, rest ++ [e], u, by simp, before, counts, taken, ?_⟩
  refine Meets.snoc_iff.mpr ⟨since, fun w after => ?_⟩
  have whole : StandbyRun plat config (earlier ++ ⟨now, .deliver arp⟩ :: rest) w :=
    Run.append_iff.mpr ⟨u, before, Run.cons_iff.mpr ⟨v, taken, after⟩⟩
  exact Run.unique run whole ▸ quiet

/-- Until a frame is counted there is no timer thread; from then on the record of
the sniffer is what the last counted frame left. -/
theorem record_of_run (run : StandbyRun plat config es t) :
    (t.timers = [] ∧ t.sniffer.macFlag ≠ 1) ∨ ∃ arp v, LastCounted plat config es arp v ∧
      t.sniffer.threadCount = v.sniffer.threadCount ∧ t.conf.hwaddress = v.conf.hwaddress := by
  refine Run.history (P := fun es t => (t.timers = [] ∧ t.sniffer.macFlag ≠ 1) ∨
    ∃ arp v, LastCounted plat config es arp v ∧ t.sniffer.threadCount = v.sniffer.threadCount ∧
      t.conf.hwaddress = v.conf.hwaddress) (Or.inl ⟨rfl, (by decide : ¬(0 : Int) = 1)⟩) ?_ run
  intro es u e w before ih taken
  have settled := StandbyRun.settled before
  by_cases counts : Counts config u e
  · right
    obtain ⟨now, act⟩ := e
    obtain ⟨flag, arp, rfl, main⟩ := counts
    exact ⟨arp, w, ⟨es, now, [], u, rfl, before, ⟨flag, arp, rfl, main⟩, taken, trivial⟩, rfl, rfl⟩
  · rcases ih with ⟨none, flag⟩ | ⟨arp, v, last, count, address⟩
    · left
      obtain ⟨now, act⟩ := e
      obtain ⟨-, effect⟩ := step_effect taken
      cases effect with
      | timedOut _ _ set => exact absurd set flag
      | counted arp sniffing _ main =>
          exact absurd ⟨flag, arp, rfl, (settled.fromMain_iff arp).mp main⟩ counts
      | started i thread here | woken i thread _ here | checked i thread here =>
          rw [none] at here
          cases here
      | ignored | ticked | tookOver => exact ⟨none, flag⟩
    · right
      obtain ⟨count', address'⟩ := step_uncounted settled taken counts
      exact ⟨arp, v, last.snoc before counts, count'.trans count, address'.trans address⟩

/-! ### The law of the takeover -/

/-- What every run of a node started as backup obeys in its last state `t`. -/
structure TakeoverLaw (plat : Platform) (config : ConfigJson) (es : List Event) (t : Standby) :
    Prop where
  /-- The flags only change one way, and the record is frozen with `macFlag`. -/
  oneWay : ∀ es₁ es₂ s, es = es₁ ++ es₂ → StandbyRun plat config es₁ s → Later s t
  /-- The flags imply one another, and `calls` holds one start of the application
  and one announcement when `cloneFlag` is set, and nothing before. -/
  roles : Roles plat config t
  /-- The record kept since the step that set `macFlag` is the one that the last
  heartbeat counted before that step left. -/
  record : ∀ es₁ e es₂ s u, es = es₁ ++ e :: es₂ → StandbyRun plat config es₁ s →
    s.step plat e = some u → s.sniffer.macFlag = 0 → u.sniffer.macFlag = 1 →
    ∃ arp v, LastCounted plat config es₁ arp v ∧
      t.sniffer.threadCount = v.sniffer.threadCount ∧ t.conf.hwaddress = v.conf.hwaddress ∧
      ((inetPton config.backupAddr).isSome → t.conf.hwaddress = arp.sMac)

/-- **The takeover is one-way and happens at most once**, and it freezes the
sniffer's record of the main at the last heartbeat counted. -/
theorem takeover_lawful (backup : config.backup = true) (run : StandbyRun plat config es t) :
    TakeoverLaw plat config es t where
  oneWay := by
    rintro es₁ es₂ s rfl before
    exact Later.of_run (Run.suffix run before)
  roles := roles_of_run backup run
  record := by
    rintro es₁ e es₂ s u rfl before taken unset set
    have after := Run.tail (Run.suffix run before) taken
    -- The step that sets `macFlag` is the test of a timer, so a timer exists before it.
    have quiet : ¬Counts config s e ∧ s.timers ≠ [] := by
      obtain ⟨now, act⟩ := e
      obtain ⟨-, effect⟩ := step_effect taken
      cases effect with
      | checked i thread here phase =>
          refine ⟨fun counts => ?_, fun none => ?_⟩
          · obtain ⟨-, arp, other, -⟩ := counts
            cases other
          · rw [none] at here
            cases here
      | timedOut arp sniffing flag => exact absurd (unset.symm.trans flag) (by decide)
      | counted arp sniffing flag main =>
          rw [s.sniffer.count_macFlag] at set
          exact absurd set flag
      | ignored _ _ flag => exact absurd set flag
      | started | woken | ticked | tookOver => exact absurd (unset.symm.trans set) (by decide)
    obtain ⟨count', address'⟩ := step_uncounted (StandbyRun.settled before) taken quiet.1
    obtain ⟨count, address⟩ := (Later.of_run after).frozen set
    rcases record_of_run before with ⟨none, -⟩ | ⟨arp, v, last, counted, kept⟩
    · exact absurd none quiet.2
    · have stored := address.trans (address'.trans kept)
      refine ⟨arp, v, last, count.trans (count'.trans counted), stored, fun accepted => ?_⟩
      obtain ⟨earlier, now, rest, w, -, earlierRun, counts, step, -⟩ := last
      exact stored.trans (step_counted (StandbyRun.settled earlierRun) counts step accepted)

/-- A run in which a heartbeat is counted, its timer fires and the node takes over. -/
theorem takeover_lawful_handover :
    ∃ plat config es t, StandbyRun plat config es t ∧ t.cloneFlag = 1 ∧
      t.sniffer.threadCount = 1 ∧ TakeoverLaw plat config es t := by
  let arp := hostQuery (longFrom #v[192, 168, 1, 20]) (longFrom #v[192, 168, 1, 20])
  let es : List Event := [⟨1, .deliver arp⟩, ⟨2, .timerStart 0⟩, ⟨1600000000, .timerWake 0⟩,
    ⟨1600000001, .timerCheck 0⟩, ⟨1700000000, .deliver arp⟩, ⟨2000000000, .iterate []⟩]
  have ends : (exec (Standby.step (.zeroed #v[2, 0, 0, 0, 0, 2]))
      (runPicoStack (.zeroed #v[2, 0, 0, 0, 0, 2]) configJson) es).any
        (fun t => t.cloneFlag = 1 ∧ t.sniffer.threadCount = 1) := by decide
  obtain ⟨t, run, clone, count⟩ := Run.of_any ends
  exact ⟨_, configJson, es, t, run, clone, count, takeover_lawful rfl run⟩

end Rfsis.Failover
