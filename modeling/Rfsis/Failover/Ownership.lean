import Rfsis.Failover.Detector

/-!
Who owns which address: the link table and the frames of the standby's stack.

A node links one address when it starts and never another; `spoof_IP`, which
would move the service address to the standby, is commented out. So what the
standby owns, and what it can be mistaken for, is decided by its configuration.

* `role_followed_iff` — the service address is linked exactly when the role says
  so only if the two addresses differ and no takeover happens.
* `own_traffic_ignored_iff` — the sniffer takes the frames of its own stack for
  the main's exactly when the linked address is the configured main address.
-/

namespace Rfsis.Failover

open Rfsis.Transition Rfsis.Pico Rfsis.Node

variable {plat : Platform} {config : ConfigJson} {s t : Standby} {es : List Event}

/-! ### The linked address -/

/-- The address the standby links when it starts. -/
def linkedAddress (plat : Platform) (config : ConfigJson) : Ip4 :=
  initAddress plat (ConfigParser.new config)

/-- Unicast packets to `a` are delivered locally: `a` is linked to the node's device. -/
def Owns (s : Standby) (a : Ip4) : Prop :=
  ∃ dev, s.conf.dev = some dev ∧ picoIpv4LinkFind s.stack.ipv4 a = some dev

theorem settled_links {dev : PicoDevice} (settled : Settled plat config s)
    (opened : plat.picoTapCreate config.tapDeviceName = some dev) :
    ∃ netmask, s.stack.ipv4.treeDevLink = [⟨linkedAddress plat config, netmask, dev⟩] :=
  settled.links opened

theorem picoIpv4LinkFind_single {ip : PicoIpv4} {own netmask a : Ip4} {dev : PicoDevice}
    (single : ip.treeDevLink = [⟨own, netmask, dev⟩]) :
    picoIpv4LinkFind ip a = if own = a then some dev else none := by
  unfold picoIpv4LinkFind findLink
  rw [single]
  by_cases same : own = a
  · simp [ipv4LinkMatches, same]
  · simp [ipv4LinkMatches, same]

/-- In every state the standby owns the address it linked at its start and no other. -/
theorem owns_iff (settled : Settled plat config s) {a : Ip4} :
    Owns s a ↔ plat.picoTapCreate config.tapDeviceName ≠ none ∧ linkedAddress plat config = a := by
  unfold Owns
  rw [settled.dev]
  cases opened : plat.picoTapCreate config.tapDeviceName with
  | none => simp
  | some dev =>
      obtain ⟨netmask, single⟩ := settled_links settled opened
      rw [picoIpv4LinkFind_single single]
      simp

/-! ### Ownership against the role -/

/-- The event is an iteration that executes the takeover branch. -/
def TakesOver (s : Standby) (e : Event) : Prop :=
  s.takesOver ∧ ∃ work, e.act = .iterate work

/-- `cloneFlag` is set exactly in the runs with an executed takeover branch. -/
theorem not_cloned_iff (run : StandbyRun plat config es t) :
    t.cloneFlag ≠ 1 ↔
      Meets (Standby.step plat) (fun s e => ¬TakesOver s e) (runPicoStack plat config) es := by
  constructor
  · refine Run.history (P := fun es t => t.cloneFlag ≠ 1 →
      Meets (Standby.step plat) (fun s e => ¬TakesOver s e) (runPicoStack plat config) es)
      (fun _ => trivial) ?_ run
    rintro es u ⟨now, act⟩ w before ih taken unset
    refine Meets.snoc_iff.mpr ⟨ih fun set => unset ((Later.of_step taken).cloneFlag set), ?_⟩
    rintro u' before' ⟨branch, work, rfl⟩
    rw [Run.unique before' before] at branch
    obtain ⟨-, effect⟩ := step_effect taken
    cases effect with
    | ticked _ stays => exact stays branch
    | tookOver => exact unset rfl
  · intro meets
    refine Meets.invariant (I := fun u => u.cloneFlag ≠ 1) ?_ ?_ meets run
    · intro set
      cases set
    · rintro u ⟨now, act⟩ w unset stays taken
      obtain ⟨-, effect⟩ := step_effect taken
      cases effect with
      | tookOver work dev opened branch => exact absurd ⟨branch, work, rfl⟩ stays
      | timedOut | ignored | counted | started | woken | checked | ticked => exact unset

/-- Without a device no iteration completes the takeover branch. -/
theorem without_device (missing : plat.picoTapCreate config.tapDeviceName = none)
    (run : StandbyRun plat config es t) : t.cloneFlag ≠ 1 := by
  refine Run.history (P := fun _ t => t.cloneFlag ≠ 1) (fun set => by cases set) ?_ run
  rintro es u ⟨now, act⟩ w before unset taken
  obtain ⟨-, effect⟩ := step_effect taken
  cases effect with
  | tookOver work dev opened =>
      rw [(StandbyRun.settled before).dev, missing] at opened
      cases opened
  | timedOut | ignored | counted | started | woken | checked | ticked => exact unset

/-- In every state along the run the node owns the service address exactly when
it has executed the takeover branch. -/
def RoleFollowed (plat : Platform) (config : ConfigJson) (es : List Event) : Prop :=
  ∀ main, picoStringToIpv4 config.ipv4Addr = some main →
    ∀ es₁ es₂ s, es = es₁ ++ es₂ → StandbyRun plat config es₁ s →
      (Owns s main ↔ s.cloneFlag = 1)

/-- **When the ownership of the service address follows the role.** Along a run
of a standby that has its device it does if and only if the two configured
addresses differ and the run never executes the takeover branch. -/
theorem role_followed_iff (backup : config.backup = true)
    (mainParses : (picoStringToIpv4 config.ipv4Addr).isSome)
    (ownParses : (picoStringToIpv4 config.backupAddr).isSome)
    (run : StandbyRun plat config es t) :
    RoleFollowed plat config es ↔ plat.picoTapCreate config.tapDeviceName = none ∨
      (picoStringToIpv4 config.backupAddr ≠ picoStringToIpv4 config.ipv4Addr ∧
        Meets (Standby.step plat) (fun s e => ¬TakesOver s e) (runPicoStack plat config) es) := by
  obtain ⟨main, mainParsed⟩ := Option.isSome_iff_exists.mp mainParses
  obtain ⟨own, ownParsed⟩ := Option.isSome_iff_exists.mp ownParses
  have linked : linkedAddress plat config = own := initAddress_backup backup ownParsed
  have owns : ∀ es₁ s, StandbyRun plat config es₁ s →
      (Owns s main ↔ plat.picoTapCreate config.tapDeviceName ≠ none ∧ own = main) := by
    intro es₁ s before
    rw [owns_iff (StandbyRun.settled before), linked]
  rw [← not_cloned_iff run, mainParsed, ownParsed]
  constructor
  · intro followed
    have followed := followed main mainParsed
    by_cases missing : plat.picoTapCreate config.tapDeviceName = none
    · exact Or.inl missing
    have atStart := followed [] es _ rfl rfl
    have differ : own ≠ main := by
      intro same
      have set := atStart.mp ((owns [] _ rfl).mpr ⟨missing, same⟩)
      cases set
    refine Or.inr ⟨fun same => differ (Option.some.inj same), fun set => ?_⟩
    have owned := (followed es [] t (List.append_nil es).symm run).mpr set
    exact differ ((owns es t run).mp owned).2
  · rintro condition _ parsed es₁ es₂ s rfl before
    cases mainParsed.symm.trans parsed
    have after := Run.suffix run before
    rw [owns es₁ s before]
    rcases condition with missing | ⟨differ, unset⟩
    · refine ⟨fun owned => absurd missing owned.1, fun set => ?_⟩
      exact absurd set (without_device missing before)
    · refine ⟨fun owned => absurd (congrArg some owned.2) differ, fun set => ?_⟩
      exact absurd ((Later.of_run after).cloneFlag set) unset

/-- With distinct addresses a run without takeover keeps ownership and role together: two
heartbeats are counted, and the timer of the first finds the second. -/
theorem role_followed_distinct :
    ∃ plat config es t, StandbyRun plat config es t ∧ t.sniffer.threadCount = 2 ∧
      t.sniffer.macFlag = 0 ∧ RoleFollowed plat config es := by
  let plat : Platform := .zeroed #v[2, 0, 0, 0, 0, 2]
  let config : ConfigJson := { configJson with ipv4Addr := "192.168.1.10" }
  let main := hostQuery (longFrom #v[192, 168, 1, 10]) (longFrom #v[192, 168, 1, 20])
  let es : List Event := [⟨0, .deliver main⟩, ⟨0, .timerStart 0⟩, ⟨1000000000, .deliver main⟩,
    ⟨1600000000, .timerWake 0⟩, ⟨1600000000, .timerCheck 0⟩, ⟨2000000000, .iterate []⟩]
  have ends : (exec (Standby.step plat) (runPicoStack plat config) es).any fun t =>
      t.cloneFlag ≠ 1 ∧ t.sniffer.threadCount = 2 ∧ t.sniffer.macFlag = 0 := by decide
  obtain ⟨t, run, unset, count, flag⟩ := Run.of_any ends
  refine ⟨plat, config, es, t, run, count, flag, ?_⟩
  exact (role_followed_iff rfl (by decide) (by decide) run).mpr
    (Or.inr ⟨by decide, (not_cloned_iff run).mp unset⟩)

/-- The repository's file gives both roles one address, so the standby owns the
service address from its start; with distinct addresses it never owns it, also
not after the takeover. -/
theorem role_not_followed :
    ∃ plat, ¬RoleFollowed plat configJson [] ∧
      ∃ es t, StandbyRun plat { configJson with ipv4Addr := "192.168.1.10" } es t ∧
        t.cloneFlag = 1 ∧
          picoIpv4LinkFind t.stack.ipv4 (longFrom #v[192, 168, 1, 10]) = none ∧
            ¬RoleFollowed plat { configJson with ipv4Addr := "192.168.1.10" } es := by
  let plat : Platform := .zeroed #v[2, 0, 0, 0, 0, 2]
  let config : ConfigJson := { configJson with ipv4Addr := "192.168.1.10" }
  let main := hostQuery (longFrom #v[192, 168, 1, 10]) (longFrom #v[192, 168, 1, 20])
  let es := loneHeartbeat main 1600000000 ++
    [⟨1700000000, .deliver main⟩, ⟨2000000000, .iterate []⟩]
  have ends : (exec (Standby.step plat) (runPicoStack plat config) es).any (fun t =>
      t.cloneFlag = 1 ∧ picoIpv4LinkFind t.stack.ipv4 (longFrom #v[192, 168, 1, 10]) = none) := by
    decide
  obtain ⟨t, run, cloned, unowned⟩ := Run.of_any ends
  have early : Owns (runPicoStack plat configJson) (longFrom #v[192, 168, 1, 20]) :=
    ⟨⟨"tap0", #v[2, 0, 0, 0, 0, 2]⟩, by decide, by decide⟩
  refine ⟨plat, fun followed => ?_, es, t, run, cloned, unowned, fun followed => ?_⟩
  · have set := (followed (longFrom #v[192, 168, 1, 20]) (by decide) [] [] _ rfl rfl).mp early
    cases set
  · obtain ⟨dev, -, found⟩ := (followed (longFrom #v[192, 168, 1, 10]) (by decide) es [] t
      (List.append_nil es).symm run).mpr cloned
    exact absurd (unowned.symm.trans found) (by simp)

/-! ### The frames of the standby's own stack -/

/-- Before the takeover every frame the stack has sent carries the linked address. -/
theorem sent_from_linked (run : StandbyRun plat config es s) (unset : s.cloneFlag ≠ 1)
    {f : PicoArpHdr} (sent : f ∈ s.stack.sent) :
    plat.picoTapCreate config.tapDeviceName ≠ none ∧ f.src = linkedAddress plat config := by
  refine Run.history (P := fun _ s => s.cloneFlag ≠ 1 → ∀ f ∈ s.stack.sent,
    plat.picoTapCreate config.tapDeviceName ≠ none ∧ f.src = linkedAddress plat config)
    ?_ ?_ run unset f sent
  · intro _ f sent
    have none : (initPicotcp plat (ConfigParser.new config) {}).2.sent = [] := by
      unfold initPicotcp
      split <;> rfl
    have sent : f ∈ (initPicotcp plat (ConfigParser.new config) {}).2.sent := sent
    rw [none] at sent
    cases sent
  · rintro es u ⟨now, act⟩ w before ih taken unset f sent
    have settled := StandbyRun.settled before
    obtain ⟨-, effect⟩ := step_effect taken
    cases effect with
    | ticked work =>
        have sent : f ∈ (u.ticked work).sent := sent
        unfold Standby.ticked at sent
        rw [settled.dev] at sent
        cases opened : plat.picoTapCreate config.tapDeviceName with
        | none =>
            rw [opened] at sent
            have old := (ih unset f sent).1
            exact absurd opened old
        | some dev =>
            rw [opened] at sent
            have linked : RoutesLinked u.stack.ipv4 := by
              rw [settled.tables]
              exact initPicotcp_routesLinked plat _
            rcases picoStackTick_sent linked sent with old | ⟨l, mem, src⟩
            · exact ⟨Option.some_ne_none dev, (ih unset f old).2⟩
            · obtain ⟨netmask, single⟩ := settled_links settled opened
              rw [single] at mem
              rw [List.mem_singleton.mp mem] at src
              exact ⟨Option.some_ne_none dev, src.symm⟩
    | tookOver => exact absurd rfl unset
    | timedOut | ignored | counted | started | woken | checked => exact ih unset f sent

/-- The sniffer never takes a frame of its own stack for a heartbeat: the record
of the main and the timers stay as they are when such a frame is delivered. -/
def OwnTrafficIgnored (plat : Platform) (config : ConfigJson) : Prop :=
  ∀ es s, StandbyRun plat config es s → ∀ f ∈ s.stack.sent, ∀ now t,
    s.step plat ⟨now, .deliver f⟩ = some t →
      t.sniffer.threadCount = s.sniffer.threadCount ∧ t.conf.hwaddress = s.conf.hwaddress ∧
        t.timers = s.timers

/-- A frame that is not counted starts no timer. -/
theorem deliver_uncounted_timers (settled : Settled plat config s) {now : Nat} {f : PicoArpHdr}
    (taken : s.step plat ⟨now, .deliver f⟩ = some t)
    (quiet : ¬Counts config s ⟨now, .deliver f⟩) : t.timers = s.timers := by
  obtain ⟨-, effect⟩ := step_effect taken
  cases effect with
  | timedOut | ignored => rfl
  | counted _ _ flag main => exact absurd ⟨flag, f, rfl, (settled.fromMain_iff f).mp main⟩ quiet

/-- A client's request for the linked address. -/
def clientRequest (own : Ip4) : PicoArpHdr :=
  picoArpRequestXmit ⟨"client", Vector.replicate 6 0⟩ 0 own .query

/-- The stack answers a client in its first tick, from the linked address. -/
theorem stack_answers {dev : PicoDevice} (backup : config.backup = true)
    (opened : plat.picoTapCreate config.tapDeviceName = some dev) :
    ∃ s, ∃ f ∈ s.stack.sent, StandbyRun plat config
        [⟨0, .iterate [.receive (clientRequest (linkedAddress plat config))]⟩] s ∧
      f.src = linkedAddress plat config ∧ s.sniffer = {} ∧ s.clock = 0 := by
  let own := linkedAddress plat config
  let start := runPicoStack plat config
  have settled := runPicoStack_settled plat config
  obtain ⟨netmask, single⟩ := settled_links settled opened
  have ours : picoIpv4LinkFind start.stack.ipv4 own = some dev := by
    rw [picoIpv4LinkFind_single single, if_pos rfl]
  have budget : start.stack.maxArpReqs ≠ 0 := by
    have full : (initPicotcp plat (ConfigParser.new config) {}).2.maxArpReqs = picoArpMaxRate := by
      unfold initPicotcp
      split <;> rfl
    have full : start.stack.maxArpReqs = picoArpMaxRate := full
    rw [full]
    decide
  have valid : picoArpCheckIncomingHdr (clientRequest own) = true := by
    simp [picoArpCheckIncomingHdr, clientRequest, picoArpRequestXmit]
  obtain ⟨f, sent, src⟩ := picoArpProcessIn_answers valid rfl ours budget
  have ticked : start.ticked [.receive (clientRequest own)] =
      picoArpProcessIn dev start.stack (clientRequest own) := by
    unfold Standby.ticked
    rw [settled.dev.trans opened]
    rfl
  have stays : ¬start.takesOver := fun branch => Bool.noConfusion (backup.symm.trans branch.1)
  have effect : Effect plat start 0 (.iterate [.receive (clientRequest own)]) _ := .ticked _ stays
  refine ⟨_, f, ?_, Run.cons_iff.mpr ⟨_, step_of_effect (Nat.le_refl 0) effect,
    Run.nil_iff.mpr rfl⟩, src, rfl, rfl⟩
  rw [ticked]
  exact sent

/-- **When the standby's own traffic is not taken for a life sign**: exactly when
the node has no device, or the address it links is not the one that the sniffer
takes for the main's. -/
theorem own_traffic_ignored_iff (backup : config.backup = true) :
    OwnTrafficIgnored plat config ↔ plat.picoTapCreate config.tapDeviceName = none ∨
      inetPton config.ipv4Addr ≠ some (linkedAddress plat config) := by
  constructor
  · intro ignored
    cases opened : plat.picoTapCreate config.tapDeviceName with
    | none => exact Or.inl rfl
    | some dev =>
        right
        intro same
        obtain ⟨s, f, sent, run, src, sniffer, clock⟩ := stack_answers backup opened
        have settled := StandbyRun.settled run
        have main : fromMain s.conf.toConfigJson f := by
          rw [settled.fromMain_iff, fromMain, same, src]
        have sniffing : s.sniffer.sniffing = true := by rw [sniffer]
        have flag : s.sniffer.macFlag ≠ 1 := by
          rw [sniffer]
          decide
        have effect : Effect plat s 0 (.deliver f) _ := .counted f sniffing flag main
        have taken := step_of_effect (Nat.le_of_eq clock) effect
        obtain ⟨-, -, timers⟩ := ignored _ s run f sent 0 _ taken
        exact absurd timers (by simp)
  · rintro condition es s run f sent now t taken
    have settled := StandbyRun.settled run
    have quiet : ¬Counts config s ⟨now, .deliver f⟩ := by
      rintro ⟨flag, f', same, main⟩
      cases same
      have roles := roles_of_run backup run
      have unset : s.cloneFlag ≠ 1 := by
        intro set
        have handed := roles.handedOver.symm.trans (roles.active set)
        exact flag (roles.cloned (by simpa using handed))
      obtain ⟨opened, src⟩ := sent_from_linked run unset sent
      rcases condition with missing | differ
      · exact opened missing
      · exact differ (main.trans (congrArg some src))
    obtain ⟨count, address⟩ := step_uncounted settled taken quiet
    exact ⟨count, address, deliver_uncounted_timers settled taken quiet⟩

/-- A standby with an address of its own keeps its traffic and the main's apart. -/
theorem own_traffic_ignored_distinct : OwnTrafficIgnored (.zeroed #v[2, 0, 0, 0, 0, 2])
    { configJson with ipv4Addr := "192.168.1.10" } :=
  (own_traffic_ignored_iff rfl).mpr (Or.inr (by decide))

/-- With the repository's file the sniffer counts the standby's answer to a client
as a heartbeat, stores the standby's own hardware address and starts a timer. -/
theorem own_traffic_counted :
    ∃ plat, ¬OwnTrafficIgnored plat configJson ∧
      ∃ es s, ∃ f ∈ s.stack.sent, ∃ t, StandbyRun plat configJson es s ∧
        s.step plat ⟨1, .deliver f⟩ = some t ∧ s.sniffer.threadCount = 0 ∧
          t.sniffer.threadCount = 1 ∧ t.conf.hwaddress = #v[2, 0, 0, 0, 0, 2] ∧
            t.timers.length = 1 := by
  let plat : Platform := .zeroed #v[2, 0, 0, 0, 0, 2]
  let es : List Event :=
    [⟨0, .iterate [.receive (clientRequest (longFrom #v[192, 168, 1, 20]))]⟩]
  have ends : (exec (Standby.step plat) (runPicoStack plat configJson) es).any (fun s =>
      s.sniffer.threadCount = 0 ∧ s.stack.sent.any fun f =>
        (s.step plat ⟨1, .deliver f⟩).any fun t => t.sniffer.threadCount = 1 ∧
          t.conf.hwaddress = #v[2, 0, 0, 0, 0, 2] ∧ t.timers.length = 1) := by decide
  obtain ⟨s, run, before, answer⟩ := Run.of_any ends
  obtain ⟨f, sent, counted⟩ := List.any_eq_true.mp answer
  obtain ⟨t, taken, after⟩ := (Option.any_eq_true _ _).mp counted
  obtain ⟨count, address, timer⟩ := of_decide_eq_true after
  refine ⟨plat, fun ignored => ?_, es, s, f, sent, t, run, taken, before, count, address, timer⟩
  have same := (ignored es s run f sent 1 t taken).1
  rw [count, before] at same
  cases same

end Rfsis.Failover
