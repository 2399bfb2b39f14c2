import Rfsis.Failover.Takeover
import Rfsis.Node.Heartbeat
import Rfsis.Sync.Delivery

/-!
Which addresses the program passes on when a configured string cannot be parsed.

`pico_string_to_ipv4` answers -1 and writes nothing when it rejects a string. No
caller looks at the answer: `init_picotcp`, `Heartbeat::arp_check` and the takeover
branch then pass on a variable that was never set, and `serv_start` passes on
0.0.0.0. `addresses_parsed_iff` says for which configurations this happens in some
run. The string of the takeover is not among its conditions, because the branch is
reached only after libtins has accepted that string (`takesOver_parsed`).

A main is one process here: the threads of `serv_start` and `arp_check` beside the
loop of the stack. Its log `calls` keeps every call that takes an address from
the configuration.
-/

namespace Rfsis.Sync

open Rfsis.Transition Rfsis.Pico Rfsis.Node Rfsis.Failover

/-- A call with addresses: of `pico_ipv4_link_add`, `pico_arp_request` or
`pico_socket_sendto`. -/
inductive AddressCall where
  | linkAdd (address netmask : Ip4)
  | arpRequest (dst : Ip4) (type : PicoArpType)
  | sendto (dst : Ip4)
deriving DecidableEq, Repr

/-- The call of `pico_ipv4_link_add` in `init_picotcp`, if there is a device. -/
def initCalls (plat : Platform) (conf : ConfigParser) : List AddressCall :=
  match plat.picoTapCreate conf.tapDeviceName with
  | none => []
  | some _ =>
      [.linkAdd (initAddress plat conf) (parseInto (plat.indeterminate .initNetmask) conf.netmask)]

/-- The process of a main. `beat` holds the variables of the heartbeat thread,
`heartbeats` the frames that it has sent, `datagrams` what `serv_start` has sent. -/
structure MainProcess where
  node : MainNode
  app : UdpApp := {}
  servRan : Bool := false
  beat : Option ArpCheck := none
  calls : List AddressCall
  heartbeats : List PicoArpHdr := []
  datagrams : List UdpDatagram := []
deriving DecidableEq, Repr

/-- What a thread of a main does: `program`, a tick of the stack, `serv_start`, the
first reading of `arp_check` and an iteration of its loop. -/
inductive MainAction where
  | program (rand : UInt32)
  | tick (work : List StackWork)
  | servStart (rand : UInt32)
  | beatStart (now : Int)
  | beatLoop (now : Int)
deriving DecidableEq, Repr

/-- `runPicoStack` up to the call of `program`. -/
def MainProcess.start (plat : Platform) (config : ConfigJson) : MainProcess where
  node := runPicoStackMain plat config
  calls := initCalls plat (ConfigParser.new config)

/-- An iteration of the heartbeat thread, with the request that it may issue. -/
def MainProcess.beatLoop (plat : Platform) (m : MainProcess) (now : Int) : Option MainProcess :=
  m.beat.bind fun l => ((Heartbeat.new m.node.conf).step plat l now).map fun l' =>
    let dsts := l'.requests.drop l.requests.length
    let frames := dsts.flatMap fun dst =>
      (m.node.conf.dev.bind fun dev =>
        picoArpRequest dev m.node.stack.ipv4 dst .query).toList
    { m with
      node := { m.node with stack := { m.node.stack with sent := m.node.stack.sent ++ frames } }
      beat := some l'
      calls := m.calls ++ dsts.map fun dst => .arpRequest dst .query
      heartbeats := m.heartbeats ++ frames }

/-- One step of a main. -/
def MainProcess.step (plat : Platform) (m : MainProcess) : MainAction → Option MainProcess
  | .program rand =>
      if m.node.phase = .started then
        (m.app.udpechoStart m.node.stack.ipv4 m.node.conf rand).map fun app =>
          { m with node := { m.node with phase := .active }, app := app }
      else none
  | .tick work =>
      if m.node.phase = .active then some { m with node := m.node.tick work } else none
  | .servStart rand =>
      if m.node.phase = .active ∧ m.servRan = false then
        let (app, sent) := m.app.servStart m.node.stack.ipv4 m.node.conf rand
        some { m with
          app := app
          servRan := true
          calls := m.calls ++ [.sendto (parseInto 0 m.node.conf.backupAddr)]
          datagrams := m.datagrams ++ sent.toList }
      else none
  | .beatStart now =>
      if m.node.phase = .active ∧ m.beat = none then
        some { m with beat := some { lastTime := now } }
      else none
  | .beatLoop now => m.beatLoop plat now

/-- The runs of a main. -/
abbrev MainRun (plat : Platform) (config : ConfigJson) (acts : List MainAction)
    (m : MainProcess) : Prop :=
  Run (MainProcess.step plat) (.start plat config) acts m

/-- The log of a standby: its start, and what its takeover branch announces. -/
def standbyCalls (plat : Platform) (config : ConfigJson) (s : Standby) : List AddressCall :=
  initCalls plat (ConfigParser.new config) ++ s.calls.filterMap fun
    | .program => none
    | .announce dst => some (.arpRequest dst .announce)

/-- The string of the node's own address, by its role. -/
def ownAddr (config : ConfigJson) : String :=
  if config.backup then config.backupAddr else config.ipv4Addr

/-- Every address of the call is what `pico_string_to_ipv4` made of the string that
the call is meant for. -/
def AddressCall.Parsed (config : ConfigJson) : AddressCall → Prop
  | .linkAdd address netmask =>
      picoStringToIpv4 (ownAddr config) = some address ∧
        picoStringToIpv4 config.netmask = some netmask
  | .arpRequest dst .announce => picoStringToIpv4 config.ipv4Addr = some dst
  | .arpRequest dst .query => picoStringToIpv4 config.backupAddr = some dst
  | .arpRequest _ .probe => False
  | .sendto dst => picoStringToIpv4 config.backupAddr = some dst

/-- What a node has made of its addresses so far: its calls, its tables, and what
the calls outside `init_picotcp` and the takeover have sent. -/
structure AddressUse where
  calls : List AddressCall
  ipv4 : PicoIpv4
  heartbeats : List PicoArpHdr := []
  datagrams : List UdpDatagram := []
deriving DecidableEq, Repr

/-- Only parsed addresses are passed on, and where a string is rejected, neither
the tables nor the traffic are touched. -/
structure AddressUse.Respects (config : ConfigJson) (use : AddressUse) : Prop where
  parsed : ∀ call ∈ use.calls, call.Parsed config
  tables : picoStringToIpv4 (ownAddr config) = none ∨ picoStringToIpv4 config.netmask = none →
    use.ipv4 = {}
  traffic : picoStringToIpv4 config.backupAddr = none → use.heartbeats = [] ∧ use.datagrams = []

/-- The use of a standby. -/
def standbyUse (plat : Platform) (config : ConfigJson) (s : Standby) : AddressUse where
  calls := standbyCalls plat config s
  ipv4 := s.stack.ipv4

/-- The use of a main. -/
def MainProcess.use (m : MainProcess) : AddressUse where
  calls := m.calls
  ipv4 := m.node.stack.ipv4
  heartbeats := m.heartbeats
  datagrams := m.datagrams

/-- A node with this configuration passes on parsed addresses only, in every run of its role. -/
def OnlyParsed (plat : Platform) (config : ConfigJson) : Prop :=
  if config.backup then
    ∀ es s, StandbyRun plat config es s → (standbyUse plat config s).Respects config
  else ∀ acts m, MainRun plat config acts m → m.use.Respects config

/-- The strings parse that decide it: for the link those of the own address and the
netmask, if there is a device to link; on a main also that of the backup. -/
def AddressesParse (plat : Platform) (config : ConfigJson) : Prop :=
  ((plat.picoTapCreate config.tapDeviceName).isSome →
      (picoStringToIpv4 (ownAddr config)).isSome ∧ (picoStringToIpv4 config.netmask).isSome) ∧
    (config.backup = false → (picoStringToIpv4 config.backupAddr).isSome)

instance (plat : Platform) (config : ConfigJson) : Decidable (AddressesParse plat config) :=
  inferInstanceAs (Decidable ((_ → _) ∧ (_ → _)))

variable {plat : Platform} {config : ConfigJson} {s : Standby} {m m' : MainProcess}
  {es : List Event} {acts : List MainAction} {call : AddressCall}

/-! ### `init_picotcp` -/

theorem initAddress_eq (plat : Platform) (config : ConfigJson) :
    initAddress plat (ConfigParser.new config) =
      parseInto (plat.indeterminate .initIpaddr) (ownAddr config) := by
  unfold initAddress ownAddr
  show (if config.backup then _ else _) = _
  split <;> rfl

/-- A variable that the parser has written holds what it has parsed. -/
theorem parseInto_parsed {before : Ip4} {str : String} (parses : (picoStringToIpv4 str).isSome) :
    picoStringToIpv4 str = some (parseInto before str) := by
  obtain ⟨a, parsed⟩ := Option.isSome_iff_exists.mp parses
  rw [parseInto_of_some parsed, parsed]

theorem initCalls_parsed (parse : AddressesParse plat config)
    (mem : call ∈ initCalls plat (ConfigParser.new config)) : call.Parsed config := by
  unfold initCalls at mem
  split at mem
  · cases mem
  · rename_i dev opened
    rw [List.mem_singleton] at mem
    subst mem
    have device : (plat.picoTapCreate config.tapDeviceName).isSome :=
      Option.isSome_iff_exists.mpr ⟨dev, opened⟩
    obtain ⟨own, netmask⟩ := parse.1 device
    rw [AddressCall.Parsed, initAddress_eq]
    exact ⟨parseInto_parsed own, parseInto_parsed netmask⟩

/-- The logged call is the one that leaves its link in the table. -/
theorem mem_initCalls_iff (plat : Platform) (conf : ConfigParser) {address netmask : Ip4} :
    .linkAdd address netmask ∈ initCalls plat conf ↔
      ∃ dev, (initPicotcp plat conf {}).2.ipv4.treeDevLink = [⟨address, netmask, dev⟩] := by
  unfold initCalls
  split
  · rename_i missing
    simp [initPicotcp_unlinked missing]
  · rename_i dev opened
    simp [initPicotcp_linked opened, eq_comm]

/-- The link is added whether or not the strings parse. -/
theorem parses_of_initCalls
    (parsed : ∀ call ∈ initCalls plat (ConfigParser.new config), call.Parsed config)
    (device : (plat.picoTapCreate config.tapDeviceName).isSome) :
    (picoStringToIpv4 (ownAddr config)).isSome ∧ (picoStringToIpv4 config.netmask).isSome := by
  obtain ⟨dev, opened⟩ := Option.isSome_iff_exists.mp device
  have opened : plat.picoTapCreate (ConfigParser.new config).tapDeviceName = some dev := opened
  rw [initCalls, opened] at parsed
  obtain ⟨own, netmask⟩ := parsed _ (List.mem_singleton_self _)
  rw [own, netmask]
  exact ⟨rfl, rfl⟩

/-- If a string of the link is rejected, a configuration that passes has no device. -/
theorem AddressesParse.tables (parse : AddressesParse plat config)
    (rejected : picoStringToIpv4 (ownAddr config) = none ∨
      picoStringToIpv4 config.netmask = none) :
    (initPicotcp plat (ConfigParser.new config) {}).2.ipv4 = {} := by
  cases opened : plat.picoTapCreate config.tapDeviceName with
  | none => rw [initPicotcp_unlinked opened]
  | some dev =>
      obtain ⟨own, netmask⟩ := parse.1 (by rw [opened]; rfl)
      rcases rejected with none | none
      · rw [none] at own
        cases own
      · rw [none] at netmask
        cases netmask

/-! ### The takeover branch -/

/-- A takeover is preceded by a heartbeat that the sniffer has counted, and for that
libtins has accepted `ipv4_addr`. -/
theorem takesOver_parsed (backup : config.backup = true) (run : StandbyRun plat config es s)
    (promoted : s.conf.backup = false) : ∃ a, inetPton config.ipv4Addr = some a := by
  have roles := roles_of_run backup run
  have cloned : s.sniffer.macCloned = true := by
    have handedOver := roles.handedOver
    rw [promoted] at handedOver
    simpa using handedOver
  rcases record_of_run run with ⟨-, flag⟩ | ⟨arp, v, last, -⟩
  · exact absurd (roles.cloned cloned) flag
  · obtain ⟨_, _, _, _, -, -, ⟨-, arp, -, main⟩, -⟩ := last
    exact ⟨arp.src, main⟩

theorem standbyCalls_parsed (backup : config.backup = true) (parse : AddressesParse plat config)
    (run : StandbyRun plat config es s) (mem : call ∈ standbyCalls plat config s) :
    call.Parsed config := by
  rcases List.mem_append.mp mem with init | later
  · exact initCalls_parsed parse init
  · have roles := roles_of_run backup run
    rw [roles.calls] at later
    split at later
    · rename_i cloned
      obtain ⟨a, accepted⟩ := takesOver_parsed backup run (roles.active cloned)
      have parsed := picoStringToIpv4_of_inetPton accepted
      have same : call = .arpRequest (takeoverAddress plat config) .announce := by
        simpa using later
      rw [same, takeoverAddress, parseInto_of_some parsed]
      exact parsed
    · cases later

theorem standbyUse_respects (backup : config.backup = true) (parse : AddressesParse plat config)
    (run : StandbyRun plat config es s) : (standbyUse plat config s).Respects config where
  parsed := fun _ mem => standbyCalls_parsed backup parse run mem
  tables := fun rejected => (StandbyRun.settled run).tables.trans (parse.tables rejected)
  traffic := fun _ => ⟨rfl, rfl⟩

/-! ### The threads of a main -/

/-- What holds of a main in every state, as far as its addresses go. Whatever its
threads have sent is the outcome of a logged call. -/
structure MainProcess.Sound (plat : Platform) (config : ConfigJson) (m : MainProcess) : Prop where
  node : m.node.Settled plat config
  calls : ∀ call ∈ m.calls, call ∈ initCalls plat (ConfigParser.new config) ∨
    call = .sendto (parseInto 0 config.backupAddr) ∨
      call = .arpRequest (parseInto (plat.indeterminate .heartbeatIp) config.backupAddr) .query
  heartbeats : ∀ f ∈ m.heartbeats, .arpRequest f.dst .query ∈ m.calls
  datagrams : ∀ f ∈ m.datagrams, .sendto f.dst ∈ m.calls

theorem MainProcess.start_sound : (MainProcess.start plat config).Sound plat config where
  node := ⟨rfl, rfl⟩
  calls := fun _ mem => Or.inl mem
  heartbeats := fun _ mem => by cases mem
  datagrams := fun _ mem => by cases mem

theorem MainProcess.Sound.backupAddr (sound : m.Sound plat config) :
    m.node.conf.backupAddr = config.backupAddr := by
  rw [sound.node.conf]
  rfl

/-- What an iteration of the heartbeat thread adds to the log. -/
theorem MainProcess.Sound.beatCall (sound : m.Sound plat config) {now : Int} {l l' : ArpCheck}
    (looped : (Heartbeat.new m.node.conf).step plat l now = some l') {dst : Ip4}
    (issued : dst ∈ l'.requests.drop l.requests.length) :
    dst = parseInto (plat.indeterminate .heartbeatIp) config.backupAddr := by
  obtain ⟨-, rfl⟩ := Heartbeat.step_iff.mp looped
  rcases (Heartbeat.new m.node.conf).iterate_requests plat l now with same | one
  · rw [same, List.drop_length] at issued
    cases issued
  · have addr : (Heartbeat.new m.node.conf).mainIp = config.backupAddr := sound.backupAddr
    rw [one, List.drop_left, List.mem_singleton, addr] at issued
    exact issued

theorem MainProcess.Sound.beatLoop (sound : m.Sound plat config) {now : Int}
    (taken : m.beatLoop plat now = some m') : m'.Sound plat config := by
  simp only [MainProcess.beatLoop, Option.bind_eq_some_iff, Option.map_eq_some_iff] at taken
  obtain ⟨l, -, l', looped, rfl⟩ := taken
  refine ⟨⟨sound.node.conf, sound.node.tables⟩, fun call mem => ?_, fun f mem => ?_,
    fun f mem => List.mem_append_left _ (sound.datagrams f mem)⟩
  · rcases List.mem_append.mp mem with old | new
    · exact sound.calls call old
    · obtain ⟨dst, issued, rfl⟩ := List.mem_map.mp new
      rw [sound.beatCall looped issued]
      exact Or.inr (Or.inr rfl)
  · rcases List.mem_append.mp mem with old | new
    · exact List.mem_append_left _ (sound.heartbeats f old)
    · obtain ⟨dst, issued, frame⟩ := List.mem_flatMap.mp new
      obtain ⟨dev, -, request⟩ := Option.bind_eq_some_iff.mp (Option.mem_toList.mp frame)
      refine List.mem_append_right _ (List.mem_map.mpr ⟨dst, issued, ?_⟩)
      rw [picoArpRequest_dst request]

theorem MainProcess.Sound.step (sound : m.Sound plat config) {act : MainAction}
    (taken : m.step plat act = some m') : m'.Sound plat config := by
  cases act with
  | program rand =>
      simp only [MainProcess.step, Option.ite_none_right_eq_some, Option.map_eq_some_iff] at taken
      obtain ⟨-, app, -, rfl⟩ := taken
      exact { sound with node := ⟨sound.node.conf, sound.node.tables⟩ }
  | tick work =>
      simp only [MainProcess.step, Option.ite_none_right_eq_some, Option.some.injEq] at taken
      obtain ⟨-, rfl⟩ := taken
      exact { sound with node := sound.node.tick work }
  | servStart rand =>
      simp only [MainProcess.step, Option.ite_none_right_eq_some, Option.some.injEq] at taken
      obtain ⟨-, rfl⟩ := taken
      refine ⟨sound.node, fun call mem => ?_,
        fun f mem => List.mem_append_left _ (sound.heartbeats f mem), fun f mem => ?_⟩
      · rcases List.mem_append.mp mem with old | new
        · exact sound.calls call old
        · rw [List.mem_singleton.mp new, sound.backupAddr]
          exact Or.inr (Or.inl rfl)
      · rcases List.mem_append.mp mem with old | new
        · exact List.mem_append_left _ (sound.datagrams f old)
        · obtain ⟨dst, -⟩ := servStart_sent (Option.mem_toList.mp new)
          rw [dst]
          exact List.mem_append_right _ (List.mem_singleton_self _)
  | beatStart now =>
      simp only [MainProcess.step, Option.ite_none_right_eq_some, Option.some.injEq] at taken
      obtain ⟨-, rfl⟩ := taken
      exact { sound with }
  | beatLoop now => exact sound.beatLoop taken

theorem MainRun.sound (run : MainRun plat config acts m) : m.Sound plat config :=
  Run.invariant MainProcess.start_sound (fun _ _ _ before taken => before.step taken) run

theorem MainProcess.Sound.parsed (sound : m.Sound plat config) (role : config.backup = false)
    (parse : AddressesParse plat config) (mem : call ∈ m.calls) : call.Parsed config := by
  rcases sound.calls call mem with init | rfl | rfl
  · exact initCalls_parsed parse init
  · exact parseInto_parsed (parse.2 role)
  · exact parseInto_parsed (parse.2 role)

theorem MainRun.respects (role : config.backup = false) (parse : AddressesParse plat config)
    (run : MainRun plat config acts m) : m.use.Respects config where
  parsed := fun _ mem => (MainRun.sound run).parsed role parse mem
  tables := fun rejected => (MainRun.sound run).node.tables.trans (parse.tables rejected)
  traffic := fun rejected => by
    have accepted := parse.2 role
    rw [rejected] at accepted
    cases accepted

/-- The application always gets its port on a node that has just started. -/
theorem udpechoStart_fresh (ip : PicoIpv4) (conf : ConfigParser) :
    ∃ app, UdpApp.udpechoStart {} ip conf 0 = some app := by
  have bound (port : UInt16) :
      (picoSocketBind ip (picoSocketOpen {} Wakeup.cbUdpecho).2
        (picoSocketOpen {} Wakeup.cbUdpecho).1 picoIp4Any port 0).1 = 0 := by
    have high : picoSocketHighPort 0 ≠ 0 := by decide
    by_cases unset : port = 0 <;>
      simp [picoSocketBind, picoSocketOpen, picoIsPortFree, picoGetSockport, picoSocketAdd,
        PicoUdp.update, unset, high]
  unfold UdpApp.udpechoStart
  dsimp only
  rw [if_neg (not_not.mpr (bound _))]
  exact ⟨_, rfl⟩

/-- `serv_start` is reached on every main, whatever the backup's string is. -/
theorem servStart_reached (plat : Platform) (config : ConfigJson) :
    ∃ acts m, MainRun plat config acts m ∧
      .sendto (parseInto 0 config.backupAddr) ∈ m.calls := by
  let m := MainProcess.start plat config
  obtain ⟨app, started⟩ := udpechoStart_fresh m.node.stack.ipv4 m.node.conf
  let active : MainProcess := { m with node := { m.node with phase := .active }, app := app }
  have first : m.step plat (.program 0) = some active := by
    show (UdpApp.udpechoStart {} m.node.stack.ipv4 m.node.conf 0).map _ = _
    rw [started]
    rfl
  have second : ∃ m', active.step plat (.servStart 0) = some m' ∧
      .sendto (parseInto 0 config.backupAddr) ∈ m'.calls :=
    ⟨_, rfl, List.mem_append_right _ (List.mem_singleton_self _)⟩
  obtain ⟨m', taken, mem⟩ := second
  refine ⟨[.program 0, .servStart 0], m', ?_, mem⟩
  exact Run.cons_iff.mpr ⟨active, first, Run.cons_iff.mpr ⟨m', taken, Run.nil_iff.mpr rfl⟩⟩

/-- **Which configurations use parsed addresses only.** -/
theorem addresses_parsed_iff (plat : Platform) (config : ConfigJson) :
    OnlyParsed plat config ↔ AddressesParse plat config := by
  unfold OnlyParsed
  constructor
  · intro only
    split at only
    · rename_i backup
      have start := only [] _ (Run.nil_iff.mpr rfl)
      refine ⟨parses_of_initCalls fun call mem => ?_, fun main => ?_⟩
      · exact start.parsed call (List.mem_append_left _ mem)
      · rw [backup] at main
        cases main
    · have start := only [] _ (Run.nil_iff.mpr rfl)
      refine ⟨parses_of_initCalls start.parsed, fun _ => ?_⟩
      obtain ⟨acts, m, run, mem⟩ := servStart_reached plat config
      have parsed : picoStringToIpv4 config.backupAddr = some _ := (only acts m run).parsed _ mem
      rw [parsed]
      rfl
  · intro parse
    split
    · rename_i backup
      exact fun es s run => standbyUse_respects backup parse run
    · rename_i main
      exact fun acts m run => MainRun.respects (Bool.eq_false_iff.mpr main) parse run

example : AddressesParse (.zeroed #v[2, 0, 0, 0, 1, 1]) configJson := by decide

/-- A platform whose call stack holds 192.168.1.77. -/
def strayPlatform : Platform :=
  { (twoNodes 8080).mainPlat with indeterminate := fun _ => parseInto 0 "192.168.1.77" }

/-- A main whose file gives the name of its backup in place of the address. -/
def namedBackup : ConfigJson :=
  { configJson with backup := false, backupAddr := "backup" }

/-- The rejected string is not noticed: the heartbeat asks for whatever address the
call stack held. -/
theorem addresses_unparsed :
    ∃ acts m, MainRun strayPlatform namedBackup acts m ∧
      picoStringToIpv4 namedBackup.backupAddr = none ∧
      m.calls.getLast? = some (.arpRequest (parseInto 0 "192.168.1.77") .query) ∧
      m.heartbeats.length = 1 ∧ ¬OnlyParsed strayPlatform namedBackup := by
  let acts : List MainAction := [.program 0, .servStart 0, .beatStart 0, .beatLoop 1000001]
  have ends : (exec (MainProcess.step strayPlatform) (.start strayPlatform namedBackup) acts).any
      fun m => m.calls.getLast? = some (.arpRequest (parseInto 0 "192.168.1.77") .query) ∧
        m.heartbeats.length = 1 := by decide
  have rejected : picoStringToIpv4 namedBackup.backupAddr = none := by decide
  obtain ⟨m, run, last, sent⟩ := Run.of_any ends
  refine ⟨acts, m, run, rejected, last, sent, fun only => ?_⟩
  have quiet : m.heartbeats = [] := ((only acts m run).traffic rejected).1
  rw [quiet] at sent
  cases sent

end Rfsis.Sync
