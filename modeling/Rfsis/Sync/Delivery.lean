import Rfsis.Pico.Udp
import Rfsis.Node.Standby
import Rfsis.Node.Main

/-!
The synchronisation message from the main to the standby.

The two nodes run side by side and a datagram travels over a network that loses
and alters nothing, with every ARP entry resolved. `socket_sync_client::udpecho_start`
computes the port 2662, announces it and opens a socket for it, but its call of
`pico_socket_bind` is commented out. So the socket never enters `UDPTable`, and no
datagram reaches `cb_udpecho1`, in any run (`cb_udpecho1_never_woken`). All else
is in place: the message of `serv_start` carries the address that the standby
has linked and the port that the client announces (`syncMessage_addressed`).

The standby has called `pico_stack_init` before its client thread exists, so runs
start there; the main starts at any time. Replies of `cb_udpecho` go to other
hosts, and only their effect on the socket is kept.
-/

namespace Rfsis.Sync

open Rfsis.Transition Rfsis.Pico Rfsis.Node

/-- The functions that are given to `pico_socket_open`. -/
inductive Wakeup where
  | cbUdpecho | cbUdpecho1 | dummyCb
deriving DecidableEq, Repr

/-- `struct udpecho_pas`. -/
structure UdpechoPas where
  s : Nat
  sendtoPort : UInt16 := 0
  datasize : UInt16 := 5000
deriving DecidableEq, Repr

/-- The UDP side of a process: its sockets and the globals of its two echo files. -/
structure UdpApp where
  udp : PicoUdp Wakeup := {}
  udpechoPas : Option UdpechoPas := none
  udpechoPas1 : Option UdpechoPas := none
deriving DecidableEq, Repr

/-- `udpecho_start`, the `program` of both nodes; `none` is its `exit(255)`. -/
def UdpApp.udpechoStart (app : UdpApp) (ip : PicoIpv4) (conf : ConfigParser) (rand : UInt32) :
    Option UdpApp :=
  let listenPort := shortBe (UInt16.ofInt conf.port)
  let (s, opened) := picoSocketOpen app.udp .cbUdpecho
  let (ret, bound) := picoSocketBind ip opened s picoIp4Any listenPort rand
  if ret ≠ 0 then none else some { app with udp := bound, udpechoPas := some { s := s } }

/-- The port of the synchronisation message, in network order. -/
def syncPort : UInt16 := shortBe 2662

/-- `socket_sync_client::udpecho_start`. Its `listen_port` is only printed. -/
def UdpApp.syncClientStart (app : UdpApp) : UdpApp :=
  let (s, opened) := picoSocketOpen app.udp .cbUdpecho1
  { app with udp := opened, udpechoPas1 := some { s := s } }

/-- The payload "Testing". -/
def testing : List UInt8 := [0x54, 0x65, 0x73, 0x74, 0x69, 0x6e, 0x67]

/-- `socket_sync_serv::serv_start`. The result of `pico_string_to_ipv4` is ignored,
and a failure to send is only printed. -/
def UdpApp.servStart (app : UdpApp) (ip : PicoIpv4) (conf : ConfigParser) (rand : UInt32) :
    UdpApp × Option UdpDatagram :=
  let (sock, opened) := picoSocketOpen app.udp .dummyCb
  let inaddrDst := parseInto 0 conf.backupAddr
  let (_, after, sent) := picoSocketSendto ip opened sock testing inaddrDst syncPort rand
  ({ app with udp := after }, sent)

/-- The `pico_socket_sendto` in the loop of `cb_udpecho`, with 20 bytes of the
literal "Hello from ACTIVE!", its terminator and whatever follows it. -/
def UdpApp.reply (app : UdpApp) (ip : PicoIpv4) (buf : List UInt8) (peer : Ip4) (port : UInt16)
    (rand : UInt32) : Option UdpApp :=
  app.udpechoPas.map fun pas =>
    { app with udp := (picoSocketSendto ip app.udp pas.s buf peer port rand).2.1 }

/-- A datagram that came in at the standby, and the callback that it woke. -/
structure Received where
  datagram : UdpDatagram
  woken : Option Wakeup
deriving DecidableEq, Repr

/-- The transport layer takes in a datagram. -/
def UdpApp.receive (app : UdpApp) (f : UdpDatagram) : Received where
  datagram := f
  woken := match picoTransportProcessIn app.udp f with
    | .wakeup s => app.udp.wakeups[s]?
    | .unreachable | .dropped => none

/-- The two nodes and their files: one of each role, with one backup address. -/
structure Nodes where
  mainPlat : Platform
  standbyPlat : Platform
  main : ConfigJson
  standby : ConfigJson
  mainRole : main.backup = false
  standbyRole : standby.backup = true
  peer : main.backupAddr = standby.backupAddr

/-- Both processes, whether `serv_start` has run and what it sent, the datagrams
on their way to the standby, and those that came in there. -/
structure World where
  main : MainNode
  mainApp : UdpApp := {}
  servRan : Bool := false
  sent : Option UdpDatagram := none
  standby : Standby
  standbyApp : UdpApp := {}
  wire : List UdpDatagram := []
  received : List Received := []
deriving DecidableEq, Repr

/-- What happens on either node. `foreign` is a datagram of any other sender. -/
inductive Action where
  | mainBoot
  | mainProgram (rand : UInt32)
  | mainTick (work : List StackWork)
  | servStart (rand : UInt32)
  | clientStart
  | standby (e : Event) (rand : UInt32)
  | standbyReply (buf : List UInt8) (peer : Ip4) (port : UInt16) (rand : UInt32)
  | foreign (f : UdpDatagram)
  | arrive (i : Nat)
deriving DecidableEq, Repr

/-- The main is down; the standby is about to start its threads. -/
def Nodes.start (n : Nodes) : World where
  main := { runPicoStackMain n.mainPlat n.main with phase := .down }
  standby := runPicoStack n.standbyPlat n.standby

/-- An event of the standby, with `program` called where the takeover branch calls it. -/
def Nodes.onStandby (n : Nodes) (w : World) (e : Event) (rand : UInt32) : Option World :=
  (w.standby.step n.standbyPlat e).bind fun s =>
    -- Only the takeover branch appends to `calls`. If `program` exits, so does the node.
    if s.calls = w.standby.calls then some { w with standby := s }
    else (w.standbyApp.udpechoStart w.standby.stack.ipv4 w.standby.conf rand).map fun app =>
      { w with standby := s, standbyApp := app }

/-- One step of the two nodes. -/
def Nodes.step (n : Nodes) (w : World) : Action → Option World
  | .mainBoot =>
      if w.main.phase = .down then
        some { w with main := runPicoStackMain n.mainPlat n.main } else none
  | .mainProgram rand =>
      if w.main.phase = .started then
        (w.mainApp.udpechoStart w.main.stack.ipv4 w.main.conf rand).map fun app =>
          { w with main := { w.main with phase := .active }, mainApp := app }
      else none
  | .mainTick work =>
      if w.main.phase = .active then some { w with main := w.main.tick work } else none
  | .servStart rand =>
      if w.main.phase = .active ∧ w.servRan = false then
        let (app, sent) := w.mainApp.servStart w.main.stack.ipv4 w.main.conf rand
        some { w with
          mainApp := app
          servRan := true
          sent := sent
          wire := w.wire ++ sent.toList }
      else none
  | .clientStart =>
      if w.standbyApp.udpechoPas1 = none then
        some { w with standbyApp := w.standbyApp.syncClientStart } else none
  | .standby e rand => n.onStandby w e rand
  | .standbyReply buf peer port rand =>
      (w.standbyApp.reply w.standby.stack.ipv4 buf peer port rand).map fun app =>
        { w with standbyApp := app }
  | .foreign f => some { w with wire := w.wire ++ [f] }
  | .arrive i =>
      (w.wire[i]?).map fun f =>
        let taken := picoIpv4ProcessLocalUnicastIn w.standby.stack.ipv4 f.dst
        { w with
          wire := w.wire.eraseIdx i
          received := w.received ++ if taken then [w.standbyApp.receive f] else [] }

/-- The runs of the two nodes. -/
abbrev SyncRun (n : Nodes) (acts : List Action) (w : World) : Prop :=
  Run n.step n.start acts w

/-- `socket_sync_client::udpecho_start` has returned before `serv_start` sends. -/
def ClientFirst (w : World) : Action → Prop
  | .servStart _ => w.standbyApp.udpechoPas1 ≠ none
  | _ => True

instance (w : World) : (act : Action) → Decidable (ClientFirst w act)
  | .servStart _ => inferInstanceAs (Decidable (w.standbyApp.udpechoPas1 ≠ none))
  | .mainBoot | .mainProgram _ | .mainTick _ | .clientStart | .standby _ _
  | .standbyReply _ _ _ _ | .foreign _ | .arrive _ => .isTrue trivial

/-- The datagram has been delivered to the callback. -/
def World.delivered (w : World) (f : UdpDatagram) (callback : Wakeup) : Prop :=
  ⟨f, some callback⟩ ∈ w.received

instance (w : World) (f : UdpDatagram) (callback : Wakeup) : Decidable (w.delivered f callback) :=
  inferInstanceAs (Decidable (_ ∈ _))

variable {n : Nodes} {w v : World}

/-! ### What each function does to the sockets -/

/-- The only socket in the table of the standby is the application's, and before
`program` the table is empty. -/
structure UdpApp.Sound (app : UdpApp) : Prop where
  serves : app.udp.Serves (· = .cbUdpecho)
  pas : ∀ pas, app.udpechoPas = some pas → app.udp.wakeups[pas.s]? = some .cbUdpecho
  idle : app.udpechoPas = none → app.udp.udpTable = []

namespace UdpApp.Sound

variable {app after : UdpApp}

theorem empty : ({} : UdpApp).Sound where
  serves := .empty
  pas := fun _ none => by cases none
  idle := fun _ => rfl

/-- The client's socket stays out of the table. -/
theorem syncClientStart (sound : app.Sound) : app.syncClientStart.Sound := by
  refine ⟨sound.serves.picoSocketOpen .cbUdpecho1, ?_, sound.idle⟩
  intro pas stored
  show (picoSocketOpen app.udp .cbUdpecho1).2.wakeups[pas.s]? = some .cbUdpecho
  have pointer := sound.pas pas stored
  rw [picoSocketOpen_wakeups, List.getElem?_append_left, pointer]
  exact (List.getElem?_eq_some_iff.mp pointer).1

theorem udpechoStart (sound : app.Sound) {ip : PicoIpv4} {conf : ConfigParser} {rand : UInt32}
    (started : app.udpechoStart ip conf rand = some after) : after.Sound := by
  unfold UdpApp.udpechoStart at started
  extract_lets listenPort at started
  dsimp only at started
  split at started
  · cases started
  · cases started
    have pointer := picoSocketOpen_pointer app.udp Wakeup.cbUdpecho
    have touched := picoSocketBind_touches ip (picoSocketOpen app.udp Wakeup.cbUdpecho).2
      (picoSocketOpen app.udp Wakeup.cbUdpecho).1 picoIp4Any listenPort rand
    refine ⟨(sound.serves.picoSocketOpen .cbUdpecho).touches pointer rfl touched, ?_,
      fun none => by cases none⟩
    rintro pas ⟨rfl⟩
    rw [touched.wakeups]
    exact pointer

theorem reply (sound : app.Sound) {ip : PicoIpv4} {buf : List UInt8} {peer : Ip4} {port : UInt16}
    {rand : UInt32} (replied : app.reply ip buf peer port rand = some after) : after.Sound := by
  obtain ⟨pas, stored, rfl⟩ := Option.map_eq_some_iff.mp replied
  have touched := picoSocketSendto_touches ip app.udp pas.s buf peer port rand
  have pointer := sound.pas pas stored
  refine ⟨sound.serves.touches pointer rfl touched, ?_, fun none => by simp [stored] at none⟩
  intro other kept
  rw [touched.wakeups]
  exact sound.pas other kept

/-- Only the callback of the application is ever woken. -/
theorem receive (sound : app.Sound) {f : UdpDatagram} {callback : Wakeup}
    (woken : (app.receive f).woken = some callback) : callback = .cbUdpecho := by
  unfold UdpApp.receive at woken
  dsimp only at woken
  split at woken
  · rename_i s input
    obtain ⟨own, pointer, rfl⟩ := sound.serves.woken input
    rw [pointer] at woken
    exact (Option.some.inj woken).symm
  · cases woken
  · cases woken

/-- Before `program`, whatever comes in is answered with an ICMP error. -/
theorem unreachable (sound : app.Sound) (idle : app.udpechoPas = none) (f : UdpDatagram) :
    picoTransportProcessIn app.udp f = .unreachable := by
  have missing : picoGetSockport app.udp f.dport = none := by
    rw [picoGetSockport, sound.idle idle]
    rfl
  rw [picoTransportProcessIn, missing, Option.bind_none]

end UdpApp.Sound

/-- The function of the same name that does bind: `cb_udpecho` gets what comes to its port. -/
theorem udpechoStart_receives {app after : UdpApp} {ip : PicoIpv4} {conf : ConfigParser}
    {rand : UInt32} (started : app.udpechoStart ip conf rand = some after) {f : UdpDatagram}
    (here : f.dport = shortBe (UInt16.ofInt conf.port)) (named : f.dport ≠ 0) :
    (after.receive f).woken = some .cbUdpecho := by
  unfold UdpApp.udpechoStart at started
  extract_lets listenPort at started
  dsimp only at started
  split at started
  · cases started
  · rename_i bound
    cases started
    have port : listenPort = f.dport := here.symm
    rw [port] at bound ⊢
    have input := picoSocketBind_delivers named (not_not.mp bound) (f := f) rfl
    simp only [UdpApp.receive, input]
    rw [(picoSocketBind_touches _ _ _ _ _ _).wakeups]
    exact picoSocketOpen_pointer app.udp .cbUdpecho

/-- The message of `serv_start`, if it leaves the node at all. -/
theorem servStart_sent {app : UdpApp} {ip : PicoIpv4} {conf : ConfigParser} {rand : UInt32}
    {f : UdpDatagram} (sent : (app.servStart ip conf rand).2 = some f) :
    f.dst = parseInto 0 conf.backupAddr ∧ f.dport = syncPort ∧ f.payload = testing := by
  have call : (app.servStart ip conf rand).2 =
      (picoSocketSendto ip (picoSocketOpen app.udp .dummyCb).2 (picoSocketOpen app.udp .dummyCb).1
        testing (parseInto 0 conf.backupAddr) syncPort rand).2.2 := rfl
  rw [call] at sent
  exact (picoSocketSendto_sent sent).2

/-! ### What holds in every state -/

/-- The sockets of the standby are sound, the log shows it, and the message is
the one that `serv_start` makes of the main's file. -/
structure World.Sound (n : Nodes) (w : World) : Prop where
  main : w.main.Settled n.mainPlat n.main
  standby : Settled n.standbyPlat n.standby w.standby
  app : w.standbyApp.Sound
  received : ∀ r ∈ w.received, ∀ callback, r.woken = some callback → callback = .cbUdpecho
  sent : ∀ f, w.sent = some f →
    f.dst = parseInto 0 n.main.backupAddr ∧ f.dport = syncPort ∧ f.payload = testing

theorem Nodes.start_sound (n : Nodes) : n.start.Sound n where
  main := ⟨rfl, rfl⟩
  standby := runPicoStack_settled n.standbyPlat n.standby
  app := .empty
  received := fun _ mem => by cases mem
  sent := fun _ none => by cases none

theorem World.Sound.step (sound : w.Sound n) {act : Action} (taken : n.step w act = some v) :
    v.Sound n := by
  cases act with
  | mainBoot =>
      simp only [Nodes.step, Option.ite_none_right_eq_some, Option.some.injEq] at taken
      obtain ⟨-, rfl⟩ := taken
      exact { sound with main := ⟨rfl, rfl⟩ }
  | mainProgram rand =>
      simp only [Nodes.step, Option.ite_none_right_eq_some, Option.map_eq_some_iff] at taken
      obtain ⟨-, app, -, rfl⟩ := taken
      exact { sound with main := ⟨sound.main.conf, sound.main.tables⟩ }
  | mainTick work =>
      simp only [Nodes.step, Option.ite_none_right_eq_some, Option.some.injEq] at taken
      obtain ⟨-, rfl⟩ := taken
      exact { sound with main := sound.main.tick work }
  | servStart rand =>
      simp only [Nodes.step, Option.ite_none_right_eq_some, Option.some.injEq] at taken
      obtain ⟨-, rfl⟩ := taken
      refine { sound with sent := ?_ }
      intro f sent
      have settings : w.main.conf.backupAddr = n.main.backupAddr := by
        rw [sound.main.conf]
        rfl
      rw [← settings]
      exact servStart_sent sent
  | clientStart =>
      simp only [Nodes.step, Option.ite_none_right_eq_some, Option.some.injEq] at taken
      obtain ⟨-, rfl⟩ := taken
      exact { sound with app := sound.app.syncClientStart }
  | standby e rand =>
      simp only [Nodes.step, Nodes.onStandby, Option.bind_eq_some_iff] at taken
      obtain ⟨s, moved, taken⟩ := taken
      have settled := sound.standby.step moved
      split at taken
      · cases taken
        exact { sound with standby := settled }
      · obtain ⟨app, started, rfl⟩ := Option.map_eq_some_iff.mp taken
        exact { sound with standby := settled, app := sound.app.udpechoStart started }
  | standbyReply buf peer port rand =>
      obtain ⟨app, replied, rfl⟩ := Option.map_eq_some_iff.mp taken
      exact { sound with app := sound.app.reply replied }
  | foreign f =>
      cases taken
      exact { sound with }
  | arrive i =>
      obtain ⟨f, -, rfl⟩ := Option.map_eq_some_iff.mp taken
      refine { sound with received := ?_ }
      intro r mem callback woken
      rcases List.mem_append.mp mem with old | new
      · exact sound.received r old callback woken
      · split at new
        · rw [List.mem_singleton.mp new] at woken
          exact sound.app.receive woken
        · cases new

theorem SyncRun.sound {acts : List Action} (run : SyncRun n acts w) : w.Sound n :=
  Run.invariant n.start_sound (fun _ _ _ before taken => before.step taken) run

/-! ### The message and its way -/

/-- The nodes agree on the address and on the port: the standby's IP layer passes
the message to UDP, for the port that the client has announced. -/
theorem syncMessage_addressed {acts : List Action} (run : SyncRun n acts w) {f : UdpDatagram}
    (sent : w.sent = some f) {a : Ip4} (parsed : picoStringToIpv4 n.standby.backupAddr = some a)
    {dev : PicoDevice} (opened : n.standbyPlat.picoTapCreate n.standby.tapDeviceName = some dev) :
    picoIpv4ProcessLocalUnicastIn w.standby.stack.ipv4 f.dst = true ∧ f.dport = syncPort := by
  have sound := run.sound
  obtain ⟨dst, dport, -⟩ := sound.sent f sent
  refine ⟨?_, dport⟩
  have target : f.dst = a := by
    rw [dst, n.peer]
    exact parseInto_of_some parsed
  have own : initAddress n.standbyPlat (ConfigParser.new n.standby) = a :=
    initAddress_backup n.standbyRole parsed
  obtain ⟨netmask, links⟩ := sound.standby.links opened
  rw [target, picoIpv4ProcessLocalUnicastIn, findLink, links, own]
  simp [ipv4LinkMatches]

/-- Two nodes that are configured for each other, with the application on a port. -/
def twoNodes (port : Int) : Nodes where
  mainPlat := .zeroed #v[2, 0, 0, 0, 1, 1]
  standbyPlat := .zeroed #v[2, 0, 0, 0, 1, 2]
  main := { configJson with backup := false, backupAddr := "192.168.1.21", port := port }
  standby := { configJson with backupAddr := "192.168.1.21", port := port }
  mainRole := rfl
  standbyRole := rfl
  peer := rfl

/-- The message that the main of these nodes sends. -/
def syncMessage : UdpDatagram where
  src := longFrom #v[192, 168, 1, 20]
  dst := longFrom #v[192, 168, 1, 21]
  sport := shortBe 1024
  dport := shortBe 2662
  payload := testing

/-- **The message never reaches its callback**: no datagram does, in any run. -/
theorem cb_udpecho1_never_woken {acts : List Action} (run : SyncRun n acts w) (f : UdpDatagram) :
    ¬w.delivered f .cbUdpecho1 := by
  intro arrived
  have app := run.sound.received _ arrived .cbUdpecho1 rfl
  cases app

/-- The application runs on the standby, on the port of the message: it gets the
message, and `cb_udpecho1` still does not. -/
theorem cb_udpecho1_never_woken_takeover :
    ∃ acts w, SyncRun (twoNodes 2662) acts w ∧ w.delivered syncMessage .cbUdpecho ∧
      ¬w.delivered syncMessage .cbUdpecho1 := by
  let arp := hostQuery (longFrom #v[192, 168, 1, 20]) (longFrom #v[192, 168, 1, 21])
  let heard : List Event := [⟨1, .deliver arp⟩, ⟨2, .timerStart 0⟩, ⟨1600000000, .timerWake 0⟩,
    ⟨1600000001, .timerCheck 0⟩, ⟨1700000000, .deliver arp⟩, ⟨2000000000, .iterate []⟩]
  let acts : List Action := .clientStart :: heard.map (.standby · 0) ++
    [.mainBoot, .mainProgram 0, .servStart 0, .arrive 0]
  have ends : (exec (twoNodes 2662).step (twoNodes 2662).start acts).any fun w =>
      w.delivered syncMessage .cbUdpecho := by decide
  obtain ⟨w, run, taken⟩ := Run.of_any ends
  exact ⟨acts, w, run, taken, cb_udpecho1_never_woken run syncMessage⟩

/-- The client has returned, the message is sent and comes in, and no socket has its port. -/
theorem syncMessage_unreachable :
    ∃ acts w, SyncRun (twoNodes 8080) acts w ∧
      Meets (twoNodes 8080).step ClientFirst (twoNodes 8080).start acts ∧
      w.sent = some syncMessage ∧ w.wire = [] ∧ w.received = [⟨syncMessage, none⟩] ∧
        ¬w.delivered syncMessage .cbUdpecho1 := by
  let acts : List Action := [.clientStart, .mainBoot, .mainProgram 0, .servStart 0, .arrive 0]
  have first : Meets (twoNodes 8080).step ClientFirst (twoNodes 8080).start acts := by decide
  have ends : (exec (twoNodes 8080).step (twoNodes 8080).start acts).any fun w =>
      w.sent = some syncMessage ∧ w.wire = [] ∧ w.received = [⟨syncMessage, none⟩] ∧
        ¬w.delivered syncMessage .cbUdpecho1 := by decide
  obtain ⟨w, run, lost⟩ := Run.of_any ends
  exact ⟨acts, w, run, first, lost⟩

end Rfsis.Sync
