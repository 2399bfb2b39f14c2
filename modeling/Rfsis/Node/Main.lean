import Rfsis.Node.Sniffer

/-!
A node started with `backup = false`: its stack and its heartbeats.

After `init_picotcp` such a node calls `program` unconditionally; then the
heartbeat thread asks for the backup's address over and over, and the loop of
the stack runs. The heartbeat is an ARP query, so its sender address is the one
that the route to the backup gives.
-/

namespace Rfsis.Node

open Rfsis.Pico

/-- Where the process is: not running, before its call of `program`, after it. -/
inductive MainPhase where
  | down | started | active
deriving DecidableEq, Repr

/-- The process of the main. -/
structure MainNode where
  conf : ConfigParser
  stack : PicoStack
  phase : MainPhase
deriving DecidableEq, Repr

/-- `runPicoStack` up to the call of `program`, for a node whose file says `backup = false`. -/
def runPicoStackMain (plat : Platform) (config : ConfigJson) : MainNode :=
  let conf := ConfigParser.new config
  let (dev, stack) := initPicotcp plat conf {}
  { conf := { conf with dev := dev }, stack := stack, phase := .started }

/-- The request of one period of `Heartbeat::arp_check`, constructed with the
backup's address and the node's device. Without a device there is no route, and
`pico_arp_request` returns before it uses the pointer. -/
def MainNode.arpCheck (plat : Platform) (m : MainNode) : Option PicoArpHdr :=
  let ip := parseInto (plat.indeterminate .heartbeatIp) m.conf.backupAddr
  m.conf.dev.bind fun dev => picoArpRequest dev m.stack.ipv4 ip .query

/-- One `pico_stack_tick` of `pico_stack_loop`. -/
def MainNode.tick (m : MainNode) (work : List StackWork) : MainNode :=
  match m.conf.dev with
  | none => m
  | some dev => { m with stack := picoStackTick dev m.stack work }

theorem MainNode.tick_conf (m : MainNode) (work : List StackWork) :
    (m.tick work).conf = m.conf := by
  unfold MainNode.tick
  split <;> rfl

theorem MainNode.tick_ipv4 (m : MainNode) (work : List StackWork) :
    (m.tick work).stack.ipv4 = m.stack.ipv4 := by
  unfold MainNode.tick
  split
  · rfl
  · exact picoStackTick_ipv4 _ _ _

/-- What a main keeps from its start: its configuration and its tables. -/
structure MainNode.Settled (plat : Platform) (config : ConfigJson) (m : MainNode) : Prop where
  conf : m.conf = (runPicoStackMain plat config).conf
  tables : m.stack.ipv4 = (initPicotcp plat (ConfigParser.new config) {}).2.ipv4

theorem MainNode.Settled.tick {plat : Platform} {config : ConfigJson} {m : MainNode}
    (settled : m.Settled plat config) (work : List StackWork) :
    (m.tick work).Settled plat config where
  conf := (m.tick_conf work).trans settled.conf
  tables := (m.tick_ipv4 work).trans settled.tables

/-- Every heartbeat carries the main's own address, and the sniffer of a backup
that is configured for the same main takes it for a life sign. -/
theorem MainNode.Settled.arpCheck_fromMain {plat : Platform} {config : ConfigJson} {m : MainNode}
    (settled : m.Settled plat config) (role : config.backup = false) {f : PicoArpHdr}
    (sent : m.arpCheck plat = some f) {other : ConfigJson}
    (service : config.ipv4Addr = other.ipv4Addr) (parses : inetPton other.ipv4Addr ≠ none) :
    fromMain other f := by
  obtain ⟨dev, -, request⟩ := Option.bind_eq_some_iff.mp sent
  have linked : RoutesLinked m.stack.ipv4 := by
    rw [settled.tables]
    exact initPicotcp_routesLinked plat _
  obtain ⟨l, mem, src⟩ := picoArpRequest_query_src linked request
  rw [settled.tables] at mem
  cases opened : plat.picoTapCreate (ConfigParser.new config).tapDeviceName with
  | none =>
      rw [initPicotcp_unlinked opened] at mem
      cases mem
  | some own =>
      rw [initPicotcp_linked opened] at mem
      rw [List.mem_singleton.mp mem] at src
      obtain ⟨a, parsed⟩ := Option.ne_none_iff_exists'.mp parses
      have own := picoStringToIpv4_of_inetPton parsed
      rw [← service] at own
      have address : initAddress plat (ConfigParser.new config) = a := initAddress_main role own
      exact parsed.trans (congrArg some (address.symm.trans src))

end Rfsis.Node
