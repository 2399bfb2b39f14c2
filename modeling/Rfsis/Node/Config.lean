import Rfsis.Pico.Arp

/-!
The configuration of a node and the start of its stack.

`ConfigJson` is what the constructor of `ConfigParser` reads from
`conf/config.json`; `ConfigParser` is the object `conf` that every thread of a
node shares. Two things are taken from outside the source, in `Platform`: the
device that `pico_tap_create` opens, and what an uninitialised `struct pico_ip4`
on the stack holds. The second matters because no caller checks the result of
`pico_string_to_ipv4`, which writes nothing when it rejects its argument.
-/

namespace Rfsis.Node

open Rfsis.Pico

/-- The members of `config.json`. -/
structure ConfigJson where
  backup : Bool
  backupAddr : String
  ipv4Addr : String
  port : Int
  netmask : String
  heartbeatTimer : Int
  debugMode : Bool
  tapDeviceName : String
  timeout : Int
deriving DecidableEq, Repr

/-- `class ConfigParser`; `dev` is unset until `setDev`. -/
structure ConfigParser extends ConfigJson where
  hwaddress : HwAddr
  active : Bool
  dev : Option PicoDevice
deriving DecidableEq, Repr

/-- The constructor of `ConfigParser`. -/
def ConfigParser.new (config : ConfigJson) : ConfigParser where
  toConfigJson := config
  hwaddress := Vector.replicate 6 0
  active := if config.backup then false else true
  dev := none

/-- The file `conf/config.json` of the repository. -/
def configJson : ConfigJson where
  backup := true
  backupAddr := "192.168.1.20"
  ipv4Addr := "192.168.1.20"
  port := 8080
  netmask := "255.255.255.0"
  heartbeatTimer := 1
  debugMode := true
  tapDeviceName := "tap0"
  timeout := 3000000

/-- The variables of type `struct pico_ip4` that are declared without an initial value. -/
inductive Uninitialised where
  | initIpaddr | initNetmask | takeoverIpaddr | heartbeatIp
deriving DecidableEq, Repr

/-- What a node takes from its operating system and its call stack. -/
structure Platform where
  picoTapCreate : String → Option PicoDevice
  indeterminate : Uninitialised → Ip4

/-- A platform on which every tap device opens, with the given hardware address,
and the call stack holds zeros. -/
def Platform.zeroed (mac : HwAddr) : Platform where
  picoTapCreate name := some ⟨name, mac⟩
  indeterminate _ := 0

/-- What a `struct pico_ip4` that held `before` holds after
`pico_string_to_ipv4(s.c_str(), &ip.addr)` with the result ignored. -/
def parseInto (before : Ip4) (s : String) : Ip4 :=
  (picoStringToIpv4 s).getD before

/-- The address that `init_picotcp` gives the node in its role. -/
def initAddress (plat : Platform) (conf : ConfigParser) : Ip4 :=
  if conf.backup then parseInto (plat.indeterminate .initIpaddr) conf.backupAddr
  else parseInto (plat.indeterminate .initIpaddr) conf.ipv4Addr

/-- `init_picotcp`: the device it returns and the stack it leaves. The result of
`pico_ipv4_link_add` is ignored. -/
def initPicotcp (plat : Platform) (conf : ConfigParser) (stack : PicoStack) :
    Option PicoDevice × PicoStack :=
  match plat.picoTapCreate conf.tapDeviceName with
  | none => (none, stack)
  | some dev =>
      let netmask := parseInto (plat.indeterminate .initNetmask) conf.netmask
      let linked := picoIpv4LinkAdd stack.ipv4 (some dev) (initAddress plat conf) netmask
      (some dev, { stack with ipv4 := linked.2 })

/-! ### The link table after start-up -/

theorem parseInto_of_some {before a : Ip4} {s : String} (parsed : picoStringToIpv4 s = some a) :
    parseInto before s = a := by
  rw [parseInto, parsed, Option.getD_some]

theorem initAddress_backup {plat : Platform} {config : ConfigJson} {a : Ip4}
    (role : config.backup = true) (parsed : picoStringToIpv4 config.backupAddr = some a) :
    initAddress plat (ConfigParser.new config) = a :=
  (if_pos role).trans (parseInto_of_some parsed)

theorem initAddress_main {plat : Platform} {config : ConfigJson} {a : Ip4}
    (role : config.backup = false) (parsed : picoStringToIpv4 config.ipv4Addr = some a) :
    initAddress plat (ConfigParser.new config) = a :=
  (if_neg (Bool.eq_false_iff.mp role)).trans (parseInto_of_some parsed)

theorem initPicotcp_routesLinked (plat : Platform) (conf : ConfigParser) :
    RoutesLinked (initPicotcp plat conf {}).2.ipv4 := by
  unfold initPicotcp
  cases plat.picoTapCreate conf.tapDeviceName with
  | none => exact routesLinked_empty
  | some dev => exact routesLinked_empty.linkAdd _ _ _

/-- A node that has its device has linked exactly one address, the one of its role. -/
theorem initPicotcp_linked {plat : Platform} {conf : ConfigParser} {dev : PicoDevice}
    (opened : plat.picoTapCreate conf.tapDeviceName = some dev) :
    (initPicotcp plat conf {}).2.ipv4.treeDevLink =
      [⟨initAddress plat conf, parseInto (plat.indeterminate .initNetmask) conf.netmask, dev⟩] := by
  simp only [initPicotcp, opened]
  exact picoIpv4LinkAdd_empty dev _ _

theorem initPicotcp_unlinked {plat : Platform} {conf : ConfigParser}
    (missing : plat.picoTapCreate conf.tapDeviceName = none) :
    initPicotcp plat conf {} = (none, {}) := by
  simp only [initPicotcp, missing]

end Rfsis.Node
