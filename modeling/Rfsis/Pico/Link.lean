import Mathlib.Data.List.Basic
import Rfsis.Pico.Address

/-!
picoTCP's link table and routing table.

`Tree_dev_link` is a finite map from addresses to links, kept as a list in
insertion order: every use of it here is a lookup by key. `Routes` keeps the
order of its tree, because `route_find` walks it backwards and so prefers the
longest netmask. Allocation does not fail in this model, so the only failures
of `pico_ipv4_link_add` are a missing device and an address already in use.
-/

namespace Rfsis.Pico

/-- A hardware address, `PICO_SIZE_ETH` bytes. -/
abbrev HwAddr := Vector UInt8 6

/-- `struct pico_device`, as far as the ARP and link layers read it. -/
structure PicoDevice where
  name : String
  mac : HwAddr
deriving DecidableEq, Repr

/-- `struct pico_ipv4_link`. -/
structure PicoIpv4Link where
  address : Ip4
  netmask : Ip4
  dev : PicoDevice
deriving DecidableEq, Repr

/-- `struct pico_ipv4_route`; only `default_bcast_route` can have no link. -/
structure PicoIpv4Route where
  dest : Ip4
  netmask : Ip4
  gateway : Ip4
  metric : Nat
  link : Option PicoIpv4Link
deriving DecidableEq, Repr

/-- The globals of `pico_ipv4.c` behind addresses and routes. -/
structure PicoIpv4 where
  treeDevLink : List PicoIpv4Link := []
  routes : List PicoIpv4Route := []
  defaultBcastLink : Option PicoIpv4Link := none
  mcastDefaultLink : Option PicoIpv4Link := none
deriving DecidableEq, Repr

/-- `ipv4_link_compare` answers 0: equal addresses, except that `0.0.0.0` is
kept apart by device when both sides name one. -/
def ipv4LinkMatches (address : Ip4) (dev : Option PicoDevice) (b : PicoIpv4Link) : Bool :=
  b.address = address &&
    !(address = picoIp4Any && dev.isSome && dev ≠ some b.dev)

/-- `pico_tree_findKey(&Tree_dev_link, &test)`. -/
def findLink (ip : PicoIpv4) (address : Ip4) (dev : Option PicoDevice) : Option PicoIpv4Link :=
  ip.treeDevLink.find? (ipv4LinkMatches address dev)

/-- `pico_ipv4_link_find`: the device that owns a local address. -/
def picoIpv4LinkFind (ip : PicoIpv4) (address : Ip4) : Option PicoDevice :=
  (findLink ip address none).map PicoIpv4Link.dev

/-- `ipv4_route_compare`: by netmask in host order, then address, then metric. -/
def ipv4RouteCompare (a b : PicoIpv4Route) : Ordering :=
  (compare (longBe a.netmask) (longBe b.netmask)).then <|
    (compare a.dest b.dest).then (compare a.metric b.metric)

/-- `pico_tree_insert(&Routes, new)` at the place its key has in the tree. -/
def insertRoute (new : PicoIpv4Route) : List PicoIpv4Route → List PicoIpv4Route
  | [] => [new]
  | r :: rest =>
      if ipv4RouteCompare new r = .lt then new :: r :: rest else r :: insertRoute new rest

/-- `route_find`: the last matching route of the tree; broadcast has its own. -/
def routeFind (ip : PicoIpv4) (addr : Ip4) : Option PicoIpv4Route :=
  if addr = picoIp4Any then none
  else if addr ≠ picoIp4Bcast then
    ip.routes.reverse.find? fun r => addr &&& r.netmask = r.dest
  else some ⟨picoIp4Bcast, picoIp4Bcast, 0, 1000, ip.defaultBcastLink⟩

/-- `pico_ipv4_source_find`: the address of the link the route leaves by. -/
def picoIpv4SourceFind (ip : PicoIpv4) (dst : Ip4) : Option Ip4 :=
  (routeFind ip dst).bind fun rt => rt.link.map PicoIpv4Link.address

/-- `pico_ipv4_route_add`; the table is unchanged when it fails. -/
def picoIpv4RouteAdd (ip : PicoIpv4) (address netmask gateway : Ip4) (metric : Nat)
    (link : Option PicoIpv4Link) : PicoIpv4 :=
  if ip.routes.any fun r => ipv4RouteCompare ⟨address, netmask, 0, metric, none⟩ r = .eq then ip
  else
    let via :=
      if gateway = 0 then link
      else (routeFind ip gateway).bind fun r => if r.gateway ≠ 0 then none else r.link
    match via with
    | none => ip
    | some l =>
        { ip with routes := insertRoute ⟨address, netmask, gateway, metric, some l⟩ ip.routes }

/-- The multicast part of `pico_ipv4_link_add`: the first link becomes the
default one, with the route to 224.0.0.0/4. -/
def addMcastDefault (ip : PicoIpv4) (new : PicoIpv4Link) : PicoIpv4 :=
  match ip.mcastDefaultLink with
  | some _ => ip
  | none =>
      picoIpv4RouteAdd { ip with mcastDefaultLink := some new }
        (longBe 0xE0000000) (longBe 0xF0000000) 0 1 (some new)

/-- `pico_ipv4_link_add`: its return code and the tables after it. -/
def picoIpv4LinkAdd (ip : PicoIpv4) (dev : Option PicoDevice) (address netmask : Ip4) :
    Int × PicoIpv4 :=
  match dev with
  | none => (-1, ip)
  | some d =>
      if (findLink ip address (some d)).isSome then (-1, ip)
      else
        let new : PicoIpv4Link := ⟨address, netmask, d⟩
        let linked := addMcastDefault { ip with treeDevLink := ip.treeDevLink ++ [new] } new
        let routed := picoIpv4RouteAdd linked (address &&& netmask) netmask 0 1 (some new)
        (0, { routed with
          defaultBcastLink := some (routed.defaultBcastLink.getD new) })

/-! ### What a link leaves in the tables -/

@[simp] theorem picoIpv4RouteAdd_treeDevLink (ip : PicoIpv4) (address netmask gateway : Ip4)
    (metric : Nat) (link : Option PicoIpv4Link) :
    (picoIpv4RouteAdd ip address netmask gateway metric link).treeDevLink = ip.treeDevLink := by
  unfold picoIpv4RouteAdd
  split
  · rfl
  · dsimp only
    split <;> rfl

@[simp] theorem picoIpv4RouteAdd_defaultBcastLink (ip : PicoIpv4) (address netmask gateway : Ip4)
    (metric : Nat) (link : Option PicoIpv4Link) :
    (picoIpv4RouteAdd ip address netmask gateway metric link).defaultBcastLink =
      ip.defaultBcastLink := by
  unfold picoIpv4RouteAdd
  split
  · rfl
  · dsimp only
    split <;> rfl

@[simp] theorem addMcastDefault_treeDevLink (ip : PicoIpv4) (new : PicoIpv4Link) :
    (addMcastDefault ip new).treeDevLink = ip.treeDevLink := by
  unfold addMcastDefault
  split <;> simp

/-- Adding to an empty table links exactly the given address. -/
theorem picoIpv4LinkAdd_empty (d : PicoDevice) (address netmask : Ip4) :
    (picoIpv4LinkAdd {} (some d) address netmask).2.treeDevLink = [⟨address, netmask, d⟩] := by
  simp [picoIpv4LinkAdd, findLink]

theorem mem_insertRoute {new r : PicoIpv4Route} {routes : List PicoIpv4Route} :
    r ∈ insertRoute new routes ↔ r = new ∨ r ∈ routes := by
  induction routes with
  | nil => simp [insertRoute]
  | cons head rest ih =>
      unfold insertRoute
      split
      · simp
      · simp [ih, or_left_comm]

/-- Every route leaves by a link of the table. -/
structure RoutesLinked (ip : PicoIpv4) : Prop where
  routes : ∀ r ∈ ip.routes, ∀ l, r.link = some l → l ∈ ip.treeDevLink
  bcast : ∀ l, ip.defaultBcastLink = some l → l ∈ ip.treeDevLink

theorem routesLinked_empty : RoutesLinked {} := ⟨by simp, by simp⟩

theorem RoutesLinked.routeAdd {ip : PicoIpv4} (linked : RoutesLinked ip)
    (address netmask : Ip4) (metric : Nat) {new : PicoIpv4Link} (mem : new ∈ ip.treeDevLink) :
    RoutesLinked (picoIpv4RouteAdd ip address netmask 0 metric (some new)) := by
  refine ⟨?_, by simpa using linked.bcast⟩
  intro r hr l hl
  rw [picoIpv4RouteAdd_treeDevLink]
  unfold picoIpv4RouteAdd at hr
  split at hr
  · exact linked.routes r hr l hl
  · simp only [if_pos] at hr
    rcases mem_insertRoute.mp hr with rfl | old
    · exact Option.some.inj hl ▸ mem
    · exact linked.routes r old l hl

theorem RoutesLinked.withBcast {ip : PicoIpv4} (linked : RoutesLinked ip) {new : PicoIpv4Link}
    (mem : new ∈ ip.treeDevLink) :
    RoutesLinked { ip with defaultBcastLink := some (ip.defaultBcastLink.getD new) } := by
  refine ⟨linked.routes, ?_⟩
  intro l hl
  cases old : ip.defaultBcastLink with
  | none =>
      have same : new = l := by simpa [old] using hl
      exact same ▸ mem
  | some b =>
      have same : b = l := by simpa [old] using hl
      exact linked.bcast l (same ▸ old)

theorem RoutesLinked.withMcast {ip : PicoIpv4} (linked : RoutesLinked ip) {new : PicoIpv4Link}
    (mem : new ∈ ip.treeDevLink) : RoutesLinked (addMcastDefault ip new) := by
  unfold addMcastDefault
  split
  · exact linked
  · have marked : RoutesLinked { ip with mcastDefaultLink := some new } :=
      ⟨linked.routes, linked.bcast⟩
    exact marked.routeAdd _ _ _ mem

/-- `pico_ipv4_link_add` keeps every route on a link of the table. -/
theorem RoutesLinked.linkAdd {ip : PicoIpv4} (linked : RoutesLinked ip)
    (dev : Option PicoDevice) (address netmask : Ip4) :
    RoutesLinked (picoIpv4LinkAdd ip dev address netmask).2 := by
  unfold picoIpv4LinkAdd
  split
  · exact linked
  · rename_i d
    split
    · exact linked
    · let new : PicoIpv4Link := ⟨address, netmask, d⟩
      have added : RoutesLinked { ip with treeDevLink := ip.treeDevLink ++ [new] } :=
        ⟨fun r hr l hl => List.mem_append_left _ (linked.routes r hr l hl),
          fun l hl => List.mem_append_left _ (linked.bcast l hl)⟩
      have present : new ∈ ip.treeDevLink ++ [new] := by simp
      have mcast := added.withMcast present
      have routed := mcast.routeAdd (address &&& netmask) netmask 1
        (show new ∈ _ by rw [addMcastDefault_treeDevLink]; exact present)
      exact routed.withBcast (show new ∈ _ by
        rw [picoIpv4RouteAdd_treeDevLink, addMcastDefault_treeDevLink]; exact present)

/-- A source address that `pico_ipv4_source_find` picks is a linked one. -/
theorem picoIpv4SourceFind_linked {ip : PicoIpv4} (linked : RoutesLinked ip) {dst src : Ip4}
    (found : picoIpv4SourceFind ip dst = some src) :
    ∃ l ∈ ip.treeDevLink, l.address = src := by
  simp only [picoIpv4SourceFind, Option.bind_eq_some_iff, Option.map_eq_some_iff] at found
  obtain ⟨rt, route, l, link, rfl⟩ := found
  refine ⟨l, ?_, rfl⟩
  unfold routeFind at route
  split at route
  · cases route
  · split at route
    · have mem := List.mem_reverse.mp (List.mem_of_find?_eq_some route)
      exact linked.routes rt mem l link
    · cases route
      exact linked.bcast l link

end Rfsis.Pico
