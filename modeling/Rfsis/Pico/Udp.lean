import Rfsis.Pico.Link

/-!
picoTCP's UDP sockets over IPv4: opening, binding, sending, and who is woken by
a datagram.

A socket pointer is the socket's place in the list of opened sockets, and
`UDPTable` holds pointers by local port. Opening a socket does not enter it into
the table; `pico_socket_bind` does, and so does the first `pico_socket_sendto` of
an unbound socket, under a port of its own choice. `Serves` is the invariant
that follows: what is woken is a socket that one of these two calls was made on.

No socket is connected here, so `remote_addr` stays zero. Allocation does not
fail, no NAT or filter is set up, receive queues have room, and payloads fit into
one frame. The trees of a port are lists in the order of their comparison, which
agrees with the source as long as a port has at most two sockets. Multicast and
broadcast destinations are left out.
-/

namespace Rfsis.Pico

universe u

/-- `struct pico_socket`; `bound` is its flag `PICO_SOCKET_STATE_BOUND`. -/
structure PicoSocket (κ : Type u) where
  wakeup : κ
  localAddr : Ip4 := picoIp4Any
  localPort : UInt16 := 0
  remotePort : UInt16 := 0
  bound : Bool := false
deriving DecidableEq, Repr

/-- `struct pico_sockport`. -/
structure PicoSockport where
  number : UInt16
  socks : List Nat
deriving DecidableEq, Repr

/-- The UDP sockets of a process, by pointer, and `UDPTable`. -/
structure PicoUdp (κ : Type u) where
  sockets : List (PicoSocket κ) := []
  udpTable : List PicoSockport := []
deriving DecidableEq, Repr

/-- A UDP datagram in its IPv4 packet. -/
structure UdpDatagram where
  src : Ip4
  dst : Ip4
  sport : UInt16
  dport : UInt16
  payload : List UInt8
deriving DecidableEq, Repr

variable {κ : Type u}

/-- Assignments to the fields of one socket. -/
def PicoUdp.update (udp : PicoUdp κ) (s : Nat) (f : PicoSocket κ → PicoSocket κ) : PicoUdp κ :=
  { udp with sockets := udp.sockets.modify s f }

/-- `pico_socket_open` for IPv4 and UDP: the new pointer, and no entry in the table. -/
def picoSocketOpen (udp : PicoUdp κ) (wakeup : κ) : Nat × PicoUdp κ :=
  (udp.sockets.length, { udp with sockets := udp.sockets ++ [{ wakeup := wakeup }] })

/-- `pico_get_sockport`. -/
def picoGetSockport (udp : PicoUdp κ) (port : UInt16) : Option PicoSockport :=
  udp.udpTable.find? fun sp => sp.number = port

/-- `socket_cmp` of two IPv4 sockets: an unspecified local address equals every other. -/
def socketCmp (a b : PicoSocket κ) : Int :=
  let host : Int :=
    if a.localAddr = picoIp4Any ∨ b.localAddr = picoIp4Any then 0
    else (a.localAddr - b.localAddr).toInt32.toInt
  if host ≠ 0 then host else b.remotePort.toNat - a.remotePort.toNat

/-- `pico_tree_insert(&sp->socks, s)`; `none` is the exit for a coincident socket. -/
def insertSock (cmp : Nat → Int) (s : Nat) (socks : List Nat) : Option (List Nat) :=
  if socks.any fun k => cmp k = 0 then none
  else some (socks.takeWhile (fun k => 0 < cmp k) ++ s :: socks.dropWhile (fun k => 0 < cmp k))

/-- `pico_socket_add`: the only writer of `UDPTable`. -/
def picoSocketAdd (udp : PicoUdp κ) (s : Nat) : Int × PicoUdp κ :=
  match udp.sockets[s]? with
  | none => (-1, udp)
  | some sock =>
      let bound := udp.update s fun k => { k with bound := true }
      match picoGetSockport udp sock.localPort with
      | none => (0, { bound with udpTable := udp.udpTable ++ [⟨sock.localPort, [s]⟩] })
      | some sp =>
          let cmp := fun k => ((udp.sockets[k]?).map (socketCmp sock)).getD 1
          match insertSock cmp s sp.socks with
          | none => (-1, udp) -- coincident with a socket that is there
          | some socks =>
              (0, { bound with udpTable := udp.udpTable.map fun q =>
                if q.number = sp.number then { q with socks := socks } else q })

/-- `pico_is_port_free` for an IPv4 socket. -/
def picoIsPortFree (udp : PicoUdp κ) (port : UInt16) (addr : Ip4) : Bool :=
  match picoGetSockport udp port with
  | none => true
  | some sp =>
      addr ≠ picoIp4Any && !(sp.socks.any fun k => (udp.sockets[k]?).any fun s =>
        s.localAddr = picoIp4Any || s.localAddr = addr)

/-- `pico_socket_high_port` with the number `pico_rand` gives. It asks whether the
port is free without naming a network, which `pico_is_port_free` always affirms,
so the loop ends in its first pass. -/
def picoSocketHighPort (rand : UInt32) : UInt16 :=
  shortBe ((rand &&& 0xFFFF).toUInt16 % (65535 - 1024) + 1024)

/-- `pico_socket_bind` of an IPv4 socket. -/
def picoSocketBind (ip : PicoIpv4) (udp : PicoUdp κ) (s : Nat) (localAddr : Ip4) (port : UInt16)
    (rand : UInt32) : Int × PicoUdp κ :=
  if localAddr ≠ picoIp4Any ∧ picoIpv4LinkFind ip localAddr = none then (-1, udp)
  else
    let port := if port = 0 then picoSocketHighPort rand else port
    if port = 0 then (-1, udp)
    else if !picoIsPortFree udp port localAddr then (-1, udp)
    else
      let named := udp.update s fun k => { k with localPort := port, localAddr := localAddr }
      picoSocketAdd named s

/-- `pico_socket_sendto_set_localport`: an unbound socket gets a high port and
joins the table; whether that succeeds is not looked at. -/
def picoSocketSendtoSetLocalport (udp : PicoUdp κ) (s : Nat) (rand : UInt32) :
    Int × PicoUdp κ :=
  if (udp.sockets[s]?).any PicoSocket.bound then (0, udp)
  else
    let port := picoSocketHighPort rand
    let named := udp.update s fun k => { k with localPort := port }
    if port = 0 then (-1, named) else (0, (picoSocketAdd named s).2)

/-- `pico_socket_sendto` of an unconnected IPv4 socket: the result, the sockets
after it, and the datagram pushed to the network layer. -/
def picoSocketSendto (ip : PicoIpv4) (udp : PicoUdp κ) (s : Nat) (buf : List UInt8) (dst : Ip4)
    (remotePort : UInt16) (rand : UInt32) : Int × PicoUdp κ × Option UdpDatagram :=
  if buf = [] then (0, udp, none)
  -- A null port, or a pointer that no socket has, is refused by the initial checks.
  else if remotePort = 0 ∨ udp.sockets.length ≤ s then (-1, udp, none)
  else
    match picoIpv4SourceFind ip dst with
    | none => (-1, udp, none)
    | some src =>
        let addressed :=
          if src ≠ picoIp4Any then udp.update s fun k => { k with localAddr := src } else udp
        let (ret, named) := picoSocketSendtoSetLocalport addressed s rand
        if ret < 0 then (-1, named, none)
        else
          let ready := named.update s fun k => { k with remotePort := remotePort }
          let sport := ((ready.sockets[s]?).map PicoSocket.localPort).getD 0
          (buf.length, ready, some ⟨src, dst, sport, remotePort, buf⟩)

/-- `pico_ipv4_process_local_unicast_in` passes a packet to its transport: it is
for an address of the node, or the node has the address 0.0.0.0. -/
def picoIpv4ProcessLocalUnicastIn (ip : PicoIpv4) (dst : Ip4) : Bool :=
  (findLink ip dst none).isSome || (findLink ip picoIp4Any none).isSome

/-- What becomes of a datagram: an ICMP error, nothing, or an `EV_RD` for a socket. -/
inductive UdpInput where
  | unreachable
  | dropped
  | wakeup (s : Nat)
deriving DecidableEq, Repr

/-- `pico_transport_process_in` of UDP, with `pico_socket_deliver` and
`pico_socket_udp_deliver`: only the first socket of the port is looked at. -/
def picoTransportProcessIn (udp : PicoUdp κ) (f : UdpDatagram) : UdpInput :=
  match (picoGetSockport udp f.dport).bind fun sp => sp.socks.head? with
  | none => .unreachable
  | some s =>
      if (udp.sockets[s]?).any fun k => k.localAddr = picoIp4Any || k.localAddr = f.dst then
        .wakeup s
      else .dropped

/-! ### Who is in the table -/

/-- The socket is in the tree of some port. -/
def PicoUdp.Registered (udp : PicoUdp κ) (s : Nat) : Prop :=
  ∃ sp ∈ udp.udpTable, s ∈ sp.socks

/-- The callbacks of the opened sockets, by pointer. -/
def PicoUdp.wakeups (udp : PicoUdp κ) : List κ :=
  udp.sockets.map PicoSocket.wakeup

@[simp] theorem picoSocketOpen_wakeups (udp : PicoUdp κ) (wakeup : κ) :
    (picoSocketOpen udp wakeup).2.wakeups = udp.wakeups ++ [wakeup] := by
  simp [picoSocketOpen, PicoUdp.wakeups]

theorem picoSocketOpen_pointer (udp : PicoUdp κ) (wakeup : κ) :
    (picoSocketOpen udp wakeup).2.wakeups[(picoSocketOpen udp wakeup).1]? = some wakeup := by
  simp [picoSocketOpen, PicoUdp.wakeups]

/-- What a call on the socket `s` may do to the table: every callback stays, and
no socket but `s` enters. -/
structure Touches (s : Nat) (udp after : PicoUdp κ) : Prop where
  wakeups : after.wakeups = udp.wakeups
  only : ∀ k, after.Registered k → k = s ∨ udp.Registered k

namespace Touches

variable {s : Nat} {udp mid after : PicoUdp κ}

theorem refl (s : Nat) (udp : PicoUdp κ) : Touches s udp udp :=
  ⟨rfl, fun _ before => .inr before⟩

theorem trans (first : Touches s udp mid) (second : Touches s mid after) :
    Touches s udp after := by
  refine ⟨second.wakeups.trans first.wakeups, ?_⟩
  intro k registered
  rcases second.only k registered with same | before
  · exact .inl same
  · exact first.only k before

theorem update (udp : PicoUdp κ) {f : PicoSocket κ → PicoSocket κ}
    (same : ∀ k, (f k).wakeup = k.wakeup) : Touches s udp (udp.update s f) := by
  refine ⟨?_, fun _ before => .inr before⟩
  unfold PicoUdp.wakeups PicoUdp.update
  apply List.ext_getElem?
  intro i
  simp only [List.getElem?_map, List.getElem?_modify]
  cases udp.sockets[i]? with
  | none => rfl
  | some k => split <;> simp [same]

end Touches

theorem mem_insertSock {cmp : Nat → Int} {s k : Nat} {socks after : List Nat}
    (inserted : insertSock cmp s socks = some after) (mem : k ∈ after) : k = s ∨ k ∈ socks := by
  unfold insertSock at inserted
  split at inserted
  · cases inserted
  · cases inserted
    rcases List.mem_append.mp mem with early | late
    · exact .inr ((List.takeWhile_sublist _).mem early)
    · rcases List.mem_cons.mp late with rfl | later
      · exact .inl rfl
      · exact .inr ((List.dropWhile_sublist _).mem later)

theorem picoSocketAdd_touches (udp : PicoUdp κ) (s : Nat) :
    Touches s udp (picoSocketAdd udp s).2 := by
  have bound : Touches s udp (udp.update s fun k => { k with bound := true }) :=
    .update udp fun _ => rfl
  unfold picoSocketAdd
  split
  · exact .refl s udp
  · rename_i sock opened
    dsimp only
    split
    · -- a new sockport, with this socket alone
      refine ⟨bound.wakeups, ?_⟩
      rintro k ⟨sp, mem, here⟩
      rcases List.mem_append.mp mem with old | new
      · exact .inr ⟨sp, old, here⟩
      · rw [List.mem_singleton.mp new] at here
        exact .inl (List.mem_singleton.mp here)
    · rename_i port found
      split
      · exact .refl s udp
      · rename_i socks inserted
        refine ⟨bound.wakeups, ?_⟩
        rintro k ⟨sp, mem, here⟩
        obtain ⟨q, old, rfl⟩ := List.mem_map.mp mem
        split at here
        · rcases mem_insertSock inserted here with same | before
          · exact .inl same
          · exact .inr ⟨port, List.mem_of_find?_eq_some found, before⟩
        · exact .inr ⟨q, old, here⟩

theorem picoSocketBind_touches (ip : PicoIpv4) (udp : PicoUdp κ) (s : Nat) (localAddr : Ip4)
    (port : UInt16) (rand : UInt32) :
    Touches s udp (picoSocketBind ip udp s localAddr port rand).2 := by
  unfold picoSocketBind
  split
  · exact .refl s udp
  · extract_lets chosen named
    have renamed : Touches s udp named := .update udp fun _ => rfl
    split
    · exact .refl s udp
    · split
      · exact .refl s udp
      · exact renamed.trans (picoSocketAdd_touches named s)

theorem picoSocketSendtoSetLocalport_touches (udp : PicoUdp κ) (s : Nat) (rand : UInt32) :
    Touches s udp (picoSocketSendtoSetLocalport udp s rand).2 := by
  unfold picoSocketSendtoSetLocalport
  split
  · exact .refl s udp
  · extract_lets port named
    have renamed : Touches s udp named := .update udp fun _ => rfl
    split
    · exact renamed
    · exact renamed.trans (picoSocketAdd_touches named s)

theorem picoSocketSendto_touches (ip : PicoIpv4) (udp : PicoUdp κ) (s : Nat) (buf : List UInt8)
    (dst : Ip4) (remotePort : UInt16) (rand : UInt32) :
    Touches s udp (picoSocketSendto ip udp s buf dst remotePort rand).2.1 := by
  unfold picoSocketSendto
  split
  · exact .refl s udp
  · split
    · exact .refl s udp
    · split
      · exact .refl s udp
      · rename_i src route
        extract_lets addressed
        have first : Touches s udp addressed := by
          dsimp only [addressed]
          split
          · exact .update udp fun _ => rfl
          · exact .refl s udp
        have second := first.trans (picoSocketSendtoSetLocalport_touches addressed s rand)
        dsimp only
        split
        · exact second
        · exact second.trans (.update _ fun _ => rfl)

/-- A datagram that leaves has the given destination and contents, and its source
is the address of the route. -/
theorem picoSocketSendto_sent {ip : PicoIpv4} {udp : PicoUdp κ} {s : Nat} {buf : List UInt8}
    {dst : Ip4} {remotePort : UInt16} {rand : UInt32} {f : UdpDatagram}
    (sent : (picoSocketSendto ip udp s buf dst remotePort rand).2.2 = some f) :
    picoIpv4SourceFind ip dst = some f.src ∧ f.dst = dst ∧ f.dport = remotePort ∧
      f.payload = buf := by
  unfold picoSocketSendto at sent
  split at sent
  · cases sent
  · split at sent
    · cases sent
    · split at sent
      · cases sent
      · rename_i src route
        extract_lets addressed at sent
        dsimp only at sent
        split at sent
        · cases sent
        · cases sent
          exact ⟨route, rfl, rfl, rfl⟩

/-- Every socket in the table has a callback that satisfies `P`. -/
def PicoUdp.Serves (P : κ → Prop) (udp : PicoUdp κ) : Prop :=
  ∀ s, udp.Registered s → ∃ w, udp.wakeups[s]? = some w ∧ P w

namespace PicoUdp.Serves

variable {P : κ → Prop} {udp : PicoUdp κ}

theorem empty : ({} : PicoUdp κ).Serves P := by
  rintro s ⟨sp, mem, -⟩
  cases mem

/-- A call on a socket whose callback satisfies `P`. -/
theorem touches {after : PicoUdp κ} {s : Nat} {w : κ} (serves : udp.Serves P)
    (pointer : udp.wakeups[s]? = some w) (holds : P w) (touched : Touches s udp after) :
    after.Serves P := by
  intro k registered
  rw [touched.wakeups]
  rcases touched.only k registered with rfl | before
  · exact ⟨w, pointer, holds⟩
  · exact serves k before

/-- An opened socket may have any callback: it is not in the table. -/
theorem picoSocketOpen (serves : udp.Serves P) (wakeup : κ) :
    (picoSocketOpen udp wakeup).2.Serves P := by
  intro s registered
  obtain ⟨w, pointer, holds⟩ := serves s registered
  refine ⟨w, ?_, holds⟩
  rw [picoSocketOpen_wakeups, List.getElem?_append_left, pointer]
  exact (List.getElem?_eq_some_iff.mp pointer).1

/-- A socket that a datagram wakes has a callback that satisfies `P`. -/
theorem woken (serves : udp.Serves P) {f : UdpDatagram} {s : Nat}
    (input : picoTransportProcessIn udp f = .wakeup s) :
    ∃ w, udp.wakeups[s]? = some w ∧ P w := by
  apply serves
  unfold picoTransportProcessIn at input
  split at input
  · cases input
  · rename_i first found
    obtain ⟨sp, port, head⟩ := Option.bind_eq_some_iff.mp found
    split at input
    · cases input
      exact ⟨sp, List.mem_of_find?_eq_some port, List.mem_of_head? head⟩
    · cases input

end PicoUdp.Serves

/-- The other direction: a socket bound to every address gets what comes to its port. -/
theorem picoSocketBind_delivers {ip : PicoIpv4} {udp : PicoUdp κ} {s : Nat} {port : UInt16}
    {rand : UInt32} (named : port ≠ 0)
    (bound : (picoSocketBind ip udp s picoIp4Any port rand).1 = 0) {f : UdpDatagram}
    (here : f.dport = port) :
    picoTransportProcessIn (picoSocketBind ip udp s picoIp4Any port rand).2 f = .wakeup s := by
  unfold picoSocketBind at bound ⊢
  simp only [ne_eq, not_true_eq_false, false_and, if_false, named] at bound ⊢
  cases inUse : picoGetSockport udp port with
  | some sp => simp [picoIsPortFree, inUse] at bound
  | none =>
      have free : picoIsPortFree udp port picoIp4Any = true := by simp [picoIsPortFree, inUse]
      simp only [free, Bool.not_true, Bool.false_eq_true, if_false] at bound ⊢
      cases opened : udp.sockets[s]? with
      | none => simp [picoSocketAdd, PicoUdp.update, opened] at bound
      | some sock =>
          have missing : udp.udpTable.find? (fun sp => sp.number = port) = none := inUse
          simp [picoSocketAdd, PicoUdp.update, opened, picoGetSockport, missing,
            picoTransportProcessIn, here]

end Rfsis.Pico
