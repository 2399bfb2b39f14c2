import Rfsis.Pico.Link

/-!
picoTCP's ARP: which frames a stack emits, and with which sender address.

A frame is its ARP header. The ARP cache is left out: it decides whom the stack
asks, never the sender address of what it sends, and whom it asks is arbitrary
in `StackWork.query`. What remains of the receive path are its three exits
before a reply (`pico_arp_check_incoming_hdr`, `pico_arp_check_flooding` and
the opcode test of `pico_arp_reply_on_request`).
-/

namespace Rfsis.Pico

/-- `PICO_ARP_REQUEST`, little-endian. -/
def picoArpRequestOpcode : UInt16 := 0x0100

/-- `PICO_ARP_REPLY`, little-endian. -/
def picoArpReplyOpcode : UInt16 := 0x0200

/-- `PICO_ARP_HTYPE_ETH`, little-endian. -/
def picoArpHtypeEth : UInt16 := 0x0100

/-- `PICO_IDETH_IPV4`, little-endian. -/
def picoIdethIpv4 : UInt16 := 0x0008

/-- `PICO_ARP_MAX_RATE`. -/
def picoArpMaxRate : Nat := 1

/-- `struct pico_arp_hdr`. -/
structure PicoArpHdr where
  htype : UInt16
  ptype : UInt16
  hsize : UInt8
  psize : UInt8
  opcode : UInt16
  sMac : HwAddr
  src : Ip4
  dMac : HwAddr
  dst : Ip4
deriving DecidableEq, Repr

/-- The `type` argument of `pico_arp_request`. -/
inductive PicoArpType where
  | query | probe | announce
deriving DecidableEq, Repr

/-- A running stack: its tables, the request budget of `pico_arp_check_flooding`
and the frames handed to `dev->send` so far. -/
structure PicoStack where
  ipv4 : PicoIpv4 := {}
  maxArpReqs : Nat := picoArpMaxRate
  sent : List PicoArpHdr := []
deriving DecidableEq, Repr

/-- The header `pico_arp_request_xmit` fills; `src` is read by a query only. -/
def picoArpRequestXmit (dev : PicoDevice) (src dst : Ip4) (type : PicoArpType) : PicoArpHdr where
  htype := picoArpHtypeEth
  ptype := picoIdethIpv4
  hsize := 6
  psize := 4
  opcode := picoArpRequestOpcode
  sMac := dev.mac
  src := match type with
    | .announce => dst
    | .probe => 0
    | .query => src
  dMac := Vector.replicate 6 0
  dst := dst

/-- `pico_arp_request`: the frame it transmits; `none` is the exit with -1 of a
query that no route leads to. -/
def picoArpRequest (dev : PicoDevice) (ip : PicoIpv4) (dst : Ip4) (type : PicoArpType) :
    Option PicoArpHdr :=
  if type = .query then
    (picoIpv4SourceFind ip dst).map fun src => picoArpRequestXmit dev src dst type
  else some (picoArpRequestXmit dev 0 dst type)

/-- The query of some host at `src`. -/
def hostQuery (src dst : Ip4) : PicoArpHdr :=
  picoArpRequestXmit ⟨"host", #v[2, 0, 0, 0, 0, 9]⟩ src dst .query

/-- `dev->send` of a frame, if there is one. -/
def PicoStack.send (st : PicoStack) (frame : Option PicoArpHdr) : PicoStack :=
  { st with sent := st.sent ++ frame.toList }

/-- `pico_arp_check_incoming_hdr` answers 0. -/
def picoArpCheckIncomingHdr (hdr : PicoArpHdr) : Bool :=
  hdr.htype = picoArpHtypeEth && hdr.ptype = picoIdethIpv4 && (hdr.sMac[0] &&& 0x01) = 0

/-- The frame `pico_arp_reply_on_request` sends for a request, answering for `me`. -/
def picoArpReplyOnRequest (dev : PicoDevice) (hdr : PicoArpHdr) (me : Ip4) : Option PicoArpHdr :=
  if hdr.opcode ≠ picoArpRequestOpcode then none
  else some { hdr with
    opcode := picoArpReplyOpcode
    dMac := hdr.sMac
    sMac := dev.mac
    dst := hdr.src
    src := me }

/-- `pico_arp_process_in` on a frame received by `dev`. -/
def picoArpProcessIn (dev : PicoDevice) (st : PicoStack) (hdr : PicoArpHdr) : PicoStack :=
  let me := hdr.dst
  if !picoArpCheckIncomingHdr hdr then st
  else
    let linkDev := picoIpv4LinkFind st.ipv4 me
    let counted := linkDev = some dev ∧ hdr.opcode = picoArpRequestOpcode
    if counted ∧ st.maxArpReqs = 0 then st
    else
      let st := if counted then { st with maxArpReqs := st.maxArpReqs - 1 } else st
      if linkDev ≠ some dev then st
      else st.send (picoArpReplyOnRequest dev hdr me)

/-- What one `pico_stack_tick` may do that concerns ARP: take in a frame, ask
for some address, or refill the request budget (`update_max_arp_reqs`). -/
inductive StackWork where
  | receive (hdr : PicoArpHdr)
  | query (dst : Ip4)
  | refill
deriving DecidableEq, Repr

/-- One item of a tick on the stack of device `dev`. -/
def stackWork (dev : PicoDevice) (st : PicoStack) : StackWork → PicoStack
  | .receive hdr => picoArpProcessIn dev st hdr
  | .query dst => st.send (picoArpRequest dev st.ipv4 dst .query)
  | .refill =>
      if st.maxArpReqs < picoArpMaxRate then { st with maxArpReqs := st.maxArpReqs + 1 } else st

/-- `pico_stack_tick`, as far as ARP goes. -/
def picoStackTick (dev : PicoDevice) (st : PicoStack) (work : List StackWork) : PicoStack :=
  work.foldl (stackWork dev) st

/-! ### A tick leaves the tables alone and sends from linked addresses -/

@[simp] theorem PicoStack.send_ipv4 (st : PicoStack) (frame : Option PicoArpHdr) :
    (st.send frame).ipv4 = st.ipv4 := rfl

theorem PicoStack.mem_send {st : PicoStack} {frame : Option PicoArpHdr} {f : PicoArpHdr} :
    f ∈ (st.send frame).sent ↔ f ∈ st.sent ∨ frame = some f := by
  cases frame <;> simp [PicoStack.send, eq_comm]

/-- The sender address of a query is a linked address. -/
theorem picoArpRequest_query_src {dev : PicoDevice} {ip : PicoIpv4} (linked : RoutesLinked ip)
    {dst : Ip4} {f : PicoArpHdr} (sent : picoArpRequest dev ip dst .query = some f) :
    ∃ l ∈ ip.treeDevLink, l.address = f.src := by
  simp only [picoArpRequest, if_true, Option.map_eq_some_iff] at sent
  obtain ⟨src, found, rfl⟩ := sent
  exact picoIpv4SourceFind_linked linked found

/-- A request asks for the address it was called with. -/
theorem picoArpRequest_dst {dev : PicoDevice} {ip : PicoIpv4} {dst : Ip4} {type : PicoArpType}
    {f : PicoArpHdr} (sent : picoArpRequest dev ip dst type = some f) : f.dst = dst := by
  unfold picoArpRequest at sent
  split at sent
  · obtain ⟨src, -, rfl⟩ := Option.map_eq_some_iff.mp sent
    rfl
  · cases sent
    rfl

/-- A lookup that names a device found a link of that address. -/
theorem picoIpv4LinkFind_linked {ip : PicoIpv4} {address : Ip4} {dev : PicoDevice}
    (found : picoIpv4LinkFind ip address = some dev) :
    ∃ l ∈ ip.treeDevLink, l.address = address := by
  simp only [picoIpv4LinkFind, findLink, Option.map_eq_some_iff] at found
  obtain ⟨l, key, -⟩ := found
  have fits := List.find?_some key
  simp only [ipv4LinkMatches, Bool.and_eq_true, decide_eq_true_eq] at fits
  exact ⟨l, List.mem_of_find?_eq_some key, fits.1⟩

/-- What the receive path sends is a reply for a linked address. -/
theorem picoArpProcessIn_sent {dev : PicoDevice} {st : PicoStack} {hdr f : PicoArpHdr}
    (sent : f ∈ (picoArpProcessIn dev st hdr).sent) :
    f ∈ st.sent ∨ ∃ l ∈ st.ipv4.treeDevLink, l.address = f.src := by
  unfold picoArpProcessIn at sent
  dsimp only at sent
  split at sent
  · exact Or.inl sent
  · split at sent
    · exact Or.inl sent
    · split at sent
      · split at sent <;> exact Or.inl sent
      · rename_i _ _ ours
        have found : picoIpv4LinkFind st.ipv4 hdr.dst = some dev := not_not.mp ours
        rcases PicoStack.mem_send.mp sent with old | reply
        · left
          split at old <;> exact old
        · right
          obtain ⟨l, mem, address⟩ := picoIpv4LinkFind_linked found
          refine ⟨l, mem, address.trans ?_⟩
          unfold picoArpReplyOnRequest at reply
          split at reply
          · cases reply
          · cases reply
            rfl

/-- A well-formed request for a linked address is answered while the budget lasts. -/
theorem picoArpProcessIn_answers {dev : PicoDevice} {st : PicoStack} {hdr : PicoArpHdr}
    (valid : picoArpCheckIncomingHdr hdr = true) (request : hdr.opcode = picoArpRequestOpcode)
    (ours : picoIpv4LinkFind st.ipv4 hdr.dst = some dev) (budget : st.maxArpReqs ≠ 0) :
    ∃ f ∈ (picoArpProcessIn dev st hdr).sent, f.src = hdr.dst := by
  refine ⟨{ hdr with
    opcode := picoArpReplyOpcode
    dMac := hdr.sMac
    sMac := dev.mac
    dst := hdr.src
    src := hdr.dst }, ?_, rfl⟩
  simp [picoArpProcessIn, valid, request, ours, budget, PicoStack.send, picoArpReplyOnRequest]

@[simp] theorem picoArpProcessIn_ipv4 (dev : PicoDevice) (st : PicoStack) (hdr : PicoArpHdr) :
    (picoArpProcessIn dev st hdr).ipv4 = st.ipv4 := by
  unfold picoArpProcessIn
  dsimp only
  split
  · rfl
  · split
    · rfl
    · split
      · split <;> rfl
      · rw [PicoStack.send_ipv4]
        split <;> rfl

@[simp] theorem stackWork_ipv4 (dev : PicoDevice) (st : PicoStack) (work : StackWork) :
    (stackWork dev st work).ipv4 = st.ipv4 := by
  cases work with
  | receive hdr => exact picoArpProcessIn_ipv4 dev st hdr
  | query dst => rfl
  | refill =>
      simp only [stackWork]
      split <;> rfl

@[simp] theorem picoStackTick_ipv4 (dev : PicoDevice) (st : PicoStack) (work : List StackWork) :
    (picoStackTick dev st work).ipv4 = st.ipv4 := by
  induction work generalizing st with
  | nil => rfl
  | cons item work ih => exact (ih (stackWork dev st item)).trans (stackWork_ipv4 dev st item)

/-- Every frame a tick adds carries a linked address as its sender. -/
theorem picoStackTick_sent {dev : PicoDevice} {st : PicoStack} (linked : RoutesLinked st.ipv4)
    {work : List StackWork} {f : PicoArpHdr} (sent : f ∈ (picoStackTick dev st work).sent) :
    f ∈ st.sent ∨ ∃ l ∈ st.ipv4.treeDevLink, l.address = f.src := by
  induction work generalizing st with
  | nil => exact Or.inl sent
  | cons item work ih =>
      have kept : (stackWork dev st item).ipv4 = st.ipv4 := stackWork_ipv4 dev st item
      have tail := ih (kept ▸ linked) sent
      rw [kept] at tail
      rcases tail with head | own
      · cases item with
        | receive hdr => exact picoArpProcessIn_sent head
        | query dst =>
            rcases PicoStack.mem_send.mp head with old | query
            · exact Or.inl old
            · exact Or.inr (picoArpRequest_query_src linked query)
        | refill =>
            left
            simp only [stackWork] at head
            split at head <;> exact head
      · exact Or.inr own

end Rfsis.Pico
