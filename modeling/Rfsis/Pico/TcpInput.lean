import Rfsis.Pico.TcpQueue

/-!
The receiving half of an established TCP connection: `tcp_data_in`, `tcp_closewait`,
`pico_tcp_read` and what they call.

A segment that begins where the stream goes on is queued, and `rcv_nxt` moves over it
and over all segments that follow it in the queue; one that begins later is queued
only if the peer may be sent selective acknowledgements; the rest is answered with an
acknowledgement and forgotten. A read copies out of the first segment, starting at the
byte `rcv_processed`, and drops the segments it is through with. The peer's FIN is
taken if the segment that carries it begins where the stream goes on.
-/

namespace Rfsis.Pico

open Rfsis.SearchTree

/-- The states of a connection that takes data, or has seen the peer's FIN. -/
inductive TcpState where
  | established | closeWait
deriving DecidableEq, Repr

/-- An acknowledgement: `ack` and `rwnd` of the header. -/
structure TcpAck where
  ack : UInt32
  rwnd : UInt32
deriving DecidableEq, Repr

/-- The fields of `struct pico_socket_tcp` that the receiving half uses, and the
acknowledgements and resets that were sent. -/
structure PicoSocketTcp where
  tcpqIn : PicoTcpQueue
  rcvNxt : UInt32
  rcvProcessed : UInt32
  rcvAckd : UInt32 := 0
  wnd : UInt32 := 0
  wndScale : UInt32 := 0
  sackOk : Bool
  localZeroWindow : Bool := false
  remoteClosed : Bool := false
  state : TcpState := .established
  shutRemote : Bool := false
  evRd : Bool := false
  evClose : Bool := false
  acks : List TcpAck := []
  resets : Nat := 0

/-! ### Windows and acknowledgements -/

/-- The loop of `tcp_set_space` that scales the window. -/
def scaleSpace : Nat → Nat → Nat → Nat × Nat
  | 0, space, shift => (space, shift)
  | fuel + 1, space, shift =>
      if space > 0xFFFF then scaleSpace fuel (space / 2) (shift + 1) else (space, shift)

/-- The room in the input queue; `ONE_GIGABYTE` if it has no limit. -/
def freeSpace (q : PicoTcpQueue) : Int :=
  if q.maxSize = 0 then 1024 * 1024 * 1024 else toInt32 (q.maxSize - q.size)

/-- `tcp_set_space`: the window, its scale, and whether it was zero and is not now, so
that the peer has to be told. -/
def tcpSetSpace (t : PicoSocketTcp) : PicoSocketTcp × Bool :=
  let scaled := scaleSpace 32 (freeSpace t.tcpqIn).toNat 0
  let space := scaled.1
  let shift := scaled.2
  if space ≠ t.wnd.toNat ∨ shift ≠ t.wndScale.toNat ∨ (space : Int) - t.wnd.toNat > space / 4 then
    let t' := { t with wnd := UInt32.ofNat space, wndScale := UInt32.ofNat shift }
    if t'.wnd = 0 then ({ t' with localZeroWindow := true }, false)
    else ({ t' with localZeroWindow := false }, t.localZeroWindow)
  else (t, false)

/-- The acknowledgement that `tcp_send_empty` puts into the output queue. -/
def pushAck (t : PicoSocketTcp) : PicoSocketTcp :=
  { t with rcvAckd := t.rcvNxt, acks := t.acks ++ [⟨t.rcvNxt, t.wnd⟩] }

/-- `tcp_set_space`, with the acknowledgement that tells the peer of a new window. The
`tcp_set_space` of that one finds nothing to change. -/
def tcpUpdateSpace (t : PicoSocketTcp) : PicoSocketTcp :=
  let out := tcpSetSpace t
  if out.2 then pushAck out.1 else out.1

/-- `tcp_send_ack`. -/
def tcpSendAck (t : PicoSocketTcp) : PicoSocketTcp :=
  pushAck (tcpUpdateSpace t)

/-! ### Data -/

/-- A segment as it comes in, with or without data. -/
structure TcpFrame where
  seq : UInt32
  payload : List UInt8
  short : payload.length < 2 ^ 16

/-- `segment_from_frame`. -/
def segmentFromFrame (f : TcpFrame) : Option TcpInputSegment :=
  if f.payload = [] then none else some ⟨f.seq, f.payload, f.short⟩

/-- The loop of `tcp_data_in_expected` that scrolls `rcv_nxt`. -/
def scroll (q : PicoTcpQueue) : Nat → UInt32 → UInt32
  | 0, rcvNxt => rcvNxt
  | fuel + 1, rcvNxt =>
      match peekSegment q rcvNxt with
      | none => rcvNxt
      | some nxt => scroll q fuel (rcvNxt + nxt.payloadLen)

/-- `tcp_data_in_expected`. -/
def tcpDataInExpected (t : PicoSocketTcp) (f : TcpFrame) : PicoSocketTcp :=
  if picoSeqCompare f.seq t.rcvNxt = 0 then
    match segmentFromFrame f with
    | none => t
    | some input =>
        let out := picoEnqueueSegment t.tcpqIn input
        if out.1 ≤ 0 then t
        else
          { t with
            tcpqIn := out.2
            rcvNxt := scroll out.2 (out.2.pool.toList.length + 1) (f.seq + input.payloadLen)
            evRd := true }
  else t

/-- `tcp_data_in_high_segment`. The selective acknowledgements that it prepares are not
modelled. -/
def tcpDataInHighSegment (t : PicoSocketTcp) (f : TcpFrame) : PicoSocketTcp :=
  if t.sackOk then
    match segmentFromFrame f with
    | none => t
    | some input =>
        let out := picoEnqueueSegment t.tcpqIn input
        if out.1 ≤ 0 then t else { t with tcpqIn := out.2 }
  else t

/-- `tcp_data_in`. -/
def tcpDataIn (t : PicoSocketTcp) (f : TcpFrame) : PicoSocketTcp :=
  let t :=
    if picoSeqCompare f.seq t.rcvNxt ≤ 0 then tcpDataInExpected t f
    else tcpDataInHighSegment t f
  if t.state = .closeWait then t else tcpSendAck t

/-! ### The end of the stream -/

/-- `tcp_attempt_closewait`; both states that are modelled become `closeWait`. -/
def tcpAttemptClosewait (t : PicoSocketTcp) (f : TcpFrame) : PicoSocketTcp :=
  if picoSeqCompare f.seq t.rcvNxt = 0 then
    let t := { t with rcvNxt := f.seq + 1 }
    if picoSeqCompare f.seq t.rcvProcessed = 0 then
      { t with state := .closeWait, shutRemote := true }
    else { t with remoteClosed := true }
  else t

/-- `tcp_closewait`. -/
def tcpClosewait (t : PicoSocketTcp) (f : TcpFrame) : PicoSocketTcp :=
  let t := if f.payload = [] then t else tcpDataIn t f
  tcpSendAck (tcpAttemptClosewait t f)

/-- The call of `data` in `tcp_action_by_flags`, with the entries of `tcp_fsm` for the two
states: `tcp_data_in` and `tcp_send_rst`. -/
def tcpActionData (t : PicoSocketTcp) (f : TcpFrame) (psh : Bool) : PicoSocketTcp :=
  if f.payload = [] ∧ psh = false then t
  else
    match t.state with
    | .established => tcpDataIn t f
    | .closeWait => { t with resets := t.resets + 1 }

theorem tcpActionData_established {t : PicoSocketTcp} {f : TcpFrame} (some_ : f.payload ≠ [])
    (state : t.state = .established) (psh : Bool) : tcpActionData t f psh = tcpDataIn t f := by
  rw [tcpActionData, if_neg fun none_ => some_ none_.1, state]

theorem tcpActionData_closeWait {t : PicoSocketTcp} {f : TcpFrame} (some_ : f.payload ≠ [])
    (state : t.state = .closeWait) (psh : Bool) :
    tcpActionData t f psh = { t with resets := t.resets + 1 } := by
  unfold tcpActionData
  rw [if_neg fun none_ => some_ none_.1]
  split
  · rename_i established
    rw [established] at state
    cases state
  · rfl

/-- `pico_tcp_input`, for segments without SYN and RST. What `tcp_ack` does to the sending
half is not modelled. -/
def picoTcpInput (t : PicoSocketTcp) (f : TcpFrame) (psh fin : Bool) : PicoSocketTcp :=
  let t := tcpActionData t f psh
  if fin then tcpClosewait t f else t

/-! ### Reading -/

/-- `tcp_read_in_frame_len`. -/
def tcpReadInFrameLen (f : TcpInputSegment) (inFrameOff : Int) (totRdLen readOpLen : UInt32) :
    UInt32 :=
  let inFrameLen :=
    if inFrameOff > 0 then f.payloadLen - UInt32.ofNat inFrameOff.toNat else f.payloadLen
  if inFrameLen + totRdLen > readOpLen then readOpLen - totRdLen else inFrameLen

/-- The bytes that `memcpy` finds from a place of the payload on; what is behind the
payload in memory can be anything. -/
def copied (behind : Nat → UInt8) (f : TcpInputSegment) (inFrameOff inFrameLen : Nat) :
    List UInt8 :=
  (List.range' inFrameOff inFrameLen).map fun i => (f.payload[i]?).getD (behind i)

/-- `tcp_read_check_segment_done`. -/
def tcpReadCheckSegmentDone (q : PicoTcpQueue) (f : TcpInputSegment) (inFrameLen : UInt32) :
    PicoTcpQueue :=
  if inFrameLen = 0 ∨ inFrameLen = f.payloadLen then picoDiscardSegment q f else q

/-- The loop of `pico_tcp_read`: the socket and the bytes in the buffer. -/
def readLoop (behind : Nat → UInt8) (len : UInt32) :
    Nat → PicoSocketTcp → UInt32 → PicoSocketTcp × List UInt8
  | 0, t, _ => (t, [])
  | fuel + 1, t, totRdLen =>
      if totRdLen < len then
        let t := { t with tcpqIn := releaseUntil t.tcpqIn t.rcvProcessed }
        match firstSegment t.tcpqIn with
        | none => (t, [])
        | some f =>
            let inFrameOff := picoSeqCompare t.rcvProcessed f.seq
            if inFrameOff < 0 then (t, [])
            else
              let inFrameLen := tcpReadInFrameLen f inFrameOff totRdLen len
              let bytes := copied behind f inFrameOff.toNat inFrameLen.toNat
              let rest := readLoop behind len fuel
                { t with
                  rcvProcessed := t.rcvProcessed + inFrameLen
                  tcpqIn := tcpReadCheckSegmentDone t.tcpqIn f inFrameLen }
                (totRdLen + inFrameLen)
              (rest.1, bytes ++ rest.2)
      else (t, [])

/-- `tcp_read_finish`. -/
def tcpReadFinish (t : PicoSocketTcp) : PicoSocketTcp :=
  let t := tcpUpdateSpace t
  let t := if t.tcpqIn.size = 0 then { t with evRd := false } else t
  if t.remoteClosed then { t with evClose := true, state := .closeWait, shutRemote := true } else t

/-- `pico_tcp_read`. Every turn of the loop but the last copies a byte. -/
def picoTcpRead (behind : Nat → UInt8) (t : PicoSocketTcp) (len : UInt32) :
    PicoSocketTcp × List UInt8 :=
  let out := readLoop behind len (len.toNat + 1) t 0
  (tcpReadFinish out.1, out.2)

/-- `pico_socket_tcp_read`, or `none` for `PICO_ERR_ESHUTDOWN`. -/
def picoSocketTcpRead (behind : Nat → UInt8) (t : PicoSocketTcp) (len : UInt32) :
    Option (PicoSocketTcp × List UInt8) :=
  if t.shutRemote ∧ t.tcpqIn.frames = 0 then none else some (picoTcpRead behind t len)

theorem tcpReadCheckSegmentDone_maxSize (q : PicoTcpQueue) (f : TcpInputSegment)
    (inFrameLen : UInt32) : (tcpReadCheckSegmentDone q f inFrameLen).maxSize = q.maxSize := by
  unfold tcpReadCheckSegmentDone
  split
  · exact picoDiscardSegment_maxSize q f
  · rfl

/-- A read does not change how much fits into the queue. -/
theorem readLoop_maxSize (behind : Nat → UInt8) (len : UInt32) (fuel : Nat) (t : PicoSocketTcp)
    (totRdLen : UInt32) :
    (readLoop behind len fuel t totRdLen).1.tcpqIn.maxSize = t.tcpqIn.maxSize := by
  induction fuel generalizing t totRdLen with
  | zero => rfl
  | succ fuel ih =>
      have released := releaseLoop_maxSize t.rcvProcessed
      unfold readLoop
      split
      · dsimp only
        split
        · exact released _ _ _
        · split
          · exact released _ _ _
          · rw [ih]
            exact (tcpReadCheckSegmentDone_maxSize _ _ _).trans (released _ _ _)
      · rfl

/-! ### What an acknowledgement changes -/

/-- The window that `tcp_set_space` sets. -/
def windowOf (q : PicoTcpQueue) : UInt32 :=
  UInt32.ofNat (scaleSpace 32 (freeSpace q).toNat 0).1

/-- A socket without its windows and acknowledgements. -/
def silent (t : PicoSocketTcp) : PicoSocketTcp :=
  { t with rcvAckd := 0, wnd := 0, wndScale := 0, localZeroWindow := false, acks := [] }

/-- Only windows and acknowledgements differ, and these are of what is expected next,
with the room there is. -/
structure Announces (t t' : PicoSocketTcp) : Prop where
  frame : silent t' = silent t
  acks : ∀ a ∈ t'.acks, a ∈ t.acks ∨ a = ⟨t.rcvNxt, windowOf t.tcpqIn⟩

theorem Announces.rcvNxt {t t' : PicoSocketTcp} (out : Announces t t') :
    t'.rcvNxt = t.rcvNxt := by
  have same := congrArg PicoSocketTcp.rcvNxt out.frame
  exact same

theorem Announces.tcpqIn {t t' : PicoSocketTcp} (out : Announces t t') :
    t'.tcpqIn = t.tcpqIn := by
  have same := congrArg PicoSocketTcp.tcpqIn out.frame
  exact same

theorem Announces.sackOk {t t' : PicoSocketTcp} (out : Announces t t') :
    t'.sackOk = t.sackOk := by
  have same := congrArg PicoSocketTcp.sackOk out.frame
  exact same

theorem tcpSetSpace_wnd (t : PicoSocketTcp) : (tcpSetSpace t).1.wnd = windowOf t.tcpqIn := by
  unfold tcpSetSpace
  dsimp only
  split
  · split <;> rfl
  · rename_i same
    simp only [not_or, not_not] at same
    rw [windowOf, same.1]
    exact UInt32.ofNat_toNat.symm

theorem tcpSetSpace_announces (t : PicoSocketTcp) : Announces t (tcpSetSpace t).1 := by
  unfold tcpSetSpace
  dsimp only
  split
  · split <;> exact ⟨rfl, fun a => Or.inl⟩
  · exact ⟨rfl, fun a => Or.inl⟩

theorem Announces.pushAck {t t' : PicoSocketTcp} (out : Announces t t')
    (wnd : t'.wnd = windowOf t.tcpqIn) : Announces t (pushAck t') := by
  constructor
  · exact out.frame
  · intro a mem
    rcases List.mem_append.mp mem with old | new
    · exact out.acks a old
    · rw [List.mem_singleton.mp new, out.rcvNxt, wnd]
      exact Or.inr rfl

theorem tcpUpdateSpace_announces (t : PicoSocketTcp) :
    Announces t (tcpUpdateSpace t) ∧ (tcpUpdateSpace t).wnd = windowOf t.tcpqIn := by
  have out := tcpSetSpace_announces t
  have wnd := tcpSetSpace_wnd t
  unfold tcpUpdateSpace
  dsimp only
  split
  · exact ⟨out.pushAck wnd, wnd⟩
  · exact ⟨out, wnd⟩

theorem tcpSendAck_announces (t : PicoSocketTcp) : Announces t (tcpSendAck t) := by
  obtain ⟨out, wnd⟩ := tcpUpdateSpace_announces t
  exact out.pushAck wnd

/-! ### The window after each call -/

/-- The socket has the window that fits its queue. -/
def WindowSet (t : PicoSocketTcp) : Prop := t.wnd = windowOf t.tcpqIn

theorem tcpUpdateSpace_windowSet (t : PicoSocketTcp) : WindowSet (tcpUpdateSpace t) := by
  obtain ⟨out, wnd⟩ := tcpUpdateSpace_announces t
  rw [WindowSet, wnd, out.tcpqIn]

theorem tcpSendAck_windowSet (t : PicoSocketTcp) : WindowSet (tcpSendAck t) :=
  tcpUpdateSpace_windowSet t

theorem tcpDataInExpected_state (t : PicoSocketTcp) (f : TcpFrame) :
    (tcpDataInExpected t f).state = t.state := by
  unfold tcpDataInExpected
  split
  · split
    · rfl
    · dsimp only
      split <;> rfl
  · rfl

theorem tcpDataInHighSegment_state (t : PicoSocketTcp) (f : TcpFrame) :
    (tcpDataInHighSegment t f).state = t.state := by
  unfold tcpDataInHighSegment
  split
  · split
    · rfl
    · dsimp only
      split <;> rfl
  · rfl

theorem picoTcpInput_windowSet {t : PicoSocketTcp} (f : TcpFrame) (psh fin : Bool)
    (set : WindowSet t) : WindowSet (picoTcpInput t f psh fin) := by
  unfold picoTcpInput
  dsimp only
  split
  · exact tcpSendAck_windowSet _
  · unfold tcpActionData
    split
    · exact set
    · split
      · rename_i established
        have still : (if picoSeqCompare f.seq t.rcvNxt ≤ 0 then tcpDataInExpected t f
            else tcpDataInHighSegment t f).state = t.state := by
          split
          · exact tcpDataInExpected_state t f
          · exact tcpDataInHighSegment_state t f
        unfold tcpDataIn
        dsimp only
        rw [still, established, if_neg (by simp)]
        exact tcpSendAck_windowSet _
      · exact set

theorem tcpAttemptClosewait_tcpqIn (t : PicoSocketTcp) (f : TcpFrame) :
    (tcpAttemptClosewait t f).tcpqIn = t.tcpqIn := by
  unfold tcpAttemptClosewait
  split
  · dsimp only
    split <;> rfl
  · rfl

theorem tcpAttemptClosewait_sackOk (t : PicoSocketTcp) (f : TcpFrame) :
    (tcpAttemptClosewait t f).sackOk = t.sackOk := by
  unfold tcpAttemptClosewait
  split
  · dsimp only
    split <;> rfl
  · rfl

theorem tcpReadFinish_tcpqIn (t : PicoSocketTcp) : (tcpReadFinish t).tcpqIn = t.tcpqIn := by
  have out := (tcpUpdateSpace_announces t).1.tcpqIn
  unfold tcpReadFinish
  dsimp only
  split
  · split <;> exact out
  · split <;> exact out

theorem tcpReadFinish_sackOk (t : PicoSocketTcp) : (tcpReadFinish t).sackOk = t.sackOk := by
  have out := (tcpUpdateSpace_announces t).1.sackOk
  unfold tcpReadFinish
  dsimp only
  split
  · split <;> exact out
  · split <;> exact out

theorem tcpReadFinish_windowSet (t : PicoSocketTcp) : WindowSet (tcpReadFinish t) := by
  have set := tcpUpdateSpace_windowSet t
  unfold tcpReadFinish
  dsimp only
  split
  · split <;> exact set
  · split <;> exact set

end Rfsis.Pico
