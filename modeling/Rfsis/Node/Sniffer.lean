import Rfsis.Node.Config

/-!
`class arpSniffer`: the callback on sniffed ARP frames and the timer threads.

The callback compares libtins addresses, so every configured string in it goes
through `inet_pton`, and a string that `inet_pton` rejects makes the conversion
throw. The exception leaves `sniff_loop`, `start` catches it, and the sniffer
thread is over; `sniffing` records that. What the callback wrote before the
throw stays written.
-/

namespace Rfsis.Node

open Rfsis.Pico

/-- The scan of `inet_pton(AF_INET, ..)`: four parts of one to three digits, none
above 255 and none with a leading zero. `sawDigit` says that the part at `cnt`
has begun. -/
def inetPtonScan : List Char → Vector UInt8 picoSizeIp4 → Nat → Bool →
    Option (Vector UInt8 picoSizeIp4)
  | [], buf, cnt, sawDigit => if cnt = 3 ∧ sawDigit then some buf else none
  | ch :: src, buf, cnt, sawDigit =>
      if ch = '\x00' then (if cnt = 3 ∧ sawDigit then some buf else none)
      else if inBuf : cnt < picoSizeIp4 then
        if picoIsDigit ch then
          let new := 10 * buf[cnt].toNat + (ch.toNat - '0'.toNat)
          if sawDigit ∧ buf[cnt] = 0 then none
          else if 255 < new then none
          else inetPtonScan src (buf.set cnt new.toUInt8) cnt true
        else if ch = '.' ∧ sawDigit then
          if cnt = 3 then none else inetPtonScan src buf (cnt + 1) false
        else none
      else none

/-- `IPv4Address(const std::string&)` of libtins; `none` is `invalid_address`. -/
def inetPton (s : String) : Option Ip4 :=
  (inetPtonScan s.toList (Vector.replicate picoSizeIp4 0) 0 false).map longFrom

/-- What `inet_pton` accepts, the loop of `pico_string_to_ipv4` reads alike. -/
theorem scanIpv4_of_inetPtonScan {src : List Char} {buf out : Vector UInt8 picoSizeIp4} {cnt : Nat}
    {sawDigit : Bool} (accepted : inetPtonScan src buf cnt sawDigit = some out) :
    scanIpv4 src buf cnt = some (out, 3) := by
  induction src generalizing buf cnt sawDigit with
  | nil =>
      simp only [inetPtonScan, Option.ite_none_right_eq_some, Option.some.injEq] at accepted
      obtain ⟨⟨rfl, -⟩, rfl⟩ := accepted
      rfl
  | cons ch src ih =>
      rw [inetPtonScan] at accepted
      rw [scanIpv4]
      by_cases nul : ch = '\x00'
      · simp only [nul, if_true, Option.ite_none_right_eq_some, Option.some.injEq] at accepted ⊢
        obtain ⟨⟨rfl, -⟩, rfl⟩ := accepted
        rfl
      · rw [if_neg nul] at accepted ⊢
        by_cases inBuf : cnt < picoSizeIp4
        · rw [dif_pos inBuf] at accepted ⊢
          by_cases digit : picoIsDigit ch
          · rw [if_pos digit] at accepted ⊢
            dsimp only at accepted
            split at accepted
            · cases accepted
            · split at accepted
              · cases accepted
              · rename_i _ small
                have byte : 10 * buf[cnt] + (ch.toNat - '0'.toNat).toUInt8 =
                    (10 * buf[cnt].toNat + (ch.toNat - '0'.toNat)).toUInt8 := by
                  simp [Nat.toUInt8]
                rw [byte]
                exact ih accepted
          · rw [if_neg digit] at accepted ⊢
            split at accepted
            · rename_i dot
              rw [if_pos dot.1]
              split at accepted
              · cases accepted
              · exact ih accepted
            · cases accepted
        · rw [dif_neg inBuf] at accepted
          cases accepted

/-- The two parsers of the program agree wherever libtins does not throw. -/
theorem picoStringToIpv4_of_inetPton {s : String} {a : Ip4} (accepted : inetPton s = some a) :
    picoStringToIpv4 s = some a := by
  simp only [inetPton, Option.map_eq_some_iff] at accepted
  obtain ⟨out, scanned, rfl⟩ := accepted
  simp [picoStringToIpv4, scanIpv4_of_inetPtonScan scanned]

example : inetPton "192.168.1.20" = some (longFrom #v[192, 168, 1, 20]) := by decide
example : inetPton "10.5" = none ∧ inetPton "192.168.1.276" = none := by decide

/-! ### The callback -/

/-- `class arpSniffer`, and whether its thread is still in `sniff_loop`. -/
structure ArpSniffer where
  macFlag : Int := 0
  threadCount : Int := 0
  macCloned : Bool := false
  sniffing : Bool := true
deriving DecidableEq, Repr

/-- `++` on an `int`, wrapping. -/
def incrInt (n : Int) : Int :=
  Int.bmod (n + 1) (2 ^ 32)

/-- What `arpSniffer::callback` leaves: `conf`, the sniffer, and the
`timerThreadId` of the timer thread it started, if it started one. -/
structure Callback where
  conf : ConfigParser
  sniffer : ArpSniffer
  arpTimer : Option Int
deriving DecidableEq, Repr

/-- The first test of the callback: hand the role over once `macFlag` is set. -/
def ArpSniffer.promote (sniffer : ArpSniffer) (conf : ConfigParser) : ConfigParser × ArpSniffer :=
  if sniffer.macFlag = 1 ∧ sniffer.macCloned = false then
    ({ conf with backup := false }, { sniffer with macCloned := true })
  else (conf, sniffer)

/-- The body of the second test: count the frame, start its timer thread, keep
the sender's hardware address. The comparison with `backup_addr` only chooses
what is printed, but it can throw. -/
def ArpSniffer.count (sniffer : ArpSniffer) (conf : ConfigParser) (arp : PicoArpHdr) : Callback :=
  let sniffer := { sniffer with threadCount := incrInt sniffer.threadCount }
  match inetPton conf.backupAddr with
  | none => ⟨conf, { sniffer with sniffing := false }, some sniffer.threadCount⟩
  | some _ => ⟨{ conf with hwaddress := arp.sMac }, sniffer, some sniffer.threadCount⟩

/-- `arpSniffer::callback`. -/
def ArpSniffer.callback (sniffer : ArpSniffer) (conf : ConfigParser) (arp : PicoArpHdr) :
    Callback :=
  let (conf, sniffer) := sniffer.promote conf
  match inetPton conf.ipv4Addr with
  | none => ⟨conf, { sniffer with sniffing := false }, none⟩
  | some main =>
      if arp.src = main ∧ sniffer.macFlag ≠ 1 then sniffer.count conf arp
      else ⟨conf, sniffer, none⟩

/-- The sender of the frame is the main, as the callback decides it. -/
def fromMain (config : ConfigJson) (arp : PicoArpHdr) : Prop :=
  inetPton config.ipv4Addr = some arp.src

instance (config : ConfigJson) (arp : PicoArpHdr) : Decidable (fromMain config arp) :=
  inferInstanceAs (Decidable (_ = _))

/-- After the timeout the callback counts nothing; it hands the role over. -/
theorem ArpSniffer.callback_timedOut {sniffer : ArpSniffer} (conf : ConfigParser)
    (arp : PicoArpHdr) (timedOut : sniffer.macFlag = 1) :
    sniffer.callback conf arp =
      ⟨(sniffer.promote conf).1, { (sniffer.promote conf).2 with
        sniffing := sniffer.sniffing && (inetPton conf.ipv4Addr).isSome }, none⟩ := by
  have addr : (sniffer.promote conf).1.ipv4Addr = conf.ipv4Addr := by
    unfold promote
    split <;> rfl
  have flag : (sniffer.promote conf).2.macFlag = 1 := by
    unfold promote
    split <;> exact timedOut
  have sniffs : (sniffer.promote conf).2.sniffing = sniffer.sniffing := by
    unfold promote
    split <;> rfl
  simp only [callback, addr]
  generalize sniffer.promote conf = handed at flag sniffs ⊢
  obtain ⟨conf', sniffer'⟩ := handed
  dsimp only at flag sniffs
  cases inetPton conf.ipv4Addr with
  | none => simp
  | some main =>
      dsimp only
      rw [if_neg fun both => both.2 flag]
      simp [← sniffs]

/-- Before the timeout the callback counts the frames of the main and no others. -/
theorem ArpSniffer.callback_waiting {sniffer : ArpSniffer} (conf : ConfigParser)
    (arp : PicoArpHdr) (waiting : sniffer.macFlag ≠ 1) :
    sniffer.callback conf arp =
      if fromMain conf.toConfigJson arp then sniffer.count conf arp
      else ⟨conf, { sniffer with
        sniffing := sniffer.sniffing && (inetPton conf.ipv4Addr).isSome }, none⟩ := by
  have kept : sniffer.promote conf = (conf, sniffer) := if_neg fun both => waiting both.1
  simp only [callback, kept]
  cases parsed : inetPton conf.ipv4Addr with
  | none => simp [fromMain, parsed]
  | some main => simp [fromMain, parsed, waiting, eq_comm]

section Fields

variable (sniffer : ArpSniffer) (conf : ConfigParser) (arp : PicoArpHdr)

@[simp] theorem ArpSniffer.promote_macFlag :
    (sniffer.promote conf).2.macFlag = sniffer.macFlag := by
  unfold promote
  split <;> rfl

@[simp] theorem ArpSniffer.promote_threadCount :
    (sniffer.promote conf).2.threadCount = sniffer.threadCount := by
  unfold promote
  split <;> rfl

/-- Handing over writes `backup` in `conf` and nothing else. -/
theorem ArpSniffer.promote_conf :
    (sniffer.promote conf).1 = { conf with backup := (sniffer.promote conf).1.backup } := by
  unfold promote
  split <;> rfl

/-- After a timeout the callback leaves the role handed over. -/
theorem ArpSniffer.promote_macCloned (timedOut : sniffer.macFlag = 1) :
    (sniffer.promote conf).2.macCloned = true := by
  unfold promote
  split
  · rfl
  · rename_i once
    cases cloned : sniffer.macCloned with
    | true => rfl
    | false => exact absurd ⟨timedOut, cloned⟩ once

theorem ArpSniffer.promote_backup (timedOut : sniffer.macFlag = 1)
    (agree : conf.backup = !sniffer.macCloned) : (sniffer.promote conf).1.backup = false := by
  unfold promote
  split
  · rfl
  · rename_i once
    cases cloned : sniffer.macCloned with
    | true => rw [agree, cloned, Bool.not_true]
    | false => exact absurd ⟨timedOut, cloned⟩ once

@[simp] theorem ArpSniffer.count_macFlag :
    (sniffer.count conf arp).sniffer.macFlag = sniffer.macFlag := by
  unfold count
  dsimp only
  split <;> rfl

@[simp] theorem ArpSniffer.count_macCloned :
    (sniffer.count conf arp).sniffer.macCloned = sniffer.macCloned := by
  unfold count
  dsimp only
  split <;> rfl

@[simp] theorem ArpSniffer.count_threadCount :
    (sniffer.count conf arp).sniffer.threadCount = incrInt sniffer.threadCount := by
  unfold count
  dsimp only
  split <;> rfl

@[simp] theorem ArpSniffer.count_arpTimer :
    (sniffer.count conf arp).arpTimer = some (incrInt sniffer.threadCount) := by
  unfold count
  dsimp only
  split <;> rfl

/-- Counting a frame writes `hwaddress` in `conf` and nothing else. -/
theorem ArpSniffer.count_conf :
    (sniffer.count conf arp).conf =
      { conf with hwaddress := (sniffer.count conf arp).conf.hwaddress } := by
  unfold count
  dsimp only
  split <;> rfl

/-- The hardware address kept is the sender's, unless `backup_addr` made the callback throw. -/
theorem ArpSniffer.count_hwaddress (accepted : (inetPton conf.backupAddr).isSome) :
    (sniffer.count conf arp).conf.hwaddress = arp.sMac := by
  unfold count
  dsimp only
  split
  · rename_i rejected
    simp [rejected] at accepted
  · rfl

end Fields

/-! ### The timer threads -/

/-- Where a timer thread is: not scheduled yet, in its waiting loop with the
clock reading `start`, or past the loop. -/
inductive TimerPhase where
  | created
  | sleeping (start : Nat)
  | awake
deriving DecidableEq, Repr

/-- A thread running `arpSniffer::threadTimer`, with its third argument and the
time at which it was constructed. -/
structure TimerThread where
  timerThreadId : Int
  created : Nat
  phase : TimerPhase
deriving DecidableEq, Repr

/-- The microseconds that end the loop of `threadTimer`. -/
def timerMicros : Nat := 1500000

/-- `duration_cast<microseconds>(now - start)` on readings in nanoseconds. -/
def elapsedMicros (start now : Nat) : Nat :=
  (now - start) / 1000

/-- The last test of `threadTimer`. -/
def ArpSniffer.timerCheck (sniffer : ArpSniffer) (timerThreadId : Int) : ArpSniffer :=
  if sniffer.threadCount = timerThreadId then { sniffer with macFlag := 1 } else sniffer

end Rfsis.Node
