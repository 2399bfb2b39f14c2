import Mathlib.Data.UInt

/-!
IPv4 addresses as picoTCP keeps them, and its parser for dotted strings.

A `struct pico_ip4` holds the four bytes in network order; the stack is built
little-endian (`ENDIAN?=little`), so the `uint32_t` in it is `long_from` of
those bytes. `short_be` swaps the two bytes of a port. The parser is
`pico_string_to_ipv4` with all of its rejecting exits; a rejected string leaves
the output untouched, which `none` stands for here.
-/

namespace Rfsis.Pico

/-- `struct pico_ip4`: the `addr` word, first byte of the address lowest. -/
abbrev Ip4 := UInt32

/-- `PICO_IP4_ANY`. -/
def picoIp4Any : Ip4 := 0x00000000

/-- `PICO_IP4_BCAST`. -/
def picoIp4Bcast : Ip4 := 0xffffffff

/-- `PICO_SIZE_IP4`. -/
abbrev picoSizeIp4 : Nat := 4

/-- `long_from` on a little-endian build. -/
def longFrom (p : Vector UInt8 picoSizeIp4) : Ip4 :=
  (p[3].toUInt32 <<< 24) + (p[2].toUInt32 <<< 16) + (p[1].toUInt32 <<< 8) + p[0].toUInt32

/-- `short_be` on a little-endian build: swap the two bytes of a port. -/
def shortBe (le : UInt16) : UInt16 :=
  ((le &&& 0xff) <<< 8) ||| ((le >>> 8) &&& 0xff)

/-- `long_be` on a little-endian build: reverse the four bytes. -/
def longBe (le : UInt32) : UInt32 :=
  (le >>> 24) + (((le >>> 16) &&& 0xff) <<< 8) + (((le >>> 8) &&& 0xff) <<< 16) +
    ((le &&& 0xff) <<< 24)

/-- `pico_is_digit`. -/
def picoIsDigit (c : Char) : Bool :=
  !(c < '0' || c > '9')

/-- The `while` loop of `pico_string_to_ipv4`: it stops at the terminator or
when a fourth dot has been counted, and rejects any other character. The digits
of one part wrap modulo 256 in their byte. -/
def scanIpv4 : List Char → Vector UInt8 picoSizeIp4 → Nat → Option (Vector UInt8 picoSizeIp4 × Nat)
  | [], buf, cnt => some (buf, cnt)
  | p :: ipstr, buf, cnt =>
      if p = '\x00' then some (buf, cnt)
      else if inBuf : cnt < picoSizeIp4 then
        if picoIsDigit p then
          scanIpv4 ipstr (buf.set cnt (10 * buf[cnt] + (p.toNat - '0'.toNat).toUInt8)) cnt
        else if p = '.' then scanIpv4 ipstr buf (cnt + 1)
        else none
      else some (buf, cnt)

/-- `pico_string_to_ipv4`: one dot and two dots are the short notations; no dot
and four dots are rejected. -/
def picoStringToIpv4 (ipstr : String) : Option Ip4 :=
  match scanIpv4 ipstr.toList (Vector.replicate picoSizeIp4 0) 0 with
  | none => none
  | some (buf, cnt) =>
      if cnt = 1 then some (longFrom #v[buf[0], 0, 0, buf[1]])
      else if cnt = 2 then some (longFrom #v[buf[0], buf[1], 0, buf[2]])
      else if cnt ≠ 3 then none
      else some (longFrom buf)

example : picoStringToIpv4 "192.168.1.20" = some (longFrom #v[192, 168, 1, 20]) := by decide
example : picoStringToIpv4 "10.5" = picoStringToIpv4 "10.0.0.5" := by decide
example : picoStringToIpv4 "192.168.1.276" = picoStringToIpv4 "192.168.1.20" := by decide

end Rfsis.Pico
