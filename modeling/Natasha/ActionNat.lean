import Natasha.Checksum
import Natasha.Worker

/-! The NAT rewrite of action_nat.c: the outer address and its checksums, and the quoted
header inside an ICMP error. `core->app_config` is loaded again for each lookup. -/
namespace Natasha

open Interaction

/-- `PKT_TX_TCP_CKSUM` and `PKT_TX_UDP_CKSUM`: two values of one two-bit field. -/
def pktTxTcpCksum : U64 := 1 <<< 52
def pktTxUdpCksum : U64 := 3 <<< 52

@[simp] def icmpDestUnreach : Byte := 3
@[simp] def icmpTimeExceeded : Byte := 11
@[simp] def icmpParameterprob : Byte := 12

/-- `lookup_and_rewrite`: `field` is the offset of the word to overwrite. -/
def lookupAndRewrite (lookupTable : NatLookup) (ip : U32) (field : Nat) : M Int :=
  match natLookupIp lookupTable ip with
  | none => do
    rtePktmbufFree
    return -1
  | some value => do
    store32 field value
    return 0

def cksumUpdateAt (field : Nat) (before after : U32) : M Unit := do
  let csum ← load16 field
  store16 field (cksumUpdate csum before after)

/-- `unlikely(x)` is `__builtin_expect(!!(x), 0)`. -/
def unlikely (x : U64) : Int := if x = 0 then 0 else 1

/-- The header quoted by an ICMP error follows the ICMP header. -/
@[simp] def innerIpv4Header : Nat := l4Header + sizeofIcmpHdr

def AddrField.offset : AddrField → Nat
  | .src => Ipv4.srcAddr
  | .dst => Ipv4.dstAddr

@[simp] theorem AddrField.offset_src : AddrField.src.offset = 12 := rfl
@[simp] theorem AddrField.offset_dst : AddrField.dst.offset = 16 := rfl

/-- `icmp_nat_handle`. The length test compares the result of `unlikely` with zero, on
operands that are unsigned in any case. -/
def icmpNatHandle (innerIpv4ToRewrite : AddrField) : M Int := do
  let icmpType ← load8 (l4Header + Icmp.icmpType)
  if icmpType ≠ icmpDestUnreach ∧ icmpType ≠ icmpTimeExceeded ∧ icmpType ≠ icmpParameterprob then
    return 0
  let totalLength ← load16 (ipv4Header + Ipv4.totalLength)
  if unlikely ((rteBeToCpu16 totalLength).setWidth 64 - .ofNat 64 sizeofIpv4Hdr
      - .ofNat 64 sizeofIcmpHdr - .ofNat 64 sizeofIpv4Hdr) < 0 then
    return -1
  let innerAddress := innerIpv4Header + innerIpv4ToRewrite.offset
  let oldIpv4Cksum ← load16 (innerIpv4Header + Ipv4.hdrChecksum)
  let oldIpv4Address ← load32 innerAddress
  let config ← appConfig
  readConfig config .natLookup
  if (← lookupAndRewrite config.config.natLookup (rteBeToCpu32 oldIpv4Address) innerAddress) < 0 then
    bump .dropNoRule
    return -1
  let newIpv4Address ← load32 innerAddress
  cksumUpdateAt (innerIpv4Header + Ipv4.hdrChecksum) oldIpv4Address newIpv4Address
  let newIpv4Cksum ← load16 (innerIpv4Header + Ipv4.hdrChecksum)
  cksumUpdateAt (l4Header + Icmp.icmpCksum) (oldIpv4Cksum.setWidth 32) (newIpv4Cksum.setWidth 32)
  cksumUpdateAt (l4Header + Icmp.icmpCksum) oldIpv4Address newIpv4Address
  return 0

/-- The L4 checksum at `field` of a packet that holds the L4 header: updated in place for
the first of several fragments, left to the NIC for a whole datagram. -/
def l4CksumUpdate (field : Nat) (offload : U64) (before after : U32) : M Unit := do
  if nataIsFirstFrag (← load16 (ipv4Header + Ipv4.fragmentOffset)) then
    cksumUpdateAt field before after
  else do
    store16 field 0
    writePkt fun m => { m with olFlags := m.olFlags ||| offload }

/-- `action_nat_rewrite_impl`; `address` is the offset of the outer address. -/
def actionNatRewriteImpl (address : Nat) (innerIpv4ToRewrite : AddrField) : M Int := do
  let saveIpv4 ← load32 address
  let config ← appConfig
  readConfig config .natLookup
  if (← lookupAndRewrite config.config.natLookup (rteBeToCpu32 saveIpv4) address) < 0 then
    bump .dropNoRule
    return -1
  let newIpv4 ← load32 address
  cksumUpdateAt (ipv4Header + Ipv4.hdrChecksum) saveIpv4 newIpv4
  let nextProtoId ← load8 (ipv4Header + Ipv4.nextProtoId)
  let proto := if nataIsFrag (← load16 (ipv4Header + Ipv4.fragmentOffset)) then 0 else nextProtoId
  if proto = ipprotoTcp then
    l4CksumUpdate (l4Header + Tcp.cksum) pktTxTcpCksum saveIpv4 newIpv4
    return 0
  else if proto = ipprotoUdplite ∨ proto = ipprotoUdp then
    if (← load16 (l4Header + Udp.dgramCksum)) = 0 then
      return 0
    l4CksumUpdate (l4Header + Udp.dgramCksum) pktTxUdpCksum saveIpv4 newIpv4
    return 0
  else if proto = ipprotoIcmp then
    icmpNatHandle innerIpv4ToRewrite
  else
    return 0

/-- `action_nat_rewrite`: a source rewrite touches the destination quoted by an ICMP error
and the other way round. -/
def actionNatRewrite (fieldToRewrite : AddrField) : M Int :=
  if fieldToRewrite = .src then
    actionNatRewriteImpl (ipv4Header + Ipv4.srcAddr) .dst
  else
    actionNatRewriteImpl (ipv4Header + Ipv4.dstAddr) .src

end Natasha
