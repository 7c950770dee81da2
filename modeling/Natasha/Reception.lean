import Natasha.Dispatch
import Natasha.Transmit

/-! Closed forms of the receive path: the padding that is cleared, the test for an own address
and the requests that natasha answers itself. -/
namespace Natasha

open Interaction

variable {ok : (op : Op) → Ans op → Prop}

/-- The mbuf when `fix_nexus9000_padding_bug` is done with it. -/
def Mbuf.unpadded (m : Mbuf) : Mbuf :=
  let ipv4Len := rteBeToCpu16 (m.data.load16 (ipv4Header + Ipv4.totalLength))
  let len := paddingLen m.pktLen ipv4Len
  if len > 0 then { m with data := m.data.zero (sizeofEtherHdr + ipv4Len.toNat) len.toNat } else m

theorem Mbuf.unpadded_ethernet (m : Mbuf) (i : Nat) (header : i < 14) : m.unpadded.data i = m.data i := by
  simp only [unpadded,sizeofEtherHdr]
  split
  · exact Buffer.zero_frame _ _ _ _ (.inl (by omega))
  · rfl

/-- The 32 bits that are stored, and their reading as an `int`. -/
theorem paddingLen_bits (pktLen : U32) (ipv4Len : U16) (bits : Nat)
    (value : bits = (pktLen.toNat + 2^32 - 14 - ipv4Len.toNat) % 2^32) :
    paddingLen pktLen ipv4Len = if 2 * bits < 2^32 then (bits : Int) else bits - 2^32 := by
  have := pktLen.isLt
  have := ipv4Len.isLt
  have stored : ((pktLen.setWidth 64 - .ofNat 64 sizeofEtherHdr - ipv4Len.setWidth 64 : U64).setWidth 32 : U32).toNat =
      bits := by
    simp only [BitVec.toNat_setWidth,BitVec.toNat_sub,BitVec.toNat_ofNat,sizeofEtherHdr]
    omega
  rw [paddingLen,BitVec.toInt_eq_toNat_cond,stored]
  rfl

theorem paddingLen_fits (pktLen : U32) (ipv4Len : U16) (padded : paddingLen pktLen ipv4Len > 0) :
    sizeofEtherHdr + ipv4Len.toNat + (paddingLen pktLen ipv4Len).toNat ≤ pktLen.toNat := by
  have := pktLen.isLt
  have := ipv4Len.isLt
  rw [paddingLen_bits pktLen ipv4Len _ rfl] at padded ⊢
  simp only [sizeofEtherHdr]
  split at padded <;> omega

/-- The `size_t` difference survives the conversion to `int` with its sign. -/
theorem paddingLen_eq (pktLen : U32) (ipv4Len : U16) (long : sizeofEtherHdr ≤ pktLen.toNat)
    (short : pktLen.toNat < 2^31) :
    paddingLen pktLen ipv4Len = (pktLen.toNat : Int) - sizeofEtherHdr - ipv4Len.toNat := by
  have := ipv4Len.isLt
  rw [paddingLen_bits pktLen ipv4Len _ rfl]
  simp only [sizeofEtherHdr] at *
  split <;> omega

/-- The Ethernet header is in front of what is cleared. -/
theorem Mbuf.unpadded_loadMac (m : Mbuf) : m.unpadded.data.loadMac Eth.dAddr = m.data.loadMac Eth.dAddr := by
  funext i
  exact m.unpadded_ethernet _ (by simp only [Eth.dAddr]; omega)

def Mbuf.paddingAccesses (m : Mbuf) : List Event :=
  if paddingLen m.pktLen (rteBeToCpu16 (m.data.load16 (ipv4Header + Ipv4.totalLength))) > 0 then
    [.read,.read,.write]
  else [.read,.read]

theorem ensures_fixNexus9000PaddingBug (w : Worker) (post : Unit → Worker → Prop) :
    Ensures ok fixNexus9000PaddingBug w post ↔
      post () { w with pkt := w.pkt.unpadded, log := w.log ++ w.pkt.paddingAccesses } := by
  by_cases padded : paddingLen w.pkt.pktLen (rteBeToCpu16 (w.pkt.data.load16 (ipv4Header + Ipv4.totalLength))) > 0
  all_goals
    simp only [fixNexus9000PaddingBug,load16,ensures_bind,ensures_readPkt,ensures_ite,ensures_writePkt,
      ensures_pure,Worker.logged_pkt,padded,not_true,not_false_eq_true,true_implies,false_implies,true_and,
      and_true]
    simp only [Mbuf.unpadded,Mbuf.paddingAccesses,padded,if_true,if_false,Worker.stored,Worker.logged,
      List.append_assoc,List.cons_append,List.nil_append]

/-- `is_natasha_ip` on the configuration it loads the ports of. -/
def AppConfig.isNatashaIp (config : AppConfig) (dev : Devices) (ip : U32) (vlan : U16) : Bool :=
  (List.range dev.count.toNat).any fun port =>
    (config.ports port).ipAddresses.any fun addr => addr.1 == ip && addr.2 == vlan

theorem ensures_isNatashaIp (dev : Devices) (p : ConfigPtr) (ip : U32) (vlan : U16) (w : Worker)
    {post : Bool → Worker → Prop} (value : post (p.config.isNatashaIp dev ip vlan) w) :
    Ensures ok (isNatashaIp dev p ip vlan) w post := by
  have scan : ∀ ports : List Nat,
      post (ports.any fun port => (p.config.ports port).ipAddresses.any fun addr => addr.1 == ip && addr.2 == vlan) w →
        Ensures ok (isNatashaIpOn p ip vlan ports) w post := by
    intro ports
    induction ports with
    | nil => exact id
    | cons port ports ih =>
      intro value
      simp only [isNatashaIpOn,isNatashaPortIp,ensures_bind,ensures_readConfig,ensures_pure,ensures_ite]
      intro _
      rw [List.any_cons] at value
      constructor
      · intro found
        rwa [found,Bool.true_or] at value
      · intro missing
        rw [Bool.eq_false_iff.mpr missing,Bool.false_or] at value
        exact ih value
  exact scan _ value

/-- How many bytes from the ICMP header on `icmp_echo` sums up: a `size_t` difference. -/
def Mbuf.echoLen (m : Mbuf) : Nat :=
  ((rteBeToCpu16 (m.data.load16 (ipv4Header + Ipv4.totalLength))).setWidth 64 - .ofNat 64 sizeofIpv4Hdr : U64).toNat

/-- The reply before the ICMP checksum is computed. -/
def Buffer.echoHeaders (b : Buffer) : Buffer :=
  let b := b.store8 (l4Header + Icmp.icmpType) ipIcmpEchoReply
  let b := (b.storeMac Eth.sAddr (b.loadMac Eth.dAddr)).storeMac Eth.dAddr (b.loadMac Eth.sAddr)
  let b := (b.store32 (ipv4Header + Ipv4.srcAddr) (b.load32 (ipv4Header + Ipv4.dstAddr))).store32
    (ipv4Header + Ipv4.dstAddr) (b.load32 (ipv4Header + Ipv4.srcAddr))
  let b := b.store16 (ipv4Header + Ipv4.hdrChecksum) 0
  let b := b.store16 (ipv4Header + Ipv4.hdrChecksum) (rteIpv4Cksum b ipv4Header)
  b.store16 (l4Header + Icmp.icmpCksum) 0

/-- What is neither an address nor the ICMP type nor a checksum is kept. -/
theorem Buffer.echoHeaders_frame (b : Buffer) (i : Nat) (apart : 12 ≤ i ∧ i < 24 ∨ i = 35 ∨ 38 ≤ i) :
    b.echoHeaders i = b i := by
  simp only [echoHeaders]
  rw [store16_frame _ _ _ _ (by simp; omega),store16_frame _ _ _ _ (by simp; omega),
    store16_frame _ _ _ _ (by simp; omega),store32_frame _ _ _ _ (by simp; omega),store32_frame _ _ _ _ (by simp; omega),
    storeMac_frame _ _ _ _ (by simp; omega),storeMac_frame _ _ _ _ (by simp; omega),store8_frame _ _ _ _ (by simp; omega)]

/-- The reply to an echo request. -/
def Mbuf.echoed (m : Mbuf) : Mbuf :=
  let m := { m with data := m.data.echoHeaders }
  { m with data := m.data.store16 (l4Header + Icmp.icmpCksum) (~~~(rteRawCksum m.data l4Header m.echoLen)) }

/-- A received frame that `icmp_echo` answers under the configuration. The Ethernet type and the
flags are tested before the padding is cleared. -/
structure Mbuf.Pings (m : Mbuf) (dev : Devices) (config : AppConfig) : Prop where
  cksum : m.olFlags &&& pktRxIpCksumMask ≠ pktRxIpCksumBad
  ipv4 : m.data.load16 Eth.etherType = rteBeToCpu16 etherTypeIpv4
  icmp : m.unpadded.data (ipv4Header + Ipv4.nextProtoId) = ipprotoIcmp
  mine : config.isNatashaIp dev (rteBeToCpu32 (m.unpadded.data.load32 (ipv4Header + Ipv4.dstAddr)))
    m.unpadded.vlanId = true
  request : m.unpadded.data (l4Header + Icmp.icmpType) = ipIcmpEchoRequest

/-- A received frame that goes through the rules, where `icmp_answer` finds the configuration. -/
structure Mbuf.Ruled (m : Mbuf) (dev : Devices) (config : AppConfig) : Prop where
  cksum : m.olFlags &&& pktRxIpCksumMask ≠ pktRxIpCksumBad
  ipv4 : m.data.load16 Eth.etherType = rteBeToCpu16 etherTypeIpv4
  foreign : m.unpadded.data (ipv4Header + Ipv4.nextProtoId) = ipprotoIcmp →
    config.isNatashaIp dev (rteBeToCpu32 (m.unpadded.data.load32 (ipv4Header + Ipv4.dstAddr))) m.unpadded.vlanId = false

end Natasha
