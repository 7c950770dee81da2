import Natasha.Rules

/-! Packet reception: the answers of natasha to ICMP and ARP addressed to it, the rules for
everything else, and the main loop of a worker (ipv4.c, arp.c, core.c). -/
namespace Natasha

open Interaction

/-- Flags the driver sets on received mbufs: `PKT_RX_IP_CKSUM_BAD`, `PKT_RX_IP_CKSUM_MASK`,
`PKT_RX_L4_CKSUM_BAD` and `PKT_RX_L4_CKSUM_MASK`. -/
def pktRxIpCksumBad : U64 := 1 <<< 4
def pktRxIpCksumMask : U64 := (1 <<< 4) ||| (1 <<< 7)
def pktRxL4CksumBad : U64 := 1 <<< 3
def pktRxL4CksumMask : U64 := (1 <<< 3) ||| (1 <<< 8)

@[simp] def ipIcmpEchoReply : Byte := 0
@[simp] def ipIcmpEchoRequest : Byte := 8

def etherTypeIpv4 : U16 := 0x0800
def etherTypeArp : U16 := 0x0806
def arpOpRequest : U16 := 1
def arpOpReply : U16 := 2

/-- The 16-bit words of `len` bytes from `off` on, as the host loads them; an odd last byte
is padded with zero. -/
def wordsOf (b : Buffer) (off len : Nat) : List U16 :=
  (List.range (len / 2)).map (fun i => b.load16 (off + 2*i)) ++
    if len % 2 = 1 then [(b (off + (len - 1))).setWidth 16] else []

/-- `rte_raw_cksum`, by its documentation: the folded one's complement sum of a byte range. -/
def rteRawCksum (b : Buffer) (off len : Nat) : U16 := OnesComplement.sum (wordsOf b off len)

/-- `rte_ipv4_cksum`, by its documentation: the complemented sum over one IPv4 header. -/
def rteIpv4Cksum (b : Buffer) (off : Nat) : U16 := ~~~(rteRawCksum b off sizeofIpv4Hdr)

def icmpEcho (port : Nat) : M Int := do
  store8 (l4Header + Icmp.icmpType) ipIcmpEchoReply
  let tmpEth ← loadMac Eth.sAddr
  storeMac Eth.sAddr (← loadMac Eth.dAddr)
  storeMac Eth.dAddr tmpEth
  let tmpIp ← load32 (ipv4Header + Ipv4.srcAddr)
  store32 (ipv4Header + Ipv4.srcAddr) (← load32 (ipv4Header + Ipv4.dstAddr))
  store32 (ipv4Header + Ipv4.dstAddr) tmpIp
  store16 (ipv4Header + Ipv4.hdrChecksum) 0
  store16 (ipv4Header + Ipv4.hdrChecksum) (← readPkt fun m => rteIpv4Cksum m.data ipv4Header)
  store16 (l4Header + Icmp.icmpCksum) 0
  let totalLength ← load16 (ipv4Header + Ipv4.totalLength)
  let len : U64 := (rteBeToCpu16 totalLength).setWidth 64 - .ofNat 64 sizeofIpv4Hdr
  store16 (l4Header + Icmp.icmpCksum) (~~~(← readPkt fun m => rteRawCksum m.data l4Header len.toNat))
  return (← txSend port)

def icmpDispatch (port : Nat) : M Int := do
  if (← load8 (l4Header + Icmp.icmpType)) = ipIcmpEchoRequest then
    icmpEcho port
  else
    return -1

def icmpAnswer (dev : Devices) (port : Nat) : M Int := do
  let dstIp ← load32 (ipv4Header + Ipv4.dstAddr)
  let config ← appConfig
  if !(← isNatashaIp dev config (rteBeToCpu32 dstIp) (← readPkt Mbuf.vlanId)) then
    return -1
  if (← icmpDispatch port) < 0 then
    bump .dropUnknownIcmp
    rtePktmbufFree
  return 0

/-- `padding_len`: a `size_t` difference stored in an `int`. -/
def paddingLen (pktLen : U32) (ipv4Len : U16) : Int :=
  ((pktLen.setWidth 64 - .ofNat 64 sizeofEtherHdr - ipv4Len.setWidth 64 : U64).setWidth 32).toInt

def fixNexus9000PaddingBug : M Unit := do
  let ipv4Len := rteBeToCpu16 (← load16 (ipv4Header + Ipv4.totalLength))
  let len := paddingLen (← readPkt Mbuf.pktLen) ipv4Len
  if len > 0 then
    writePkt fun m => { m with data := m.data.zero (sizeofEtherHdr + ipv4Len.toNat) len.toNat }

def ipv4Handle (dev : Devices) (port : Nat) : M Int := do
  fixNexus9000PaddingBug
  if (← load8 (ipv4Header + Ipv4.nextProtoId)) = ipprotoIcmp then
    let ret ← icmpAnswer dev port
    if ret ≥ 0 then
      return ret
  let config ← appConfig
  readConfig config .rules
  if config.config.rules = .null then
    return -1
  let config ← appConfig
  readConfig config .rules
  let ret ← processRules dev port config config.config.rules
  event (.rules ret)
  return 0

def arpRequest (dev : Devices) (port : Nat) : M Int := do
  let sourceIp := rteBeToCpu32 (← load32 (arpHeader + Arp.arpSip))
  let targetIp := rteBeToCpu32 (← load32 (arpHeader + Arp.arpTip))
  let config ← appConfig
  if !(← isNatashaPortIp config targetIp (← readPkt Mbuf.vlanId) port) then
    return -1
  let myEthAddr := dev.macaddr port
  store16 (arpHeader + Arp.arpOp) (rteBeToCpu16 arpOpReply)
  storeMac Eth.dAddr (← loadMac Eth.sAddr)
  storeMac Eth.sAddr myEthAddr
  storeMac (arpHeader + Arp.arpTha) (← loadMac (arpHeader + Arp.arpSha))
  storeMac (arpHeader + Arp.arpSha) myEthAddr
  store32 (arpHeader + Arp.arpTip) (rteBeToCpu32 sourceIp)
  store32 (arpHeader + Arp.arpSip) (rteBeToCpu32 targetIp)
  return (← txSend port)

def arpHandle (dev : Devices) (port : Nat) : M Int := do
  if rteBeToCpu16 (← load16 (arpHeader + Arp.arpOp)) = arpOpRequest then
    arpRequest dev port
  else
    return -1

def dispatchPacket (dev : Devices) (port : Nat) : M Int := do
  let olFlags ← readPkt Mbuf.olFlags
  if olFlags &&& pktRxIpCksumMask = pktRxIpCksumBad then
    bump .dropBadL3Cksum
    rtePktmbufFree
    return -1
  if olFlags &&& pktRxL4CksumMask = pktRxL4CksumBad then
    bump .rxBadL4Cksum
  let ethType ← load16 Eth.etherType
  let status ←
    if ethType = rteBeToCpu16 etherTypeIpv4 then ipv4Handle dev port
    else if ethType = rteBeToCpu16 etherTypeArp then arpHandle dev port
    else pure (-1)
  if status < 0 then
    bump .dropUnhandledEthertype
    rtePktmbufFree
  return 0

/-- The packets of one burst, one call of `dispatch_packet` each. -/
def dispatchAll (dev : Devices) (port : Nat) : List Mbuf → M Unit
  | [] => pure ()
  | pkt :: pkts => do
    beginDispatch port pkt
    let _ ← dispatchPacket dev port
    dispatchAll dev port pkts

def rteEthRxBurst : M RxBurst := modifyGet fun w => (w.rx 0, { w with rx := fun i => w.rx (i+1) })

def handlePort (dev : Devices) (port : Nat) : M Unit := do
  let burst ← rteEthRxBurst
  dispatchAll dev port burst.pkts

/-- The first loop of a `main_loop` iteration: read and process incoming packets. -/
def handlePorts (dev : Devices) : List Nat → M Unit
  | [] => pure ()
  | port :: ports => do
    handlePort dev port
    handlePorts dev ports

/-- The second loop: write out packets. -/
def flushPorts : List Nat → M Unit
  | [] => pure ()
  | port :: ports => do
    let w ← get
    let _ ← txFlush port (w.txQueues port).pkts
    flushPorts ports

/-- What an iteration does once it has marked the configuration as used. -/
def iterationBody (dev : Devices) : M Unit := do
  handlePorts dev (List.range dev.count.toNat)
  flushPorts (List.range dev.count.toNat)

/-- One iteration of `main_loop`. `flags |= NAT_FLAG_USED` is a load and a store. -/
def iteration (dev : Devices) : M Unit := do
  let config ← appConfig
  let flags ← loadFlags config
  storeFlags config (flags ||| natFlagUsed)
  iterationBody dev

/-- `main_loop` that finds `force_quit` set after `n` iterations. -/
def mainLoop (dev : Devices) : (n : Nat) → M Unit
  | 0 => pure ()
  | n+1 => do
    iteration dev
    mainLoop dev n

end Natasha
