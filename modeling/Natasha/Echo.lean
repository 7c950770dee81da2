import Natasha.Completion
import Natasha.Ledger
import Natasha.Reception

/-! Echo requests. `ipv4_handle` clears the padding, answers what is addressed to natasha in place and
hands everything else to the rules; the bytes that decide are read after the padding is cleared. -/
namespace Natasha

open Interaction

variable {ok : (op : Op) → Ans op → Prop}

/-! ## Padding -/

namespace Mbuf

/-- The datagram is in front of the padding. -/
theorem unpadded_frame (m : Mbuf) (i : Nat) (inside : i < sizeofEtherHdr + m.totalLength) :
    m.unpadded.data i = m.data i := by
  simp only [unpadded]
  split
  · exact Buffer.zero_frame _ _ _ _ (.inl inside)
  · rfl

theorem unpadded_data (m : Mbuf) (long : sizeofEtherHdr ≤ m.pktLen.toNat) (short : m.pktLen.toNat < 2^31) (i : Nat) :
    m.unpadded.data i =
      if sizeofEtherHdr + m.totalLength ≤ i ∧ i < m.pktLen.toNat then 0 else m.data i := by
  have length := paddingLen_eq m.pktLen (rteBeToCpu16 (m.data.load16 (ipv4Header + Ipv4.totalLength))) long short
  rw [← totalLength] at length
  simp only [unpadded]
  split
  case isTrue padded =>
    simp only [Buffer.zero]
    rw [← totalLength]
    apply if_congr _ rfl rfl
    omega
  case isFalse packed =>
    rw [if_neg]
    omega

/-- Only bytes of the frame are written. -/
theorem unpadded_metadata (m : Mbuf) : m.unpadded = { m with data := m.unpadded.data } := by
  simp only [unpadded]
  split <;> rfl

theorem unpadded_totalLength (m : Mbuf) (kept : 4 ≤ m.totalLength) : m.unpadded.totalLength = m.totalLength := by
  have word : m.unpadded.data.load16 (ipv4Header + Ipv4.totalLength) = m.data.load16 (ipv4Header + Ipv4.totalLength) :=
    Buffer.load16_congr fun i _ below => m.unpadded_frame i (by simp at *; omega)
  rw [totalLength,word,totalLength]

/-- Where the length field is in front of the padding, the same bytes are cleared again. -/
theorem unpadded_unpadded (m : Mbuf) (long : sizeofEtherHdr ≤ m.pktLen.toNat) (short : m.pktLen.toNat < 2^31)
    (kept : 4 ≤ m.totalLength) : m.unpadded.unpadded = m.unpadded := by
  have same := m.unpadded_metadata
  have length : m.unpadded.pktLen = m.pktLen := by rw [same]
  have data : m.unpadded.unpadded.data = m.unpadded.data := by
    funext i
    rw [m.unpadded.unpadded_data (length ▸ long) (length ▸ short),m.unpadded_totalLength kept,length,
      m.unpadded_data long short]
    split <;> rfl
  rw [m.unpadded.unpadded_metadata,data]

end Mbuf

theorem fixNexus9000PaddingBug_zeroes (w : Worker) (long : 34 ≤ w.pkt.pktLen.toNat)
    (short : w.pkt.pktLen.toNat < 2^31) :
    Ensures ok fixNexus9000PaddingBug w fun _ w' =>
      (∀ o, w'.pkt.data o =
        if sizeofEtherHdr + w.pkt.totalLength ≤ o ∧ o < w.pkt.pktLen.toNat then 0 else w.pkt.data o) ∧
      w'.pkt = { w.pkt with data := w'.pkt.data } ∧
      (4 ≤ w.pkt.totalLength → Ensures ok fixNexus9000PaddingBug w' fun _ w'' => w''.pkt = w'.pkt) := by
  have header : sizeofEtherHdr ≤ w.pkt.pktLen.toNat := Nat.le_trans (by decide) long
  simp only [ensures_fixNexus9000PaddingBug]
  exact ⟨w.pkt.unpadded_data header short,w.pkt.unpadded_metadata,w.pkt.unpadded_unpadded header short⟩

/-- A ping of 29 bytes in a frame of 60, as a switch pads it. -/
def paddedPing : Mbuf where
  data := .ofBytes ([2,0,0,0,0,1,2,0,0,0,0,2,8,0] ++
    [0x45,0,0,29,0,1,0,0,64,1,0x66,0xdd,10,0,0,1,10,0,0,2] ++ [8,0,0x96,0xfd,0,1,0,1,0x61] ++ List.replicate 17 0xaa)
  pktLen := 60
  olFlags := 0
  vlanTci := 0
  l2Len := 0
  l3Len := 0

theorem fixNexus9000PaddingBug_zeroes_ping :
    let w := Worker.start paddedPing (fun _ => ⟨[],by decide⟩) fun _ => 0
    let r := exec (steadyAnswer .zeroed) fixNexus9000PaddingBug w
    w.pkt.data 59 = 0xaa ∧ r.2.pkt.data 59 = 0 ∧ r.2.pkt.data 42 = 0x61 ∧
      (exec (steadyAnswer .zeroed) fixNexus9000PaddingBug r.2).2.pkt = r.2.pkt := by
  have admitted : ∀ op, anyAnswer op (steadyAnswer .zeroed op) := fun _ => trivial
  obtain ⟨zeroes,_,again⟩ := (fixNexus9000PaddingBug_zeroes
    (.start paddedPing (fun _ => ⟨[],by decide⟩) fun _ => 0) (by decide) (by decide)).exec (steadyAnswer .zeroed) admitted
  exact ⟨by decide,zeroes 59,zeroes 42,(again (by decide)).exec (steadyAnswer .zeroed) admitted⟩

/-! ## The length of the ICMP checksum -/

/-- `icmp_echo` up to the checksum of the ICMP message. -/
def icmpEchoHeaders : M Unit := do
  store8 (l4Header + Icmp.icmpType) ipIcmpEchoReply
  let tmpEth ← loadMac Eth.sAddr
  storeMac Eth.sAddr (← loadMac Eth.dAddr)
  storeMac Eth.dAddr tmpEth
  let tmpIp ← load32 (ipv4Header + Ipv4.srcAddr)
  store32 (ipv4Header + Ipv4.srcAddr) (← load32 (ipv4Header + Ipv4.dstAddr))
  store32 (ipv4Header + Ipv4.dstAddr) tmpIp
  store16 (ipv4Header + Ipv4.hdrChecksum) 0
  store16 (ipv4Header + Ipv4.hdrChecksum) (← readPkt fun m => rteIpv4Cksum m.data ipv4Header)
  store16 (l4Header + Icmp.icmpCksum) 0

/-- `icmp_echo` with another function in the place of `rte_raw_cksum`. -/
def icmpEchoWith (rawCksum : U64 → M U16) (port : Nat) : M Int := do
  icmpEchoHeaders
  let totalLength ← load16 (ipv4Header + Ipv4.totalLength)
  let len : U64 := (rteBeToCpu16 totalLength).setWidth 64 - .ofNat 64 sizeofIpv4Hdr
  store16 (l4Header + Icmp.icmpCksum) (~~~(← rawCksum len))
  return (← txSend port)

def icmpDispatchWith (rawCksum : U64 → M U16) (port : Nat) : M Int := do
  if (← load8 (l4Header + Icmp.icmpType)) = ipIcmpEchoRequest then
    icmpEchoWith rawCksum port
  else
    return -1

def icmpAnswerWith (rawCksum : U64 → M U16) (dev : Devices) (port : Nat) : M Int := do
  let dstIp ← load32 (ipv4Header + Ipv4.dstAddr)
  let config ← appConfig
  if !(← isNatashaIp dev config (rteBeToCpu32 dstIp) (← readPkt Mbuf.vlanId)) then
    return -1
  if (← icmpDispatchWith rawCksum port) < 0 then
    bump .dropUnknownIcmp
    rtePktmbufFree
  return 0

/-- The part of `ipv4_handle` behind the answers. -/
def ipv4Rules (dev : Devices) (port : Nat) : M Int := do
  let config ← appConfig
  readConfig config .rules
  if config.config.rules = .null then
    return -1
  let config ← appConfig
  readConfig config .rules
  let ret ← processRules dev port config config.config.rules
  event (.rules ret)
  return 0

def ipv4HandleWith (rawCksum : U64 → M U16) (dev : Devices) (port : Nat) : M Int := do
  fixNexus9000PaddingBug
  if (← load8 (ipv4Header + Ipv4.nextProtoId)) = ipprotoIcmp then
    let ret ← icmpAnswerWith rawCksum dev port
    if ret ≥ 0 then
      return ret
  ipv4Rules dev port

/-- The call that the source makes. -/
def rteRawCksumAt (len : U64) : M U16 := readPkt fun m => rteRawCksum m.data l4Header len.toNat

theorem ipv4HandleWith_rteRawCksumAt (dev : Devices) (port : Nat) :
    ipv4HandleWith rteRawCksumAt dev port = ipv4Handle dev port := rfl

/-- One segment: `pkt_len` is its `data_len`, a `uint16_t`. -/
def Mbuf.Contiguous (m : Mbuf) : Prop := m.pktLen.toNat < 2^16

instance (m : Mbuf) : Decidable m.Contiguous := Nat.decLt _ _

/-- Two functions in the place of `rte_raw_cksum` that agree where the length is what remains of
`total_length` behind the header. -/
def AgreeUnwrapped (rawCksum other : U64 → M U16) : Prop :=
  ∀ (w : Worker) (len : U64), sizeofIpv4Hdr ≤ w.pkt.totalLength → len.toNat = w.pkt.totalLength - sizeofIpv4Hdr →
    (rawCksum len).run w = (other len).run w

theorem Mbuf.echoLen_eq (m : Mbuf) (long : sizeofIpv4Hdr ≤ m.totalLength) :
    m.echoLen = m.totalLength - sizeofIpv4Hdr := by
  rw [totalLength] at long ⊢
  have := (rteBeToCpu16 (m.data.load16 (ipv4Header + Ipv4.totalLength))).isLt
  simp only [echoLen,BitVec.toNat_sub,BitVec.toNat_setWidth,BitVec.toNat_ofNat,sizeofIpv4Hdr] at *
  omega

theorem Mbuf.totalLength_congr {m m' : Mbuf} (same : ∀ i, 16 ≤ i → i < 18 → m'.data i = m.data i) :
    m'.totalLength = m.totalLength := by
  rw [totalLength,Buffer.load16_congr fun i low high => same i (by simpa using low) (by simpa using high),totalLength]

def echoAccesses : List Event :=
  [.write,.read,.read,.write,.write,.read,.read,.write,.write,.write,.read,.write,.write]

/-- The worker when `icmp_echo` has written everything but the ICMP checksum. -/
def Worker.replying (w : Worker) : Worker :=
  { w with pkt := { w.pkt with data := w.pkt.data.echoHeaders }, log := w.log ++ echoAccesses }

theorem ensures_icmpEchoHeaders (w : Worker) (post : Unit → Worker → Prop) :
    Ensures ok icmpEchoHeaders w post ↔ post () w.replying := by
  simp only [icmpEchoHeaders,store8,store16,store32,storeMac,load32,loadMac,ensures_bind,ensures_writePkt,
    ensures_readPkt]
  simp only [Worker.stored,Worker.logged,List.append_assoc,List.cons_append,List.nil_append]
  rfl

theorem Worker.replying_totalLength (w : Worker) : w.replying.pkt.totalLength = w.pkt.totalLength :=
  Mbuf.totalLength_congr fun i low high => w.pkt.data.echoHeaders_frame i (.inl (by omega))

theorem icmpEchoWith_congr {rawCksum other : U64 → M U16} (agree : AgreeUnwrapped rawCksum other) (port : Nat)
    (w : Worker) (long : sizeofIpv4Hdr ≤ w.pkt.totalLength) :
    (icmpEchoWith rawCksum port).run w = (icmpEchoWith other port).run w := by
  have length := w.replying_totalLength
  apply run_bind_congr
  rw [ensures_icmpEchoHeaders]
  apply run_bind_congr
  simp only [load16,ensures_readPkt]
  rw [StateT.run_bind,StateT.run_bind,agree]
  · exact length ▸ long
  · exact Mbuf.echoLen_eq w.replying.pkt (length ▸ long)

/-- A request leaves no room for a short `total_length`: where the datagram ends in front of the
ICMP header, its type is padding and was cleared. -/
theorem Mbuf.unpadded_request (m : Mbuf) (minimum : 60 ≤ m.pktLen.toNat) (contiguous : m.Contiguous)
    (request : m.unpadded.data (l4Header + Icmp.icmpType) = ipIcmpEchoRequest) :
    sizeofIpv4Hdr < m.unpadded.totalLength := by
  have long : sizeofIpv4Hdr < m.totalLength := by
    by_contra short
    rw [m.unpadded_data (by simp; omega) (by simp only [Contiguous] at contiguous; omega),if_pos] at request
    · exact absurd request (by decide)
    · simp at *
      omega
  rwa [m.unpadded_totalLength (by simp at long; omega)]

theorem icmpDispatchWith_congr {rawCksum other : U64 → M U16} (agree : AgreeUnwrapped rawCksum other) (port : Nat)
    (w : Worker) (long : w.pkt.data (l4Header + Icmp.icmpType) = ipIcmpEchoRequest → sizeofIpv4Hdr ≤ w.pkt.totalLength) :
    (icmpDispatchWith rawCksum port).run w = (icmpDispatchWith other port).run w := by
  apply run_bind_congr
  simp only [load8,ensures_readPkt]
  split
  · exact icmpEchoWith_congr agree port _ (long ‹_›)
  · rfl

theorem icmpAnswerWith_congr {rawCksum other : U64 → M U16} (agree : AgreeUnwrapped rawCksum other) (dev : Devices)
    (port : Nat) (w : Worker)
    (long : w.pkt.data (l4Header + Icmp.icmpType) = ipIcmpEchoRequest → sizeofIpv4Hdr ≤ w.pkt.totalLength) :
    (icmpAnswerWith rawCksum dev port).run w = (icmpAnswerWith other dev port).run w := by
  apply run_bind_congr
  simp only [load32,ensures_readPkt]
  apply run_bind_congr
  intro p _
  apply run_bind_congr
  rw [ensures_readPkt]
  apply run_bind_congr
  apply ensures_isNatashaIp
  split
  · rfl
  · rw [StateT.run_bind,StateT.run_bind,icmpDispatchWith_congr agree]
    exact long

theorem ipv4HandleWith_congr {rawCksum other : U64 → M U16} (agree : AgreeUnwrapped rawCksum other) (dev : Devices)
    (port : Nat) (w : Worker) (minimum : 60 ≤ w.pkt.pktLen.toNat) (contiguous : w.pkt.Contiguous) :
    (ipv4HandleWith rawCksum dev port).run w = (ipv4HandleWith other dev port).run w := by
  apply run_bind_congr
  rw [ensures_fixNexus9000PaddingBug]
  apply run_bind_congr
  simp only [load8,ensures_readPkt]
  split
  · rw [StateT.run_bind,StateT.run_bind,icmpAnswerWith_congr agree]
    exact fun request => (w.pkt.unpadded_request minimum contiguous request).le
  · rfl

/-- `rte_raw_cksum`, replaced by `wrapped` where the length is not what `total_length` leaves
behind the header. -/
def rawCksumUnless (wrapped : U64 → M U16) (len : U64) : M U16 := do
  let w ← get
  if sizeofIpv4Hdr ≤ w.pkt.totalLength ∧ len.toNat = w.pkt.totalLength - sizeofIpv4Hdr then
    rteRawCksumAt len
  else
    wrapped len

theorem rawCksumUnless_agrees (wrapped : U64 → M U16) : AgreeUnwrapped (rawCksumUnless wrapped) rteRawCksumAt := by
  intro w len long unwrapped
  have plain : rawCksumUnless wrapped len = get >>= fun w => if sizeofIpv4Hdr ≤ w.pkt.totalLength ∧
      len.toNat = w.pkt.totalLength - sizeofIpv4Hdr then rteRawCksumAt len else wrapped len := rfl
  rw [plain,StateT.run_bind,StateT.run_get,pure_bind,if_pos ⟨long,unwrapped⟩]

theorem ipv4Handle_cksumLength (wrapped : U64 → M U16) (dev : Devices) (port : Nat) (w : Worker)
    (minimum : 60 ≤ w.pkt.pktLen.toNat) (contiguous : w.pkt.Contiguous) :
    (ipv4HandleWith (rawCksumUnless wrapped) dev port).run w = (ipv4Handle dev port).run w := by
  rw [← ipv4HandleWith_rteRawCksumAt]
  exact ipv4HandleWith_congr (rawCksumUnless_agrees wrapped) dev port w minimum contiguous

/-- One address, on every port. -/
def pinged : AppConfig := { AppConfig.zeroed with ports := fun _ => ⟨[(0x0a000002,0)],0⟩ }

def soleDevice : Devices := ⟨1,fun _ _ => 2⟩

theorem ipv4Handle_cksumLength_ping :
    let w := Worker.start paddedPing (fun _ => ⟨[],by decide⟩) fun _ => 0
    let wrapped : U64 → M U16 := fun _ => do rtePktmbufFree; return 0
    let r := exec (steadyAnswer pinged) (ipv4HandleWith (rawCksumUnless wrapped) soleDevice 0) w
    r = exec (steadyAnswer pinged) (ipv4Handle soleDevice 0) w ∧ r.1 = 0 ∧ (r.2.txQueues 0).pkts.length = 1 := by
  refine ⟨?_,rfl,rfl⟩
  have same := ipv4Handle_cksumLength (fun _ => do rtePktmbufFree; return 0) soleDevice 0
    (.start paddedPing (fun _ => ⟨[],by decide⟩) fun _ => 0) (by decide) (by decide)
  exact congrArg (Program.run (steadyAnswer pinged)) same

end Natasha
