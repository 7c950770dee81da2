import Natasha.Echo
import Natasha.IcmpErrors

/-! Echo replies. The reply is written over the request and queued on the port the request came
in by; a request for an address of nobody goes through the rules as it came. -/
namespace Natasha

open Interaction

variable {ok : (op : Op) → Ans op → Prop}

/-! ## Checksums computed from scratch -/

/-- A field that was zero when the sum was taken and holds its complement makes the range verify. -/
theorem verifies_complement (b : Buffer) (off len k : Nat) (inside : 2*k+2 ≤ len) (zero : b.load16 (off + 2*k) = 0) :
    Verifies (b.store16 (off + 2*k) (~~~(rteRawCksum b off len))) off len := by
  have exchanged := wordsOf_store16 b off len k (~~~(rteRawCksum b off len)) inside
  have residue := OnesComplement.sum_modEq (wordsOf b off len)
  have small := OnesComplement.sum_le_total (wordsOf b off len)
  have complement : (~~~(rteRawCksum b off len)).toNat = 65535 - (rteRawCksum b off len).toNat := BitVec.toNat_not
  have bound := (rteRawCksum b off len).isLt
  rw [← rteRawCksum] at residue small
  have none : (b.load16 (off + 2*k)).toNat = 0 := congrArg BitVec.toNat zero
  apply verifies_of_pos
  · omega
  · simp only [Nat.ModEq] at *
    omega

/-- The list walk of `is_natasha_port_ip`. -/
theorem any_address_iff (cells : List (U32 × U16)) (ip : U32) (vlan : U16) :
    (cells.any fun addr => addr.1 == ip && addr.2 == vlan) = true ↔ (ip,vlan) ∈ cells := by
  simp only [List.any_eq_true,Bool.and_eq_true,beq_iff_eq]
  constructor
  · rintro ⟨⟨ip,vlan⟩,member,rfl,rfl⟩
    exact member
  · exact fun member => ⟨_,member,rfl,rfl⟩

namespace Mbuf

/-! ## Requests and replies -/

/-- An ICMP echo request without options, whole and not longer than its frame. -/
structure EchoRequest (m : Mbuf) : Prop where
  ihl : headerLength m.data = 5
  icmp : m.nextProtoId = ipprotoIcmp
  first : m.fragOffset = 0
  last : m.moreFragments = false
  request : m.data (l4Header + Icmp.icmpType) = ipIcmpEchoRequest
  message : sizeofIpv4Hdr + sizeofIcmpHdr ≤ m.totalLength
  fits : sizeofEtherHdr + m.totalLength ≤ m.pktLen.toNat

/-- The destination address and the VLAN of the packet are configured on a port that exists. -/
def Mine (m : Mbuf) (dev : Devices) (config : AppConfig) : Prop :=
  ∃ port < dev.count.toNat, (rteBeToCpu32 m.dst,m.vlanId) ∈ (config.ports port).ipAddresses

/-- What a reply has in common with the request, and what it has exchanged. -/
structure RepliesTo (reply request : Mbuf) : Prop where
  ethernet : reply.data.loadMac Eth.dAddr = request.data.loadMac Eth.sAddr ∧
    reply.data.loadMac Eth.sAddr = request.data.loadMac Eth.dAddr
  addresses : reply.dst = request.src ∧ reply.src = request.dst
  type : reply.data (l4Header + Icmp.icmpType) = ipIcmpEchoReply
  header : HeaderVerifies reply.data
  icmp : reply.IcmpVerifies
  rest : ∀ i, Eth.etherType ≤ i → i < sizeofEtherHdr + request.totalLength →
    (i < ipv4Header + Ipv4.hdrChecksum ∨ l4Header + Icmp.icmpType < i) →
    (i < l4Header + Icmp.icmpCksum ∨ l4Header + Icmp.icmpCksum + 2 ≤ i) → reply.data i = request.data i
  frame : reply.pktLen = request.pktLen ∧ reply.vlanTci = request.vlanTci

theorem mine_iff (m : Mbuf) (dev : Devices) (config : AppConfig) :
    m.Mine dev config ↔ config.isNatashaIp dev (rteBeToCpu32 m.dst) m.vlanId = true := by
  simp only [Mine,AppConfig.isNatashaIp,List.any_eq_true (l := List.range _),List.mem_range,any_address_iff]

theorem echoHeaders_ethernet (b : Buffer) :
    b.echoHeaders.loadMac Eth.dAddr = b.loadMac Eth.sAddr ∧ b.echoHeaders.loadMac Eth.sAddr = b.loadMac Eth.dAddr := by
  simp only [Buffer.echoHeaders]
  constructor
  · rw [Buffer.loadMac_store16_frame _ _ _ _ (by simp),Buffer.loadMac_store16_frame _ _ _ _ (by simp),
      Buffer.loadMac_store16_frame _ _ _ _ (by simp),Buffer.loadMac_store32_frame _ _ _ _ (by simp),
      Buffer.loadMac_store32_frame _ _ _ _ (by simp),Buffer.loadMac_storeMac,
      Buffer.loadMac_store8_frame _ _ _ _ (by simp)]
  · rw [Buffer.loadMac_store16_frame _ _ _ _ (by simp),Buffer.loadMac_store16_frame _ _ _ _ (by simp),
      Buffer.loadMac_store16_frame _ _ _ _ (by simp),Buffer.loadMac_store32_frame _ _ _ _ (by simp),
      Buffer.loadMac_store32_frame _ _ _ _ (by simp),Buffer.loadMac_storeMac_frame _ _ _ _ (by simp),
      Buffer.loadMac_storeMac,Buffer.loadMac_store8_frame _ _ _ _ (by simp)]

/-- The type and the Ethernet addresses lie outside the IPv4 header. -/
theorem load32_swapped (b : Buffer) (type : Byte) (source destination : Mac) (p : Nat) (behind : Eth.etherType ≤ p)
    (inside : p + 4 ≤ l4Header) :
    (((b.store8 (l4Header + Icmp.icmpType) type).storeMac Eth.sAddr source).storeMac Eth.dAddr destination).load32 p =
      b.load32 p := by
  apply Buffer.load32_congr
  intro i low high
  rw [Buffer.storeMac_frame _ _ _ _ (by simp at *; omega),Buffer.storeMac_frame _ _ _ _ (by simp at *; omega),
    Buffer.store8_frame _ _ _ _ (by simp at *; omega)]

theorem echoHeaders_addresses (b : Buffer) :
    b.echoHeaders.load32 (ipv4Header + Ipv4.dstAddr) = b.load32 (ipv4Header + Ipv4.srcAddr) ∧
      b.echoHeaders.load32 (ipv4Header + Ipv4.srcAddr) = b.load32 (ipv4Header + Ipv4.dstAddr) := by
  simp only [Buffer.echoHeaders]
  constructor
  · rw [Buffer.load32_store16_frame _ _ _ _ (by simp),Buffer.load32_store16_frame _ _ _ _ (by simp),
      Buffer.load32_store16_frame _ _ _ _ (by simp),Buffer.load32_store32,load32_swapped _ _ _ _ _ (by simp) (by simp)]
  · rw [Buffer.load32_store16_frame _ _ _ _ (by simp),Buffer.load32_store16_frame _ _ _ _ (by simp),
      Buffer.load32_store16_frame _ _ _ _ (by simp),Buffer.load32_store32_frame _ _ _ _ (by simp),Buffer.load32_store32,
      load32_swapped _ _ _ _ _ (by simp) (by simp)]

theorem echoHeaders_type (b : Buffer) : b.echoHeaders (l4Header + Icmp.icmpType) = ipIcmpEchoReply := by
  simp only [Buffer.echoHeaders]
  rw [Buffer.store16_frame _ _ _ _ (by simp),Buffer.store16_frame _ _ _ _ (by simp),
    Buffer.store16_frame _ _ _ _ (by simp),Buffer.store32_frame _ _ _ _ (by simp),
    Buffer.store32_frame _ _ _ _ (by simp),Buffer.storeMac_frame _ _ _ _ (by simp),
    Buffer.storeMac_frame _ _ _ _ (by simp),Buffer.store8_same]

theorem echoHeaders_headerVerifies (b : Buffer) : HeaderVerifies b.echoHeaders := by
  simp only [Buffer.echoHeaders]
  generalize Buffer.store32 _ _ _ = b'
  have verifies := verifies_complement (b'.store16 (ipv4Header + Ipv4.hdrChecksum) 0) ipv4Header sizeofIpv4Hdr 5
    (by decide) (Buffer.load16_store16 _ _ _)
  rw [HeaderVerifies,headerWords,wordsOf_congr fun i low high => Buffer.store16_frame _ _ _ i (by simp at *; omega)]
  exact verifies

section Echoed

variable (m : Mbuf)

theorem echoed_frame (i : Nat) (cksum : i < l4Header + Icmp.icmpCksum ∨ l4Header + Icmp.icmpCksum + 2 ≤ i) :
    m.echoed.data i = m.data.echoHeaders i :=
  Buffer.store16_frame _ _ _ _ cksum

theorem echoed_rest (i : Nat) (behind : Eth.etherType ≤ i)
    (header : i < ipv4Header + Ipv4.hdrChecksum ∨ l4Header + Icmp.icmpType < i)
    (cksum : i < l4Header + Icmp.icmpCksum ∨ l4Header + Icmp.icmpCksum + 2 ≤ i) : m.echoed.data i = m.data i := by
  rw [m.echoed_frame i cksum]
  exact Buffer.echoHeaders_frame _ i (by simp at *; omega)

theorem echoed_totalLength : m.echoed.totalLength = m.totalLength :=
  totalLength_congr fun i low high => m.echoed_rest i (by simp; omega) (.inl (by simp; omega)) (.inl (by simp; omega))

theorem echoed_icmpVerifies (ihl : headerLength m.data = 5)
    (message : sizeofIpv4Hdr + sizeofIcmpHdr ≤ m.totalLength) : m.echoed.IcmpVerifies := by
  have length : headerLength m.echoed.data = 5 := by
    rw [headerLength,m.echoed_rest _ (by simp) (.inl (by simp)) (.inl (by simp))]
    exact ihl
  rw [icmpVerifies_iff _ length,m.echoed_totalLength]
  have same : Mbuf.totalLength { m with data := m.data.echoHeaders } = m.totalLength :=
    totalLength_congr fun i low high => m.data.echoHeaders_frame i (.inl (by omega))
  have len : Mbuf.echoLen { m with data := m.data.echoHeaders } = m.totalLength - sizeofIpv4Hdr := by
    rw [Mbuf.echoLen_eq _ (by rw [same]; simp at *; omega),same]
  simp only [echoed,len]
  apply verifies_complement _ l4Header _ 1
  · simp at *
    omega
  · exact Buffer.load16_store16 _ _ _

/-- The reply is made of the request with its padding cleared. -/
theorem echoed_repliesTo (request : m.EchoRequest) : m.unpadded.echoed.prepared.RepliesTo m := by
  have message := request.message
  have kept : ∀ i < sizeofEtherHdr + m.totalLength, m.unpadded.data i = m.data i := m.unpadded_frame
  have data : m.unpadded.echoed.prepared.data = m.unpadded.echoed.data := rfl
  have length := m.unpadded_totalLength (by simp at message; omega)
  have ihl : headerLength m.unpadded.data = 5 := by
    rw [headerLength,kept _ (by simp at *; omega)]
    exact request.ihl
  have ethernet : ∀ p, p + 6 ≤ Eth.etherType →
      m.unpadded.echoed.data.loadMac p = m.unpadded.data.echoHeaders.loadMac p ∧
        m.unpadded.data.loadMac p = m.data.loadMac p := by
    intro p inside
    exact ⟨Buffer.loadMac_congr fun i _ _ => m.unpadded.echoed_frame i (.inl (by simp at *; omega)),
      Buffer.loadMac_congr fun i _ _ => kept i (by simp at *; omega)⟩
  have addresses : ∀ p, p + 4 ≤ l4Header →
      m.unpadded.echoed.data.load32 p = m.unpadded.data.echoHeaders.load32 p ∧
        m.unpadded.data.load32 p = m.data.load32 p := by
    intro p inside
    exact ⟨Buffer.load32_congr fun i _ _ => m.unpadded.echoed_frame i (.inl (by simp at *; omega)),
      Buffer.load32_congr fun i _ _ => kept i (by simp at *; omega)⟩
  refine ⟨?_,?_,?_,?_,?_,fun i behind inside header cksum => ?_,?_⟩
  · obtain ⟨destination,source⟩ := echoHeaders_ethernet m.unpadded.data
    rw [data,(ethernet _ (by simp)).1,(ethernet Eth.sAddr (by simp)).1,destination,source,(ethernet _ (by simp)).2,
      (ethernet Eth.dAddr (by simp)).2]
    exact ⟨rfl,rfl⟩
  · obtain ⟨destination,source⟩ := echoHeaders_addresses m.unpadded.data
    simp only [dst,src]
    rw [data,(addresses _ (by simp)).1,(addresses (ipv4Header + Ipv4.srcAddr) (by simp)).1,destination,source,
      (addresses _ (by simp)).2,(addresses (ipv4Header + Ipv4.dstAddr) (by simp)).2]
    exact ⟨rfl,rfl⟩
  · rw [data,m.unpadded.echoed_frame _ (.inl (by simp)),echoHeaders_type]
  · rw [data,HeaderVerifies,headerWords,
      wordsOf_congr fun i low high => m.unpadded.echoed_frame i (.inl (by simp at *; omega))]
    exact echoHeaders_headerVerifies _
  · exact m.unpadded.echoed_icmpVerifies ihl (length ▸ message)
  · rw [data,m.unpadded.echoed_rest i behind header cksum,kept i inside]
  · have same := m.unpadded_metadata
    constructor
    · show m.unpadded.pktLen = m.pktLen
      rw [same]
    · show m.unpadded.vlanTci = m.vlanTci
      rw [same]

end Echoed

end Mbuf

/-! ## One answer -/

/-- The rules are run by these. -/
def Event.isRule : Event → Bool
  | .call _ | .rules _ => true
  | _ => false

/-- Between `w` and `w'` the mbuf left as `reply` by the queue of `port`, once, and the rules did not run. -/
structure Answered (port : Nat) (reply : Mbuf) (w w' : Worker) : Prop where
  handed : Handed w w' port reply
  others : ∀ q ≠ port, w'.txQueues q = w.txQueues q
  once : ∃ es, w'.log = w.log ++ es ∧ consumptions es = 1 ∧ enqueuedOn port es = 1 ∧ ∀ e ∈ es, e.isRule = false

/-- Accesses end nothing and run no rule. -/
theorem accesses_idle {es : List Event} (quiet : ∀ e ∈ es, e.accesses = true) :
    consumptions es = 0 ∧ freed es = 0 ∧ (∀ port, enqueuedOn port es = 0) ∧ ∀ e ∈ es, e.isRule = false := by
  have none := countP_accesses quiet
  refine ⟨none _ rfl rfl,none _ rfl rfl,fun port => none _ rfl rfl,fun e member => ?_⟩
  exact Bool.eq_false_iff.mpr (List.countP_eq_zero.mp (none _ rfl rfl) e member)

theorem Answered.after {port : Nat} {reply : Mbuf} (accessed : Accessed w w₁) (answered : Answered port reply w₁ w') :
    Answered port reply w w' := by
  obtain ⟨es,log,quiet⟩ := accessed.log
  obtain ⟨consumed,_,queued,rules⟩ := accesses_idle quiet
  obtain ⟨es',log',consumed',queued',rules'⟩ := answered.once
  refine ⟨?_,fun q other => (answered.others q other).trans (congrFun accessed.queues q),es ++ es',?_,?_,?_,?_⟩
  · rcases answered.handed with waits | ⟨taken,offered⟩
    · exact .inl (by rw [waits,accessed.queues])
    · rw [accessed.queues] at offered
      exact .inr ⟨taken,List.drop_subset_drop_left _ (by simp [log]) offered⟩
  · rw [log',log,List.append_assoc]
  · rw [consumptions_append,consumed,consumed']
  · rw [enqueuedOn_append,queued,queued']
  · exact List.forall_mem_append.mpr ⟨rules,rules'⟩

theorem isRule_flushEvents (port : Nat) (pkts : List Mbuf) (sent : Nat) :
    ∀ e ∈ flushEvents port pkts sent, e.isRule = false := by
  have none : (flushEvents port pkts sent).countP Event.isRule = 0 := by
    rw [flushEvents,List.countP_cons,countP_notSent _ rfl (fun _ _ => rfl)]
    rfl
  exact fun e member => Bool.eq_false_iff.mpr (List.countP_eq_zero.mp none e member)

theorem consumptions_flushEvents (port : Nat) (pkts : List Mbuf) (sent : Nat) :
    consumptions (flushEvents port pkts sent) = 0 := by
  rw [flushEvents,consumptions,List.countP_cons,countP_notSent _ rfl (fun _ _ => rfl)]
  rfl

theorem txSend_answered (port : Nat) (w : Worker) :
    Ensures ok (txSend port) w fun _ w' => Answered port w.pkt.prepared w w' := by
  -- the accesses, the store into the queue and, where it is full, a flush
  have once : ∀ rest : List Event, consumptions rest = 0 → enqueuedOn port rest = 0 → (∀ e ∈ rest, e.isRule = false) →
      let es := w.pkt.sendAccesses ++ [.enqueue port (w.txQueues port).pkts.length] ++ rest
      consumptions es = 1 ∧ enqueuedOn port es = 1 ∧ ∀ e ∈ es, e.isRule = false := by
    intro rest consumed queued rules
    obtain ⟨consumed',_,queued',rules'⟩ := accesses_idle (sendAccesses_quiet w.pkt)
    simp only [consumptions_append,enqueuedOn_append,consumed,queued,consumed',queued',List.forall_mem_append]
    refine ⟨rfl,?_,⟨rules',by simp [Event.isRule]⟩,rules⟩
    simp [enqueuedOn,Event.isEnqueueOn]
  have handed := txSend_handed ok port w
  rw [ensures_txSend] at handed ⊢
  constructor
  · intro room
    refine ⟨handed.1 room,fun q other => Function.update_of_ne other _ _,_,?_,once [] rfl rfl (by simp)⟩
    rw [List.append_nil]
    rfl
  · intro full
    let flush := flushEvents port (w.filled port) ((w.enqueued port).taken (w.filled port))
    refine ⟨handed.2 full,fun q other => Function.update_of_ne other _ _,_,?_,
      once flush (consumptions_flushEvents ..) (enqueuedOn_flushEvents ..) (isRule_flushEvents _ _ _)⟩
    exact List.append_assoc _ _ _

theorem Accessed.replying (w : Worker) : Accessed w w.replying :=
  ⟨rfl,rfl,echoAccesses,rfl,by simp [echoAccesses,Event.accesses]⟩

theorem paddingAccesses_quiet (m : Mbuf) : ∀ e ∈ m.paddingAccesses, e.accesses = true := by
  simp only [Mbuf.paddingAccesses]
  split <;> simp [Event.accesses]

theorem Accessed.unpadded (w : Worker) :
    Accessed w { w with pkt := w.pkt.unpadded, log := w.log ++ w.pkt.paddingAccesses } :=
  ⟨rfl,rfl,_,rfl,paddingAccesses_quiet w.pkt⟩

theorem icmpEcho_answered (port : Nat) (w : Worker) :
    Ensures ok (icmpEcho port) w fun ret w' => 0 ≤ ret ∧ Answered port w.pkt.echoed.prepared w w' := by
  show Ensures ok (icmpEchoWith rteRawCksumAt port) w _
  simp only [icmpEchoWith,rteRawCksumAt,load16,store16,ensures_bind,ensures_icmpEchoHeaders,ensures_readPkt,ensures_writePkt,
    ensures_pure]
  apply (txSend_answered port _).mono
  intro sent w' answered
  refine ⟨Int.natCast_nonneg _,?_⟩
  exact answered.after ((Accessed.replying w).trans ((Accessed.read _).trans ((Accessed.read _).trans (.stored _ _))))

theorem icmpAnswer_mine (dev : Devices) (port : Nat) (w : Worker)
    (request : w.pkt.data (l4Header + Icmp.icmpType) = ipIcmpEchoRequest)
    (mine : ∀ p, ok .appConfig p → w.pkt.Mine dev p.config) :
    Ensures ok (icmpAnswer dev port) w fun ret w' => ret = 0 ∧ Answered port w.pkt.echoed.prepared w w' := by
  simp only [icmpAnswer,load32,ensures_bind,ensures_readPkt,ensures_appConfig]
  intro p loaded
  apply ensures_isNatashaIp
  have found : p.config.isNatashaIp dev (rteBeToCpu32 w.pkt.dst) w.pkt.vlanId = true :=
    (w.pkt.mine_iff dev p.config).mp (mine p loaded)
  simp only [Mbuf.dst] at found
  simp only [Worker.logged_pkt,found,Bool.not_true,Bool.false_eq_true,if_false,icmpDispatch,load8,ensures_bind,
    ensures_readPkt,request,if_true]
  apply (icmpEcho_answered port _).mono
  intro ret w' answered
  have nonneg : ¬ret < 0 := Int.not_lt.mpr answered.1
  simp only [nonneg,if_false,ensures_pure,true_and]
  exact answered.2.after ((Accessed.read w).trans ((Accessed.read _).trans (.read _)))

theorem icmpAnswer_foreign (dev : Devices) (port : Nat) (w : Worker)
    (foreign : ∀ p, ok .appConfig p → ¬w.pkt.Mine dev p.config) :
    Ensures ok (icmpAnswer dev port) w fun ret w' => ret = -1 ∧ w' = (w.logged .read).logged .read := by
  simp only [icmpAnswer,load32,ensures_bind,ensures_readPkt,ensures_appConfig]
  intro p loaded
  apply ensures_isNatashaIp
  have missing : p.config.isNatashaIp dev (rteBeToCpu32 w.pkt.dst) w.pkt.vlanId = false :=
    Bool.eq_false_iff.mpr ((w.pkt.mine_iff dev p.config).not.mp (foreign p loaded))
  simp only [Mbuf.dst] at missing
  simp only [Worker.logged_pkt,missing,Bool.not_false,if_true,ensures_pure,true_and]

/-- Between `w` and `w'` the mbuf was freed, once, and the rules did not run. -/
structure Discarded (w w' : Worker) : Prop where
  queues : w'.txQueues = w.txQueues
  once : ∃ es, w'.log = w.log ++ es ∧ consumptions es = 1 ∧ freed es = 1 ∧ ∀ e ∈ es, e.isRule = false

/-- A handler that refuses the packet leaves it to `dispatch_packet`. -/
theorem dispatchPacket_refused {dev : Devices} {port : Nat} {w : Worker} {kept : Mbuf → Prop} (received : kept w.pkt)
    (refuses : ∀ w₀ : Worker, w₀.pkt = w.pkt → Ensures ok
      (if w.pkt.data.load16 Eth.etherType = rteBeToCpu16 etherTypeIpv4 then ipv4Handle dev port
        else if w.pkt.data.load16 Eth.etherType = rteBeToCpu16 etherTypeArp then arpHandle dev port
        else pure (-1)) w₀ fun ret w₁ => ret = -1 ∧ Accessed w₀ w₁ ∧ kept w₁.pkt) :
    Ensures ok (dispatchPacket dev port) w fun _ w' => Discarded w w' ∧ kept w'.pkt := by
  -- what `dispatch_packet` does before the handler and what it does after
  have refused : ∀ (w₀ : Worker) (before : List Event), w₀.pkt = w.pkt → w₀.txQueues = w.txQueues →
      w₀.log = w.log ++ before → consumptions before = 0 → freed before = 0 → (∀ e ∈ before, e.isRule = false) →
      Ensures ok
        (if w.pkt.data.load16 Eth.etherType = rteBeToCpu16 etherTypeIpv4 then ipv4Handle dev port
          else if w.pkt.data.load16 Eth.etherType = rteBeToCpu16 etherTypeArp then arpHandle dev port
          else pure (-1)) w₀ fun ret w₁ =>
        (ret < 0 → Discarded w ((w₁.bumped .dropUnhandledEthertype).logged .free) ∧ kept w₁.pkt) ∧
        (¬ret < 0 → Discarded w w₁ ∧ kept w₁.pkt) := by
    intro w₀ before pkt queues log consumed frees rules
    apply (refuses w₀ pkt).mono
    rintro ret w₁ ⟨rfl,accessed,same⟩
    refine ⟨fun _ => ⟨?_,same⟩,fun nonneg => absurd (by decide) nonneg⟩
    obtain ⟨es,log',quiet⟩ := accessed.log
    obtain ⟨consumed',frees',_,rules'⟩ := accesses_idle quiet
    refine ⟨accessed.queues.trans queues,before ++ (es ++ [.bump .dropUnhandledEthertype,.free]),?_,?_,?_,?_⟩
    · simp [log,log']
    · rw [consumptions_append,consumptions_append,consumed,consumed']
      rfl
    · rw [freed_append,freed_append,frees,frees']
      rfl
    · exact List.forall_mem_append.mpr ⟨rules,List.forall_mem_append.mpr ⟨rules',by simp [Event.isRule]⟩⟩
  simp only [dispatchPacket,load16,ensures_bind,ensures_readPkt,ensures_ite,ensures_bump,ensures_rtePktmbufFree,ensures_pure,
    Worker.logged_pkt,Worker.bumped_pkt] at refused ⊢
  refine ⟨fun _ => ⟨⟨rfl,[.read,.bump .dropBadL3Cksum,.free],?_,rfl,rfl,by simp [Event.isRule]⟩,received⟩,
    fun _ => ⟨fun _ => ?_,fun _ => ?_⟩⟩
  · simp
  · exact refused _ [.read,.bump .rxBadL4Cksum,.read] rfl rfl (by simp) rfl rfl (by simp [Event.isRule])
  · exact refused _ [.read,.read] rfl rfl (by simp) rfl rfl (by simp [Event.isRule])

theorem Mbuf.unpadded_mine (m : Mbuf) (header : sizeofIpv4Hdr ≤ m.totalLength) (dev : Devices) (config : AppConfig) :
    m.unpadded.Mine dev config ↔ m.Mine dev config := by
  have address : m.unpadded.dst = m.dst :=
    Buffer.load32_congr fun i _ high => m.unpadded_frame i (by simp at *; omega)
  have vlan : m.unpadded.vlanTci = m.vlanTci := by rw [m.unpadded_metadata]
  simp only [Mine,vlanId,address,vlan]

theorem Mbuf.unpadded_nextProtoId (m : Mbuf) (header : sizeofIpv4Hdr ≤ m.totalLength) :
    m.unpadded.nextProtoId = m.nextProtoId :=
  m.unpadded_frame _ (by simp at *; omega)

section Request

variable {m : Mbuf} (request : m.EchoRequest)
include request

theorem Mbuf.EchoRequest.header : sizeofIpv4Hdr ≤ m.totalLength :=
  Nat.le_trans (Nat.le_add_right _ _) request.message

theorem Mbuf.EchoRequest.unpadded_icmp : m.unpadded.data (ipv4Header + Ipv4.nextProtoId) = ipprotoIcmp :=
  (m.unpadded_nextProtoId request.header).trans request.icmp

theorem Mbuf.EchoRequest.unpadded_type : m.unpadded.data (l4Header + Icmp.icmpType) = ipIcmpEchoRequest := by
  have message := request.message
  rw [m.unpadded_frame _ (by simp at *; omega)]
  exact request.request

theorem Mbuf.EchoRequest.unpadded_mine (dev : Devices) (config : AppConfig) :
    m.unpadded.Mine dev config ↔ m.Mine dev config :=
  m.unpadded_mine request.header dev config

end Request

theorem ipv4Handle_mine (dev : Devices) (port : Nat) (w : Worker)
    (icmp : w.pkt.unpadded.data (ipv4Header + Ipv4.nextProtoId) = ipprotoIcmp)
    (request : w.pkt.unpadded.data (l4Header + Icmp.icmpType) = ipIcmpEchoRequest)
    (mine : ∀ p, ok .appConfig p → w.pkt.unpadded.Mine dev p.config) :
    Ensures ok (ipv4Handle dev port) w fun ret w' => ret = 0 ∧
      Answered port w.pkt.unpadded.echoed.prepared w w' := by
  simp only [ipv4Handle,load8,ensures_bind,ensures_fixNexus9000PaddingBug,ensures_readPkt,icmp,if_true]
  refine Ensures.mono (icmpAnswer_mine dev port _ ?_ ?_) fun ret w' answered => ?_
  · exact request
  · exact mine
  · rw [answered.1]
    simp only [ge_iff_le,le_refl,if_true,ensures_pure,true_and]
    exact answered.2.after ((Accessed.unpadded w).trans (.read _))

/-- The worker when a request for an address of nobody goes on to the rules. -/
def Worker.unanswered (w : Worker) : Worker :=
  { w with pkt := w.pkt.unpadded, log := w.log ++ (w.pkt.paddingAccesses ++ [.read,.read,.read]) }

theorem ipv4Handle_foreign (dev : Devices) (port : Nat) (w : Worker) (request : w.pkt.EchoRequest)
    (foreign : ∀ p, ok .appConfig p → ¬w.pkt.Mine dev p.config) {post : Int → Worker → Prop}
    (rules : Ensures ok (ipv4Rules dev port) w.unanswered post) : Ensures ok (ipv4Handle dev port) w post := by
  rw [← ipv4HandleWith_rteRawCksumAt]
  simp only [ipv4HandleWith,load8,ensures_bind,ensures_fixNexus9000PaddingBug,ensures_readPkt,request.unpadded_icmp,if_true]
  have foreign' := fun p loaded => (request.unpadded_mine dev p.config).not.mpr (foreign p loaded)
  refine Ensures.mono (icmpAnswer_foreign dev port _ ?_) fun ret w' refused => ?_
  · exact foreign'
  · rw [refused.1,refused.2]
    have negative : ¬(-1 : Int) ≥ 0 := by decide
    simp only [negative,if_false]
    have same : w.unanswered = { w with
        pkt := w.pkt.unpadded, log := w.log ++ w.pkt.paddingAccesses ++ [.read] ++ [.read] ++ [.read] } := by
      simp [Worker.unanswered]
    rwa [same] at rules

theorem Accessed.unanswered (w : Worker) : Accessed w w.unanswered :=
  ⟨rfl,rfl,_,rfl,List.forall_mem_append.mpr ⟨paddingAccesses_quiet w.pkt,by simp [Event.accesses]⟩⟩

theorem ipv4Rules_null (dev : Devices) (port : Nat) (w : Worker) (none : ∀ p, ok .appConfig p → p.config.rules = .null) :
    Ensures ok (ipv4Rules dev port) w fun ret w' => ret = -1 ∧ w' = w := by
  simp only [ipv4Rules,ensures_bind,ensures_appConfig,ensures_readConfig]
  intro p loaded _
  simp only [none p loaded,if_true,ensures_pure,true_and]

theorem ipv4Handle_echo (dev : Devices) (port : Nat) (w : Worker) (request : w.pkt.EchoRequest) :
    ((∀ p, ok .appConfig p → w.pkt.Mine dev p.config) →
      Ensures ok (ipv4Handle dev port) w fun ret w' => ret = 0 ∧
        ∃ reply : Mbuf, reply.RepliesTo w.pkt ∧ Answered port reply w w') ∧
    ((∀ p, ok .appConfig p → ¬w.pkt.Mine dev p.config) →
      (∃ w₁, Accessed w w₁ ∧ (∀ i < sizeofEtherHdr + w.pkt.totalLength, w₁.pkt.data i = w.pkt.data i) ∧
        ∀ r, Ends ok (ipv4Handle dev port) w r → Ends ok (ipv4Rules dev port) w₁ r) ∧
      ((∀ p, ok .appConfig p → p.config.rules = .null) →
        w.pkt.data.load16 Eth.etherType = rteBeToCpu16 etherTypeIpv4 →
        Ensures ok (dispatchPacket dev port) w fun _ w' => Discarded w w' ∧
          ∀ i < sizeofEtherHdr + w.pkt.totalLength, w'.pkt.data i = w.pkt.data i)) := by
  refine ⟨fun mine => ?_,fun foreign => ⟨⟨w.unanswered,.unanswered w,w.pkt.unpadded_frame,fun r ends => ?_⟩,
    fun none ipv4 => ?_⟩⟩
  · have mine' := fun p loaded => (request.unpadded_mine dev p.config).mpr (mine p loaded)
    exact (ipv4Handle_mine dev port w request.unpadded_icmp request.unpadded_type mine').mono fun ret w' answered =>
      ⟨answered.1,_,w.pkt.echoed_repliesTo request,answered.2⟩
  · have rules : Ensures ok (ipv4Rules dev port) w.unanswered fun ret w' =>
        Ends ok (ipv4Rules dev port) w.unanswered (ret,w') := (ensures_iff_ends ..).mpr fun _ ends => ends
    exact (ensures_iff_ends ..).mp (ipv4Handle_foreign dev port w request foreign rules) r ends
  · let kept (m : Mbuf) : Prop := ∀ i < sizeofEtherHdr + w.pkt.totalLength, m.data i = w.pkt.data i
    have received : kept w.pkt := fun _ _ => rfl
    refine dispatchPacket_refused received fun w₀ pkt => ?_
    rw [if_pos ipv4]
    apply ipv4Handle_foreign dev port w₀ (pkt ▸ request) (pkt ▸ foreign)
    apply (ipv4Rules_null dev port _ none).mono
    rintro ret w' ⟨rfl,rfl⟩
    exact ⟨rfl,.unanswered w₀,fun i inside => pkt ▸ w₀.pkt.unpadded_frame i (pkt ▸ inside)⟩

theorem paddedPing_request : paddedPing.EchoRequest :=
  ⟨by decide,by decide,by decide,by decide,by decide,by decide,by decide⟩

/-- The padded ping is answered by its owner and dropped by a natasha that has no address and no rules. -/
theorem ipv4Handle_echo_padded :
    let w := Worker.start paddedPing (fun _ => ⟨[],by decide⟩) fun _ => 0
    let r := exec (steadyAnswer pinged) (ipv4Handle soleDevice 0) w
    let r' := exec (steadyAnswer .zeroed) (dispatchPacket soleDevice 0) w
    (r.1 = 0 ∧ ∃ reply : Mbuf, reply.RepliesTo paddedPing ∧ Answered 0 reply w r.2) ∧ Discarded w r'.2 := by
  have mine : ∀ p, steadyOnly pinged .appConfig p → paddedPing.Mine soleDevice p.config := by
    rintro p rfl
    exact ⟨0,by decide,by decide⟩
  have foreign : ∀ p, steadyOnly .zeroed .appConfig p → ¬paddedPing.Mine soleDevice p.config := by
    rintro p rfl ⟨port,_,member⟩
    cases member
  have answered := (ipv4Handle_echo soleDevice 0 (.start paddedPing (fun _ => ⟨[],by decide⟩) fun _ => 0)
    paddedPing_request).1 mine
  have dropped := ((ipv4Handle_echo soleDevice 0 (.start paddedPing (fun _ => ⟨[],by decide⟩) fun _ => 0)
    paddedPing_request).2 foreign).2 (by rintro p rfl; rfl) (by decide)
  exact ⟨answered.exec (steadyAnswer pinged) fun _ => rfl,(dropped.exec (steadyAnswer .zeroed) fun _ => rfl).1⟩

end Natasha
