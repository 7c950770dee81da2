import Natasha.Residue

/-! What the bytes behind a packet can change. For every frame whose loads leave the packet there
is a configuration under which one byte behind it decides: the checksum of a reply, or whether the
address quoted by an ICMP error has a NAT rule. -/
namespace Natasha

open Interaction

variable {ok : (op : Op) → Ans op → Prop}

theorem rteRawCksum_ne {a b : Buffer} {off len k : Nat} (inside : k < len) (other : ∀ i, i ≠ off + k → a i = b i)
    (differ : a (off+k) ≠ b (off+k)) : rteRawCksum a off len ≠ rteRawCksum b off len := by
  intro same
  have totals : OnesComplement.total (wordsOf a off len) % 65535 = OnesComplement.total (wordsOf b off len) % 65535 := by
    have left := OnesComplement.sum_modEq (wordsOf a off len)
    rw [show OnesComplement.sum (wordsOf a off len) = OnesComplement.sum (wordsOf b off len) from same] at left
    exact left.symm.trans (OnesComplement.sum_modEq (wordsOf b off len))
  have bytes : (a (off+k)).toNat ≠ (b (off+k)).toNat := fun equal => differ (BitVec.eq_of_toNat_eq equal)
  have := (a (off+k)).isLt
  have := (b (off+k)).isLt
  simp only [wordsOf,OnesComplement.total_append] at totals
  by_cases word : k / 2 < len / 2
  · -- the byte is in a whole word
    have exchanged := OnesComplement.total_exchange (fun i => a.load16 (off + 2*i)) (fun i => b.load16 (off + 2*i))
      (len / 2) (k / 2) word fun i apart => Buffer.load16_congr fun j _ _ => (other j (by omega)).symm
    have tail : (if len % 2 = 1 then [(a (off + (len - 1))).setWidth 16] else []) =
        if len % 2 = 1 then [(b (off + (len - 1))).setWidth 16] else [] := by
      split
      · rw [other _ (by omega)]
      · rfl
    rw [tail] at totals
    simp only [Buffer.load16_toNat] at exchanged
    have := (a (off + 2*(k/2) + 1)).isLt
    rcases Nat.mod_two_eq_zero_or_one k with even | odd
    · have low : off + 2*(k/2) = off + k := by omega
      have high := congrArg BitVec.toNat (other (off + 2*(k/2) + 1) (by omega))
      rw [low] at exchanged high
      omega
    · have high : off + 2*(k/2) + 1 = off + k := by omega
      have low := congrArg BitVec.toNat (other (off + 2*(k/2)) (by omega))
      rw [high] at exchanged
      omega
  · -- it is the odd last byte
    have last : len - 1 = k := by omega
    have odd : len % 2 = 1 := by omega
    have words : (List.range (len / 2)).map (fun i => a.load16 (off + 2*i)) =
        (List.range (len / 2)).map fun i => b.load16 (off + 2*i) := by
      apply List.map_congr_left
      intro i member
      have below := List.mem_range.mp member
      exact Buffer.load16_congr fun j _ _ => other j (by omega)
    rw [words,if_pos odd,if_pos odd,last] at totals
    simp only [OnesComplement.total_cons,OnesComplement.total_nil,BitVec.toNat_setWidth] at totals
    omega

theorem icmpEcho_queue (w : Worker) (port : Nat) (empty : (w.txQueues port).pkts = []) :
    Ensures ok (icmpEcho port) w fun _ w' => (w'.txQueues port).pkts = [w.pkt.echoed.prepared] := by
  simp only [icmpEcho,store8,store16,store32,storeMac,load16,load32,loadMac,ensures_bind,ensures_writePkt,ensures_readPkt,
    ensures_txSend,ensures_pure,Worker.stored_pkt,Worker.logged_pkt]
  constructor
  · intro room
    simp only [Worker.setQueue_txQueues,Function.update_self,Worker.filled,Worker.stored_txQueues,Worker.logged_txQueues,
      empty,List.nil_append,Worker.stored_pkt,Worker.logged_pkt]
    rfl
  · intro full
    simp [Worker.filled,empty,maxTxBurst] at full

/-- An IPv4 frame that its handler takes care of. -/
theorem dispatchPacket_ipv4 {dev : Devices} {port : Nat} {w : Worker} {post : Worker → Prop}
    (cksum : w.pkt.olFlags &&& pktRxIpCksumMask ≠ pktRxIpCksumBad)
    (ipv4 : w.pkt.data.load16 Eth.etherType = rteBeToCpu16 etherTypeIpv4)
    (handles : ∀ w' : Worker, w'.pkt = w.pkt → w'.txQueues = w.txQueues → w'.stats .dropNoRule = w.stats .dropNoRule →
      Ensures ok (ipv4Handle dev port) w' fun ret w'' => 0 ≤ ret ∧ post w'') :
    Ensures ok (dispatchPacket dev port) w fun _ w' => post w' := by
  simp only [dispatchPacket,load16,ensures_bind,ensures_readPkt,ensures_ite,ensures_pure,ensures_bump,
    ensures_rtePktmbufFree,Worker.logged_pkt,Worker.bumped_pkt,cksum,ipv4,false_implies,true_implies,not_false_eq_true,
    not_true,true_and,and_true]
  have settled : ∀ w' : Worker, w'.pkt = w.pkt → w'.txQueues = w.txQueues → w'.stats .dropNoRule = w.stats .dropNoRule →
      Ensures ok (ipv4Handle dev port) w' fun ret w'' =>
        (ret < 0 → post ((w''.bumped .dropUnhandledEthertype).logged .free)) ∧ (¬ret < 0 → post w'') := by
    intro w' pkt queues stats
    refine (handles w' pkt queues stats).mono fun ret w'' handled => ?_
    exact ⟨fun negative => absurd handled.1 (Int.not_le.mpr negative),fun _ => handled.2⟩
  exact ⟨fun _ => settled _ rfl rfl (by simp [Worker.logged,Worker.bumped]),fun _ => settled _ rfl rfl rfl⟩

theorem dispatchPacket_echo {config : AppConfig} {dev : Devices} {port : Nat} {w : Worker} (pings : w.pkt.Pings dev config)
    (only : ∀ p, ok .appConfig p → p.config = config) (empty : (w.txQueues port).pkts = []) :
    Ensures ok (dispatchPacket dev port) w fun _ w' => (w'.txQueues port).pkts = [w.pkt.unpadded.echoed.prepared] := by
  refine dispatchPacket_ipv4 pings.cksum pings.ipv4 fun w' pkt queues _ => ?_
  simp only [ipv4Handle,ensures_bind,ensures_fixNexus9000PaddingBug,load8,ensures_readPkt,ensures_ite,pkt,pings.icmp,
    true_implies,not_true,false_implies,and_true,icmpAnswer,load32,ensures_appConfig,ensures_readPkt,Worker.logged_pkt]
  intro p found
  refine ensures_isNatashaIp dev p _ _ _ ?_
  rw [only p found,pings.mine]
  simp only [Bool.not_true,Bool.false_eq_true,false_implies,true_and,not_false_eq_true,true_implies,icmpDispatch,load8,
    ensures_bind,ensures_readPkt,ensures_ite,Worker.logged_pkt,pings.request,not_true,and_true]
  refine (icmpEcho_queue _ port (by rw [← empty,← queues]; rfl)).mono fun ret w'' queued => ?_
  exact ⟨fun _ => ⟨fun _ => ⟨le_rfl,queued⟩,fun negative => absurd le_rfl negative⟩,
    fun _ => ⟨fun _ => ⟨le_rfl,queued⟩,fun negative => absurd le_rfl negative⟩⟩

/-! ## Leaks -/

/-- The frame with another byte behind it. -/
def Mbuf.withByte (m : Mbuf) (k : Nat) (v : Byte) : Mbuf := { m with data := m.data.store8 k v }

section Stale

variable {m : Mbuf} {k : Nat} {v : Byte}

theorem Mbuf.twin_withByte (stale : m.pktLen.toNat ≤ k) : m.Twin (m.withByte k v) :=
  { Mbuf.Twin.refl m with bytes := fun i inside => (Buffer.store8_frame m.data k v i (by omega)).symm }

theorem Mbuf.unpadded_withByte (long : m.Long 60) (stale : m.pktLen.toNat ≤ k) :
    (m.withByte k v).unpadded = m.unpadded.withByte k v := by
  have below : 60 ≤ k := Nat.le_trans long stale
  have length : (m.data.store8 k v).load16 (ipv4Header + Ipv4.totalLength) =
      m.data.load16 (ipv4Header + Ipv4.totalLength) :=
    Buffer.load16_congr fun i _ upper => Buffer.store8_frame _ _ _ _ (by simp at upper; omega)
  simp only [unpadded,withByte,length]
  split
  case isTrue padded =>
    have fits := paddingLen_fits m.pktLen (rteBeToCpu16 (m.data.load16 (ipv4Header + Ipv4.totalLength))) padded
    congr 1
    funext i
    by_cases same : i = k
    · subst i
      rw [Buffer.store8_same,Buffer.zero_frame _ _ _ _ (.inr (by omega)),Buffer.store8_same]
    · simp only [Buffer.zero,Buffer.store8_frame _ _ _ _ same]
  case isFalse => rfl

theorem Mbuf.withByte_frame (i : Nat) (apart : i ≠ k) : (m.withByte k v).data i = m.data i :=
  Buffer.store8_frame m.data k v i apart

end Stale

/-- What the step stores is computed from the first 60 bytes. -/
def FromHeaders (f : Buffer → Buffer) : Prop :=
  ∀ ⦃a b : Buffer⦄, (∀ i < 60, a i = b i) → ∀ i, a i = b i → f a i = f b i

theorem FromHeaders.comp {f g : Buffer → Buffer} (first : FromHeaders f) (second : FromHeaders g) : FromHeaders (g ∘ f) :=
  fun _ _ headers i same => second (fun j low => first headers j (headers j low)) i (first headers i same)

theorem fromHeaders_echoHeaders : FromHeaders Buffer.echoHeaders := by
  have typed : FromHeaders fun b => b.store8 (l4Header + Icmp.icmpType) ipIcmpEchoReply :=
    fun a b _ i same => Buffer.store8_congr same _ _
  have macs : FromHeaders fun b => (b.storeMac Eth.sAddr (b.loadMac Eth.dAddr)).storeMac Eth.dAddr (b.loadMac Eth.sAddr) := by
    intro a b headers i same
    have source : a.loadMac Eth.sAddr = b.loadMac Eth.sAddr :=
      Buffer.loadMac_congr fun j _ upper => headers j (by simp at upper; omega)
    have target : a.loadMac Eth.dAddr = b.loadMac Eth.dAddr :=
      Buffer.loadMac_congr fun j _ upper => headers j (by simp at upper; omega)
    simp only [source,target]
    exact Buffer.storeMac_congr (Buffer.storeMac_congr same _ _) _ _
  have addresses : FromHeaders fun b => (b.store32 (ipv4Header + Ipv4.srcAddr) (b.load32 (ipv4Header + Ipv4.dstAddr))).store32
      (ipv4Header + Ipv4.dstAddr) (b.load32 (ipv4Header + Ipv4.srcAddr)) := by
    intro a b headers i same
    have source : a.load32 (ipv4Header + Ipv4.srcAddr) = b.load32 (ipv4Header + Ipv4.srcAddr) :=
      Buffer.load32_congr fun j _ upper => headers j (by simp at upper; omega)
    have target : a.load32 (ipv4Header + Ipv4.dstAddr) = b.load32 (ipv4Header + Ipv4.dstAddr) :=
      Buffer.load32_congr fun j _ upper => headers j (by simp at upper; omega)
    simp only [source,target]
    exact Buffer.store32_congr (Buffer.store32_congr same _ _) _ _
  have zeroed : FromHeaders fun b => b.store16 (ipv4Header + Ipv4.hdrChecksum) 0 :=
    fun a b _ i same => Buffer.store16_congr same _ _
  have summed : FromHeaders fun b => b.store16 (ipv4Header + Ipv4.hdrChecksum) (rteIpv4Cksum b ipv4Header) := by
    intro a b headers i same
    have sum : rteRawCksum a ipv4Header sizeofIpv4Hdr = rteRawCksum b ipv4Header sizeofIpv4Hdr :=
      rteRawCksum_congr fun j _ upper => headers j (by simp at upper; omega)
    simp only [rteIpv4Cksum,sum]
    exact Buffer.store16_congr same _ _
  have last : FromHeaders fun b => b.store16 (l4Header + Icmp.icmpCksum) 0 := fun a b _ i same => Buffer.store16_congr same _ _
  exact ((((typed.comp macs).comp addresses).comp zeroed).comp summed).comp last

/-- A request that claims to be longer than its frame gets a checksum of what is behind the frame. -/
theorem echoed_withByte_ne {m : Mbuf} {v : Byte} (long : m.Long 60) (beyond : ¬m.Long (l4Header + m.echoLen))
    (differ : v ≠ m.data m.pktLen.toNat) :
    (m.withByte m.pktLen.toNat v).echoed.data.load16 (l4Header + Icmp.icmpCksum) ≠
      m.echoed.data.load16 (l4Header + Icmp.icmpCksum) := by
  have at60 : 60 ≤ m.pktLen.toNat := long
  have past : m.pktLen.toNat < l4Header + m.echoLen := Nat.not_le.mp beyond
  have others : ∀ i, i ≠ m.pktLen.toNat → (m.data.store8 m.pktLen.toNat v).echoHeaders i = m.data.echoHeaders i :=
    fun i apart => fromHeaders_echoHeaders (fun j low => Buffer.store8_frame _ _ _ _ (by omega)) i
      (Buffer.store8_frame _ _ _ _ apart)
  have length : ∀ b : Buffer, Mbuf.echoLen { m with data := b.echoHeaders } = Mbuf.echoLen { m with data := b } := by
    intro b
    simp only [Mbuf.echoLen]
    rw [Buffer.load16_congr fun i lower upper => b.echoHeaders_frame i (.inl (by simp at lower upper; omega))]
  have length' : Mbuf.echoLen { m with data := m.data.store8 m.pktLen.toNat v } = m.echoLen := by
    simp only [Mbuf.echoLen]
    rw [Buffer.load16_congr fun i _ upper => Buffer.store8_frame _ _ _ _ (by simp at upper; omega)]
  have inside : m.pktLen.toNat - l4Header < m.echoLen := by
    simp only [l4Header,ipv4Header,sizeofEtherHdr,sizeofIpv4Hdr] at past ⊢
    omega
  simp only [Mbuf.echoed,Mbuf.withByte,Buffer.load16_store16,length]
  rw [length']
  intro same
  refine rteRawCksum_ne inside (fun i apart => ?_) ?_ (BitVec.not_inj.mp same)
  · exact others i (by simp at apart; omega)
  · have here : l4Header + (m.pktLen.toNat - l4Header) = m.pktLen.toNat := by simp; omega
    rw [here,Buffer.echoHeaders_frame _ _ (.inr (by omega)),Buffer.echoHeaders_frame _ _ (.inr (by omega)),Buffer.store8_same]
    exact differ

theorem Mbuf.unpadded_pktLen (m : Mbuf) : m.unpadded.pktLen = m.pktLen := by
  simp only [unpadded]
  split <;> rfl

theorem Mbuf.Pings.withByte {m : Mbuf} {dev : Devices} {config : AppConfig} {k : Nat} {v : Byte} (pings : m.Pings dev config)
    (long : m.Long 60) (stale : m.pktLen.toNat ≤ k) : (m.withByte k v).Pings dev config := by
  have below : 60 ≤ k := Nat.le_trans long stale
  have same := Mbuf.unpadded_withByte (v := v) long stale
  have address : (m.unpadded.withByte k v).data.load32 (ipv4Header + Ipv4.dstAddr) =
      m.unpadded.data.load32 (ipv4Header + Ipv4.dstAddr) :=
    Buffer.load32_congr fun i _ upper => Mbuf.withByte_frame i (by simp at upper; omega)
  refine ⟨pings.cksum,?_,?_,?_,?_⟩
  · exact (Buffer.load16_congr fun i _ upper => Mbuf.withByte_frame i (by simp at upper; omega)).trans pings.ipv4
  · rw [same,Mbuf.withByte_frame _ (by simp; omega)]
    exact pings.icmp
  · rw [same,address]
    exact pings.mine
  · rw [same,Mbuf.withByte_frame _ (by simp; omega)]
    exact pings.request

/-- Every address is an address of port 0. -/
def AppConfig.answering (ip : U32) (vlan : U16) : AppConfig := { AppConfig.zeroed with ports := fun _ => ⟨[(ip,vlan)],0⟩ }

theorem selfContained_echo {m : Mbuf} (long : m.Long 60) (cksum : m.olFlags &&& pktRxIpCksumMask ≠ pktRxIpCksumBad)
    (ipv4 : m.data.load16 Eth.etherType = rteBeToCpu16 etherTypeIpv4)
    (icmp : m.unpadded.data (ipv4Header + Ipv4.nextProtoId) = ipprotoIcmp)
    (request : m.unpadded.data (l4Header + Icmp.icmpType) = ipIcmpEchoRequest) (selfContained : m.SelfContained) :
    m.unpadded.Long (l4Header + m.unpadded.echoLen) := by
  by_contra beyond
  let dev : Devices := ⟨1,fun _ _ => 0⟩
  let config := AppConfig.answering (rteBeToCpu32 (m.unpadded.data.load32 (ipv4Header + Ipv4.dstAddr))) m.unpadded.vlanId
  let w : Worker := .start m (fun _ => ⟨[],Nat.zero_le _⟩) fun _ => 0
  let v := m.unpadded.data m.pktLen.toNat + 1
  have differ : v ≠ m.unpadded.data m.pktLen.toNat := by simp [v]
  have pings : m.Pings dev config := ⟨cksum,ipv4,icmp,by simp [config,dev,AppConfig.answering,AppConfig.isNatashaIp],request⟩
  have pings' : (m.withByte m.pktLen.toNat v).Pings dev config := pings.withByte long le_rfl
  have reply : ∀ m : Mbuf, m.Pings dev config →
      ((exec (steadyAnswer config) (dispatchPacket dev 0) { w with pkt := m }).2.txQueues 0).pkts =
        [m.unpadded.echoed.prepared] := by
    intro m pings
    have ensured : Ensures (steadyOnly config) (dispatchPacket dev 0) { w with pkt := m } fun _ w' =>
        (w'.txQueues 0).pkts = [m.unpadded.echoed.prepared] :=
      dispatchPacket_echo pings (fun p found => by rw [show p = _ from found]; rfl) rfl
    exact ensured.exec (steadyAnswer config) fun _ => rfl
  have queues := (selfContained config dev 0 w _ (Mbuf.twin_withByte (v := v) le_rfl)).queues 0
  rw [reply m pings,reply _ pings',Mbuf.unpadded_withByte long le_rfl,List.forall₂_cons] at queues
  have bytes : ∀ i < m.unpadded.pktLen.toNat, m.unpadded.echoed.data i =
      (m.unpadded.withByte m.pktLen.toNat v).echoed.data i := queues.1.bytes
  have long' : 60 ≤ m.unpadded.pktLen.toNat := m.unpadded_pktLen ▸ long
  rw [← m.unpadded_pktLen] at differ bytes
  refine echoed_withByte_ne long' beyond differ (Buffer.load16_congr fun i _ upper => (bytes i ?_).symm)
  simp only [l4Header,ipv4Header,sizeofEtherHdr,sizeofIpv4Hdr,Icmp.icmpCksum] at upper
  omega

/-- How often `drop_no_rule` is counted for the quoted address. -/
def quotedMisses (table : NatLookup) (m : Mbuf) (inner : AddrField) : U64 :=
  if natLookupIp table (rteBeToCpu32 (m.data.load32 inner.innerAddress)) = none then 1 else 0

section Misses

variable {table : NatLookup} (only : ∀ p, ok .appConfig p → p.config.natLookup = table)

include only

theorem icmpNatHandle_misses (inner : AddrField) (w : Worker) (m : Mbuf) (pkt : w.pkt = m) (error : m.IsError) :
    Ensures ok (icmpNatHandle inner) w fun _ w' =>
      w'.stats .dropNoRule = w.stats .dropNoRule + quotedMisses table m inner := by
  subst pkt
  simp only [icmpNatHandle,load8,load16,load32,ensures_bind,ensures_readPkt,ensures_ite,ensures_pure,
    ensures_appConfig,ensures_readConfig,ensures_lookupAndRewrite,ensures_bump,ensures_cksumUpdateAt,
    Worker.stored_pkt,Worker.logged_pkt,← not_isError_iff w.pkt error.1]
  refine ⟨fun other => absurd error other,fun _ => ⟨fun dead => absurd dead (unlikely_nonneg _),fun _ p found _ => ?_⟩⟩
  rw [only p found]
  refine ⟨fun missing => ⟨fun _ => ?_,fun nonneg => absurd (by decide) nonneg⟩,
    fun new mapped => ⟨fun negative => absurd negative (by decide),fun _ => ?_⟩⟩
  · have missed : natLookupIp table (rteBeToCpu32 (w.pkt.data.load32 inner.innerAddress)) = none := missing
    simp [quotedMisses,missed,Worker.bumped,Worker.logged]
  · have found : natLookupIp table (rteBeToCpu32 (w.pkt.data.load32 inner.innerAddress)) = some new := mapped
    simp [quotedMisses,found,Worker.stored,Worker.logged]

theorem actionNatRewriteImpl_misses (field : AddrField) (w : Worker) (error : w.pkt.IsError) {new : U32}
    (found : natLookupIp table (rteBeToCpu32 (w.pkt.data.load32 field.address)) = some new) :
    Ensures ok (actionNatRewriteImpl field.address field.opposite) w fun _ w' =>
      w'.stats .dropNoRule = w.stats .dropNoRule + quotedMisses table w.pkt field.opposite := by
  simp only [actionNatRewriteImpl,load8,load16,load32,ensures_bind,ensures_readPkt,ensures_pure,ensures_ite,
    ensures_appConfig,ensures_readConfig,ensures_lookupAndRewrite,ensures_cksumUpdateAt,ensures_bump,
    Worker.stored_pkt,Worker.logged_pkt,Buffer.load32_store32]
  intro p loaded _
  rw [only p loaded]
  refine ⟨fun missing => absurd (found.symm.trans missing) (by simp),
    fun new' mapped => ⟨fun negative => absurd negative (by decide),fun _ => ?_⟩⟩
  -- the mbuf once its outer address and header checksum are done
  let m := w.pkt.readdressed field.address new'
  have quotes : m.IsError := (w.pkt.readdressed_isError field new').mpr error
  have icmp : m.proto = ipprotoIcmp := quotes.1
  have same : quotedMisses table m field.opposite = quotedMisses table w.pkt field.opposite := by
    have bounds := field.opposite.innerAddress_bounds
    rw [quotedMisses,quotedMisses,readdressed_load32_frame w.pkt field new' _ (by simp at bounds ⊢; omega)]
  refine ⟨fun (tcp : m.proto = ipprotoTcp) => absurd (icmp.symm.trans tcp) (by decide),fun _ =>
    ⟨fun (udp : m.proto = ipprotoUdplite ∨ m.proto = ipprotoUdp) => ?_,fun _ =>
      ⟨fun _ => ?_,fun other => absurd icmp other⟩⟩⟩
  · rw [icmp] at udp
    exact absurd udp (by decide)
  · refine (icmpNatHandle_misses only field.opposite _ m rfl quotes).mono fun _ w' counted => ?_
    refine counted.trans ?_
    change w.stats .dropNoRule + quotedMisses table m field.opposite = _
    rw [same]

end Misses

theorem isError_icmp {m : Mbuf} (error : m.IsError) : m.data (ipv4Header + Ipv4.nextProtoId) = ipprotoIcmp := by
  have proto := error.1
  unfold Mbuf.proto at proto
  split at proto
  · exact absurd proto (by decide)
  · exact proto

/-- An ICMP error under a configuration whose only rule is `nat rewrite ipv4.src_addr`. -/
theorem dispatchPacket_misses {config : AppConfig} {dev : Devices} {port : Nat} {w : Worker} {new : U32}
    (cksum : w.pkt.olFlags &&& pktRxIpCksumMask ≠ pktRxIpCksumBad)
    (ipv4 : w.pkt.data.load16 Eth.etherType = rteBeToCpu16 etherTypeIpv4) (error : w.pkt.unpadded.IsError)
    (rules : config.rules = .action (.natRewrite .src)) (alone : ∀ ip vlan, config.isNatashaIp dev ip vlan = false)
    (found : natLookupIp config.natLookup (rteBeToCpu32 (w.pkt.unpadded.data.load32 AddrField.src.address)) = some new)
    (only : ∀ p, ok .appConfig p → p.config = config) :
    Ensures ok (dispatchPacket dev port) w fun _ w' => w'.stats .dropNoRule =
      w.stats .dropNoRule + quotedMisses config.natLookup w.pkt.unpadded .dst := by
  refine dispatchPacket_ipv4 cksum ipv4 fun w' pkt _ stats => ?_
  have rewrites : ∀ w₁ : Worker, w₁.pkt = w.pkt.unpadded → w₁.stats = w'.stats →
      Ensures ok (actionNatRewrite .src) w₁ fun ret w₂ => (0 : Int) ≤ 0 ∧ (w₂.logged (.rules ret)).stats .dropNoRule =
        w.stats .dropNoRule + quotedMisses config.natLookup w.pkt.unpadded .dst := by
    intro w₁ same counters
    rw [← stats,← counters,← same]
    rw [← same] at error found
    exact (actionNatRewriteImpl_misses (fun p loaded => congrArg AppConfig.natLookup (only p loaded)) .src w₁ error
      found).mono fun ret w₂ counted => ⟨le_rfl,counted⟩
  simp only [ipv4Handle,ensures_bind,ensures_fixNexus9000PaddingBug,load8,ensures_readPkt,ensures_ite,pkt,
    isError_icmp error,true_implies,not_true,false_implies,and_true,icmpAnswer,load32,ensures_appConfig,Worker.logged_pkt]
  intro p answers
  refine ensures_isNatashaIp dev p _ _ _ ?_
  rw [only p answers,alone]
  simp only [Bool.not_false,true_implies,ensures_pure,not_true,false_implies,and_true]
  refine ⟨fun nonneg => absurd nonneg (by decide),fun _ => ?_⟩
  intro (q : ConfigPtr) loaded
  rw [ensures_readConfig,only q loaded,rules]
  refine fun _ => ⟨fun null => Node.noConfusion null,fun _ => ?_⟩
  intro (r : ConfigPtr) loaded'
  rw [ensures_readConfig,only r loaded',rules]
  simp only [processRules,ensures_bind,ensures_readConfig,Action.invoke,ensures_event]
  exact fun _ _ => rewrites _ rfl rfl

/-- A table with these two addresses and no others. -/
def twoAddresses (first second : U32) : NatLookup :=
  (addRuleToTable (addRuleToTable none first 1 allSucceed).1 second 1 allSucceed).1

theorem natLookupIp_twoAddresses (first second ip : U32) :
    natLookupIp (twoAddresses first second) ip = if ip = second ∨ ip = first then some 1 else none := by
  rw [natLookupIp_eq_slot,twoAddresses,slot_addRuleToTable,slot_addRuleToTable]
  by_cases second : ip = second
  · simp [second]
  · by_cases first : ip = first
    · simp [first]
    · simp [second,first,slot]

theorem exists_byte (a b : Byte) : ∃ v : Byte, v ≠ a ∧ v ≠ b := by
  by_contra none
  have each : ∀ v : Byte, v = a ∨ v = b := by
    intro v
    by_contra neither
    exact none ⟨v,not_or.mp neither⟩
  have zero := each 0
  have one := each 1
  have two := each 2
  bv_omega

/-- Rules that rewrite the source with this table. -/
def AppConfig.rewriting (table : NatLookup) : AppConfig := ⟨fun _ => ⟨[],0⟩,table,.action (.natRewrite .src)⟩

theorem selfContained_error {m : Mbuf} (long : m.Long 60) (cksum : m.olFlags &&& pktRxIpCksumMask ≠ pktRxIpCksumBad)
    (ipv4 : m.data.load16 Eth.etherType = rteBeToCpu16 etherTypeIpv4) (error : m.unpadded.IsError)
    (selfContained : m.SelfContained) : m.unpadded.Long (innerIpv4Header + sizeofIpv4Hdr) := by
  by_contra short
  have stale : m.pktLen.toNat ≤ 61 := by
    have below := Nat.not_le.mp short
    rw [m.unpadded_pktLen] at below
    simp only [innerIpv4Header,l4Header,ipv4Header,sizeofEtherHdr,sizeofIpv4Hdr,sizeofIcmpHdr] at below
    omega
  -- the last byte of the quoted destination is behind the frame
  obtain ⟨v,other,other'⟩ := exists_byte (m.unpadded.data 61) (m.unpadded.data 29)
  let outer := rteBeToCpu32 (m.unpadded.data.load32 AddrField.src.address)
  let inner := rteBeToCpu32 (m.unpadded.data.load32 AddrField.dst.innerAddress)
  let config := AppConfig.rewriting (twoAddresses outer inner)
  let dev : Devices := ⟨1,fun _ _ => 0⟩
  let w : Worker := .start m (fun _ => ⟨[],Nat.zero_le _⟩) fun _ => 0
  have alone : ∀ ip vlan, config.isNatashaIp dev ip vlan = false := by simp [config,dev,AppConfig.rewriting,AppConfig.isNatashaIp]
  have known : natLookupIp config.natLookup outer = some 1 := by
    simp [config,AppConfig.rewriting,natLookupIp_twoAddresses]
  have counted : ∀ m : Mbuf, m.olFlags &&& pktRxIpCksumMask ≠ pktRxIpCksumBad →
      m.data.load16 Eth.etherType = rteBeToCpu16 etherTypeIpv4 → m.unpadded.IsError →
      rteBeToCpu32 (m.unpadded.data.load32 AddrField.src.address) = outer →
      (exec (steadyAnswer config) (dispatchPacket dev 0) { w with pkt := m }).2.stats .dropNoRule =
        0 + quotedMisses config.natLookup m.unpadded .dst := by
    intro m cksum ipv4 error same
    have ensured : Ensures (steadyOnly config) (dispatchPacket dev 0) { w with pkt := m } fun _ w' =>
        w'.stats .dropNoRule = 0 + quotedMisses config.natLookup m.unpadded .dst :=
      dispatchPacket_misses cksum ipv4 error rfl alone (same.symm ▸ known) fun p found => by rw [show p = _ from found]; rfl
    exact ensured.exec (steadyAnswer config) fun _ => rfl
  have unpadded := Mbuf.unpadded_withByte (v := v) long stale
  have fate := congrFun (selfContained config dev 0 w (m.withByte 61 v) (Mbuf.twin_withByte stale)).stats .dropNoRule
  rw [counted m cksum ipv4 error rfl,counted (m.withByte 61 v) cksum ?_ ?_ ?_,unpadded] at fate
  · have here : (m.unpadded.withByte 61 v).data 61 = v := Buffer.store8_same m.unpadded.data 61 v
    have hit : quotedMisses config.natLookup m.unpadded .dst = 0 := by
      simp [quotedMisses,config,AppConfig.rewriting,natLookupIp_twoAddresses,inner]
    have notInner : rteBeToCpu32 ((m.unpadded.withByte 61 v).data.load32 AddrField.dst.innerAddress) ≠ inner := by
      intro same
      have words := congrArg rteBeToCpu32 same
      rw [rteBeToCpu32_involutive,rteBeToCpu32_involutive] at words
      exact other (here.symm.trans (Buffer.load32_inj words 3 (by decide)))
    have notOuter : rteBeToCpu32 ((m.unpadded.withByte 61 v).data.load32 AddrField.dst.innerAddress) ≠ outer := by
      intro same
      have words := congrArg rteBeToCpu32 same
      rw [rteBeToCpu32_involutive,rteBeToCpu32_involutive] at words
      exact other' (here.symm.trans (Buffer.load32_inj words 3 (by decide)))
    have missed : quotedMisses config.natLookup (m.unpadded.withByte 61 v) .dst = 1 := by
      simp [quotedMisses,config,AppConfig.rewriting,natLookupIp_twoAddresses,notInner,notOuter]
    rw [hit,missed] at fate
    exact absurd fate (by decide)
  · exact (Buffer.load16_congr fun i _ upper => Mbuf.withByte_frame i (by simp at upper; omega)).trans ipv4
  · rw [unpadded]
    exact (isError_congr m.unpadded fun i member => Mbuf.withByte_frame i (by simp at member; omega)).mpr error
  · rw [unpadded,Buffer.load32_congr fun i _ upper => Mbuf.withByte_frame i (by simp [AddrField.address_src] at upper; omega)]

/-- The fate of a frame depends on the bytes behind it, under some configuration, unless it is
dropped for its flags, is not IPv4 or keeps the loads of rules and replies in the packet. -/
theorem selfContained_iff (m : Mbuf) (long : m.Long 60) :
    m.SelfContained ↔ (m.olFlags &&& pktRxIpCksumMask ≠ pktRxIpCksumBad →
      m.data.load16 Eth.etherType = rteBeToCpu16 etherTypeIpv4 → m.unpadded.Contained) := by
  constructor
  · intro selfContained cksum ipv4
    refine ⟨⟨?_,fun error => selfContained_error long cksum ipv4 error selfContained⟩,fun icmp request =>
      selfContained_echo long cksum ipv4 icmp request selfContained⟩
    rw [Mbuf.Long,m.unpadded_pktLen]
    exact long
  · exact selfContained m long

/-- An echo request in a frame of 60 bytes, with the low byte of its `total_length`. -/
def echoRequest (totalLength : Byte) : Mbuf where
  data := .ofBytes ([2,0,0,0,0,1,2,0,0,0,0,2,8,0] ++
    [0x45,0,0,totalLength,0,0,0,0,64,1,0,0,10,0,0,1,10,0,0,2] ++ [8,0,0,0,0,1,0,1])
  pktLen := 60
  olFlags := 0
  vlanTci := 0
  l2Len := 0
  l3Len := 0

instance (len : Nat) (m : Mbuf) : Decidable (m.Long len) := Nat.decLe _ _

instance (m : Mbuf) : Decidable m.Covered := inferInstanceAs (Decidable (_ ∧ (_ → _)))

instance (m : Mbuf) : Decidable m.Contained := inferInstanceAs (Decidable (_ ∧ (_ → _ → _)))

/-- A request that fills its frame. -/
theorem selfContained_iff_filled : (echoRequest 46).Long 60 ∧ (echoRequest 46).SelfContained := by
  have contained : (echoRequest 46).unpadded.Contained := by decide +kernel
  exact ⟨by decide,(selfContained_iff (echoRequest 46) (by decide)).mpr fun _ _ => contained⟩

/-- A request that claims 100 bytes is answered with a checksum of bytes behind the frame. -/
theorem overlong_leaks : (echoRequest 100).Long 60 ∧ ¬(echoRequest 100).SelfContained := by
  refine ⟨by decide,fun selfContained => ?_⟩
  have sum := selfContained_echo (by decide) (by decide) (by decide) (by decide +kernel) (by decide +kernel) selfContained
  exact absurd sum (by decide +kernel)

end Natasha
