import Natasha.EchoReply

/-! Fragments of ICMP datagrams addressed to natasha. The NAT path takes a fragment with a nonzero
offset for one without an L4 header; `icmp_dispatch` reads a type out of its payload. -/
namespace Natasha

open Interaction

variable {ok : (op : Op) → Ans op → Prop}

/-- A fragment of an ICMP datagram that is not the first one. -/
structure Mbuf.LaterFragment (m : Mbuf) : Prop where
  ihl : 5 ≤ (headerLength m.data).toNat
  length : 4 * (headerLength m.data).toNat ≤ m.totalLength
  icmp : m.nextProtoId = ipprotoIcmp
  later : m.fragOffset ≠ 0

/-- The same frame but for the payload of its datagram. -/
structure Mbuf.SameHeaders (m m' : Mbuf) : Prop where
  metadata : m' = { m with data := m'.data }
  bytes : ∀ i, i < m.l4Start ∨ sizeofEtherHdr + m.totalLength ≤ i → m'.data i = m.data i

/-- No reply was sent and no byte of the datagram changed. -/
structure LeftAlone (w w' : Worker) : Prop where
  queues : w'.txQueues = w.txQueues
  silent : ∃ es, w'.log = w.log ++ es ∧ enqueued es = 0
  bytes : ∀ i, sizeofEtherHdr ≤ i → i < sizeofEtherHdr + w.pkt.totalLength → w'.pkt.data i = w.pkt.data i

/-- The worker when `icmp_answer` has dropped a packet that is no echo request. -/
def Worker.unknownIcmp (w : Worker) : Worker :=
  (Worker.bumped { w with
    pkt := w.pkt.unpadded
    log := w.log ++ (w.pkt.paddingAccesses ++ [.read,.read,.read,.read]) } .dropUnknownIcmp).logged .free

theorem icmpAnswer_unknown (dev : Devices) (port : Nat) (w : Worker)
    (other : w.pkt.data (l4Header + Icmp.icmpType) ≠ ipIcmpEchoRequest)
    (mine : ∀ p, ok .appConfig p → w.pkt.Mine dev p.config) :
    Ensures ok (icmpAnswer dev port) w fun ret w' => ret = 0 ∧
      w' = ((((w.logged .read).logged .read).logged .read).bumped .dropUnknownIcmp).logged .free := by
  simp only [icmpAnswer,load32,ensures_bind,ensures_readPkt,ensures_appConfig]
  intro p loaded
  apply ensures_isNatashaIp
  have found : p.config.isNatashaIp dev (rteBeToCpu32 w.pkt.dst) w.pkt.vlanId = true :=
    (w.pkt.mine_iff dev p.config).mp (mine p loaded)
  have negative : (-1 : Int) < 0 := by decide
  simp only [Mbuf.dst] at found
  simp only [Worker.logged_pkt,found,Bool.not_true,Bool.false_eq_true,if_false,icmpDispatch,load8,ensures_bind,
    ensures_readPkt,other,ensures_pure,negative,if_true,ensures_bump,ensures_rtePktmbufFree,true_and]

theorem ipv4Handle_unknown (dev : Devices) (port : Nat) (w : Worker)
    (icmp : w.pkt.unpadded.data (ipv4Header + Ipv4.nextProtoId) = ipprotoIcmp)
    (other : w.pkt.unpadded.data (l4Header + Icmp.icmpType) ≠ ipIcmpEchoRequest)
    (mine : ∀ p, ok .appConfig p → w.pkt.unpadded.Mine dev p.config) :
    Ensures ok (ipv4Handle dev port) w fun ret w' => ret = 0 ∧ w' = w.unknownIcmp := by
  simp only [ipv4Handle,load8,ensures_bind,ensures_fixNexus9000PaddingBug,ensures_readPkt,icmp,if_true]
  refine Ensures.mono (icmpAnswer_unknown dev port _ ?_ ?_) fun ret w' dropped => ?_
  · exact other
  · exact mine
  · rw [dropped.1,dropped.2]
    simp only [ge_iff_le,le_refl,if_true,ensures_pure,true_and]
    simp [Worker.unknownIcmp,Worker.logged,Worker.bumped]

theorem unknownIcmp_leftAlone (w : Worker) : LeftAlone w w.unknownIcmp where
  queues := rfl
  silent := by
    refine ⟨w.pkt.paddingAccesses ++ [.read,.read,.read,.read,.bump .dropUnknownIcmp,.free],?_,?_⟩
    · simp [Worker.unknownIcmp,Worker.logged,Worker.bumped]
    · have padding : w.pkt.paddingAccesses.countP Event.isEnqueue = 0 :=
        countP_accesses (paddingAccesses_quiet w.pkt) _ rfl rfl
      rw [enqueued,List.countP_append,padding]
      rfl
  bytes i _ inside := w.pkt.unpadded_frame i inside

theorem Answered.not_leftAlone {port : Nat} {reply : Mbuf} (answered : Answered port reply w w') : ¬LeftAlone w w' := by
  intro alone
  obtain ⟨es,log,_,queued,_⟩ := answered.once
  obtain ⟨es',log',silent⟩ := alone.silent
  obtain rfl : es = es' := List.append_cancel_left (log.symm.trans log')
  obtain ⟨e,member,sent⟩ := List.countP_pos_iff.mp (Nat.lt_of_lt_of_eq Nat.one_pos queued.symm)
  apply List.countP_eq_zero.mp silent e member
  cases e <;> simp_all [Event.isEnqueueOn,Event.isEnqueue]

namespace Mbuf.SameHeaders

variable {m m' : Mbuf} (same : m.SameHeaders m') (fragment : m.LaterFragment)
include same fragment

theorem header (i : Nat) (inside : i < l4Header) : m'.data i = m.data i := by
  have ihl := fragment.ihl
  exact same.bytes i (.inl (by simp only [l4Start] at *; simp at *; omega))

theorem totalLength : m'.totalLength = m.totalLength :=
  Mbuf.totalLength_congr fun i _ high => same.header fragment i (by simp; omega)

theorem laterFragment : m'.LaterFragment where
  ihl := by
    rw [headerLength,same.header fragment _ (by simp)]
    exact fragment.ihl
  length := by
    rw [headerLength,same.header fragment _ (by simp),same.totalLength fragment]
    exact fragment.length
  icmp := (same.header fragment _ (by simp)).trans fragment.icmp
  later := by
    have field : m'.data.load16 (ipv4Header + Ipv4.fragmentOffset) = m.data.load16 (ipv4Header + Ipv4.fragmentOffset) :=
      Buffer.load16_congr fun i _ high => same.header fragment i (by simp at *; omega)
    rw [fragOffset,fragmentField,field]
    exact fragment.later

theorem mine {dev : Devices} {config : AppConfig} (mine : m.Mine dev config) : m'.Mine dev config := by
  have address : m'.dst = m.dst := Buffer.load32_congr fun i _ high => same.header fragment i (by simp at *; omega)
  have vlan : m'.vlanId = m.vlanId := by rw [same.metadata,vlanId,vlanId]
  rw [Mine,address,vlan]
  exact mine

theorem paddingAccesses : m'.paddingAccesses = m.paddingAccesses := by
  have field : m'.data.load16 (ipv4Header + Ipv4.totalLength) = m.data.load16 (ipv4Header + Ipv4.totalLength) :=
    Buffer.load16_congr fun i _ high => same.header fragment i (by simp at *; omega)
  have length : m'.pktLen = m.pktLen := by rw [same.metadata]
  rw [Mbuf.paddingAccesses,field,length,Mbuf.paddingAccesses]

end Mbuf.SameHeaders

theorem Mbuf.LaterFragment.header {m : Mbuf} (fragment : m.LaterFragment) : sizeofIpv4Hdr ≤ m.totalLength := by
  have ihl := fragment.ihl
  have length := fragment.length
  simp only [sizeofIpv4Hdr]
  omega

/-- The byte at the place of the ICMP type is that of an echo request, and not padding that is cleared
before it is read. -/
def Mbuf.SeemsRequest (m : Mbuf) : Prop :=
  m.data (l4Header + Icmp.icmpType) = ipIcmpEchoRequest ∧
    (m.totalLength = sizeofIpv4Hdr → paddingLen m.pktLen (.ofNat 16 sizeofIpv4Hdr) ≤ 0)

theorem Mbuf.unpadded_type_iff (m : Mbuf) (header : sizeofIpv4Hdr ≤ m.totalLength) :
    m.unpadded.data (l4Header + Icmp.icmpType) = ipIcmpEchoRequest ↔ m.SeemsRequest := by
  by_cases empty : m.totalLength = sizeofIpv4Hdr
  · have length : rteBeToCpu16 (m.data.load16 (ipv4Header + Ipv4.totalLength)) = .ofNat 16 sizeofIpv4Hdr :=
      BitVec.eq_of_toNat_eq empty
    simp only [SeemsRequest,unpadded,length,empty,true_implies]
    split
    case isTrue padded =>
      have cleared : (m.data.zero (sizeofEtherHdr + (BitVec.ofNat 16 sizeofIpv4Hdr).toNat)
          (paddingLen m.pktLen (.ofNat 16 sizeofIpv4Hdr)).toNat) (l4Header + Icmp.icmpType) = 0 := by
        rw [Buffer.zero,if_pos]
        simp at *
        omega
      exact ⟨fun request => absurd (cleared.symm.trans request) (by decide),fun seems => absurd padded (by omega)⟩
    case isFalse packed => exact ⟨fun request => ⟨request,by omega⟩,And.left⟩
  · rw [m.unpadded_frame _ (by simp at *; omega),SeemsRequest]
    exact ⟨fun request => ⟨request,fun short => absurd short empty⟩,And.left⟩

/-- The run of `ipv4_handle` on `m`. -/
def handled (dev : Devices) (port : Nat) (config : AppConfig) (w : Worker) (m : Mbuf) : Int × Worker :=
  exec (steadyAnswer config) (ipv4Handle dev port) { w with pkt := m }

section Handled

variable (dev : Devices) (port : Nat) (config : AppConfig) (w : Worker) {m : Mbuf} (fragment : m.LaterFragment)
  (mine : m.Mine dev config)
include fragment mine

theorem handled_unknown (other : ¬m.SeemsRequest) :
    handled dev port config w m = (0,Worker.unknownIcmp { w with pkt := m }) := by
  rw [← m.unpadded_type_iff fragment.header] at other
  have icmp := (m.unpadded_nextProtoId fragment.header).trans fragment.icmp
  have mine' : ∀ p, steadyOnly config .appConfig p → m.unpadded.Mine dev p.config := by
    rintro p rfl
    exact (m.unpadded_mine fragment.header dev config).mpr mine
  obtain ⟨zero,dropped⟩ := (ipv4Handle_unknown dev port { w with pkt := m } icmp other mine').exec (steadyAnswer config)
    fun _ => rfl
  exact Prod.ext zero dropped

theorem handled_leftAlone_iff :
    LeftAlone { w with pkt := m } (handled dev port config w m).2 ↔ ¬m.SeemsRequest := by
  constructor
  · intro alone seems
    have request := (m.unpadded_type_iff fragment.header).mpr seems
    have icmp := (m.unpadded_nextProtoId fragment.header).trans fragment.icmp
    have mine' : ∀ p, steadyOnly config .appConfig p → m.unpadded.Mine dev p.config := by
      rintro p rfl
      exact (m.unpadded_mine fragment.header dev config).mpr mine
    obtain ⟨_,answered⟩ := (ipv4Handle_mine dev port { w with pkt := m } icmp request mine').exec (steadyAnswer config)
      fun _ => rfl
    exact answered.not_leftAlone alone
  · intro other
    rw [handled_unknown dev port config w fragment mine other]
    exact unknownIcmp_leftAlone _

end Handled

theorem ipv4Handle_laterFragment_iff (dev : Devices) (port : Nat) (config : AppConfig) (w : Worker) (m m' : Mbuf)
    (fragment : m.LaterFragment) (mine : m.Mine dev config) (same : m.SameHeaders m') :
    LeftAlone { w with pkt := m } (handled dev port config w m).2 ∧
      LeftAlone { w with pkt := m' } (handled dev port config w m').2 ∧
      (handled dev port config w m').1 = (handled dev port config w m).1 ∧
      { (handled dev port config w m').2 with pkt := (handled dev port config w m).2.pkt } =
        (handled dev port config w m).2 ↔
      ¬m.SeemsRequest ∧ ¬m'.SeemsRequest := by
  have fragment' := same.laterFragment fragment
  have mine' := same.mine fragment mine
  rw [handled_leftAlone_iff dev port config w fragment mine,handled_leftAlone_iff dev port config w fragment' mine']
  refine ⟨fun alone => ⟨alone.1,alone.2.1⟩,fun other => ⟨other.1,other.2,?_⟩⟩
  rw [handled_unknown dev port config w fragment mine other.1,handled_unknown dev port config w fragment' mine' other.2]
  refine ⟨rfl,?_⟩
  simp only [Worker.unknownIcmp,same.paddingAccesses fragment,Worker.logged,Worker.bumped]

/-- The second fragment of a ping, with the first byte of its payload. -/
def pingFragment (payload : Byte) : Mbuf :=
  { paddedPing with data := (paddedPing.data.store16 (ipv4Header + Ipv4.fragmentOffset) 0xb900).store8 l4Header payload }

theorem pingFragment_later (payload : Byte) : (pingFragment payload).LaterFragment :=
  ⟨by decide +revert,by decide +revert,by decide +revert,by decide +revert⟩

theorem pingFragment_mine (payload : Byte) : (pingFragment payload).Mine soleDevice pinged :=
  ⟨0,by decide,by decide +revert⟩

theorem ipv4Handle_laterFragment_iff_payloads :
    let w := Worker.start (pingFragment 0x61) (fun _ => ⟨[],by decide⟩) fun _ => 0
    LeftAlone w (handled soleDevice 0 pinged w (pingFragment 0x61)).2 ∧
      (handled soleDevice 0 pinged w (pingFragment 0x62)).1 = (handled soleDevice 0 pinged w (pingFragment 0x61)).1 := by
  have same : (pingFragment 0x61).SameHeaders (pingFragment 0x62) := by
    refine ⟨rfl,fun i outside => ?_⟩
    have other : i ≠ l4Header := by
      rintro rfl
      exact absurd outside (by decide)
    simp only [pingFragment,Buffer.store8,if_neg other]
  obtain ⟨alone,_,ret,_⟩ := (ipv4Handle_laterFragment_iff soleDevice 0 pinged
    (.start (pingFragment 0x61) (fun _ => ⟨[],by decide⟩) fun _ => 0) _ _ (pingFragment_later 0x61)
    (pingFragment_mine 0x61) same).mpr
    ⟨fun seems => absurd seems.1 (by decide),fun seems => absurd seems.1 (by decide)⟩
  exact ⟨alone,ret⟩

/-- A fragment whose payload starts with the type of an echo request is answered. -/
theorem pingFragment_answered :
    ¬∀ (dev : Devices) (port : Nat) (config : AppConfig) (w : Worker) (m m' : Mbuf), m.LaterFragment →
      m.Mine dev config → m.SameHeaders m' →
      LeftAlone { w with pkt := m } (handled dev port config w m).2 ∧
        LeftAlone { w with pkt := m' } (handled dev port config w m').2 ∧
        (handled dev port config w m').1 = (handled dev port config w m).1 ∧
        { (handled dev port config w m').2 with pkt := (handled dev port config w m).2.pkt } =
          (handled dev port config w m).2 := by
  intro claim
  have alone := (claim soleDevice 0 pinged (.start (pingFragment 8) (fun _ => ⟨[],by decide⟩) fun _ => 0) (pingFragment 8)
    (pingFragment 8) (pingFragment_later 8) (pingFragment_mine 8) ⟨rfl,fun _ _ => rfl⟩).1
  have sent : ((handled soleDevice 0 pinged (.start (pingFragment 8) (fun _ => ⟨[],by decide⟩) fun _ => 0)
    (pingFragment 8)).2.txQueues 0).pkts.length = 1 := rfl
  rw [alone.queues] at sent
  exact absurd sent (by decide)

end Natasha
