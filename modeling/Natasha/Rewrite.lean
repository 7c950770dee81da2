import Natasha.Rules
import Natasha.Transmit

/-! What a successful NAT rewrite leaves in the mbuf, as functions on mbufs: the outer address
and the header checksum, then the L4 checksum or the header quoted by an ICMP error.
Later results start from `actionNatRewrite_pkt` and never look at the code again. -/
namespace Natasha

open Interaction

variable {ok : (op : Op) → Ans op → Prop}

def AddrField.address (field : AddrField) : Nat := ipv4Header + field.offset

theorem AddrField.address_src : AddrField.src.address = 26 := rfl
theorem AddrField.address_dst : AddrField.dst.address = 30 := rfl

/-- The quoted address that a rewrite touches. -/
def AddrField.opposite : AddrField → AddrField
  | .src => .dst
  | .dst => .src

def AddrField.innerAddress (field : AddrField) : Nat := innerIpv4Header + field.offset

namespace Mbuf

/-- The protocol whose header follows; later fragments have none. -/
def proto (m : Mbuf) : Byte :=
  if nataIsFrag (m.data.load16 (ipv4Header + Ipv4.fragmentOffset)) then 0
  else m.data (ipv4Header + Ipv4.nextProtoId)

/-- An ICMP error, which quotes a datagram. -/
def IsError (m : Mbuf) : Prop :=
  m.proto = ipprotoIcmp ∧ (m.data (l4Header + Icmp.icmpType) = icmpDestUnreach ∨
    m.data (l4Header + Icmp.icmpType) = icmpTimeExceeded ∨
    m.data (l4Header + Icmp.icmpType) = icmpParameterprob)

def cksumUpdated (m : Mbuf) (field : Nat) (before after : U32) : Mbuf :=
  { m with data := m.data.store16 field (cksumUpdate (m.data.load16 field) before after) }

/-- A new outer address, with the header checksum brought up to date. -/
def readdressed (m : Mbuf) (address : Nat) (new : U32) : Mbuf :=
  { m with data := m.data.store32 address new }.cksumUpdated (ipv4Header + Ipv4.hdrChecksum)
    (m.data.load32 address) new

def l4Updated (m : Mbuf) (field : Nat) (offload : U64) (before after : U32) : Mbuf :=
  if nataIsFirstFrag (m.data.load16 (ipv4Header + Ipv4.fragmentOffset)) then
    m.cksumUpdated field before after
  else
    { m with data := m.data.store16 field 0, olFlags := m.olFlags ||| offload }

/-- The L4 checksum for an address that changed from `before` to `after`. -/
def l4Translated (m : Mbuf) (before after : U32) : Mbuf :=
  if m.proto = ipprotoTcp then
    m.l4Updated (l4Header + Tcp.cksum) pktTxTcpCksum before after
  else if m.proto = ipprotoUdplite ∨ m.proto = ipprotoUdp then
    if m.data.load16 (l4Header + Udp.dgramCksum) = 0 then m
    else m.l4Updated (l4Header + Udp.dgramCksum) pktTxUdpCksum before after
  else m

theorem l4Translated_tcp (m : Mbuf) (tcp : m.proto = ipprotoTcp) (before after : U32) :
    m.l4Translated before after = m.l4Updated (l4Header + Tcp.cksum) pktTxTcpCksum before after :=
  if_pos tcp

theorem l4Translated_udp (m : Mbuf) (udp : m.proto = ipprotoUdplite ∨ m.proto = ipprotoUdp)
    (before after : U32) :
    m.l4Translated before after = if m.data.load16 (l4Header + Udp.dgramCksum) = 0 then m
      else m.l4Updated (l4Header + Udp.dgramCksum) pktTxUdpCksum before after := by
  have notTcp : ¬m.proto = ipprotoTcp := by rcases udp with udp | udp <;> rw [udp] <;> decide
  rw [l4Translated,if_neg notTcp,if_pos udp]

theorem l4Translated_other (m : Mbuf) (notTcp : ¬m.proto = ipprotoTcp)
    (notUdp : ¬(m.proto = ipprotoUdplite ∨ m.proto = ipprotoUdp)) (before after : U32) :
    m.l4Translated before after = m := by
  rw [l4Translated,if_neg notTcp,if_neg notUdp]

/-- The quoted header with a new address, and the three checksums that cover it. -/
def innerTranslated (m : Mbuf) (inner : AddrField) (new : U32) : Mbuf :=
  let oldCksum := m.data.load16 (innerIpv4Header + Ipv4.hdrChecksum)
  let old := m.data.load32 inner.innerAddress
  let m := { m with data := m.data.store32 inner.innerAddress new }
  let m := m.cksumUpdated (innerIpv4Header + Ipv4.hdrChecksum) old new
  let newCksum := m.data.load16 (innerIpv4Header + Ipv4.hdrChecksum)
  let m := m.cksumUpdated (l4Header + Icmp.icmpCksum) (oldCksum.setWidth 32) (newCksum.setWidth 32)
  m.cksumUpdated (l4Header + Icmp.icmpCksum) old new

end Mbuf

@[simp] theorem ensures_cksumUpdateAt (field : Nat) (before after : U32) (w : Worker)
    (post : Unit → Worker → Prop) :
    Ensures ok (cksumUpdateAt field before after) w post ↔
      post () ((w.logged .read).stored fun m => m.cksumUpdated field before after) := Iff.rfl

theorem ensures_lookupAndRewrite (table : NatLookup) (ip : U32) (field : Nat) (w : Worker)
    (post : Int → Worker → Prop) :
    Ensures ok (lookupAndRewrite table ip field) w post ↔
      (natLookupIp table ip = none → post (-1) (w.logged .free)) ∧
      (∀ new, natLookupIp table ip = some new →
        post 0 (w.stored fun m => { m with data := m.data.store32 field new })) := by
  unfold lookupAndRewrite
  cases natLookupIp table ip <;> simp [store32]

theorem l4CksumUpdate_pkt (field : Nat) (offload : U64) (before after : U32) (w : Worker) :
    Ensures ok (l4CksumUpdate field offload before after) w fun _ w' =>
      w'.pkt = w.pkt.l4Updated field offload before after := by
  simp only [l4CksumUpdate,load16,store16,ensures_bind,ensures_readPkt,ensures_ite,ensures_writePkt,
    ensures_cksumUpdateAt,Worker.stored_pkt,Worker.logged_pkt]
  exact ⟨fun first => (if_pos first).symm,fun whole => (if_neg whole).symm⟩

/-- A double negation is never negative: the length test of `icmp_nat_handle` never fires. -/
theorem unlikely_nonneg (x : U64) : ¬unlikely x < 0 := by
  unfold unlikely
  split <;> decide

theorem not_isError_iff (m : Mbuf) (icmp : m.proto = ipprotoIcmp) :
    ¬m.IsError ↔ m.data (l4Header + Icmp.icmpType) ≠ icmpDestUnreach ∧
      m.data (l4Header + Icmp.icmpType) ≠ icmpTimeExceeded ∧
      m.data (l4Header + Icmp.icmpType) ≠ icmpParameterprob := by
  simp only [Mbuf.IsError,icmp,true_and,not_or,ne_eq]

theorem icmpNatHandle_pkt (inner : AddrField) (w : Worker) (m : Mbuf) (pkt : w.pkt = m)
    (icmp : m.proto = ipprotoIcmp) :
    Ensures ok (icmpNatHandle inner) w fun ret w' =>
      (¬m.IsError → ret = 0 ∧ w'.pkt = m) ∧
      (m.IsError → ∃ q, ok .appConfig q ∧
        (ret = -1 ∧ natLookupIp q.config.natLookup (rteBeToCpu32 (m.data.load32 inner.innerAddress)) = none ∨
        ∃ new, ret = 0 ∧
          natLookupIp q.config.natLookup (rteBeToCpu32 (m.data.load32 inner.innerAddress)) = some new ∧
          w'.pkt = m.innerTranslated inner new)) := by
  subst pkt
  simp only [icmpNatHandle,load8,load16,load32,ensures_bind,ensures_readPkt,ensures_ite,ensures_pure,
    ensures_appConfig,ensures_readConfig,ensures_lookupAndRewrite,ensures_bump,ensures_cksumUpdateAt,
    Worker.stored_pkt,Worker.logged_pkt,Buffer.load32_store32,← not_isError_iff w.pkt icmp]
  refine ⟨fun other => ?_,fun error => ⟨fun dead => ?_,fun _ q loaded _ =>
    ⟨fun missing => ⟨fun _ => ?_,fun nonneg => ?_⟩,fun new found => ⟨fun negative => ?_,fun _ => ?_⟩⟩⟩⟩
  · exact ⟨fun _ => ⟨trivial,trivial⟩,fun error => absurd error other⟩
  · exact absurd dead (unlikely_nonneg _)
  · exact ⟨fun other => absurd other error,fun _ => ⟨q,loaded,.inl ⟨trivial,missing⟩⟩⟩
  · exact absurd (by decide) nonneg
  · exact absurd negative (by decide)
  · exact ⟨fun other => absurd other error,fun _ => ⟨q,loaded,.inr ⟨new,trivial,found,rfl⟩⟩⟩

/-- A rewrite that succeeded found the outer address in the table of some configuration, and
for an ICMP error the quoted one in the table of the same or a later configuration. -/
def Mbuf.Rewritten (ok : (op : Op) → Ans op → Prop) (field : AddrField) (m m' : Mbuf) : Prop :=
  ∃ p new, ok .appConfig p ∧
    natLookupIp p.config.natLookup (rteBeToCpu32 (m.data.load32 field.address)) = some new ∧
    (¬m.IsError → m' = (m.readdressed field.address new).l4Translated (m.data.load32 field.address) new) ∧
    (m.IsError → ∃ q inner, ok .appConfig q ∧
      natLookupIp q.config.natLookup
        (rteBeToCpu32 ((m.readdressed field.address new).data.load32 field.opposite.innerAddress)) = some inner ∧
      m' = (m.readdressed field.address new).innerTranslated field.opposite inner)

def Mbuf.Missed (ok : (op : Op) → Ans op → Prop) (field : AddrField) (m : Mbuf) : Prop :=
  ∃ p, ok .appConfig p ∧
    (natLookupIp p.config.natLookup (rteBeToCpu32 (m.data.load32 field.address)) = none ∨
    ∃ new, natLookupIp p.config.natLookup (rteBeToCpu32 (m.data.load32 field.address)) = some new ∧
      m.IsError ∧ ∃ q, ok .appConfig q ∧ natLookupIp q.config.natLookup
        (rteBeToCpu32 ((m.readdressed field.address new).data.load32 field.opposite.innerAddress)) = none)

theorem Mbuf.readdressed_frame (m : Mbuf) (field : AddrField) (new : U32) (i : Nat)
    (apart : i < 24 ∨ 34 ≤ i) : (m.readdressed field.address new).data i = m.data i := by
  have offset : field.address = 26 ∨ field.address = 30 := by cases field <;> simp [AddrField.address]
  simp only [readdressed,cksumUpdated]
  rw [Buffer.store16_frame _ _ _ _ (by simp; omega),Buffer.store32_frame _ _ _ _ (by omega)]

theorem Mbuf.readdressed_proto (m : Mbuf) (field : AddrField) (new : U32) :
    (m.readdressed field.address new).proto = m.proto := by
  have fragment : (m.readdressed field.address new).data.load16 (ipv4Header + Ipv4.fragmentOffset) =
      m.data.load16 (ipv4Header + Ipv4.fragmentOffset) :=
    Buffer.load16_congr fun i _ _ => m.readdressed_frame field new i (by simp at *; omega)
  simp only [proto,fragment]
  rw [m.readdressed_frame field new _ (by simp)]

theorem Mbuf.readdressed_isError (m : Mbuf) (field : AddrField) (new : U32) :
    (m.readdressed field.address new).IsError ↔ m.IsError := by
  simp only [IsError,readdressed_proto]
  rw [m.readdressed_frame field new _ (by simp)]

theorem actionNatRewriteImpl_pkt (field : AddrField) (w : Worker) :
    Ensures ok (actionNatRewriteImpl field.address field.opposite) w fun ret w' =>
      ret = 0 ∧ w.pkt.Rewritten ok field w'.pkt ∨ ret = -1 ∧ w.pkt.Missed ok field := by
  simp only [actionNatRewriteImpl,load8,load16,load32,ensures_bind,ensures_readPkt,ensures_pure,ensures_ite,
    ensures_appConfig,ensures_readConfig,ensures_lookupAndRewrite,ensures_cksumUpdateAt,ensures_bump,
    Worker.stored_pkt,Worker.logged_pkt,Buffer.load32_store32]
  intro p loaded _
  refine ⟨fun missing => ⟨fun _ => .inr ⟨trivial,p,loaded,.inl missing⟩,fun nonneg => absurd (by decide) nonneg⟩,
    fun new found => ⟨fun negative => absurd negative (by decide),fun _ => ?_⟩⟩
  -- the mbuf once its outer address and header checksum are done
  let m := w.pkt.readdressed field.address new
  have plain : ∀ m', ¬m.proto = ipprotoIcmp → m' = m.l4Translated (w.pkt.data.load32 field.address) new →
      w.pkt.Rewritten ok field m' := by
    intro m' other same
    have noError : ¬w.pkt.IsError := fun error => other ((w.pkt.readdressed_proto field new).trans error.1)
    exact ⟨p,new,loaded,found,fun _ => same,fun error => absurd error noError⟩
  refine ⟨fun (tcp : m.proto = ipprotoTcp) => ?_,fun (notTcp : ¬m.proto = ipprotoTcp) =>
    ⟨fun (udp : m.proto = ipprotoUdplite ∨ m.proto = ipprotoUdp) => ⟨fun zero => ?_,fun nonzero => ?_⟩,
    fun (notUdp : ¬(m.proto = ipprotoUdplite ∨ m.proto = ipprotoUdp)) =>
      ⟨fun (icmp : m.proto = ipprotoIcmp) => ?_,fun notIcmp => ?_⟩⟩⟩
  · refine (l4CksumUpdate_pkt ..).mono fun _ w' same => .inl ⟨trivial,plain _ (by rw [tcp]; decide) ?_⟩
    exact same.trans (m.l4Translated_tcp tcp _ _).symm
  · refine .inl ⟨trivial,plain _ (by rcases udp with udp | udp <;> rw [udp] <;> decide) ?_⟩
    rw [m.l4Translated_udp udp]
    exact (if_pos zero).symm
  · refine (l4CksumUpdate_pkt ..).mono fun _ w' same =>
      .inl ⟨trivial,plain _ (by rcases udp with udp | udp <;> rw [udp] <;> decide) ?_⟩
    rw [m.l4Translated_udp udp]
    exact same.trans (if_neg nonzero).symm
  · refine (icmpNatHandle_pkt field.opposite _ m rfl icmp).mono fun ret w' result => ?_
    have error := w.pkt.readdressed_isError field new
    by_cases quotes : w.pkt.IsError
    · obtain ⟨q,loaded',⟨negative,missing⟩ | ⟨inner,zero,found',same⟩⟩ := result.2 (error.mpr quotes)
      · exact .inr ⟨negative,p,loaded,.inr ⟨new,found,quotes,q,loaded',missing⟩⟩
      · exact .inl ⟨zero,p,new,loaded,found,fun no => absurd quotes no,
          fun _ => ⟨q,inner,loaded',found',same⟩⟩
    · obtain ⟨zero,same⟩ := result.1 fun h => quotes (error.mp h)
      refine .inl ⟨zero,p,new,loaded,found,fun _ => ?_,fun yes => absurd yes quotes⟩
      exact same.trans (m.l4Translated_other notTcp notUdp _ _).symm
  · exact .inl ⟨trivial,plain _ notIcmp (m.l4Translated_other notTcp notUdp _ _).symm⟩

/-- `action_nat_rewrite` succeeds with a rewritten mbuf or fails on a missing address. -/
theorem actionNatRewrite_pkt (field : AddrField) (w : Worker) :
    Ensures ok (actionNatRewrite field) w fun ret w' =>
      ret = 0 ∧ w.pkt.Rewritten ok field w'.pkt ∨ ret = -1 ∧ w.pkt.Missed ok field := by
  cases field with
  | src => exact actionNatRewriteImpl_pkt .src w
  | dst => exact actionNatRewriteImpl_pkt .dst w

end Natasha
