import Natasha.IcmpErrors

/-! The bytes a NAT rewrite changes. The positions behind the header are counted from
`L4_HEADER`, 20 bytes into the datagram, whether or not the header has options. -/
namespace Natasha

open Interaction

namespace Mbuf

/-- An ICMP error whose message starts at `l4`. -/
def IsErrorAt (m : Mbuf) (l4 : Nat) : Prop :=
  m.proto = ipprotoIcmp ∧ (m.data (l4 + Icmp.icmpType) = icmpDestUnreach ∨
    m.data (l4 + Icmp.icmpType) = icmpTimeExceeded ∨ m.data (l4 + Icmp.icmpType) = icmpParameterprob)

instance (m : Mbuf) (l4 : Nat) : Decidable (m.IsErrorAt l4) := inferInstanceAs (Decidable (_ ∧ _))

/-- The L4 members a rewrite of `field` may change, as offsets and sizes, when the L4 header
starts at `l4`. -/
def l4Footprint (m : Mbuf) (field : AddrField) (l4 : Nat) : List (Nat × Nat) :=
  if m.proto = ipprotoTcp then [(l4 + Tcp.cksum,2)]
  else if m.proto = ipprotoUdplite ∨ m.proto = ipprotoUdp then [(l4 + Udp.dgramCksum,2)]
  else if m.IsErrorAt l4 then
    [(l4 + Icmp.icmpCksum,2),(l4 + sizeofIcmpHdr + Ipv4.hdrChecksum,2),
      (l4 + sizeofIcmpHdr + field.opposite.offset,4)]
  else []

def footprint (m : Mbuf) (field : AddrField) (l4 : Nat) : List (Nat × Nat) :=
  (field.address,4) :: (ipv4Header + Ipv4.hdrChecksum,2) :: m.l4Footprint field l4

/-- The `total_length` from which on a datagram without options holds every one of them. -/
def rewriteReach (m : Mbuf) : Nat :=
  if m.proto = ipprotoTcp then 38
  else if m.proto = ipprotoUdplite ∨ m.proto = ipprotoUdp then 28
  else if m.IsError then 48
  else 20

end Mbuf

def InRanges (ranges : List (Nat × Nat)) (i : Nat) : Prop := ∃ r ∈ ranges, r.1 ≤ i ∧ i < r.1 + r.2

instance (ranges : List (Nat × Nat)) (i : Nat) : Decidable (InRanges ranges i) :=
  inferInstanceAs (Decidable (∃ r ∈ ranges, _))

@[simp] theorem inRanges_nil (i : Nat) : ¬InRanges [] i := by simp [InRanges]

@[simp] theorem inRanges_cons (r : Nat × Nat) (ranges : List (Nat × Nat)) (i : Nat) :
    InRanges (r :: ranges) i ↔ (r.1 ≤ i ∧ i < r.1 + r.2) ∨ InRanges ranges i := by simp [InRanges]

theorem l4Translated_footprint (m : Mbuf) (field : AddrField) (before after : U32) (i : Nat)
    (outside : ¬InRanges (m.l4Footprint field l4Header) i) : (m.l4Translated before after).data i = m.data i := by
  unfold Mbuf.l4Footprint at outside
  unfold Mbuf.l4Translated
  split
  · rename_i tcp
    rw [if_pos tcp,inRanges_cons] at outside
    exact m.l4Updated_frame _ _ _ _ i (by simp only [not_or] at outside; omega)
  · rename_i notTcp
    rw [if_neg notTcp] at outside
    split
    · rename_i udp
      rw [if_pos udp,inRanges_cons] at outside
      split
      · rfl
      · exact m.l4Updated_frame _ _ _ _ i (by simp only [not_or] at outside; omega)
    · rfl

theorem l4Footprint_error (m : Mbuf) (field : AddrField) (error : m.IsError) :
    m.l4Footprint field l4Header = [(l4Header + Icmp.icmpCksum,2),(innerIpv4Header + Ipv4.hdrChecksum,2),
      (field.opposite.innerAddress,4)] := by
  have proto := error.1
  unfold Mbuf.l4Footprint
  rw [if_neg (by rw [proto]; decide),if_neg (by rw [proto]; decide)]
  exact if_pos error

theorem innerTranslated_footprint (m : Mbuf) (field : AddrField) (new : U32) (i : Nat) (error : m.IsError)
    (outside : ¬InRanges (m.l4Footprint field l4Header) i) :
    (m.innerTranslated field.opposite new).data i = m.data i := by
  rw [l4Footprint_error m field error] at outside
  simp only [inRanges_cons,inRanges_nil,or_false,not_or] at outside
  exact m.innerTranslated_frame _ _ _ (by omega) (by omega) (by omega)

theorem readdressed_l4Footprint (m : Mbuf) (field : AddrField) (new : U32) :
    (m.readdressed field.address new).l4Footprint field l4Header = m.l4Footprint field l4Header := by
  have proto := m.readdressed_proto field new
  have error : (m.readdressed field.address new).IsErrorAt l4Header ↔ m.IsErrorAt l4Header :=
    m.readdressed_isError field new
  simp only [Mbuf.l4Footprint,proto,error]

theorem Mbuf.Rewritten.footprint {ok : (op : Op) → Ans op → Prop} {field : AddrField} {m m' : Mbuf}
    (rewritten : m.Rewritten ok field m') (i : Nat) (changed : m'.data i ≠ m.data i) :
    InRanges (m.footprint field l4Header) i := by
  obtain ⟨p,new,_,_,plain,error⟩ := rewritten
  by_contra outside
  simp only [Mbuf.footprint,inRanges_cons,not_or] at outside
  obtain ⟨address,cksum,l4⟩ := outside
  have outer : (m.readdressed field.address new).data i = m.data i := by
    rw [readdressed,cksumUpdated_frame _ _ _ _ _ (by omega)]
    exact Buffer.store32_frame _ _ _ _ (by omega)
  rw [← readdressed_l4Footprint m field new] at l4
  apply changed
  rw [← outer]
  by_cases quotes : m.IsError
  · obtain ⟨q,inner,_,_,rfl⟩ := error quotes
    exact innerTranslated_footprint _ field inner i ((m.readdressed_isError field new).mpr quotes) l4
  · rw [plain quotes]
    exact l4Translated_footprint _ field _ _ i l4

theorem l4Footprint_reach (m : Mbuf) (field : AddrField) (r : Nat × Nat)
    (member : r ∈ m.l4Footprint field l4Header) : r.1 + r.2 ≤ ipv4Header + m.rewriteReach := by
  have offset : field.opposite.offset ≤ 16 := by cases field <;> decide
  unfold Mbuf.l4Footprint at member
  unfold Mbuf.rewriteReach
  by_cases tcp : m.proto = ipprotoTcp
  · rw [if_pos tcp] at member ⊢
    obtain rfl := List.mem_singleton.mp member
    decide
  · rw [if_neg tcp] at member ⊢
    by_cases udp : m.proto = ipprotoUdplite ∨ m.proto = ipprotoUdp
    · rw [if_pos udp] at member ⊢
      obtain rfl := List.mem_singleton.mp member
      decide
    · rw [if_neg udp] at member ⊢
      by_cases error : m.IsError
      · rw [if_pos (show m.IsErrorAt l4Header from error)] at member
        rw [if_pos error]
        simp only [List.mem_cons,List.not_mem_nil,or_false] at member
        rcases member with rfl | rfl | rfl
        · decide
        · decide
        · simp
          omega
      · rw [if_neg (show ¬m.IsErrorAt l4Header from error)] at member
        contradiction

theorem Mbuf.rewriteReach_header (m : Mbuf) : sizeofIpv4Hdr ≤ m.rewriteReach := by
  unfold Mbuf.rewriteReach
  split
  · decide
  · split
    · decide
    · split <;> decide

theorem footprint_reach (m : Mbuf) (field : AddrField) (i : Nat)
    (inside : InRanges (m.footprint field l4Header) i) : i < ipv4Header + m.rewriteReach := by
  have address : field.address + 4 ≤ ipv4Header + sizeofIpv4Hdr := by cases field <;> decide
  have header := m.rewriteReach_header
  obtain ⟨r,member,_,above⟩ := inside
  rcases List.mem_cons.mp member with rfl | member
  · omega
  · rcases List.mem_cons.mp member with rfl | member
    · simp at *
      omega
    · have := l4Footprint_reach m field r member
      omega

theorem actionNatRewrite_footprint (field : AddrField) (w : Worker) :
    Ensures anyAnswer (actionNatRewrite field) w fun ret w' => ret = 0 →
      ∀ i, w'.pkt.data i ≠ w.pkt.data i → InRanges (w.pkt.footprint field l4Header) i ∧
        (w.pkt.rewriteReach ≤ w.pkt.totalLength → i < ipv4Header + w.pkt.totalLength) := by
  apply (actionNatRewrite_pkt field w).mono
  intro ret w' result zero i changed
  have rewritten := (result.resolve_right fun h => absurd (zero.symm.trans h.1) (by decide)).2
  have inside := rewritten.footprint i changed
  exact ⟨inside,fun long => Nat.lt_of_lt_of_le (footprint_reach w.pkt field i inside) (by omega)⟩

/-- A TCP segment from 10.0.0.1 behind a header with four bytes of options. -/
def optionedSegment : Mbuf where
  data := .ofBytes (List.replicate 14 0 ++
    [0x46,0,0,44,0,0,0,0,64,6,0x63,0xc9,10,0,0,1,10,0,0,2] ++ [1,1,1,0] ++
    [0x30,0x39,0,80,0,0,0,1,0,0,0,0,0x50,0x02,0x20,0,0x4b,0x56,0,0])
  pktLen := 58
  olFlags := 0
  vlanTci := 0
  l2Len := 0
  l3Len := 0

/-- Counted by `ihl`, the checksum of this segment is at 54; the rewrite clears the bytes
at 50, which are its data offset and flags. -/
theorem actionNatRewrite_clears_options_flags :
    ¬∀ (field : AddrField) (w : Worker), 5 ≤ (headerLength w.pkt.data).toNat →
      Ensures anyAnswer (actionNatRewrite field) w fun ret w' => ret = 0 →
        ∀ i, w'.pkt.data i ≠ w.pkt.data i → InRanges (w.pkt.footprint field w.pkt.l4Start) i ∧
          i < ipv4Header + w.pkt.totalLength := by
  intro claim
  have touched := (claim .src (.start optionedSegment (fun _ => ⟨[],by decide⟩) fun _ => 0) (by decide)).exec
    (steadyAnswer bareConfig) (fun _ => trivial) rfl 50 (by decide)
  exact absurd touched.1 (by decide)

end Natasha
