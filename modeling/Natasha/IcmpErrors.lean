import Natasha.Fragments

/-! ICMP errors under NAT. A rewrite of the outer address rewrites the opposite address of the
quoted header, and the ICMP checksum absorbs that address as well as the quoted checksum
that changed with it. -/
namespace Natasha

open Interaction

/-- Every configuration a load finds has the NAT table `table`. -/
def tableAnswer (table : NatLookup) : (op : Op) → Ans op → Prop
  | .appConfig, p => p.config.natLookup = table
  | .flags _, _ | .read _ _, _ | .setFlags _ _, _ | .dispatch, _ => True

namespace Mbuf

/-- The `total_length` member, in host order. -/
def totalLength (m : Mbuf) : Nat := (rteBeToCpu16 (m.data.load16 (ipv4Header + Ipv4.totalLength))).toNat

/-- Where the L4 header starts by the `ihl` field. -/
def l4Start (m : Mbuf) : Nat := ipv4Header + 4 * (headerLength m.data).toNat

/-- The ICMP checksum verifies over the message that `ihl` and `total_length` delimit. -/
def IcmpVerifies (m : Mbuf) : Prop :=
  Verifies m.data m.l4Start (m.totalLength - 4 * (headerLength m.data).toNat)

end Mbuf

/-! ## The quoted header -/

theorem AddrField.innerAddress_bounds (inner : AddrField) :
    innerIpv4Header + 12 ≤ inner.innerAddress ∧ inner.innerAddress + 4 ≤ innerIpv4Header + 20 := by
  cases inner <;> decide

instance (m : Mbuf) : Decidable m.IsError := inferInstanceAs (Decidable (_ ∧ _))

instance (m : Mbuf) : Decidable m.IcmpVerifies := inferInstanceAs (Decidable (Verifies _ _ _))

theorem Mbuf.innerTranslated_frame (m : Mbuf) (inner : AddrField) (new : U32) (i : Nat)
    (icmp : i < l4Header + Icmp.icmpCksum ∨ l4Header + Icmp.icmpCksum + 2 ≤ i)
    (cksum : i < innerIpv4Header + Ipv4.hdrChecksum ∨ innerIpv4Header + Ipv4.hdrChecksum + 2 ≤ i)
    (address : i < inner.innerAddress ∨ inner.innerAddress + 4 ≤ i) :
    (m.innerTranslated inner new).data i = m.data i := by
  simp only [innerTranslated]
  rw [cksumUpdated_frame _ _ _ _ _ icmp,cksumUpdated_frame _ _ _ _ _ icmp,cksumUpdated_frame _ _ _ _ _ cksum]
  exact Buffer.store32_frame _ _ _ _ address

/-- The quoted header itself is readdressed like an outer one. -/
theorem Mbuf.innerTranslated_quoted (m : Mbuf) (inner : AddrField) (new : U32) (i : Nat)
    (quoted : innerIpv4Header ≤ i) :
    (m.innerTranslated inner new).data i = ({ m with data := m.data.store32 inner.innerAddress new }.cksumUpdated
      (innerIpv4Header + Ipv4.hdrChecksum) (m.data.load32 inner.innerAddress) new).data i := by
  simp only [innerTranslated]
  rw [cksumUpdated_frame _ _ _ _ _ (by simp at *; omega),cksumUpdated_frame _ _ _ _ _ (by simp at *; omega)]

theorem Mbuf.innerTranslated_address (m : Mbuf) (inner : AddrField) (new : U32) :
    (m.innerTranslated inner new).data.load32 inner.innerAddress = new := by
  have bounds := inner.innerAddress_bounds
  rw [Buffer.load32_congr fun i _ _ => m.innerTranslated_quoted inner new i (by omega),Mbuf.cksumUpdated]
  rw [Buffer.load32_store16_frame _ _ _ _ (by simp at *; omega),Buffer.load32_store32]

theorem Mbuf.innerTranslated_cksum (m : Mbuf) (inner : AddrField) (new : U32) :
    (m.innerTranslated inner new).data.load16 (innerIpv4Header + Ipv4.hdrChecksum) =
      cksumUpdate (m.data.load16 (innerIpv4Header + Ipv4.hdrChecksum)) (m.data.load32 inner.innerAddress) new := by
  have bounds := inner.innerAddress_bounds
  rw [Buffer.load16_congr fun i _ _ => m.innerTranslated_quoted inner new i (by simp at *; omega),
    Mbuf.cksumUpdated,Buffer.load16_store16]
  rw [Buffer.load16_store32_frame _ _ _ _ (by simp at *; omega)]

theorem innerTranslated_quoted_total (m : Mbuf) (inner : AddrField) (new : U32) (len : Nat) (long : 20 ≤ len) :
    OnesComplement.total (wordsOf (m.innerTranslated inner new).data innerIpv4Header len) ≡
      OnesComplement.total (wordsOf m.data innerIpv4Header len) [MOD 65535] := by
  rw [wordsOf_congr fun i low _ => m.innerTranslated_quoted inner new i low]
  cases inner with
  | src => exact wordsOf_readdressed m innerIpv4Header len 5 6 new (by omega) (by omega)
  | dst => exact wordsOf_readdressed m innerIpv4Header len 5 8 new (by omega) (by omega)

/-- Four stores in the message: the address, the quoted checksum that follows from it, and the
ICMP checksum once for each of the two. -/
theorem innerTranslated_total (m : Mbuf) (inner : AddrField) (new : U32) (len : Nat) (long : 28 ≤ len) :
    OnesComplement.total (wordsOf (m.innerTranslated inner new).data l4Header len) ≡
      OnesComplement.total (wordsOf m.data l4Header len) [MOD 65535] := by
  obtain ⟨k,address,inside⟩ : ∃ k, inner.innerAddress = l4Header + 2*k ∧ 2*k+4 ≤ len := by
    cases inner with
    | src => exact ⟨10,rfl,by omega⟩
    | dst => exact ⟨12,rfl,by omega⟩
  have bounds := inner.innerAddress_bounds
  simp only [Mbuf.innerTranslated]
  generalize old : m.data.load32 inner.innerAddress = before
  generalize first : ({ m with data := m.data.store32 inner.innerAddress new } : Mbuf) = m₁
  generalize second : m₁.cksumUpdated (innerIpv4Header + Ipv4.hdrChecksum) before new = m₂
  have stored : OnesComplement.total (wordsOf m₁.data l4Header len) + before.toNat ≡
      OnesComplement.total (wordsOf m.data l4Header len) + new.toNat [MOD 65535] := by
    rw [← first,← old,address]
    exact wordsOf_store32 m.data l4Header len k new inside
  have cksum : m₁.data.load16 (innerIpv4Header + Ipv4.hdrChecksum) =
      m.data.load16 (innerIpv4Header + Ipv4.hdrChecksum) := by
    rw [← first]
    exact Buffer.load16_store32_frame _ _ _ _ (by simp at *; omega)
  have quoted : OnesComplement.total (wordsOf m₂.data l4Header len) +
      (m.data.load16 (innerIpv4Header + Ipv4.hdrChecksum)).toNat =
      OnesComplement.total (wordsOf m₁.data l4Header len) +
      (m₂.data.load16 (innerIpv4Header + Ipv4.hdrChecksum)).toNat := by
    have exchanged := wordsOf_store16 m₁.data l4Header len 9
      (cksumUpdate (m₁.data.load16 (innerIpv4Header + Ipv4.hdrChecksum)) before new) (by omega)
    rw [← second,Mbuf.cksumUpdated,Buffer.load16_store16,← cksum]
    exact exchanged
  have third := wordsOf_cksumUpdated m₂ l4Header len 1
    ((m.data.load16 (innerIpv4Header + Ipv4.hdrChecksum)).setWidth 32)
    ((m₂.data.load16 (innerIpv4Header + Ipv4.hdrChecksum)).setWidth 32) (by omega)
  have fourth := wordsOf_cksumUpdated (m₂.cksumUpdated (l4Header + 2*1)
    ((m.data.load16 (innerIpv4Header + Ipv4.hdrChecksum)).setWidth 32)
    ((m₂.data.load16 (innerIpv4Header + Ipv4.hdrChecksum)).setWidth 32)) l4Header len 1 before new (by omega)
  have width : ∀ x : U16, (x.setWidth 32).toNat = x.toNat := by
    intro x
    have := x.isLt
    rw [BitVec.toNat_setWidth]
    omega
  rw [width,width] at third
  rw [show l4Header + Icmp.icmpCksum = l4Header + 2*1 from rfl]
  simp only [Nat.ModEq] at stored third fourth ⊢
  omega

/-! ## One rewrite of an ICMP packet -/

theorem readdressed_load32_frame (m : Mbuf) (field : AddrField) (new : U32) (off : Nat) (beyond : l4Header ≤ off) :
    (m.readdressed field.address new).data.load32 off = m.data.load32 off :=
  Buffer.load32_congr fun i _ _ => m.readdressed_frame field new i (.inr (by simp at *; omega))

/-- Under one table: the outer address is readdressed, and an error has the quoted address
replaced by its image. -/
theorem Mbuf.Rewritten.icmp {table : NatLookup} {field : AddrField} {m m' : Mbuf}
    (rewritten : m.Rewritten (tableAnswer table) field m') (icmp : m.proto = ipprotoIcmp) :
    ∃ new, (¬m.IsError → m' = m.readdressed field.address new) ∧
      (m.IsError → ∃ inner,
        natLookupIp table (rteBeToCpu32 (m.data.load32 field.opposite.innerAddress)) = some inner ∧
        m' = (m.readdressed field.address new).innerTranslated field.opposite inner) := by
  obtain ⟨p,new,_,_,plain,error⟩ := rewritten
  refine ⟨new,fun other => ?_,fun quotes => ?_⟩
  · have proto := (m.readdressed_proto field new).trans icmp
    rw [plain other]
    exact l4Translated_other _ (by rw [proto]; decide) (by rw [proto]; decide) _ _
  · obtain ⟨q,inner,(loaded : q.config.natLookup = table),found,same⟩ := error quotes
    have bounds := field.opposite.innerAddress_bounds
    rw [loaded,readdressed_load32_frame m field new _ (by simp at *; omega)] at found
    exact ⟨inner,found,same⟩

theorem isError_type_ne_zero (m : Mbuf) (error : m.IsError) : m.data l4Header ≠ 0 := by
  intro zero
  have none : m.data (l4Header + Icmp.icmpType) = 0 := zero
  rcases error.2 with h | h | h
  all_goals
    rw [none] at h
    exact absurd h (by decide)

theorem natLookupIp_ne_zero {table : NatLookup} {ip value : U32} (found : natLookupIp table ip = some value) :
    value ≠ 0 := by
  rw [natLookupIp_eq_slot] at found
  split at found
  · contradiction
  · rename_i nonzero
    exact Option.some.inj found ▸ nonzero

/-- A nonzero word has a nonzero byte. -/
theorem exists_byte_ne_zero (b : Buffer) (off : Nat) (word : b.load32 off ≠ 0) :
    ∃ i < 4, b (off+i) ≠ 0 := by
  by_contra none
  push Not at none
  apply word
  have zero : b.load32 off = Buffer.load32 (fun _ => 0) off := by
    apply Buffer.load32_congr
    intro i low high
    have byte := none (i-off) (by omega)
    rwa [Nat.add_sub_cancel' low] at byte
  exact zero

theorem innerTranslated_quoted_verifies (m : Mbuf) (inner : AddrField) (new : U32) (len : Nat) (long : 20 ≤ len)
    (nonzero : new ≠ 0) (verifies : Verifies m.data innerIpv4Header len) :
    Verifies (m.innerTranslated inner new).data innerIpv4Header len := by
  have bounds := inner.innerAddress_bounds
  have word := m.innerTranslated_address inner new
  obtain ⟨i,below,byte⟩ := exists_byte_ne_zero _ inner.innerAddress (word ▸ nonzero)
  have place : innerIpv4Header + (inner.innerAddress + i - innerIpv4Header) = inner.innerAddress + i := by omega
  rw [← place] at byte
  apply verifies_of_total _ _ _ _ (by omega) byte
  exact (innerTranslated_quoted_total m inner new len long).trans verifies.total

theorem innerTranslated_verifies (m : Mbuf) (inner : AddrField) (new : U32) (len : Nat) (long : 28 ≤ len)
    (error : m.IsError) (verifies : Verifies m.data l4Header len) :
    Verifies (m.innerTranslated inner new).data l4Header len := by
  have bounds := inner.innerAddress_bounds
  have byte : (m.innerTranslated inner new).data (l4Header + 0) ≠ 0 := by
    rw [m.innerTranslated_frame inner new _ (by simp) (by simp) (by simp at *; omega)]
    exact isError_type_ne_zero m error
  apply verifies_of_total _ _ _ _ (by omega) byte
  exact (innerTranslated_total m inner new len long).trans verifies.total

/-- A range of words behind the header is the same for a readdressed mbuf. -/
theorem readdressed_verifies (m : Mbuf) (field : AddrField) (new : U32) (len : Nat) :
    Verifies (m.readdressed field.address new).data l4Header len ↔ Verifies m.data l4Header len := by
  rw [Verifies,wordsOf_congr fun i low _ => m.readdressed_frame field new i (.inr (by simpa using low)),Verifies]

theorem Mbuf.Rewritten.length {ok : (op : Op) → Ans op → Prop} {field : AddrField} {m m' : Mbuf}
    (rewritten : m.Rewritten ok field m') : m'.totalLength = m.totalLength := by
  obtain ⟨new,same⟩ := rewritten.header
  have word : m'.data.load16 (ipv4Header + Ipv4.totalLength) = m.data.load16 (ipv4Header + Ipv4.totalLength) := by
    apply Buffer.load16_congr
    intro i low high
    rw [same i (by simp at *; omega),m.readdressed_frame field new i (by simp at *; omega)]
  rw [totalLength,word,totalLength]

theorem icmpVerifies_iff (m : Mbuf) (length : headerLength m.data = 5) :
    m.IcmpVerifies ↔ Verifies m.data l4Header (m.totalLength - 20) := by
  rw [Mbuf.IcmpVerifies,Mbuf.l4Start,length]
  rfl

theorem actionNatRewrite_icmp (table : NatLookup) (field : AddrField) (w : Worker)
    (length : headerLength w.pkt.data = 5) (icmp : w.pkt.nextProtoId = ipprotoIcmp)
    (whole : w.pkt.fragOffset = 0) (long : w.pkt.IsError → 48 ≤ w.pkt.totalLength)
    (verifies : w.pkt.IcmpVerifies) :
    Ensures (tableAnswer table) (actionNatRewrite field) w fun ret w' => ret = 0 →
      w'.pkt.IcmpVerifies ∧
      (w.pkt.IsError →
        natLookupIp table (rteBeToCpu32 (w.pkt.data.load32 field.opposite.innerAddress)) =
          some (w'.pkt.data.load32 field.opposite.innerAddress) ∧
        (∀ len ≥ sizeofIpv4Hdr, Verifies w.pkt.data innerIpv4Header len →
          Verifies w'.pkt.data innerIpv4Header len) ∧
        (∀ i ≥ l4Header, w'.pkt.data i ≠ w.pkt.data i →
          l4Header + Icmp.icmpCksum ≤ i ∧ i < l4Header + Icmp.icmpCksum + 2 ∨
          innerIpv4Header + Ipv4.hdrChecksum ≤ i ∧ i < innerIpv4Header + Ipv4.hdrChecksum + 2 ∨
          field.opposite.innerAddress ≤ i ∧ i < field.opposite.innerAddress + 4)) ∧
      (¬w.pkt.IsError → ∀ i ≥ l4Header, w'.pkt.data i = w.pkt.data i) := by
  apply (actionNatRewrite_pkt field w).mono
  intro ret w' result zero
  have rewritten := (result.resolve_right fun h => absurd (zero.symm.trans h.1) (by decide)).2
  have length' := rewritten.headerStep.1.trans length
  have verified := (icmpVerifies_iff w.pkt length).mp verifies
  obtain ⟨new,plain,quoted⟩ := rewritten.icmp ((proto_of_fragOffset _ whole).trans icmp)
  rw [icmpVerifies_iff w'.pkt length',rewritten.length]
  by_cases error : w.pkt.IsError
  · obtain ⟨inner,found,same⟩ := quoted error
    have error' := (w.pkt.readdressed_isError field new).mpr error
    have outer := fun i (beyond : i ≥ l4Header) => w.pkt.readdressed_frame field new i (.inr (by simpa using beyond))
    refine ⟨?_,fun _ => ⟨?_,fun len header checked => ?_,fun i beyond changed => ?_⟩,fun other => absurd error other⟩
    · rw [same]
      apply innerTranslated_verifies _ _ _ _ _ error'
      · exact (readdressed_verifies _ _ _ _).mpr verified
      · have := long error
        omega
    · rw [found,same,Mbuf.innerTranslated_address]
    · rw [same]
      apply innerTranslated_quoted_verifies _ _ _ _ header (natLookupIp_ne_zero found)
      rwa [Verifies,wordsOf_congr fun i low _ => outer i (by simp at *; omega)]
    · by_contra apart
      push Not at apart
      apply changed
      rw [same,Mbuf.innerTranslated_frame _ _ _ _ (by omega) (by omega) (by omega)]
      exact outer i beyond
  · refine ⟨?_,fun quotes => absurd quotes error,fun _ i beyond => ?_⟩
    · rw [plain error]
      exact (readdressed_verifies _ _ _ _).mpr verified
    · rw [plain error]
      exact w.pkt.readdressed_frame field new i (.inr (by simpa using beyond))

theorem steadyAnswer_table (config : AppConfig) (op : Op) :
    tableAnswer config.natLookup op (steadyAnswer config op) := by
  cases op with
  | appConfig => rfl
  | flags _ | read _ _ | setFlags _ _ | dispatch => trivial

/-- Time exceeded, sent by a router to 212.192.0.1 about a packet that 10.0.0.1 had sent
under that address. -/
def timeExceeded : Mbuf where
  data := .ofBytes (List.replicate 14 0 ++
    [0x45,0,0,51,0,0,0,0,64,1,0x7b,0xce,198,51,100,7,212,192,0,1] ++ [11,0,0xc4,0xc6,0,0,0,0] ++
    [0x45,0,0,40,0,0,0,0,1,6,0xd4,0xff,212,192,0,1,8,8,8,8] ++ [0x30,0x39,0])
  pktLen := 65
  olFlags := 0
  vlanTci := 0
  l2Len := 0
  l3Len := 0

theorem actionNatRewrite_icmp_timeExceeded :
    let w := Worker.start timeExceeded (fun _ => ⟨[],by decide⟩) fun _ => 0
    let r := exec (steadyAnswer bareConfig) (actionNatRewrite .dst) w
    w.pkt.IsError ∧ w.pkt.IcmpVerifies ∧ r.1 = 0 ∧ r.2.pkt.IcmpVerifies ∧
      Verifies r.2.pkt.data innerIpv4Header sizeofIpv4Hdr ∧
      r.2.pkt.data.load32 AddrField.src.innerAddress = rteBeToCpu32 0x0a000001 := by
  have error : timeExceeded.IsError := by decide
  have verifies : timeExceeded.IcmpVerifies := by decide
  obtain ⟨icmp,quoted,_⟩ := (actionNatRewrite_icmp bareConfig.natLookup .dst
    (.start timeExceeded (fun _ => ⟨[],by decide⟩) fun _ => 0) (by decide) (by decide) (by decide)
    (fun _ => by decide) verifies).exec (steadyAnswer bareConfig) (steadyAnswer_table bareConfig) rfl
  obtain ⟨_,header,_⟩ := quoted error
  exact ⟨error,verifies,rfl,icmp,header _ (Nat.le_refl _) (by decide),by decide⟩

/-! ## Errors about a rewritten packet -/

theorem AddrField.opposite_opposite (field : AddrField) : field.opposite.opposite = field := by
  cases field <;> rfl

/-- Inside the header a rewrite sets the address and the checksum, nothing else. -/
theorem readdressed_header (m : Mbuf) (field : AddrField) (new : U32) (i : Nat)
    (cksum : i < Ipv4.hdrChecksum ∨ Ipv4.hdrChecksum + 2 ≤ i) (address : i < field.offset ∨ field.offset + 4 ≤ i) :
    (m.readdressed field.address new).data (ipv4Header + i) = m.data (ipv4Header + i) := by
  rw [Mbuf.readdressed,Mbuf.cksumUpdated_frame _ _ _ _ _ (by omega)]
  exact Buffer.store32_frame _ _ _ _ (by rw [AddrField.address]; omega)

theorem readdressed_cksum (m : Mbuf) (field : AddrField) (new : U32) :
    (m.readdressed field.address new).data.load16 (ipv4Header + Ipv4.hdrChecksum) =
      cksumUpdate (m.data.load16 (ipv4Header + Ipv4.hdrChecksum)) (m.addr field) new := by
  rw [Mbuf.readdressed,Mbuf.cksumUpdated,Buffer.load16_store16,Buffer.load16_store32_frame]
  · rfl
  · cases field <;> simp [AddrField.address]

/-- The update back: a checksum other than `0xffff` is found again, not only its residue. -/
theorem cksumUpdate_undo (csum : U16) (before after : U32) (range : csum ≠ 0xffff) :
    cksumUpdate (cksumUpdate csum before after) after before = csum := by
  have bound := csum.isLt
  have small : csum.toNat ≠ 65535 := fun ones => range (BitVec.eq_of_toNat_eq ones)
  apply cksumUpdate_unique _ _ _ _ (by omega)
  exact (cksumUpdate_modEq csum before after).symm

theorem quoted_address (m e : Mbuf) (field : AddrField) (new : U32)
    (quotes : ∀ i < sizeofIpv4Hdr,
      e.data (innerIpv4Header + i) = (m.readdressed field.address new).data (ipv4Header + i)) :
    e.data.load32 field.innerAddress = new := by
  have offset : field.offset + 4 ≤ sizeofIpv4Hdr := by cases field <;> decide
  rw [← readdressed_addr m field new]
  apply Buffer.load32_shift
  intro i below
  simpa [AddrField.innerAddress,AddrField.address,Nat.add_assoc] using quotes (field.offset + i) (by omega)

/-- The header of `m`, quoted after a rewrite of `field` to `new`, is restored by the
translation of the error: the checksum by `cksumUpdate_undo`, the address by the table. -/
theorem innerTranslated_undo (m e : Mbuf) (field : AddrField) (new : U32)
    (range : m.data.load16 (ipv4Header + Ipv4.hdrChecksum) ≠ 0xffff)
    (quotes : ∀ i < sizeofIpv4Hdr,
      e.data (innerIpv4Header + i) = (m.readdressed field.address new).data (ipv4Header + i)) :
    ∀ i < sizeofIpv4Hdr,
      (e.innerTranslated field (m.addr field)).data (innerIpv4Header + i) = m.data (ipv4Header + i) := by
  have offset : 12 ≤ field.offset ∧ field.offset + 4 ≤ sizeofIpv4Hdr := by cases field <;> decide
  have address := quoted_address m e field new quotes
  have cksum : e.data.load16 (innerIpv4Header + Ipv4.hdrChecksum) =
      cksumUpdate (m.data.load16 (ipv4Header + Ipv4.hdrChecksum)) (m.addr field) new := by
    rw [← readdressed_cksum m field new]
    apply Buffer.load16_shift
    intro i below
    rw [Nat.add_assoc,Nat.add_assoc]
    exact quotes (Ipv4.hdrChecksum + i) (by simp; omega)
  intro i inside
  by_cases inAddress : field.offset ≤ i ∧ i < field.offset + 4
  · have word := Buffer.load32_inj (e.innerTranslated_address field (m.addr field)) (i - field.offset) (by omega)
    rw [AddrField.innerAddress,AddrField.address,Nat.add_assoc,Nat.add_assoc,Nat.add_sub_cancel' inAddress.1] at word
    exact word
  · by_cases inCksum : Ipv4.hdrChecksum ≤ i ∧ i < Ipv4.hdrChecksum + 2
    · have word := e.innerTranslated_cksum field (m.addr field)
      rw [address,cksum,cksumUpdate_undo _ _ _ range] at word
      obtain ⟨low,high⟩ := Buffer.load16_inj word
      obtain rfl | rfl : i = Ipv4.hdrChecksum ∨ i = Ipv4.hdrChecksum + 1 := by omega
      · exact low
      · exact high
    · rw [e.innerTranslated_frame field _ _ (by simp; omega) (by omega) (by rw [AddrField.innerAddress]; omega),
        quotes i inside]
      exact readdressed_header m field new i (by omega) (by omega)

theorem actionNatRewrite_quoted (table : NatLookup) (a b : U32)
    (there : natLookupIp table a = some (rteBeToCpu32 b)) (back : natLookupIp table b = some (rteBeToCpu32 a))
    (field : AddrField) (w : Worker) (address : w.pkt.addr field = rteBeToCpu32 a)
    (range : w.pkt.data.load16 (ipv4Header + Ipv4.hdrChecksum) ≠ 0xffff) :
    Ensures (tableAnswer table) (actionNatRewrite field) w fun ret w' => ret = 0 →
      ∀ e : Worker, e.pkt.IsError → e.pkt.addr field.opposite = rteBeToCpu32 b →
        (∀ i < sizeofIpv4Hdr, e.pkt.data (innerIpv4Header + i) = w'.pkt.data (ipv4Header + i)) →
        Ensures (tableAnswer table) (actionNatRewrite field.opposite) e fun ret e' => ret = 0 ∧
          ∀ i < sizeofIpv4Hdr, e'.pkt.data (innerIpv4Header + i) = w.pkt.data (ipv4Header + i) := by
  apply (actionNatRewrite_pkt field w).mono
  intro ret w' result zero
  have rewritten := (result.resolve_right fun h => absurd (zero.symm.trans h.1) (by decide)).2
  obtain ⟨p,new,(loaded : p.config.natLookup = table),found,header⟩ := rewritten.outer
  have image : new = rteBeToCpu32 b := by
    rw [loaded,← Mbuf.addr,address,rteBeToCpu32_involutive,there] at found
    exact (Option.some.inj found).symm
  subst image
  intro e error addressed quotes
  have quoted : ∀ i < sizeofIpv4Hdr, e.pkt.data (innerIpv4Header + i) =
      (w.pkt.readdressed field.address (rteBeToCpu32 b)).data (ipv4Header + i) :=
    fun i inside => (quotes i inside).trans (header _ (by simp at *; omega))
  -- the outer address and the quoted one are both `b`
  have outer : natLookupIp table (rteBeToCpu32 (e.pkt.data.load32 field.opposite.address)) =
      some (rteBeToCpu32 a) := by
    rw [← Mbuf.addr,addressed,rteBeToCpu32_involutive,back]
  have inner : ∀ new, natLookupIp table (rteBeToCpu32 ((e.pkt.readdressed field.opposite.address new).data.load32
      field.opposite.opposite.innerAddress)) = some (rteBeToCpu32 a) := by
    intro new
    have bounds := field.innerAddress_bounds
    rw [AddrField.opposite_opposite,readdressed_load32_frame _ _ _ _ (by simp at *; omega),
      quoted_address w.pkt e.pkt field _ quoted,rteBeToCpu32_involutive,back]
  apply (actionNatRewrite_pkt field.opposite e).mono
  intro ret e' result
  rcases result with ⟨zero,p,new,_,_,_,translated⟩ | ⟨_,p,(loaded : p.config.natLookup = table),missed⟩
  · obtain ⟨q,value,(loaded' : q.config.natLookup = table),found,same⟩ := translated error
    have image : value = w.pkt.addr field := by
      rw [loaded',inner] at found
      rw [address]
      exact (Option.some.inj found).symm
    refine ⟨zero,?_⟩
    rw [same,image,AddrField.opposite_opposite]
    apply innerTranslated_undo w.pkt _ field (rteBeToCpu32 b) range
    intro i inside
    rw [e.pkt.readdressed_frame field.opposite new _ (.inr (by simp; omega))]
    exact quoted i inside
  · rcases missed with missing | ⟨new,_,_,q,(loaded' : q.config.natLookup = table),missing⟩
    · rw [loaded,outer] at missing
      contradiction
    · rw [loaded',inner] at missing
      contradiction

/-- An error with the header of `m` in the place of the one it quotes. -/
def Mbuf.quoting (e m : Mbuf) : Mbuf :=
  { e with data := fun i =>
      if innerIpv4Header ≤ i ∧ i < innerIpv4Header + sizeofIpv4Hdr then m.data (ipv4Header + (i - innerIpv4Header))
      else e.data i }

theorem actionNatRewrite_quoted_timeExceeded :
    let w := Worker.start bareDatagram (fun _ => ⟨[],by decide⟩) fun _ => 0
    let r := exec (steadyAnswer bareConfig) (actionNatRewrite .src) w
    let e := Worker.start (timeExceeded.quoting r.2.pkt) (fun _ => ⟨[],by decide⟩) fun _ => 0
    let r' := exec (steadyAnswer bareConfig) (actionNatRewrite .dst) e
    r.1 = 0 ∧ r.2.pkt.addr .src ≠ w.pkt.addr .src ∧ e.pkt.IsError ∧ r'.1 = 0 ∧
      ∀ i < sizeofIpv4Hdr, r'.2.pkt.data (innerIpv4Header + i) = w.pkt.data (ipv4Header + i) := by
  have forth := (actionNatRewrite_quoted bareConfig.natLookup 0x0a000001 0xd4c00001 (by decide) (by decide) .src
    (.start bareDatagram (fun _ => ⟨[],by decide⟩) fun _ => 0) (by decide) (by decide)).exec
    (steadyAnswer bareConfig) (steadyAnswer_table bareConfig) rfl
  have undone := forth (.start (timeExceeded.quoting (exec (steadyAnswer bareConfig) (actionNatRewrite .src)
    (.start bareDatagram (fun _ => ⟨[],by decide⟩) fun _ => 0)).2.pkt) (fun _ => ⟨[],by decide⟩) fun _ => 0)
    (by decide) (by decide) (by decide)
  obtain ⟨zero,same⟩ := undone.exec (steadyAnswer bareConfig) (steadyAnswer_table bareConfig)
  exact ⟨rfl,by decide,by decide,zero,same⟩

end Natasha
