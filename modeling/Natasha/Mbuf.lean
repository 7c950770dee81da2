import Mathlib.Data.Nat.ModEq
import Mathlib.Data.Fintype.Basic
import Mathlib.Tactic.Ring
import Mathlib.Tactic.IntervalCases

/-! The packet buffer and its metadata. Loads and stores are those of the
little-endian hosts the application runs on, so a field the wire holds in network
order is read byte-swapped, exactly as the unconverted C member access does. -/
namespace Natasha

abbrev Byte := BitVec 8
abbrev U16 := BitVec 16
abbrev U32 := BitVec 32
abbrev U64 := BitVec 64

/-- Bytes from `rte_pktmbuf_mtod` on. The buffer does not end where the packet
does: bytes at and after `pktLen` are whatever earlier packets left there. -/
abbrev Buffer := Nat → Byte

namespace Buffer

def load16 (b : Buffer) (off : Nat) : U16 :=
  .ofNat 16 ((b off).toNat + 256 * (b (off+1)).toNat)

def load32 (b : Buffer) (off : Nat) : U32 :=
  .ofNat 32 ((b.load16 off).toNat + 65536 * (b.load16 (off+2)).toNat)

def store8 (b : Buffer) (off : Nat) (v : Byte) : Buffer :=
  fun i => if i = off then v else b i

def store16 (b : Buffer) (off : Nat) (v : U16) : Buffer :=
  fun i => if i = off then .ofNat 8 v.toNat
    else if i = off+1 then .ofNat 8 (v.toNat / 256) else b i

def store32 (b : Buffer) (off : Nat) (v : U32) : Buffer :=
  (b.store16 off (.ofNat 16 v.toNat)).store16 (off+2) (.ofNat 16 (v.toNat / 65536))

def zero (b : Buffer) (off len : Nat) : Buffer :=
  fun i => if off ≤ i ∧ i < off + len then 0 else b i

/-- A buffer with `bytes` at its start and zeros behind them. -/
def ofBytes (bytes : List Byte) : Buffer := fun i => bytes.getD i 0

theorem load16_toNat (b : Buffer) (off : Nat) :
    (b.load16 off).toNat = (b off).toNat + 256 * (b (off+1)).toNat := by
  have low := (b off).isLt
  have high := (b (off+1)).isLt
  rw [load16,BitVec.toNat_ofNat]
  omega

theorem load32_toNat (b : Buffer) (off : Nat) :
    (b.load32 off).toNat = (b.load16 off).toNat + 65536 * (b.load16 (off+2)).toNat := by
  have low := (b.load16 off).isLt
  have high := (b.load16 (off+2)).isLt
  rw [load32,BitVec.toNat_ofNat]
  omega

theorem load16_congr {a b : Buffer} {off : Nat} (h : ∀ i, off ≤ i → i < off+2 → a i = b i) :
    a.load16 off = b.load16 off := by
  simp only [load16,h off (by omega) (by omega),h (off+1) (by omega) (by omega)]

theorem load32_congr {a b : Buffer} {off : Nat} (h : ∀ i, off ≤ i → i < off+4 → a i = b i) :
    a.load32 off = b.load32 off := by
  simp only [load32,load16_congr fun i l u => h i l (by omega),
    load16_congr fun i (l : off+2 ≤ i) u => h i (by omega) (by omega)]

theorem load16_shift {a b : Buffer} {p q : Nat} (h : ∀ i < 2, a (p+i) = b (q+i)) :
    a.load16 p = b.load16 q := by
  have low : a p = b q := h 0 (by omega)
  simp only [load16,low,h 1 (by omega)]

theorem load32_shift {a b : Buffer} {p q : Nat} (h : ∀ i < 4, a (p+i) = b (q+i)) :
    a.load32 p = b.load32 q := by
  have low : a.load16 p = b.load16 q := load16_shift fun i below => h i (by omega)
  have high : a.load16 (p+2) = b.load16 (q+2) := by
    apply load16_shift
    intro i below
    simpa [Nat.add_assoc] using h (2+i) (by omega)
  simp only [load32,low,high]

/-- A word determines its bytes, wherever it was loaded from. -/
theorem load16_inj {a b : Buffer} {p q : Nat} (same : a.load16 p = b.load16 q) :
    a p = b q ∧ a (p+1) = b (q+1) := by
  have words := congrArg BitVec.toNat same
  rw [load16_toNat,load16_toNat] at words
  have := (a p).isLt
  have := (b q).isLt
  constructor
  · apply BitVec.eq_of_toNat_eq
    omega
  · apply BitVec.eq_of_toNat_eq
    omega

theorem load32_inj {a b : Buffer} {p q : Nat} (same : a.load32 p = b.load32 q) :
    ∀ i < 4, a (p+i) = b (q+i) := by
  have words := congrArg BitVec.toNat same
  rw [load32_toNat,load32_toNat] at words
  have := (a.load16 p).isLt
  have := (b.load16 q).isLt
  have low := load16_inj (BitVec.eq_of_toNat_eq (show (a.load16 p).toNat = (b.load16 q).toNat by omega))
  have high := load16_inj (BitVec.eq_of_toNat_eq (show (a.load16 (p+2)).toNat = (b.load16 (q+2)).toNat by omega))
  intro i below
  interval_cases i
  · exact low.1
  · exact low.2
  · exact high.1
  · exact high.2

@[simp] theorem store8_same (b : Buffer) (off : Nat) (v : Byte) : b.store8 off v off = v := by
  simp [store8]

theorem store8_frame (b : Buffer) (off : Nat) (v : Byte) (i : Nat) (apart : i ≠ off) :
    b.store8 off v i = b i := by
  simp [store8,apart]

theorem store16_frame (b : Buffer) (off : Nat) (v : U16) (i : Nat)
    (apart : i < off ∨ off+2 ≤ i) : b.store16 off v i = b i := by
  have first : i ≠ off := by omega
  have second : i ≠ off+1 := by omega
  simp [store16,first,second]

theorem store32_frame (b : Buffer) (off : Nat) (v : U32) (i : Nat)
    (apart : i < off ∨ off+4 ≤ i) : b.store32 off v i = b i := by
  rw [store32,store16_frame _ _ _ _ (by omega),store16_frame _ _ _ _ (by omega)]

theorem zero_frame (b : Buffer) (off len i : Nat) (apart : i < off ∨ off+len ≤ i) :
    b.zero off len i = b i := by
  have outside : ¬(off ≤ i ∧ i < off + len) := by omega
  simp [zero,outside]

@[simp] theorem load16_store16 (b : Buffer) (off : Nat) (v : U16) :
    (b.store16 off v).load16 off = v := by
  have bound := v.isLt
  apply BitVec.eq_of_toNat_eq
  rw [load16_toNat]
  simp only [store16,if_true,BitVec.toNat_ofNat,Nat.add_eq_left,one_ne_zero,if_false]
  omega

theorem load16_store16_frame (b : Buffer) (off : Nat) (v : U16) (p : Nat)
    (apart : p+2 ≤ off ∨ off+2 ≤ p) : (b.store16 off v).load16 p = b.load16 p :=
  load16_congr fun i _ _ => store16_frame b off v i (by omega)

@[simp] theorem load32_store32 (b : Buffer) (off : Nat) (v : U32) :
    (b.store32 off v).load32 off = v := by
  have bound := v.isLt
  apply BitVec.eq_of_toNat_eq
  rw [load32_toNat,store32,load16_store16_frame _ _ _ _ (by omega)]
  simp only [load16_store16,BitVec.toNat_ofNat]
  omega

theorem load16_store32_frame (b : Buffer) (off : Nat) (v : U32) (p : Nat)
    (apart : p+2 ≤ off ∨ off+4 ≤ p) : (b.store32 off v).load16 p = b.load16 p :=
  load16_congr fun i _ _ => store32_frame b off v i (by omega)

theorem load32_store16_frame (b : Buffer) (off : Nat) (v : U16) (p : Nat)
    (apart : p+4 ≤ off ∨ off+2 ≤ p) : (b.store16 off v).load32 p = b.load32 p :=
  load32_congr fun i _ _ => store16_frame b off v i (by omega)

theorem load32_store32_frame (b : Buffer) (off : Nat) (v : U32) (p : Nat)
    (apart : p+4 ≤ off ∨ off+4 ≤ p) : (b.store32 off v).load32 p = b.load32 p :=
  load32_congr fun i _ _ => store32_frame b off v i (by omega)

end Buffer

/-- `rte_be_to_cpu_16` and `rte_cpu_to_be_16`: a byte swap on these hosts. -/
def rteBeToCpu16 (x : U16) : U16 := .ofNat 16 (x.toNat / 256 + 256 * (x.toNat % 256))

/-- `rte_be_to_cpu_32` and `rte_cpu_to_be_32`. -/
def rteBeToCpu32 (x : U32) : U32 :=
  .ofNat 32 (x.toNat / 16777216 + 256 * (x.toNat / 65536 % 256) +
    65536 * (x.toNat / 256 % 256) + 16777216 * (x.toNat % 256))

theorem rteBeToCpu16_bytes (low high : Nat) (hl : low < 256) (hh : high < 256) :
    rteBeToCpu16 (.ofNat 16 (low + 256 * high)) = .ofNat 16 (high + 256 * low) := by
  have value : (low + 256 * high) % 2^16 = low + 256 * high := Nat.mod_eq_of_lt (by omega)
  apply BitVec.eq_of_toNat_eq
  simp only [rteBeToCpu16,BitVec.toNat_ofNat,value]
  congr 1
  omega

theorem rteBeToCpu32_bytes (a b c d : Nat) (ha : a < 256) (hb : b < 256) (hc : c < 256)
    (hd : d < 256) :
    rteBeToCpu32 (.ofNat 32 (a + 256 * b + 65536 * c + 16777216 * d)) =
      .ofNat 32 (d + 256 * c + 65536 * b + 16777216 * a) := by
  have value : (a + 256 * b + 65536 * c + 16777216 * d) % 2^32 =
      a + 256 * b + 65536 * c + 16777216 * d := Nat.mod_eq_of_lt (by omega)
  apply BitVec.eq_of_toNat_eq
  simp only [rteBeToCpu32,BitVec.toNat_ofNat,value]
  congr 1
  omega

@[simp] theorem rteBeToCpu16_involutive (x : U16) : rteBeToCpu16 (rteBeToCpu16 x) = x := by
  have bytes : x = .ofNat 16 (x.toNat % 256 + 256 * (x.toNat / 256)) := by
    rw [Nat.mod_add_div,BitVec.ofNat_toNat,BitVec.setWidth_eq]
  have bound := x.isLt
  rw [bytes,rteBeToCpu16_bytes _ _ (by omega) (by omega),
    rteBeToCpu16_bytes _ _ (by omega) (by omega)]

@[simp] theorem rteBeToCpu32_involutive (x : U32) : rteBeToCpu32 (rteBeToCpu32 x) = x := by
  have bound := x.isLt
  have bytes : x = .ofNat 32 (x.toNat % 256 + 256 * (x.toNat / 256 % 256) +
      65536 * (x.toNat / 65536 % 256) + 16777216 * (x.toNat / 16777216)) := by
    apply BitVec.eq_of_toNat_eq
    rw [BitVec.toNat_ofNat]
    omega
  rw [bytes,rteBeToCpu32_bytes _ _ _ _ (by omega) (by omega) (by omega) (by omega),
    rteBeToCpu32_bytes _ _ _ _ (by omega) (by omega) (by omega) (by omega)]

theorem rteBeToCpu32_eq_zero_iff (x : U32) : rteBeToCpu32 x = 0 ↔ x = 0 := by
  constructor
  · intro zero
    rw [← rteBeToCpu32_involutive x,zero]
    rfl
  · rintro rfl
    rfl

theorem rteBeToCpu16_eq_shift (x : U16) : rteBeToCpu16 x = (x >>> 8) ||| (x <<< 8) := by
  have disjoint : (x >>> 8) &&& (x <<< 8) = 0#16 := by
    ext i hi
    simp only [BitVec.getElem_and,BitVec.getElem_ushiftRight,BitVec.getElem_shiftLeft,BitVec.getElem_zero]
    by_cases low : i < 8
    · simp [low]
    · simp [BitVec.getLsbD_of_ge x (8+i) (by omega)]
  rw [← BitVec.add_eq_or_of_and_eq_zero _ _ disjoint]
  apply BitVec.eq_of_toNat_eq
  have bound := x.isLt
  simp only [rteBeToCpu16,BitVec.toNat_ofNat,BitVec.toNat_add,BitVec.toNat_ushiftRight,
    BitVec.toNat_shiftLeft,Nat.shiftRight_eq_div_pow,Nat.shiftLeft_eq]
  omega

theorem rteBeToCpu16_and (x y : U16) : rteBeToCpu16 (x &&& y) = rteBeToCpu16 x &&& rteBeToCpu16 y := by
  simp only [rteBeToCpu16_eq_shift]
  ext i hi
  simp only [BitVec.getElem_and,BitVec.getElem_or,BitVec.getElem_ushiftRight,BitVec.getElem_shiftLeft,
    BitVec.getLsbD_and]
  by_cases low : i < 8
  · simp [low]
  · simp [low,BitVec.getLsbD_of_ge x (8+i) (by omega),BitVec.getLsbD_of_ge y (8+i) (by omega)]

theorem rteBeToCpu16_eq_zero_iff (x : U16) : rteBeToCpu16 x = 0 ↔ x = 0 := by
  constructor
  · intro zero
    rw [← rteBeToCpu16_involutive x,zero]
    rfl
  · rintro rfl
    rfl

/-- Swapping the bytes of a word multiplies its residue by 256. -/
theorem rteBeToCpu16_modEq (x : U16) : (rteBeToCpu16 x).toNat ≡ 256 * x.toNat [MOD 65535] := by
  have bound := x.isLt
  have value : (rteBeToCpu16 x).toNat = x.toNat / 256 + 256 * (x.toNat % 256) := by
    rw [rteBeToCpu16,BitVec.toNat_ofNat]
    omega
  have swapped : 256 * x.toNat = (rteBeToCpu16 x).toNat + 65535 * (x.toNat / 256) := by omega
  rw [swapped]
  exact (Nat.modEq_iff_dvd' (Nat.le_add_right _ _)).mpr (by simp)

theorem rteBeToCpu32_modEq (x : U32) : (rteBeToCpu32 x).toNat ≡ 256 * x.toNat [MOD 65535] := by
  have bound := x.isLt
  have bytes : x.toNat = x.toNat % 256 + 256 * (x.toNat / 256 % 256) +
      65536 * (x.toNat / 65536 % 256) + 16777216 * (x.toNat / 16777216) := by omega
  have value : (rteBeToCpu32 x).toNat = x.toNat / 16777216 + 256 * (x.toNat / 65536 % 256) +
      65536 * (x.toNat / 256 % 256) + 16777216 * (x.toNat % 256) := by
    rw [rteBeToCpu32,BitVec.toNat_ofNat]
    omega
  generalize x.toNat % 256 = a at value bytes
  generalize x.toNat / 256 % 256 = b at value bytes
  generalize x.toNat / 65536 % 256 = c at value bytes
  generalize x.toNat / 16777216 = d at value bytes
  -- on both sides the bytes are left with the weights 256, 1, 256 and 1
  have left : (rteBeToCpu32 x).toNat = d + 256 * c + b + 256 * a + 65535 * (b + 256 * a) := by omega
  have right : 256 * x.toNat = d + 256 * c + b + 256 * a + 65535 * (b + 256 * c + 65537 * d) := by omega
  rw [left,right,Nat.ModEq,Nat.add_mul_mod_self_left,Nat.add_mul_mod_self_left]

abbrev Mac := Fin 6 → Byte

def Buffer.loadMac (b : Buffer) (off : Nat) : Mac := fun i => b (off + i.val)

def Buffer.storeMac (b : Buffer) (off : Nat) (mac : Mac) : Buffer :=
  fun i => if h : off ≤ i ∧ i < off + 6 then mac ⟨i - off,by omega⟩ else b i

namespace Buffer

@[simp] theorem loadMac_storeMac (b : Buffer) (off : Nat) (mac : Mac) : (b.storeMac off mac).loadMac off = mac := by
  funext i
  have inside : off ≤ off + i.val ∧ off + i.val < off + 6 := by omega
  simp only [loadMac,storeMac,dif_pos inside,Nat.add_sub_cancel_left]

theorem storeMac_frame (b : Buffer) (off : Nat) (mac : Mac) (i : Nat) (apart : i < off ∨ off+6 ≤ i) :
    b.storeMac off mac i = b i := by
  have outside : ¬(off ≤ i ∧ i < off + 6) := by omega
  simp only [storeMac,dif_neg outside]

theorem loadMac_congr {a b : Buffer} {off : Nat} (h : ∀ i, off ≤ i → i < off+6 → a i = b i) :
    a.loadMac off = b.loadMac off :=
  funext fun i => h (off + i.val) (by omega) (by omega)

theorem loadMac_storeMac_frame (b : Buffer) (off : Nat) (mac : Mac) (p : Nat)
    (apart : p+6 ≤ off ∨ off+6 ≤ p) : (b.storeMac off mac).loadMac p = b.loadMac p :=
  loadMac_congr fun i _ _ => storeMac_frame b off mac i (by omega)

theorem loadMac_store8_frame (b : Buffer) (off : Nat) (v : Byte) (p : Nat)
    (apart : p+6 ≤ off ∨ off+1 ≤ p) : (b.store8 off v).loadMac p = b.loadMac p :=
  loadMac_congr fun i _ _ => store8_frame b off v i (by omega)

theorem loadMac_store16_frame (b : Buffer) (off : Nat) (v : U16) (p : Nat)
    (apart : p+6 ≤ off ∨ off+2 ≤ p) : (b.store16 off v).loadMac p = b.loadMac p :=
  loadMac_congr fun i _ _ => store16_frame b off v i (by omega)

theorem loadMac_store32_frame (b : Buffer) (off : Nat) (v : U32) (p : Nat)
    (apart : p+6 ≤ off ∨ off+4 ≤ p) : (b.store32 off v).loadMac p = b.loadMac p :=
  loadMac_congr fun i _ _ => store32_frame b off v i (by omega)

end Buffer

/-- The part of `struct rte_mbuf` the application reads or writes. -/
structure Mbuf where
  data : Buffer
  pktLen : U32
  olFlags : U64
  vlanTci : U16
  l2Len : Nat
  l3Len : Nat

@[simp] def sizeofEtherHdr : Nat := 14
@[simp] def sizeofIpv4Hdr : Nat := 20
@[simp] def sizeofIcmpHdr : Nat := 8

/-- `L3_HEADER` skips the Ethernet header. -/
@[simp] def ipv4Header : Nat := sizeofEtherHdr
@[simp] def arpHeader : Nat := sizeofEtherHdr

/-- `L4_HEADER` skips `sizeof(struct ipv4_hdr)` bytes, whatever the header length field says. -/
@[simp] def l4Header : Nat := ipv4Header + sizeofIpv4Hdr

namespace Eth
@[simp] def dAddr : Nat := 0
@[simp] def sAddr : Nat := 6
@[simp] def etherType : Nat := 12
end Eth

/-! Members are named by their offset from the start of their own header. -/

namespace Ipv4
@[simp] def versionIhl : Nat := 0
@[simp] def totalLength : Nat := 2
@[simp] def fragmentOffset : Nat := 6
@[simp] def nextProtoId : Nat := 9
@[simp] def hdrChecksum : Nat := 10
@[simp] def srcAddr : Nat := 12
@[simp] def dstAddr : Nat := 16
end Ipv4

namespace Icmp
@[simp] def icmpType : Nat := 0
@[simp] def icmpCksum : Nat := 2
end Icmp

namespace Tcp
@[simp] def tcpFlags : Nat := 13
@[simp] def cksum : Nat := 16
end Tcp

namespace Udp
@[simp] def dgramCksum : Nat := 6
end Udp

namespace Arp
@[simp] def arpOp : Nat := 6
@[simp] def arpSha : Nat := 8
@[simp] def arpSip : Nat := 14
@[simp] def arpTha : Nat := 18
@[simp] def arpTip : Nat := 24
end Arp

@[simp] def ipprotoIcmp : Byte := 1
@[simp] def ipprotoTcp : Byte := 6
@[simp] def ipprotoUdp : Byte := 17
@[simp] def ipprotoUdplite : Byte := 136

/-- `VLAN_ID`: the last 12 bits of the TCI field. -/
def Mbuf.vlanId (m : Mbuf) : U16 := m.vlanTci &&& 0xfff

/-- `NATA_IS_FRAG`: a nonzero offset, tested on the big-endian field
(`IPV4_HDR_OFFSET_MASK` is `0x1fff`). -/
def nataIsFrag (fragmentOffset : U16) : Bool :=
  fragmentOffset &&& rteBeToCpu16 0x1fff != 0

/-- `NATA_IS_FIRST_FRAG`: more fragments follow (`IPV4_HDR_MF_FLAG` is `0x2000`) and
the offset is zero. -/
def nataIsFirstFrag (fragmentOffset : U16) : Bool :=
  fragmentOffset &&& rteBeToCpu16 0x2000 != 0 && !nataIsFrag fragmentOffset

end Natasha
