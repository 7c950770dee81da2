import Natasha.Dispatch
import Natasha.Rewrite

/-! The IPv4 header checksum under NAT. The update works on little-endian loads and never
recomputes; modulo `0xffff` a byte swap is a factor 256, so the residue of the header
is kept, and the range of the update decides between the two zeros. -/
namespace Natasha

open Interaction

variable {ok : (op : Op) → Ans op → Prop}

/-- The ten 16-bit words of the header, in network order. -/
def headerWords (b : Buffer) : List U16 := (wordsOf b ipv4Header sizeofIpv4Hdr).map rteBeToCpu16

def HeaderVerifies (b : Buffer) : Prop := OnesComplement.sum (headerWords b) = 0xffff

instance (b : Buffer) : Decidable (HeaderVerifies b) := inferInstanceAs (Decidable (_ = _))

/-- The checksum computed from scratch, over the header with a zero checksum field. -/
def headerCksum (b : Buffer) : U16 :=
  ~~~(OnesComplement.sum (headerWords (b.store16 (ipv4Header + Ipv4.hdrChecksum) 0)))

/-- The checksum field, in network order. -/
def storedCksum (b : Buffer) : U16 := rteBeToCpu16 (b.load16 (ipv4Header + Ipv4.hdrChecksum))

/-- `ihl`: the header length in 32-bit words. -/
def headerLength (b : Buffer) : Byte := b (ipv4Header + Ipv4.versionIhl) &&& 0x0f

/-- A sequence of rewrites, and whether all of them returned 0. -/
def natRewriteAll : List AddrField → M Bool
  | [] => return true
  | field :: fields => do
    if (← actionNatRewrite field) = 0 then
      natRewriteAll fields
    else
      return false

/-! ## Words and residues -/

theorem total_map_swap (words : List U16) :
    OnesComplement.total (words.map rteBeToCpu16) ≡ 256 * OnesComplement.total words [MOD 65535] := by
  induction words with
  | nil => rfl
  | cons x words ih =>
    simp only [List.map_cons,OnesComplement.total_cons,Nat.mul_add]
    exact (rteBeToCpu16_modEq x).add ih

theorem modEq_of_multiples {n x y a b : Nat} (same : x + n*a = y + n*b) : x ≡ y [MOD n] := by
  simpa [Nat.ModEq] using congrArg (· % n) same

theorem wordsOf_congr {a b : Buffer} {off len : Nat} (same : ∀ i, off ≤ i → i < off+len → a i = b i) :
    wordsOf a off len = wordsOf b off len := by
  have words : (List.range (len / 2)).map (fun i => a.load16 (off + 2*i)) =
      (List.range (len / 2)).map fun i => b.load16 (off + 2*i) := by
    apply List.map_congr_left
    intro i member
    have below := List.mem_range.mp member
    exact Buffer.load16_congr fun j _ _ => same j (by omega) (by omega)
  rw [wordsOf,wordsOf,words]
  split
  · rw [same (off + (len-1)) (by omega) (by omega)]
  · rfl

/-- The words of a range sum to all ones in network order, as a receiver checks them. -/
def Verifies (b : Buffer) (off len : Nat) : Prop :=
  OnesComplement.sum ((wordsOf b off len).map rteBeToCpu16) = 0xffff

instance (b : Buffer) (off len : Nat) : Decidable (Verifies b off len) := inferInstanceAs (Decidable (_ = _))

theorem rteBeToCpu16_pos (x : U16) (positive : 0 < x.toNat) : 0 < (rteBeToCpu16 x).toNat := by
  apply Nat.pos_of_ne_zero
  intro zero
  have none : x = 0 := (rteBeToCpu16_eq_zero_iff x).mp (BitVec.eq_of_toNat_eq zero)
  exact absurd positive (by simp [none])

theorem exists_word_pos (b : Buffer) (off len i : Nat) (inside : i < len) (byte : b (off+i) ≠ 0) :
    ∃ x ∈ wordsOf b off len, 0 < x.toNat := by
  have positive : 0 < (b (off+i)).toNat :=
    Nat.pos_of_ne_zero fun zero => byte (BitVec.eq_of_toNat_eq zero)
  by_cases paired : i / 2 < len / 2
  · refine ⟨b.load16 (off + 2*(i/2)),?_,?_⟩
    · apply List.mem_append_left
      exact List.mem_map.mpr ⟨i/2,List.mem_range.mpr paired,rfl⟩
    · rw [Buffer.load16_toNat]
      rcases Nat.mod_two_eq_zero_or_one i with even | odd
      · rw [show off + 2*(i/2) = off+i by omega]
        omega
      · rw [show off + 2*(i/2) + 1 = off+i by omega]
        omega
  · have last : len - 1 = i := by omega
    refine ⟨(b (off + (len-1))).setWidth 16,?_,?_⟩
    · apply List.mem_append_right
      rw [if_pos (by omega)]
      exact List.mem_singleton.mpr rfl
    · rw [last,BitVec.toNat_setWidth]
      have := (b (off+i)).isLt
      omega

theorem Verifies.total {b : Buffer} {off len : Nat} (verifies : Verifies b off len) :
    OnesComplement.total (wordsOf b off len) ≡ 0 [MOD 65535] := by
  have zero := OnesComplement.total_modEq_zero verifies
  exact Nat.ModEq.cancel_left_of_coprime (c := 256) (by decide) ((total_map_swap _).symm.trans zero)

theorem total_swap_pos (words : List U16) (positive : 0 < OnesComplement.total words) :
    0 < OnesComplement.total (words.map rteBeToCpu16) := by
  induction words with
  | nil => exact positive
  | cons x words ih =>
    rw [OnesComplement.total_cons] at positive
    rw [List.map_cons,OnesComplement.total_cons]
    rcases Nat.eq_zero_or_pos x.toNat with zero | head
    · have := ih (by omega)
      omega
    · have := rteBeToCpu16_pos x head
      omega

/-- The all-zeros sum is excluded by any word other than zero, so that the residue is enough. -/
theorem verifies_of_pos (b : Buffer) (off len : Nat) (positive : 0 < OnesComplement.total (wordsOf b off len))
    (zero : OnesComplement.total (wordsOf b off len) ≡ 0 [MOD 65535]) : Verifies b off len := by
  apply (OnesComplement.sum_eq_allOnes_iff _ (total_swap_pos _ positive)).mpr
  exact (total_map_swap _).trans (zero.mul_left 256)

theorem verifies_of_total (b : Buffer) (off len i : Nat) (inside : i < len) (byte : b (off+i) ≠ 0)
    (zero : OnesComplement.total (wordsOf b off len) ≡ 0 [MOD 65535]) : Verifies b off len := by
  obtain ⟨x,member,positive⟩ := exists_word_pos b off len i inside byte
  exact verifies_of_pos b off len (OnesComplement.total_pos_of_mem member positive) zero

/-- A store at an even distance exchanges one word. -/
theorem wordsOf_store16 (b : Buffer) (off len k : Nat) (v : U16) (inside : 2*k+2 ≤ len) :
    OnesComplement.total (wordsOf (b.store16 (off + 2*k) v) off len) + (b.load16 (off + 2*k)).toNat =
      OnesComplement.total (wordsOf b off len) + v.toNat := by
  have words := OnesComplement.total_exchange (fun i => b.load16 (off + 2*i))
    (fun i => (b.store16 (off + 2*k) v).load16 (off + 2*i)) (len / 2) k (by omega)
    fun i different => Buffer.load16_store16_frame _ _ _ _ (by omega)
  rw [Buffer.load16_store16] at words
  simp only [wordsOf,OnesComplement.total_append]
  split
  · rw [Buffer.store16_frame _ _ _ _ (by omega)]
    omega
  · omega

theorem wordsOf_store32 (b : Buffer) (off len k : Nat) (v : U32) (inside : 2*k+4 ≤ len) :
    OnesComplement.total (wordsOf (b.store32 (off + 2*k) v) off len) + (b.load32 (off + 2*k)).toNat ≡
      OnesComplement.total (wordsOf b off len) + v.toNat [MOD 65535] := by
  have bound := v.isLt
  have low := wordsOf_store16 b off len k (.ofNat 16 v.toNat) (by omega)
  have high := wordsOf_store16 (b.store16 (off + 2*k) (.ofNat 16 v.toNat)) off len (k+1)
    (.ofNat 16 (v.toNat / 65536)) (by omega)
  rw [show off + 2*(k+1) = off + 2*k + 2 by omega,Buffer.load16_store16_frame _ _ _ _ (by omega)] at high
  have old := b.load32_toNat (off + 2*k)
  simp only [BitVec.toNat_ofNat] at low high
  rw [Buffer.store32]
  exact modEq_of_multiples (a := v.toNat / 65536) (b := (b.load16 (off + 2*k + 2)).toNat) (by omega)

theorem wordsOf_cksumUpdated (m : Mbuf) (off len k : Nat) (before after : U32) (inside : 2*k+2 ≤ len) :
    OnesComplement.total (wordsOf (m.cksumUpdated (off + 2*k) before after).data off len) + after.toNat ≡
      OnesComplement.total (wordsOf m.data off len) + before.toNat [MOD 65535] := by
  have word := wordsOf_store16 m.data off len k (cksumUpdate (m.data.load16 (off + 2*k)) before after) inside
  have update := cksumUpdate_modEq (m.data.load16 (off + 2*k)) before after
  simp only [Mbuf.cksumUpdated,Nat.ModEq] at word update ⊢
  omega

/-- A new address and the update of a checksum for it leave the residue of any range of words
that holds both. -/
theorem wordsOf_readdressed (m : Mbuf) (off len cksum address : Nat) (new : U32) (first : 2*cksum+2 ≤ len)
    (second : 2*address+4 ≤ len) :
    OnesComplement.total (wordsOf ({ m with data := m.data.store32 (off + 2*address) new }.cksumUpdated
      (off + 2*cksum) (m.data.load32 (off + 2*address)) new).data off len) ≡
      OnesComplement.total (wordsOf m.data off len) [MOD 65535] := by
  have stored := wordsOf_store32 m.data off len address new second
  have updated := wordsOf_cksumUpdated { m with data := m.data.store32 (off + 2*address) new } off len cksum
    (m.data.load32 (off + 2*address)) new first
  have both := updated.trans stored
  exact both.add_right_cancel'

theorem wordsOf_header (b : Buffer) : wordsOf b ipv4Header sizeofIpv4Hdr =
    [b.load16 14,b.load16 16,b.load16 18,b.load16 20,b.load16 22,b.load16 24,b.load16 26,b.load16 28,
      b.load16 30,b.load16 32] := rfl

theorem readdressed_total (m : Mbuf) (field : AddrField) (new : U32) :
    OnesComplement.total (wordsOf (m.readdressed field.address new).data ipv4Header sizeofIpv4Hdr) ≡
      OnesComplement.total (wordsOf m.data ipv4Header sizeofIpv4Hdr) [MOD 65535] := by
  cases field with
  | src => exact wordsOf_readdressed m ipv4Header sizeofIpv4Hdr 5 6 new (by simp) (by simp)
  | dst => exact wordsOf_readdressed m ipv4Header sizeofIpv4Hdr 5 8 new (by simp) (by simp)

/-! ## One rewrite -/

theorem Mbuf.cksumUpdated_frame (m : Mbuf) (field : Nat) (before after : U32) (i : Nat)
    (apart : i < field ∨ field+2 ≤ i) : (m.cksumUpdated field before after).data i = m.data i :=
  Buffer.store16_frame _ _ _ _ apart

theorem Mbuf.l4Updated_frame (m : Mbuf) (field : Nat) (offload : U64) (before after : U32) (i : Nat)
    (apart : i < field ∨ field+2 ≤ i) :
    (m.l4Updated field offload before after).data i = m.data i := by
  unfold l4Updated
  split <;> exact Buffer.store16_frame _ _ _ _ apart

theorem Mbuf.l4Translated_header (m : Mbuf) (before after : U32) (i : Nat) (header : i < l4Header) :
    (m.l4Translated before after).data i = m.data i := by
  unfold l4Translated
  split
  · exact m.l4Updated_frame _ _ _ _ i (by simp at *; omega)
  · split
    · split
      · rfl
      · exact m.l4Updated_frame _ _ _ _ i (by simp at *; omega)
    · rfl

theorem Mbuf.innerTranslated_header (m : Mbuf) (inner : AddrField) (new : U32) (i : Nat)
    (header : i < l4Header) : (m.innerTranslated inner new).data i = m.data i := by
  have beyond : i < inner.innerAddress := by
    cases inner <;> simp [AddrField.innerAddress] at * <;> omega
  simp only [innerTranslated]
  rw [cksumUpdated_frame _ _ _ _ _ (by simp at *; omega),cksumUpdated_frame _ _ _ _ _ (by simp at *; omega),
    cksumUpdated_frame _ _ _ _ _ (by simp at *; omega)]
  exact Buffer.store32_frame _ _ _ _ (.inl beyond)

theorem Mbuf.Rewritten.outer {field : AddrField} {m m' : Mbuf} (rewritten : m.Rewritten ok field m') :
    ∃ p new, ok .appConfig p ∧
      natLookupIp p.config.natLookup (rteBeToCpu32 (m.data.load32 field.address)) = some new ∧
      ∀ i < l4Header, m'.data i = (m.readdressed field.address new).data i := by
  obtain ⟨p,new,loaded,found,plain,error⟩ := rewritten
  refine ⟨p,new,loaded,found,fun i below => ?_⟩
  by_cases quotes : m.IsError
  · obtain ⟨q,inner,_,_,rfl⟩ := error quotes
    exact innerTranslated_header _ _ _ i below
  · rw [plain quotes]
    exact l4Translated_header _ _ _ i below

theorem Mbuf.Rewritten.header {field : AddrField} {m m' : Mbuf} (rewritten : m.Rewritten ok field m') :
    ∃ new, ∀ i < l4Header, m'.data i = (m.readdressed field.address new).data i := by
  obtain ⟨_,new,_,_,same⟩ := rewritten.outer
  exact ⟨new,same⟩

theorem Mbuf.Rewritten.headerStep {field : AddrField} {m m' : Mbuf} (rewritten : m.Rewritten ok field m') :
    headerLength m'.data = headerLength m.data ∧
    OnesComplement.total (wordsOf m'.data ipv4Header sizeofIpv4Hdr) ≡
      OnesComplement.total (wordsOf m.data ipv4Header sizeofIpv4Hdr) [MOD 65535] ∧
    (m'.data.load16 (ipv4Header + Ipv4.hdrChecksum)).toNat < 65535 := by
  obtain ⟨new,same⟩ := rewritten.header
  refine ⟨?_,?_,?_⟩
  · rw [headerLength,same _ (by simp),m.readdressed_frame field new _ (by simp)]
    rfl
  · rw [wordsOf_congr fun i _ below => same i (by simpa using below)]
    exact readdressed_total m field new
  · have field : m'.data.load16 (ipv4Header + Ipv4.hdrChecksum) = (m.readdressed field.address new).data.load16
        (ipv4Header + Ipv4.hdrChecksum) :=
      Buffer.load16_congr fun i _ below => same i (by simp at *; omega)
    rw [field,Mbuf.readdressed,Mbuf.cksumUpdated,Buffer.load16_store16]
    exact cksumUpdate_lt _ _ _

/-! ## Sequences of rewrites -/

/-- The run lemma: induction on the sequence, with the residue of the header as invariant. -/
theorem natRewriteAll_header (fields : List AddrField) (w : Worker) :
    Ensures ok (natRewriteAll fields) w fun all w' => all = true →
      headerLength w'.pkt.data = headerLength w.pkt.data ∧
      OnesComplement.total (wordsOf w'.pkt.data ipv4Header sizeofIpv4Hdr) ≡
        OnesComplement.total (wordsOf w.pkt.data ipv4Header sizeofIpv4Hdr) [MOD 65535] ∧
      (fields ≠ [] ∨ (w.pkt.data.load16 (ipv4Header + Ipv4.hdrChecksum)).toNat < 65535 →
        (w'.pkt.data.load16 (ipv4Header + Ipv4.hdrChecksum)).toNat < 65535) := by
  induction fields generalizing w with
  | nil => exact fun _ => ⟨rfl,rfl,fun h => h.resolve_left (by simp)⟩
  | cons field fields ih =>
    rw [natRewriteAll,ensures_bind]
    apply (actionNatRewrite_pkt field w).mono
    intro ret w₁ result
    rw [ensures_ite]
    refine ⟨fun zero => ?_,fun _ all => absurd all (by simp)⟩
    have rewritten := (result.resolve_right fun h => absurd (zero.symm.trans h.1) (by decide)).2
    obtain ⟨length,residue,range⟩ := rewritten.headerStep
    apply (ih w₁).mono
    intro all w' rest good
    obtain ⟨length',residue',range'⟩ := rest good
    exact ⟨length'.trans length,residue'.trans residue,fun _ => range' (.inr range)⟩

theorem headerWords_pos (b : Buffer) (length : headerLength b = 5) :
    0 < OnesComplement.total (headerWords b) := by
  have byte : b (ipv4Header + 0) ≠ 0 := by
    intro zero
    have none : b 14 = 0 := zero
    simp [headerLength,none] at length
  obtain ⟨x,member,positive⟩ := exists_word_pos b ipv4Header sizeofIpv4Hdr 0 (by simp) byte
  exact OnesComplement.total_pos_of_mem (List.mem_map_of_mem member) (rteBeToCpu16_pos x positive)

theorem headerVerifies_iff (b : Buffer) (length : headerLength b = 5) :
    HeaderVerifies b ↔ OnesComplement.total (headerWords b) ≡ 0 [MOD 65535] :=
  OnesComplement.sum_eq_allOnes_iff _ (headerWords_pos b length)

theorem total_zeroCksum (b : Buffer) : OnesComplement.total (headerWords b) =
    OnesComplement.total (headerWords (b.store16 (ipv4Header + Ipv4.hdrChecksum) 0)) +
      (storedCksum b).toNat := by
  have other : ∀ off, off+2 ≤ 24 ∨ 26 ≤ off → (b.store16 24 0).load16 off = b.load16 off :=
    fun off apart => Buffer.load16_store16_frame _ _ _ _ (by omega)
  have zero : (rteBeToCpu16 0).toNat = 0 := rfl
  have field : (b.store16 24 0).load16 24 = 0 := Buffer.load16_store16 _ _ _
  rw [headerWords,headerWords,wordsOf_header,wordsOf_header]
  simp only [List.map_cons,List.map_nil,OnesComplement.total_cons,OnesComplement.total_nil,storedCksum,
    ipv4Header,sizeofEtherHdr,Ipv4.hdrChecksum,Nat.reduceAdd]
  rw [other 14 (by omega),other 16 (by omega),other 18 (by omega),other 20 (by omega),
    other 22 (by omega),field,other 26 (by omega),other 28 (by omega),other 30 (by omega),
    other 32 (by omega),zero]
  omega

theorem storedCksum_lt (b : Buffer)
    (range : (b.load16 (ipv4Header + Ipv4.hdrChecksum)).toNat < 65535) : (storedCksum b).toNat < 65535 := by
  have bound := (storedCksum b).isLt
  apply Nat.lt_of_le_of_ne (by omega)
  intro ones
  have all : storedCksum b = 0xffff := BitVec.eq_of_toNat_eq ones
  have same := rteBeToCpu16_involutive (b.load16 (ipv4Header + Ipv4.hdrChecksum))
  rw [← storedCksum,all] at same
  rw [← same] at range
  exact absurd range (by decide)

/-- Of the two representations of zero, a verified header with a field other than `0xffff` has
the one that the computation gives. -/
theorem storedCksum_eq (b : Buffer) (length : headerLength b = 5) (verifies : HeaderVerifies b)
    (range : (b.load16 (ipv4Header + Ipv4.hdrChecksum)).toNat < 65535) :
    storedCksum b = headerCksum b := by
  have zero := (headerVerifies_iff b length).mp verifies
  rw [total_zeroCksum] at zero
  have length' : headerLength (b.store16 (ipv4Header + Ipv4.hdrChecksum) 0) = 5 := by
    rw [headerLength,Buffer.store16_frame _ _ _ _ (by simp)]
    exact length
  have residue := OnesComplement.sum_modEq (headerWords (b.store16 (ipv4Header + Ipv4.hdrChecksum) 0))
  have positive := OnesComplement.sum_pos _ (headerWords_pos _ length')
  have bound := (OnesComplement.sum (headerWords (b.store16 (ipv4Header + Ipv4.hdrChecksum) 0))).isLt
  have small := storedCksum_lt b range
  have balance : (storedCksum b).toNat +
      (OnesComplement.sum (headerWords (b.store16 (ipv4Header + Ipv4.hdrChecksum) 0))).toNat ≡ 0
      [MOD 65535] := by
    rw [Nat.add_comm]
    exact (residue.add_right _).trans zero
  apply BitVec.eq_of_toNat_eq
  rw [headerCksum,BitVec.toNat_not]
  simp only [Nat.ModEq] at balance
  omega

theorem natRewriteAll_headerCksum (fields : List AddrField) (nonempty : fields ≠ []) (w : Worker)
    (length : headerLength w.pkt.data = 5) (verifies : HeaderVerifies w.pkt.data) :
    Ensures anyAnswer (natRewriteAll fields) w fun all w' => all = true →
      HeaderVerifies w'.pkt.data ∧ storedCksum w'.pkt.data = headerCksum w'.pkt.data := by
  apply (natRewriteAll_header fields w).mono
  intro all w' result good
  obtain ⟨same,residue,range⟩ := result good
  have length' := same.trans length
  have verifies' : HeaderVerifies w'.pkt.data := by
    rw [headerVerifies_iff _ length']
    have before := (headerVerifies_iff _ length).mp verifies
    calc OnesComplement.total (headerWords w'.pkt.data)
        ≡ 256 * OnesComplement.total (wordsOf w'.pkt.data ipv4Header sizeofIpv4Hdr) [MOD 65535] :=
          total_map_swap _
      _ ≡ 256 * OnesComplement.total (wordsOf w.pkt.data ipv4Header sizeofIpv4Hdr) [MOD 65535] :=
          residue.mul_left 256
      _ ≡ OnesComplement.total (headerWords w.pkt.data) [MOD 65535] := (total_map_swap _).symm
      _ ≡ 0 [MOD 65535] := before
  exact ⟨verifies',storedCksum_eq _ length' verifies' (range (.inl nonempty))⟩

/-- A datagram from 10.0.0.1 to 10.0.0.2 without payload. -/
def bareDatagram : Mbuf where
  data := .ofBytes (List.replicate 14 0 ++ [0x45,0,0,20,0,0,0,0,64,59,0x66,0xad,10,0,0,1,10,0,0,2])
  pktLen := 34
  olFlags := 0
  vlanTci := 0
  l2Len := 0
  l3Len := 0

def bareConfig : AppConfig where
  ports _ := ⟨[],0⟩
  natLookup := natTable [(0x0a000001,0xd4c00001),(0x0a000002,0xd4c00002)]
  rules := .null

theorem natRewriteAll_headerCksum_both :
    let w := Worker.start bareDatagram (fun _ => ⟨[],by decide⟩) fun _ => 0
    let r := exec (steadyAnswer bareConfig) (natRewriteAll [.src,.dst]) w
    headerLength w.pkt.data = 5 ∧ HeaderVerifies w.pkt.data ∧ r.1 = true ∧
      HeaderVerifies r.2.pkt.data ∧ storedCksum r.2.pkt.data = headerCksum r.2.pkt.data := by
  have length : headerLength bareDatagram.data = 5 := by decide
  have verifies : HeaderVerifies bareDatagram.data := by decide
  refine ⟨length,verifies,rfl,?_⟩
  exact (natRewriteAll_headerCksum [.src,.dst] (by decide)
    (.start bareDatagram (fun _ => ⟨[],by decide⟩) fun _ => 0) length verifies).exec
    (steadyAnswer bareConfig) (fun _ => trivial) rfl

end Natasha
