import Natasha.Offload

/-! The checksum that leaves the machine. After a rewrite the NIC computes the L4 checksum of a
whole datagram from its payload, where the incremental update would have carried the
sender's along; the two agree exactly on datagrams that arrived valid. -/
namespace Natasha

open Interaction

/-! ## Transmission -/

/-- `PKT_TX_L4_MASK`. -/
def pktTxL4Mask : U64 := 3 <<< 52

/-- A whole datagram without options, as its receiver sees it. -/
def Mbuf.datagram (m : Mbuf) : Datagram := ⟨m.src,m.dst,m.nextProtoId,m.l4Bytes⟩

/-- What `rte_eth_tx_prepare` and the NIC together do to the bytes of an mbuf: complete the
checksum that the offload field asks for, and nothing without a request. -/
structure Offloads (nic : Mbuf → Mbuf) : Prop where
  requested : ∀ m : Mbuf, m.olFlags &&& pktTxIpv4 = pktTxIpv4 → m.l2Len = sizeofEtherHdr →
    m.l3Len = sizeofIpv4Hdr → m.olFlags &&& pktTxL4Mask = offloadFlag m.nextProtoId →
    cksumOffset m.nextProtoId + 2 ≤ m.l4Len →
    (nic m).datagram.L4Valid ∧ ∀ i, i < l4Header + cksumOffset m.nextProtoId ∨
      l4Header + cksumOffset m.nextProtoId + 2 ≤ i → (nic m).data i = m.data i
  otherwise : ∀ m : Mbuf, m.olFlags &&& pktTxL4Mask = 0 → (nic m).data = m.data

/-- The mbuf `action_out` hands to the queue. -/
def Mbuf.outgoing (m : Mbuf) (mac : Mac) (out : OutPacket) : Mbuf :=
  { m with
    data := (m.data.storeMac Eth.sAddr mac).storeMac Eth.dAddr out.nextHop
    olFlags := m.olFlags ||| pktTxIpv4
    vlanTci := .ofInt 16 out.vlan : Mbuf }.prepared

/-- Between `w` and `w'` the mbuf `sent` was put at the end of a queue, where it still is or
from where it was offered to the NIC. -/
def Handed (w w' : Worker) (port : Nat) (sent : Mbuf) : Prop :=
  (w'.txQueues port).pkts = (w.txQueues port).pkts ++ [sent] ∨
    ∃ taken, .burst port ((w.txQueues port).pkts ++ [sent]) taken ∈ w'.log.drop w.log.length

theorem txSend_handed (ok : (op : Op) → Ans op → Prop) (port : Nat) (w : Worker) :
    Ensures ok (txSend port) w fun _ w' => Handed w w' port w.pkt.prepared := by
  rw [ensures_txSend]
  constructor
  · intro room
    left
    simp [Worker.filled]
  · intro full
    right
    refine ⟨(w.enqueued port).taken (w.filled port),?_⟩
    simp only [Worker.flushed,Worker.enqueued,List.append_assoc,List.drop_left,flushEvents,Worker.filled]
    simp

theorem Handed.of_stored {w w' : Worker} {f : Mbuf → Mbuf} {port : Nat} {sent : Mbuf}
    (handed : Handed (w.stored f) w' port sent) : Handed w w' port sent := by
  rcases handed with waits | ⟨taken,offered⟩
  · exact .inl waits
  · refine .inr ⟨taken,?_⟩
    exact List.drop_subset_drop_left _ (by simp) offered

theorem actionOut_handed (ok : (op : Op) → Ans op → Prop) (dev : Devices) (port : Nat) (out : OutPacket)
    (w : Worker) :
    Ensures ok (actionOut dev port out) w fun _ w' =>
      Handed w w' out.port.toNat (w.pkt.outgoing (dev.macaddr port) out) := by
  simp only [actionOut,storeMac,ensures_bind,ensures_writePkt,ensures_pure]
  exact (txSend_handed ok out.port.toNat _).mono fun _ _ handed => handed.of_stored.of_stored.of_stored.of_stored

section Outgoing

variable (m : Mbuf) (mac : Mac) (out : OutPacket)

theorem outgoing_frame (i : Nat) (beyond : sizeofEtherHdr ≤ i) : (m.outgoing mac out).data i = m.data i := by
  have second : ¬(Eth.dAddr ≤ i ∧ i < Eth.dAddr + 6) := by simp at *; omega
  have first : ¬(Eth.sAddr ≤ i ∧ i < Eth.sAddr + 6) := by simp at *; omega
  simp only [Mbuf.outgoing,Mbuf.prepared,Buffer.storeMac]
  rw [dif_neg second,dif_neg first]

theorem outgoing_ipv4 : (m.outgoing mac out).olFlags &&& pktTxIpv4 = pktTxIpv4 := by
  simp only [Mbuf.outgoing,Mbuf.prepared]
  split
  · rw [BitVec.or_assoc,BitVec.or_comm pktTxIpv4,← BitVec.or_assoc]
    exact or_and_self_right _ _
  · exact or_and_self_right _ _

/-- The flags of transmission lie outside the offload field. -/
theorem outgoing_l4Mask : (m.outgoing mac out).olFlags &&& pktTxL4Mask = m.olFlags &&& pktTxL4Mask := by
  have ipv4 : ∀ x, (x ||| pktTxIpv4) &&& pktTxL4Mask = x &&& pktTxL4Mask :=
    fun x => or_and_disjoint x _ _ (by decide)
  simp only [Mbuf.outgoing,Mbuf.prepared]
  split
  · rw [or_and_disjoint _ pktTxVlanPkt _ (by decide),ipv4]
  · exact ipv4 _

end Outgoing

/-! ## The residue of the transmitted datagram -/

theorem store16_load16 (b : Buffer) (off : Nat) : b.store16 off (b.load16 off) = b := by
  funext i
  have low := (b off).isLt
  have high := (b (off+1)).isLt
  simp only [Buffer.store16,Buffer.load16_toNat]
  split
  · subst i
    apply BitVec.eq_of_toNat_eq
    rw [BitVec.toNat_ofNat]
    omega
  · split
    · subst i
      apply BitVec.eq_of_toNat_eq
      rw [BitVec.toNat_ofNat]
      omega
    · rfl

/-- L4 bytes that agree except in one word differ by storing that word. -/
theorem l4Bytes_of_frame (m t : Mbuf) (off : Nat) (length : t.l4Len = m.l4Len)
    (same : ∀ i ≥ l4Header, i < l4Header + off ∨ l4Header + off + 2 ≤ i → t.data i = m.data i) :
    t.l4Bytes = set16 m.l4Bytes off (t.data.load16 (l4Header + off)) := by
  rw [← l4Bytes_store16]
  have length' : t.l4Len =
      ({ m with data := m.data.store16 (l4Header + off) (t.data.load16 (l4Header + off)) } : Mbuf).l4Len := by
    rw [length]
    simp only [Mbuf.l4Len]
    rw [Buffer.load16_store16_frame _ _ _ _ (by simp; omega)]
  simp only [Mbuf.l4Bytes,← length']
  apply List.map_congr_left
  intro i _
  by_cases inside : l4Header + off ≤ l4Header + i ∧ l4Header + i < l4Header + off + 2
  · -- both bytes are those of the stored word
    have own := congrFun (store16_load16 t.data (l4Header + off)) (l4Header + i)
    rw [← own]
    simp only [Buffer.store16]
    split
    · rfl
    · rw [if_pos (by omega),if_pos (by omega)]
  · rw [Buffer.store16_frame _ _ _ _ (by omega)]
    exact same _ (by omega) (by omega)

theorem rewriteAll_header (table : NatLookup) (fields : List AddrField) (m m' : Mbuf)
    (found : m.rewriteAll table fields = some m') (i : Nat) (low : i < 24) : m'.data i = m.data i := by
  induction fields generalizing m with
  | nil =>
    obtain rfl := Option.some.inj found
    rfl
  | cons field fields ih =>
    obtain ⟨new,_,rest⟩ := Option.bind_eq_some_iff.mp found
    exact (ih _ rest).trans (m.retargeted_frame field new i low)

theorem retargeted_payload (m : Mbuf) (field : AddrField) (new : U32) (first : m.fragOffset = 0)
    (known : CoversAddresses m.nextProtoId) (i : Nat) (beyond : l4Header ≤ i)
    (apart : i < l4Header + cksumOffset m.nextProtoId ∨ l4Header + cksumOffset m.nextProtoId + 2 ≤ i) :
    (m.retargeted field new).data i = m.data i := by
  have outer := m.readdressed_frame field new i (.inr (by simpa using beyond))
  rw [retargeted_whole m field new first known]
  split
  · exact outer
  · split
    · exact (Mbuf.cksumUpdated_frame _ _ _ _ i apart).trans outer
    · exact (Buffer.store16_frame _ _ _ i apart).trans outer

theorem rewriteAll_payload (table : NatLookup) (fields : List AddrField) (m m' : Mbuf) (first : m.fragOffset = 0)
    (known : CoversAddresses m.nextProtoId) (found : m.rewriteAll table fields = some m') (i : Nat)
    (beyond : l4Header ≤ i)
    (apart : i < l4Header + cksumOffset m.nextProtoId ∨ l4Header + cksumOffset m.nextProtoId + 2 ≤ i) :
    m'.data i = m.data i := by
  induction fields generalizing m with
  | nil =>
    obtain rfl := Option.some.inj found
    rfl
  | cons field fields ih =>
    obtain ⟨new,_,rest⟩ := Option.bind_eq_some_iff.mp found
    have later := ih (m.retargeted field new) (by simpa using first) (by simpa using known) rest (by simpa using apart)
    exact later.trans (retargeted_payload m field new first known i beyond apart)

/-- Each change moves one of the two addresses. -/
theorem rewriteAll_addresses (table : NatLookup) (fields : List AddrField) (m m' : Mbuf)
    (found : m.rewriteAll table fields = some m') :
    m'.src.toNat + m'.dst.toNat + oldTotal (addressChanges table fields (m.src,m.dst)) =
      m.src.toNat + m.dst.toNat + newTotal (addressChanges table fields (m.src,m.dst)) := by
  induction fields generalizing m with
  | nil =>
    obtain rfl := Option.some.inj found
    rfl
  | cons field fields ih =>
    obtain ⟨new,hit,rest⟩ := Option.bind_eq_some_iff.mp found
    have later := ih _ rest
    have key := retargeted_key m field new
    simp only [Mbuf.key,Prod.mk.injEq] at key
    obtain ⟨src,dst,_⟩ := key
    rw [addressChanges_retargeted table field fields m new hit]
    generalize addressChanges table fields _ = changes at later ⊢
    rw [src,dst] at later
    simp only [oldTotal,newTotal,List.map_cons,OnesComplement.total_cons] at later ⊢
    cases field with
    | src =>
      have address : m.addr .src = m.src := rfl
      simp only [address,if_true,reduceCtorEq,if_false] at later ⊢
      omega
    | dst =>
      have address : m.addr .dst = m.dst := rfl
      simp only [address,if_true,reduceCtorEq,if_false] at later ⊢
      omega

theorem cksumOffset_even (proto : Byte) : ∃ k, cksumOffset proto = 2*k := by
  unfold cksumOffset
  split
  · exact ⟨8,rfl⟩
  · exact ⟨3,rfl⟩

/-- Whatever is transmitted in the place of the checksum, the distance of the datagram from
validity is its distance from the incremental update, less that of the datagram received. -/
theorem transmitted_total (m t : Mbuf) (changes : List (U32 × U32)) (length : t.l4Len = m.l4Len)
    (proto : t.nextProtoId = m.nextProtoId) (inside : cksumOffset m.nextProtoId + 2 ≤ m.l4Len)
    (payload : ∀ i ≥ l4Header, i < l4Header + cksumOffset m.nextProtoId ∨
      l4Header + cksumOffset m.nextProtoId + 2 ≤ i → t.data i = m.data i)
    (addresses : t.src.toNat + t.dst.toNat + oldTotal changes = m.src.toNat + m.dst.toNat + newTotal changes) :
    OnesComplement.total t.datagram.l4Words + 256 * (cksumUpdates m.l4Cksum changes).toNat ≡
      OnesComplement.total m.datagram.l4Words + 256 * t.l4Cksum.toNat [MOD 65535] := by
  obtain ⟨k,even⟩ := cksumOffset_even m.nextProtoId
  have bytes := l4Bytes_of_frame m t (cksumOffset m.nextProtoId) length payload
  have cksum : t.l4Cksum = t.data.load16 (l4Header + cksumOffset m.nextProtoId) := by rw [Mbuf.l4Cksum,proto]
  rw [← cksum] at bytes
  have words := beWords_set16 m.l4Bytes k t.l4Cksum (by rw [length_l4Bytes]; omega)
  have before : (Buffer.ofBytes m.l4Bytes).load16 (2*k) = m.l4Cksum := by
    have load := load16_ofBytes m [] (cksumOffset m.nextProtoId) inside
    rw [List.append_nil] at load
    rw [← even,load]
    rfl
  rw [before,← even,← bytes] at words
  have source := addressWords_total t.src
  have destination := addressWords_total t.dst
  have source' := addressWords_total m.src
  have destination' := addressWords_total m.dst
  have follows := reflects_cksumUpdates m.l4Cksum changes
  simp only [Datagram.l4Words,Mbuf.datagram,OnesComplement.total_append,OnesComplement.total_cons,
    OnesComplement.total_nil,proto,length_l4Bytes,length]
  simp only [Reflects,Nat.ModEq] at *
  omega

theorem offloadFlag_mask (proto : Byte) : offloadFlag proto &&& pktTxL4Mask = offloadFlag proto := by
  unfold offloadFlag
  split <;> decide

/-- The transmitted bytes from the IPv4 header on are those of the rewritten mbuf, but for the
checksum; after at least one rewrite the NIC computes that, otherwise it is as received. -/
theorem transmitted_frame {nic : Mbuf → Mbuf} (offloads : Offloads nic) {table : NatLookup}
    {fields : List AddrField} {m m' : Mbuf} (mac : Mac) (out : OutPacket) (first : m.fragOffset = 0)
    (whole : m.moreFragments = false) (known : CoversAddresses m.nextProtoId)
    (covered : m.nextProtoId = ipprotoTcp ∨ m.l4Cksum ≠ 0)
    (inside : cksumOffset m.nextProtoId + 2 ≤ m.l4Len) (fresh : m.olFlags &&& pktTxL4Mask = 0)
    (found : m.rewriteAll table fields = some m') :
    (∀ i ≥ sizeofEtherHdr, i < l4Header + cksumOffset m.nextProtoId ∨
      l4Header + cksumOffset m.nextProtoId + 2 ≤ i → (nic (m'.outgoing mac out)).data i = m'.data i) ∧
    (fields ≠ [] → (nic (m'.outgoing mac out)).datagram.L4Valid) ∧
    (fields = [] → (nic (m'.outgoing mac out)).l4Cksum = m.l4Cksum) := by
  have proto : (m'.outgoing mac out).nextProtoId = m.nextProtoId := by
    rw [Mbuf.nextProtoId,outgoing_frame _ _ _ _ (by simp)]
    exact rewriteAll_nextProtoId table fields m m' found
  by_cases empty : fields = []
  · subst empty
    obtain rfl : m = m' := Option.some.inj found
    have data := offloads.otherwise (m.outgoing mac out) (by rw [outgoing_l4Mask,fresh])
    refine ⟨fun i beyond _ => ?_,fun some => absurd rfl some,fun _ => ?_⟩
    · rw [data,outgoing_frame _ _ _ _ beyond]
    · have proto' : (nic (m.outgoing mac out)).nextProtoId = m.nextProtoId := by
        rw [Mbuf.nextProtoId,data]
        exact proto
      rw [Mbuf.l4Cksum,proto',data,Mbuf.l4Cksum]
      exact Buffer.load16_congr fun i low _ => outgoing_frame _ _ _ _ (by simp at *; omega)
  · have flags := rewriteAll_offloaded fields m m' first known covered whole empty found
    have mask : (m'.outgoing mac out).olFlags &&& pktTxL4Mask = offloadFlag (m'.outgoing mac out).nextProtoId := by
      rw [outgoing_l4Mask,flags,proto,BitVec.and_or_distrib_right,fresh,offloadFlag_mask]
      exact BitVec.zero_or
    have length : (m'.outgoing mac out).l4Len = m.l4Len := by
      have word : (m'.outgoing mac out).data.load16 (ipv4Header + Ipv4.totalLength) =
          m.data.load16 (ipv4Header + Ipv4.totalLength) := by
        apply Buffer.load16_congr
        intro i low high
        rw [outgoing_frame _ _ _ _ (by simp at *; omega),rewriteAll_header table fields m m' found i (by simp at *; omega)]
      rw [Mbuf.l4Len,word,Mbuf.l4Len]
    obtain ⟨valid,frame⟩ := offloads.requested (m'.outgoing mac out) (outgoing_ipv4 _ _ _) rfl rfl mask
      (by rw [proto,length]; exact inside)
    refine ⟨fun i beyond apart => ?_,fun _ => valid,fun none => absurd none empty⟩
    rw [frame i (by rwa [proto]),outgoing_frame _ _ _ _ beyond]

theorem transmitted_residue {table : NatLookup} {fields : List AddrField} {m m' t : Mbuf}
    (first : m.fragOffset = 0) (known : CoversAddresses m.nextProtoId)
    (inside : cksumOffset m.nextProtoId + 2 ≤ m.l4Len) (found : m.rewriteAll table fields = some m')
    (frame : ∀ i ≥ sizeofEtherHdr, i < l4Header + cksumOffset m.nextProtoId ∨
      l4Header + cksumOffset m.nextProtoId + 2 ≤ i → t.data i = m'.data i) :
    OnesComplement.total t.datagram.l4Words +
        256 * (cksumUpdates m.l4Cksum (addressChanges table fields (m.src,m.dst))).toNat ≡
      OnesComplement.total m.datagram.l4Words + 256 * t.l4Cksum.toNat [MOD 65535] := by
  have header : ∀ i ≥ sizeofEtherHdr, i < l4Header → t.data i = m'.data i :=
    fun i low high => frame i low (.inl (by omega))
  have word : t.data.load16 (ipv4Header + Ipv4.totalLength) = m.data.load16 (ipv4Header + Ipv4.totalLength) := by
    apply Buffer.load16_congr
    intro i low high
    rw [header i (by simp at *; omega) (by simp at *; omega),rewriteAll_header table fields m m' found i (by simp at *; omega)]
  have length : t.l4Len = m.l4Len := by rw [Mbuf.l4Len,word,Mbuf.l4Len]
  have proto : t.nextProtoId = m.nextProtoId := by
    rw [Mbuf.nextProtoId,header _ (by simp) (by simp)]
    exact rewriteAll_nextProtoId table fields m m' found
  have source : t.src = m'.src :=
    Buffer.load32_congr fun i low high => header i (by simp at *; omega) (by simp at *; omega)
  have destination : t.dst = m'.dst :=
    Buffer.load32_congr fun i low high => header i (by simp at *; omega) (by simp at *; omega)
  apply transmitted_total m t _ length proto inside
  · intro i beyond apart
    rw [frame i (by simp at *; omega) apart,rewriteAll_payload table fields m m' first known found i beyond apart]
  · rw [source,destination]
    exact rewriteAll_addresses table fields m m' found

theorem natRewriteAll_out_l4Cksum (nic : Mbuf → Mbuf) (offloads : Offloads nic) (table : NatLookup)
    (fields : List AddrField) (dev : Devices) (port : Nat) (out : OutPacket) (w : Worker)
    (first : w.pkt.fragOffset = 0) (whole : w.pkt.moreFragments = false)
    (covered : w.pkt.nextProtoId = ipprotoTcp ∨ w.pkt.nextProtoId = ipprotoUdp ∧ w.pkt.l4Cksum ≠ 0)
    (inside : cksumOffset w.pkt.nextProtoId + 2 ≤ w.pkt.l4Len)
    (fresh : w.pkt.olFlags &&& pktTxL4Mask = 0) :
    Ensures (tableAnswer table) (natRewriteAll fields) w fun all w₁ => all = true →
      Ensures (tableAnswer table) (actionOut dev port out) w₁ fun _ w' =>
        ∃ sent, Handed w₁ w' out.port.toNat sent ∧
          ((nic sent).l4Cksum.toNat ≡ (cksumUpdates w.pkt.l4Cksum
            (addressChanges table fields (w.pkt.src,w.pkt.dst))).toNat [MOD 65535] ↔
              fields = [] ∨ w.pkt.datagram.L4Valid) ∧
          ((nic sent).datagram.L4Valid ↔ fields ≠ [] ∨ w.pkt.datagram.L4Valid) := by
  have known : CoversAddresses w.pkt.nextProtoId := covered.imp id fun udp => .inr udp.1
  have other : w.pkt.nextProtoId ≠ ipprotoIcmp := by
    rcases known with h | h | h <;> rw [h] <;> decide
  apply (natRewriteAll_table table fields w other).mono
  intro all w₁ result good
  have found := result good
  apply (actionOut_handed _ dev port out w₁).mono
  intro _ w' handed
  refine ⟨_,handed,?_⟩
  obtain ⟨frame,computed,received⟩ := transmitted_frame offloads (dev.macaddr port) out first whole known
    (covered.imp id And.right) inside fresh found
  generalize nic (w₁.pkt.outgoing (dev.macaddr port) out) = t at *
  have residue := transmitted_residue first known inside found frame
  by_cases empty : fields = []
  · subst empty
    have same := received rfl
    rw [same] at residue ⊢
    refine ⟨⟨fun _ => .inl rfl,fun _ => Nat.ModEq.rfl⟩,fun valid => .inr ?_,fun valid => ?_⟩
    · exact residue.add_right_cancel'.symm.trans valid
    · exact residue.add_right_cancel'.trans (valid.resolve_left fun nonempty => nonempty rfl)
  · have valid : OnesComplement.total t.datagram.l4Words ≡ 0 [MOD 65535] := computed empty
    refine ⟨⟨fun agrees => .inr ?_,fun received => ?_⟩,fun _ => .inl empty,fun _ => valid⟩
    · simp only [Datagram.L4Valid,Nat.ModEq] at *
      omega
    · have sound : OnesComplement.total w.pkt.datagram.l4Words ≡ 0 [MOD 65535] := received.resolve_left empty
      apply Nat.ModEq.cancel_left_of_coprime (c := 256) (by decide)
      simp only [Nat.ModEq] at *
      omega

def Mbuf.withCksum (m : Mbuf) (v : U16) : Mbuf :=
  { m with data := m.data.store16 (l4Header + cksumOffset m.nextProtoId) v }

/-- The computation of the NIC: the complement of the sum over the datagram with a zero
checksum. -/
def Mbuf.completed (m : Mbuf) : Mbuf :=
  if m.olFlags &&& pktTxL4Mask = 0 then m
  else m.withCksum (rteBeToCpu16 (~~~(OnesComplement.sum (m.withCksum 0).datagram.l4Words)))

section WithCksum

variable (m : Mbuf) (v : U16)

theorem withCksum_frame (i : Nat) (apart : i < l4Header + cksumOffset m.nextProtoId ∨
    l4Header + cksumOffset m.nextProtoId + 2 ≤ i) : (m.withCksum v).data i = m.data i :=
  Buffer.store16_frame _ _ _ _ apart

theorem withCksum_header (i : Nat) (header : i < l4Header) : (m.withCksum v).data i = m.data i :=
  withCksum_frame m v i (.inl (by omega))

theorem withCksum_nextProtoId : (m.withCksum v).nextProtoId = m.nextProtoId :=
  withCksum_header m v _ (by simp)

theorem withCksum_l4Len : (m.withCksum v).l4Len = m.l4Len := by
  rw [Mbuf.l4Len,Buffer.load16_congr fun i _ _ => withCksum_header m v i (by simp at *; omega)]
  rfl

theorem withCksum_l4Cksum : (m.withCksum v).l4Cksum = v := by
  rw [Mbuf.l4Cksum,withCksum_nextProtoId]
  exact Buffer.load16_store16 _ _ _

theorem withCksum_addresses : (m.withCksum v).src = m.src ∧ (m.withCksum v).dst = m.dst :=
  ⟨Buffer.load32_congr fun i _ _ => withCksum_header m v i (by simp at *; omega),
    Buffer.load32_congr fun i _ _ => withCksum_header m v i (by simp at *; omega)⟩

/-- A checksum moves the residue of the datagram by its own, in network order. -/
theorem withCksum_total (inside : cksumOffset m.nextProtoId + 2 ≤ m.l4Len) :
    OnesComplement.total (m.withCksum v).datagram.l4Words ≡
      OnesComplement.total (m.withCksum 0).datagram.l4Words + 256 * v.toNat [MOD 65535] := by
  have proto := withCksum_nextProtoId m
  have length := withCksum_l4Len m
  have moved := transmitted_total (m.withCksum 0) (m.withCksum v) [] ((length v).trans (length 0).symm)
    ((proto v).trans (proto 0).symm) (by rwa [proto,length]) ?_ ?_
  · have none : (cksumUpdates 0 []).toNat = 0 := rfl
    rw [withCksum_l4Cksum,withCksum_l4Cksum,none,Nat.mul_zero,Nat.add_zero] at moved
    exact moved
  · intro i _ apart
    rw [proto] at apart
    rw [withCksum_frame m v i apart,withCksum_frame m 0 i apart]
  · rw [(withCksum_addresses m v).1,(withCksum_addresses m v).2,(withCksum_addresses m 0).1,
      (withCksum_addresses m 0).2]
    rfl

end WithCksum

theorem completed_offloads : Offloads Mbuf.completed where
  requested m _ _ _ mask inside := by
    have set : ¬m.olFlags &&& pktTxL4Mask = 0 := by
      rw [mask]
      unfold offloadFlag
      split <;> decide
    rw [Mbuf.completed,if_neg set]
    refine ⟨?_,fun i apart => withCksum_frame m _ i apart⟩
    generalize sums : OnesComplement.sum (m.withCksum 0).datagram.l4Words = sum
    have residue := OnesComplement.sum_modEq (m.withCksum 0).datagram.l4Words
    have swapped := rteBeToCpu16_modEq (rteBeToCpu16 (~~~sum))
    have total := withCksum_total m (rteBeToCpu16 (~~~sum)) inside
    have complement : (~~~sum).toNat = 65535 - sum.toNat := BitVec.toNat_not
    have bound := sum.isLt
    rw [sums] at residue
    rw [rteBeToCpu16_involutive,complement] at swapped
    simp only [Datagram.L4Valid,Nat.ModEq] at *
    omega
  otherwise m none := by rw [Mbuf.completed,if_pos none]

/-- A segment from 10.0.0.1 to 10.0.0.2 with four bytes of payload and the checksum given. -/
def tcpSegment (cksum : U16) : Mbuf where
  data := Buffer.store16 (.ofBytes (List.replicate 14 0 ++
    [0x45,0,0,44,0,1,0,0,64,6,0x66,0xc9,10,0,0,1,10,0,0,2] ++
    [0x30,0x39,0,80,0,0,0,1,0,0,0,0,0x50,0x10,0x20,0,0,0,0,0,1,2,3,4])) (l4Header + Tcp.cksum) cksum
  pktLen := 58
  olFlags := 0
  vlanTci := 0
  l2Len := 0
  l3Len := 0

def twoPorts : Devices := ⟨2,fun port _ => .ofNat 8 port⟩

def nextRouter : OutPacket := ⟨1,0,fun _ => 0xee⟩

theorem natRewriteAll_out_l4Cksum_valid :
    let w := Worker.start (tcpSegment 0x3e47) (fun _ => ⟨[],by decide⟩) fun _ => 0
    let r := exec (steadyAnswer bareConfig) (natRewriteAll [.src,.dst]) w
    let r' := exec (steadyAnswer bareConfig) (actionOut twoPorts 0 nextRouter) r.2
    w.pkt.datagram.L4Valid ∧ r.1 = true ∧ ∃ sent, Handed r.2 r'.2 1 sent ∧ sent.completed.datagram.L4Valid ∧
      sent.completed.l4Cksum.toNat ≡ (cksumUpdates w.pkt.l4Cksum
        (addressChanges bareConfig.natLookup [.src,.dst] (w.pkt.src,w.pkt.dst))).toNat [MOD 65535] := by
  have valid : (tcpSegment 0x3e47).datagram.L4Valid := by decide
  have rewritten := (natRewriteAll_out_l4Cksum Mbuf.completed completed_offloads bareConfig.natLookup [.src,.dst]
    twoPorts 0 nextRouter (.start (tcpSegment 0x3e47) (fun _ => ⟨[],by decide⟩) fun _ => 0) (by decide) (by decide)
    (by decide) (by decide) (by decide)).exec (steadyAnswer bareConfig) (steadyAnswer_table bareConfig) rfl
  obtain ⟨sent,handed,agrees,leaves⟩ := rewritten.exec (steadyAnswer bareConfig) (steadyAnswer_table bareConfig)
  exact ⟨valid,rfl,sent,handed,leaves.mpr (.inr valid),agrees.mpr (.inr valid)⟩

/-- The same segment with a checksum that does not match its payload: the NIC makes it valid. -/
theorem natRewriteAll_out_mends_cksum :
    ¬∀ nic : Mbuf → Mbuf, Offloads nic → ∀ (table : NatLookup) (fields : List AddrField) (dev : Devices)
      (port : Nat) (out : OutPacket) (w : Worker), headerLength w.pkt.data = 5 → w.pkt.fragOffset = 0 →
      w.pkt.moreFragments = false →
      w.pkt.nextProtoId = ipprotoTcp ∨ w.pkt.nextProtoId = ipprotoUdp ∧ w.pkt.l4Cksum ≠ 0 →
      cksumOffset w.pkt.nextProtoId + 2 ≤ w.pkt.l4Len → w.pkt.olFlags &&& pktTxL4Mask = 0 →
      Ensures (tableAnswer table) (natRewriteAll fields) w fun all w₁ => all = true →
        Ensures (tableAnswer table) (actionOut dev port out) w₁ fun _ w' =>
          ∃ sent, Handed w₁ w' out.port.toNat sent ∧ (nic sent).l4Cksum.toNat ≡
            (cksumUpdates w.pkt.l4Cksum (addressChanges table fields (w.pkt.src,w.pkt.dst))).toNat [MOD 65535] := by
  intro claim
  have rewritten := (claim Mbuf.completed completed_offloads bareConfig.natLookup [.src]
    twoPorts 0 nextRouter (.start (tcpSegment 0x1234) (fun _ => ⟨[],by decide⟩) fun _ => 0) (by decide) (by decide)
    (by decide) (by decide) (by decide) (by decide)).exec (steadyAnswer bareConfig) (steadyAnswer_table bareConfig) rfl
  obtain ⟨sent,handed,agrees⟩ := rewritten.exec (steadyAnswer bareConfig) (steadyAnswer_table bareConfig)
  rcases handed with waits | ⟨taken,offered⟩
  · obtain ⟨rfl,_⟩ := List.cons.inj waits
    exact absurd agrees (by decide)
  · change _ ∈ [Event.write,.write,.write,.write,.read,.write,.enqueue 1 0] at offered
    simp at offered

end Natasha
