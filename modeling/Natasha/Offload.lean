import Natasha.IcmpErrors

/-! The L4 checksum of a datagram under a sequence of rewrites. The first of several fragments
carries the sender's checksum along; a whole datagram leaves it to the NIC. A UDP checksum
of zero means that there is none, and both ways stop at it. -/
namespace Natasha

open Interaction

/-- The address changes of a sequence of rewrites, as pairs of the old and the new one. They
depend on the table and on the two addresses only. -/
def addressChanges (table : NatLookup) : List AddrField → U32 × U32 → List (U32 × U32)
  | [], _ => []
  | .src :: fields, (src,dst) =>
    match natLookupIp table (rteBeToCpu32 src) with
    | none => []
    | some new => (src,new) :: addressChanges table fields (new,dst)
  | .dst :: fields, (src,dst) =>
    match natLookupIp table (rteBeToCpu32 dst) with
    | none => []
    | some new => (dst,new) :: addressChanges table fields (src,new)

/-- `cksum_update` for one change after another. -/
def cksumUpdates (csum : U16) (changes : List (U32 × U32)) : U16 :=
  changes.foldl (fun csum change => cksumUpdate csum change.1 change.2) csum

def oldTotal (changes : List (U32 × U32)) : Nat := OnesComplement.total (changes.map Prod.fst)
def newTotal (changes : List (U32 × U32)) : Nat := OnesComplement.total (changes.map Prod.snd)

/-- `csum'` is `csum` with every change made, whichever of the two zeros it is. -/
def Reflects (csum csum' : U16) (changes : List (U32 × U32)) : Prop :=
  csum'.toNat + newTotal changes ≡ csum.toNat + oldTotal changes [MOD 65535]

/-- Some of the changes, from the first on, take the checksum to zero. -/
def ReachesZero (csum : U16) (changes : List (U32 × U32)) : Prop :=
  ∃ first rest, changes = first ++ rest ∧ first ≠ [] ∧ newTotal first ≡ csum.toNat + oldTotal first [MOD 65535]

theorem reflects_cons (csum csum' : U16) (before after : U32) (changes : List (U32 × U32)) :
    Reflects csum csum' ((before,after) :: changes) ↔ Reflects (cksumUpdate csum before after) csum' changes := by
  have update := cksumUpdate_modEq csum before after
  simp only [Reflects,newTotal,oldTotal,List.map_cons,OnesComplement.total_cons,Nat.ModEq] at *
  omega

theorem reflects_cksumUpdates (csum : U16) (changes : List (U32 × U32)) :
    Reflects csum (cksumUpdates csum changes) changes := by
  induction changes generalizing csum with
  | nil => exact Nat.ModEq.rfl
  | cons change changes ih => exact (reflects_cons _ _ _ _ _).mpr (ih (cksumUpdate csum change.1 change.2))

theorem cksumUpdate_eq_zero_iff (csum : U16) (before after : U32) :
    cksumUpdate csum before after = 0 ↔ after.toNat ≡ csum.toNat + before.toNat [MOD 65535] := by
  constructor
  · intro zero
    have update := cksumUpdate_modEq csum before after
    rw [zero] at update
    simpa using update
  · intro congruent
    exact cksumUpdate_unique csum 0 before after (by decide) (by simpa using congruent)

theorem reachesZero_nil (csum : U16) : ¬ReachesZero csum [] := by
  rintro ⟨first,rest,split,nonempty,_⟩
  exact nonempty (List.append_eq_nil_iff.mp split.symm).1

/-- Either the first change hits zero, or the later ones do from where it leads. -/
theorem reachesZero_cons (csum : U16) (before after : U32) (changes : List (U32 × U32)) :
    ReachesZero csum ((before,after) :: changes) ↔
      cksumUpdate csum before after = 0 ∨ ReachesZero (cksumUpdate csum before after) changes := by
  have update := cksumUpdate_modEq csum before after
  constructor
  · rintro ⟨first,rest,split,nonempty,zero⟩
    obtain ⟨change,first,rfl⟩ := List.exists_cons_of_ne_nil nonempty
    obtain ⟨rfl,rfl⟩ := List.cons.inj split
    cases first with
    | nil =>
      left
      rw [cksumUpdate_eq_zero_iff]
      simpa [newTotal,oldTotal] using zero
    | cons next first =>
      right
      refine ⟨next :: first,rest,rfl,by simp,?_⟩
      simp only [newTotal,oldTotal,List.map_cons,OnesComplement.total_cons,Nat.ModEq] at *
      omega
  · rintro (zero | ⟨first,rest,rfl,_,zero⟩)
    · refine ⟨[(before,after)],changes,rfl,by simp,?_⟩
      rw [cksumUpdate_eq_zero_iff] at zero
      simpa [newTotal,oldTotal] using zero
    · refine ⟨(before,after) :: first,rest,rfl,by simp,?_⟩
      simp only [newTotal,oldTotal,List.map_cons,OnesComplement.total_cons,Nat.ModEq] at *
      omega

/-! ## One rewrite of a datagram that holds its L4 header -/

section Retargeted

variable (m : Mbuf) (field : AddrField) (new : U32)

theorem retargeted_l4Cksum (first : m.fragOffset = 0) (known : CoversAddresses m.nextProtoId) :
    (m.retargeted field new).l4Cksum =
      if m.nextProtoId ≠ ipprotoTcp ∧ m.l4Cksum = 0 then 0
      else if m.moreFragments then cksumUpdate m.l4Cksum (m.addr field) new else 0 := by
  have kept := readdressed_load16_frame m field new (l4Header + cksumOffset m.nextProtoId) (Nat.le_add_right _ _)
  rw [Mbuf.l4Cksum,retargeted_nextProtoId,retargeted_whole m field new first known]
  by_cases none : m.nextProtoId ≠ ipprotoTcp ∧ m.l4Cksum = 0
  · rw [if_pos none,if_pos none,kept]
    exact none.2
  · rw [if_neg none,if_neg none]
    by_cases more : m.moreFragments = true
    · rw [if_pos more,if_pos more,Mbuf.cksumUpdated,Buffer.load16_store16,kept]
      rfl
    · rw [if_neg more,if_neg more,Buffer.load16_store16]

theorem retargeted_flags (first : m.fragOffset = 0) (known : CoversAddresses m.nextProtoId) :
    (m.retargeted field new).olFlags =
      if m.nextProtoId ≠ ipprotoTcp ∧ m.l4Cksum = 0 ∨ m.moreFragments then m.olFlags
      else m.olFlags ||| offloadFlag m.nextProtoId := by
  rw [retargeted_whole m field new first known]
  by_cases none : m.nextProtoId ≠ ipprotoTcp ∧ m.l4Cksum = 0
  · rw [if_pos none,if_pos (.inl none)]
    rfl
  · rw [if_neg none]
    by_cases more : m.moreFragments = true
    · rw [if_pos more,if_pos (.inr more)]
      rfl
    · rw [if_neg more,if_neg (not_or.mpr ⟨none,more⟩)]

end Retargeted

/-! ## Sequences of rewrites -/

theorem natRewriteAll_table (table : NatLookup) (fields : List AddrField) (w : Worker)
    (other : w.pkt.nextProtoId ≠ ipprotoIcmp) :
    Ensures (tableAnswer table) (natRewriteAll fields) w fun all w' => all = true →
      w.pkt.rewriteAll table fields = some w'.pkt := by
  induction fields generalizing w with
  | nil => exact fun _ => rfl
  | cons field fields ih =>
    have plain := not_isError_of_nextProtoId w.pkt other
    rw [natRewriteAll,ensures_bind]
    apply (actionNatRewrite_pkt field w).mono
    intro ret w₁ result
    rw [ensures_ite]
    refine ⟨fun zero => ?_,fun _ all => absurd all (by simp)⟩
    have rewritten := (result.resolve_right fun h => absurd (zero.symm.trans h.1) (by decide)).2
    obtain ⟨p,new,(loaded : p.config.natLookup = table),hit,same,_⟩ := rewritten
    have pkt : w₁.pkt = w.pkt.retargeted field new := same plain
    have other' : w₁.pkt.nextProtoId ≠ ipprotoIcmp := by rwa [pkt,retargeted_nextProtoId]
    apply (ih w₁ other').mono
    intro all w' rest good
    rw [Mbuf.rewriteAll,Mbuf.addr,← loaded,hit,loaded,Option.bind_some,← pkt]
    exact rest good

theorem addressChanges_retargeted (table : NatLookup) (field : AddrField) (fields : List AddrField) (m : Mbuf)
    (new : U32) (hit : natLookupIp table (rteBeToCpu32 (m.addr field)) = some new) :
    addressChanges table (field :: fields) (m.src,m.dst) =
      (m.addr field,new) :: addressChanges table fields
        ((m.retargeted field new).src,(m.retargeted field new).dst) := by
  have key := retargeted_key m field new
  simp only [Mbuf.key,Prod.mk.injEq] at key
  obtain ⟨src,dst,_⟩ := key
  rw [src,dst]
  cases field with
  | src =>
    have hit' : natLookupIp table (rteBeToCpu32 m.src) = some new := hit
    rw [addressChanges,hit']
    rfl
  | dst =>
    have hit' : natLookupIp table (rteBeToCpu32 m.dst) = some new := hit
    rw [addressChanges,hit']
    rfl

section Sequence

variable {table : NatLookup}

/-- Without a UDP checksum nothing is updated and nothing is left to the NIC. -/
theorem rewriteAll_noCksum (fields : List AddrField) (m m' : Mbuf) (first : m.fragOffset = 0)
    (udp : m.nextProtoId = ipprotoUdplite ∨ m.nextProtoId = ipprotoUdp) (none : m.l4Cksum = 0)
    (found : m.rewriteAll table fields = some m') : m'.l4Cksum = 0 ∧ m'.olFlags = m.olFlags := by
  induction fields generalizing m with
  | nil =>
    obtain rfl := Option.some.inj found
    exact ⟨none,rfl⟩
  | cons field fields ih =>
    obtain ⟨new,hit,rest⟩ := Option.bind_eq_some_iff.mp found
    have notTcp : m.nextProtoId ≠ ipprotoTcp := by rcases udp with h | h <;> rw [h] <;> decide
    have cksum := retargeted_l4Cksum m field new first (.inr udp)
    have flags := retargeted_flags m field new first (.inr udp)
    rw [if_pos ⟨notTcp,none⟩] at cksum
    rw [if_pos (.inl ⟨notTcp,none⟩)] at flags
    obtain ⟨cksum',flags'⟩ := ih (m.retargeted field new) (by simpa using first) (by simpa using udp) cksum rest
    exact ⟨cksum',flags'.trans flags⟩

/-- A flag of the offload field, once set, stays, and no other is set. -/
theorem rewriteAll_flags (fields : List AddrField) (m m' : Mbuf) (first : m.fragOffset = 0)
    (known : CoversAddresses m.nextProtoId) (found : m.rewriteAll table fields = some m')
    (flag : m.olFlags ||| offloadFlag m.nextProtoId = m.olFlags) : m'.olFlags = m.olFlags := by
  induction fields generalizing m with
  | nil =>
    obtain rfl := Option.some.inj found
    rfl
  | cons field fields ih =>
    obtain ⟨new,hit,rest⟩ := Option.bind_eq_some_iff.mp found
    have flags : (m.retargeted field new).olFlags = m.olFlags := by
      rw [retargeted_flags m field new first known]
      split
      · rfl
      · exact flag
    have later := ih (m.retargeted field new) (by simpa using first) (by simpa using known) rest
    rw [retargeted_nextProtoId,flags] at later
    exact later flag

theorem rewriteAll_offloaded (fields : List AddrField) (m m' : Mbuf) (first : m.fragOffset = 0)
    (known : CoversAddresses m.nextProtoId) (covered : m.nextProtoId = ipprotoTcp ∨ m.l4Cksum ≠ 0)
    (whole : m.moreFragments = false) (nonempty : fields ≠ []) (found : m.rewriteAll table fields = some m') :
    m'.olFlags = m.olFlags ||| offloadFlag m.nextProtoId := by
  obtain ⟨field,fields,rfl⟩ := List.exists_cons_of_ne_nil nonempty
  obtain ⟨new,hit,rest⟩ := Option.bind_eq_some_iff.mp found
  have set : ¬(m.nextProtoId ≠ ipprotoTcp ∧ m.l4Cksum = 0 ∨ m.moreFragments = true) := by
    rintro (⟨notTcp,none⟩ | more)
    · exact covered.elim notTcp fun nonzero => nonzero none
    · rw [whole] at more
      contradiction
  have flags := retargeted_flags m field new first known
  rw [if_neg set] at flags
  have later := rewriteAll_flags fields (m.retargeted field new) m' (by simpa using first) (by simpa using known)
    rest
  rw [retargeted_nextProtoId,flags] at later
  apply later
  rw [BitVec.or_assoc,BitVec.or_self]

/-- The first of several fragments: the checksum follows the changes until it happens to be
zero, and stays there. -/
theorem rewriteAll_carried (fields : List AddrField) (m m' : Mbuf) (first : m.fragOffset = 0)
    (udp : m.nextProtoId = ipprotoUdplite ∨ m.nextProtoId = ipprotoUdp) (more : m.moreFragments = true)
    (nonzero : m.l4Cksum ≠ 0) (found : m.rewriteAll table fields = some m') :
    m'.olFlags = m.olFlags ∧
    (ReachesZero m.l4Cksum (addressChanges table fields (m.src,m.dst)) → m'.l4Cksum = 0) ∧
    (¬ReachesZero m.l4Cksum (addressChanges table fields (m.src,m.dst)) →
      m'.l4Cksum ≠ 0 ∧ Reflects m.l4Cksum m'.l4Cksum (addressChanges table fields (m.src,m.dst))) := by
  induction fields generalizing m with
  | nil =>
    obtain rfl := Option.some.inj found
    exact ⟨rfl,fun zero => absurd zero (reachesZero_nil _),fun _ => ⟨nonzero,Nat.ModEq.rfl⟩⟩
  | cons field fields ih =>
    obtain ⟨new,hit,rest⟩ := Option.bind_eq_some_iff.mp found
    have cksum := retargeted_l4Cksum m field new first (.inr udp)
    have flags := retargeted_flags m field new first (.inr udp)
    rw [if_neg (not_and.mpr fun _ => nonzero),if_pos more] at cksum
    rw [if_pos (.inr more)] at flags
    have first' : (m.retargeted field new).fragOffset = 0 := by simpa using first
    have udp' : (m.retargeted field new).nextProtoId = ipprotoUdplite ∨
        (m.retargeted field new).nextProtoId = ipprotoUdp := by simpa using udp
    rw [addressChanges_retargeted table field fields m new hit,reachesZero_cons,reflects_cons,← cksum,← flags]
    by_cases zero : (m.retargeted field new).l4Cksum = 0
    · obtain ⟨cksum',flags'⟩ := rewriteAll_noCksum fields _ m' first' udp' zero rest
      exact ⟨flags',fun _ => cksum',fun never => absurd (.inl zero) never⟩
    · obtain ⟨flags',hits,follows⟩ := ih (m.retargeted field new) first' udp' (by simpa using more) zero rest
      exact ⟨flags',fun reaches => hits (reaches.resolve_left zero),fun never => follows fun h => never (.inr h)⟩

end Sequence

def Mbuf.udpCksum (m : Mbuf) : U16 := m.data.load16 (l4Header + Udp.dgramCksum)

theorem or_and_self_right (x y : BitVec w) : (x ||| y) &&& y = y := by
  ext i inside
  simp only [BitVec.getElem_and,BitVec.getElem_or]
  cases x[i] <;> cases y[i] <;> rfl

theorem or_and_disjoint (x y z : BitVec w) (apart : y &&& z = 0) : (x ||| y) &&& z = x &&& z := by
  rw [BitVec.and_or_distrib_right,apart]
  exact BitVec.or_zero

/-- What rewrites from `m` to `m'` may do to a UDP checksum: keep its absence, or leave it to
the NIC, or carry it along without losing it. -/
def Mbuf.UdpCksumKept (m m' : Mbuf) (changes : List (U32 × U32)) : Prop :=
  (m.udpCksum = 0 → m'.udpCksum = 0 ∧ m'.olFlags = m.olFlags) ∧
  (m.udpCksum ≠ 0 → m'.olFlags &&& pktTxUdpCksum = pktTxUdpCksum ∨
    m'.udpCksum ≠ 0 ∧ Reflects m.udpCksum m'.udpCksum changes)

theorem udpCksum_eq (m : Mbuf) (udp : m.nextProtoId = ipprotoUdplite ∨ m.nextProtoId = ipprotoUdp) :
    m.udpCksum = m.l4Cksum ∧ offloadFlag m.nextProtoId = pktTxUdpCksum := by
  have notTcp : ¬m.nextProtoId = ipprotoTcp := by rcases udp with h | h <;> rw [h] <;> decide
  rw [Mbuf.l4Cksum,cksumOffset,offloadFlag,if_neg notTcp,if_neg notTcp]
  exact ⟨rfl,rfl⟩

theorem rewriteAll_nextProtoId (table : NatLookup) (fields : List AddrField) (m m' : Mbuf)
    (found : m.rewriteAll table fields = some m') : m'.nextProtoId = m.nextProtoId := by
  induction fields generalizing m with
  | nil =>
    obtain rfl := Option.some.inj found
    rfl
  | cons field fields ih =>
    obtain ⟨new,_,rest⟩ := Option.bind_eq_some_iff.mp found
    exact (ih _ rest).trans (retargeted_nextProtoId m field new)

theorem natRewriteAll_udpCksum (table : NatLookup) (fields : List AddrField) (w : Worker)
    (first : w.pkt.fragOffset = 0)
    (udp : w.pkt.nextProtoId = ipprotoUdplite ∨ w.pkt.nextProtoId = ipprotoUdp) :
    Ensures (tableAnswer table) (natRewriteAll fields) w fun all w' => all = true →
      (w.pkt.UdpCksumKept w'.pkt (addressChanges table fields (w.pkt.src,w.pkt.dst)) ↔
        w.pkt.moreFragments = false ∨ w.pkt.udpCksum = 0 ∨
        w.pkt.olFlags &&& pktTxUdpCksum = pktTxUdpCksum ∨
        ¬ReachesZero w.pkt.udpCksum (addressChanges table fields (w.pkt.src,w.pkt.dst))) := by
  have other : w.pkt.nextProtoId ≠ ipprotoIcmp := by rcases udp with h | h <;> rw [h] <;> decide
  apply (natRewriteAll_table table fields w other).mono
  intro all w' result good
  have found := result good
  have proto := rewriteAll_nextProtoId table fields _ _ found
  obtain ⟨before,flag⟩ := udpCksum_eq w.pkt udp
  obtain ⟨after,_⟩ := udpCksum_eq w'.pkt (by rwa [proto])
  simp only [Mbuf.UdpCksumKept,before,after]
  by_cases zero : w.pkt.l4Cksum = 0
  · have kept := rewriteAll_noCksum fields _ _ first udp zero found
    exact ⟨fun _ => .inr (.inl zero),fun _ => ⟨fun _ => kept,fun nonzero => absurd zero nonzero⟩⟩
  · by_cases more : w.pkt.moreFragments = true
    · obtain ⟨flags,hits,follows⟩ := rewriteAll_carried fields _ _ first udp more zero found
      constructor
      · rintro ⟨_,kept⟩
        rcases kept zero with set | ⟨nonzero,_⟩
        · exact .inr (.inr (.inl (flags ▸ set)))
        · exact .inr (.inr (.inr fun reaches => nonzero (hits reaches)))
      · rintro (whole | none | set | never)
        · rw [whole] at more
          contradiction
        · exact absurd none zero
        · exact ⟨fun none => absurd none zero,fun _ => .inl (flags ▸ set)⟩
        · exact ⟨fun none => absurd none zero,fun _ => .inr (follows never)⟩
    · have whole : w.pkt.moreFragments = false := by simpa using more
      refine ⟨fun _ => .inl whole,fun _ => ⟨fun none => absurd none zero,fun _ => ?_⟩⟩
      by_cases empty : fields = []
      · subst empty
        have same : w.pkt = w'.pkt := Option.some.inj found
        rw [← same]
        exact .inr ⟨zero,Nat.ModEq.rfl⟩
      · left
        rw [rewriteAll_offloaded fields _ _ first (.inr udp) (.inr zero) whole empty found,flag]
        exact or_and_self_right _ _

/-- A datagram from 10.0.0.1 to 10.0.0.2 with 16 L4 bytes, with the flags and the UDP checksum
given. -/
def udpDatagram (flags : Byte) (cksum : U16) : Mbuf where
  data := Buffer.store16 (.ofBytes (List.replicate 14 0 ++
    [0x45,0,0,36,0,1,flags,0,64,17,0x66,0xc6,10,0,0,1,10,0,0,2] ++
    [0x30,0x39,0,53,0,16,0,0,1,2,3,4,5,6,7,8])) (l4Header + Udp.dgramCksum) cksum
  pktLen := 50
  olFlags := 0
  vlanTci := 0
  l2Len := 0
  l3Len := 0

theorem natRewriteAll_udpCksum_whole :
    let w := Worker.start (udpDatagram 0 0xc0ca) (fun _ => ⟨[],by decide⟩) fun _ => 0
    let r := exec (steadyAnswer bareConfig) (natRewriteAll [.src,.dst]) w
    w.pkt.fragOffset = 0 ∧ w.pkt.nextProtoId = ipprotoUdp ∧ r.1 = true ∧
      w.pkt.UdpCksumKept r.2.pkt (addressChanges bareConfig.natLookup [.src,.dst] (w.pkt.src,w.pkt.dst)) := by
  refine ⟨by decide,by decide,rfl,?_⟩
  exact ((natRewriteAll_udpCksum bareConfig.natLookup [.src,.dst]
    (.start (udpDatagram 0 0xc0ca) (fun _ => ⟨[],by decide⟩) fun _ => 0) (by decide) (by decide)).exec
    (steadyAnswer bareConfig) (steadyAnswer_table bareConfig) rfl).mpr (.inl (by decide))

/-- The first fragment with the same checksum: 10.0.0.1 becomes 212.192.0.1, and the update
lands on zero. -/
theorem natRewriteAll_loses_udpCksum :
    ¬∀ (table : NatLookup) (fields : List AddrField) (w : Worker), headerLength w.pkt.data = 5 →
      w.pkt.fragOffset = 0 → w.pkt.nextProtoId = ipprotoUdplite ∨ w.pkt.nextProtoId = ipprotoUdp →
      Ensures (tableAnswer table) (natRewriteAll fields) w fun all w' => all = true →
        w.pkt.UdpCksumKept w'.pkt (addressChanges table fields (w.pkt.src,w.pkt.dst)) := by
  intro claim
  have kept := (claim bareConfig.natLookup [.src]
    (.start (udpDatagram 0x20 0xc0ca) (fun _ => ⟨[],by decide⟩) fun _ => 0) (by decide) (by decide)
    (by decide)).exec (steadyAnswer bareConfig) (steadyAnswer_table bareConfig) rfl
  rcases kept.2 (by decide) with set | ⟨nonzero,_⟩
  · exact absurd set (by decide)
  · exact absurd (by decide) nonzero

end Natasha
