import Natasha.HeaderChecksum

/-! NAT and fragmentation. Fragments are rewritten one by one; the receiver that reassembles
them finds the payload under the translated addresses, with the L4 checksum updated once,
in the first fragment. -/
namespace Natasha

open Interaction

/-! ## Datagrams and reassembly -/

/-- A datagram as its receiver sees it: the addresses as the host loads them, the protocol and
the L4 bytes. -/
structure Datagram where
  src : U32
  dst : U32
  proto : Byte
  payload : List Byte
  deriving DecidableEq

namespace Mbuf

def src (m : Mbuf) : U32 := m.data.load32 (ipv4Header + Ipv4.srcAddr)
def dst (m : Mbuf) : U32 := m.data.load32 (ipv4Header + Ipv4.dstAddr)
def nextProtoId (m : Mbuf) : Byte := m.data (ipv4Header + Ipv4.nextProtoId)

def packetId (m : Mbuf) : U16 := m.data.load16 (ipv4Header + 4)

def fragmentField (m : Mbuf) : U16 := rteBeToCpu16 (m.data.load16 (ipv4Header + Ipv4.fragmentOffset))

/-- Where the L4 bytes of a fragment belong. -/
def fragOffset (m : Mbuf) : Nat := 8 * (m.fragmentField &&& 0x1fff).toNat

def moreFragments (m : Mbuf) : Bool := m.fragmentField &&& 0x2000 != 0

def l4Len (m : Mbuf) : Nat :=
  (rteBeToCpu16 (m.data.load16 (ipv4Header + Ipv4.totalLength))).toNat - sizeofIpv4Hdr

def l4Bytes (m : Mbuf) : List Byte := (List.range m.l4Len).map fun i => m.data (l4Header + i)

/-- What fragments of one datagram agree on. -/
def key (m : Mbuf) : U32 × U32 × Byte × U16 := (m.src,m.dst,m.nextProtoId,m.packetId)

end Mbuf

/-- The L4 bytes from `off` on, of fragments in order: each starts where the one before ended,
and all but the last say that more follow. -/
def payloadFrom (off : Nat) : List Mbuf → Option (List Byte)
  | [] => none
  | [m] => if m.fragOffset = off ∧ m.moreFragments = false then some m.l4Bytes else none
  | m :: m' :: ms =>
    if m.fragOffset = off ∧ m.moreFragments = true then
      (m.l4Bytes ++ ·) <$> payloadFrom (off + m.l4Len) (m' :: ms)
    else none

/-- The datagram that fragments without IP options make up. -/
def reassemble : List Mbuf → Option Datagram
  | [] => none
  | m :: ms =>
    if ∀ f ∈ m :: ms, headerLength f.data = 5 ∧ f.key = m.key then
      (⟨m.src,m.dst,m.nextProtoId,·⟩) <$> payloadFrom 0 (m :: ms)
    else none

/-! ## The L4 checksum -/

/-- 16-bit words in network order; an odd last byte is padded with zero. -/
def beWords : List Byte → List U16
  | [] => []
  | [a] => [.ofNat 16 (256 * a.toNat)]
  | a :: b :: rest => .ofNat 16 (256 * a.toNat + b.toNat) :: beWords rest

def addressWords (ip : U32) : List U16 :=
  [rteBeToCpu16 (.ofNat 16 ip.toNat),rteBeToCpu16 (.ofNat 16 (ip.toNat / 65536))]

/-- Pseudo-header, L4 header and payload. -/
def Datagram.l4Words (d : Datagram) : List U16 :=
  addressWords d.src ++ addressWords d.dst ++
    [d.proto.setWidth 16,.ofNat 16 d.payload.length] ++ beWords d.payload

/-- The L4 checksum is valid, with `0x0000` and `0xffff` identified. -/
def Datagram.L4Valid (d : Datagram) : Prop := OnesComplement.total d.l4Words ≡ 0 [MOD 0xffff]

def cksumOffset (proto : Byte) : Nat := if proto = ipprotoTcp then Tcp.cksum else Udp.dgramCksum

/-- The checksum field, as the host loads it. -/
def Datagram.cksum (d : Datagram) : U16 := (Buffer.ofBytes d.payload).load16 (cksumOffset d.proto)

/-- The addresses after a sequence of rewrites, if the table has them all. -/
def translate (table : NatLookup) : List AddrField → U32 × U32 → Option (U32 × U32)
  | [], addresses => some addresses
  | .src :: fields, (src,dst) =>
    (natLookupIp table (rteBeToCpu32 src)).bind fun new => translate table fields (new,dst)
  | .dst :: fields, (src,dst) =>
    (natLookupIp table (rteBeToCpu32 dst)).bind fun new => translate table fields (src,new)

/-- The rewrites of one fragment: whether all returned 0, and the mbuf they leave. -/
def rewriteFragment (config : AppConfig) (fields : List AddrField) (w : Worker) (m : Mbuf) : Bool × Mbuf :=
  let r := exec (steadyAnswer config) (natRewriteAll fields) { w with pkt := m }
  (r.1,r.2.pkt)

def Datagram.addr (d : Datagram) : AddrField → U32
  | .src => d.src
  | .dst => d.dst

def Datagram.withAddr (d : Datagram) (new : U32) : AddrField → Datagram
  | .src => { d with src := new }
  | .dst => { d with dst := new }

def set16 (bytes : List Byte) (off : Nat) (v : U16) : List Byte :=
  (bytes.set off (.ofNat 8 v.toNat)).set (off+1) (.ofNat 8 (v.toNat / 256))

/-- One rewrite of a whole datagram: the address, and the checksum that covers it unless it is
the zero that stands for no checksum in UDP. -/
def Datagram.retargeted (d : Datagram) (field : AddrField) (new : U32) : Datagram :=
  { d.withAddr new field with
    payload := if d.proto = ipprotoUdp ∧ d.cksum = 0 then d.payload
      else set16 d.payload (cksumOffset d.proto) (cksumUpdate d.cksum (d.addr field) new) }

/-! ## One fragment -/

theorem nataIsFrag_iff (m : Mbuf) :
    nataIsFrag (m.data.load16 (ipv4Header + Ipv4.fragmentOffset)) = true ↔ m.fragOffset ≠ 0 := by
  have mask : m.fragmentField &&& 0x1fff =
      rteBeToCpu16 (m.data.load16 (ipv4Header + Ipv4.fragmentOffset) &&& rteBeToCpu16 0x1fff) := by
    rw [rteBeToCpu16_and,rteBeToCpu16_involutive]
    rfl
  rw [Mbuf.fragOffset,mask,nataIsFrag,bne_iff_ne,ne_eq,← rteBeToCpu16_eq_zero_iff,← BitVec.toNat_inj]
  simp

theorem nataIsFirstFrag_iff (m : Mbuf) :
    nataIsFirstFrag (m.data.load16 (ipv4Header + Ipv4.fragmentOffset)) = true ↔
      m.fragOffset = 0 ∧ m.moreFragments = true := by
  have mask : m.fragmentField &&& 0x2000 =
      rteBeToCpu16 (m.data.load16 (ipv4Header + Ipv4.fragmentOffset) &&& rteBeToCpu16 0x2000) := by
    rw [rteBeToCpu16_and,rteBeToCpu16_involutive]
    rfl
  have offset := nataIsFrag_iff m
  rw [nataIsFirstFrag,Mbuf.moreFragments,mask,Bool.and_eq_true,bne_iff_ne,bne_iff_ne,ne_eq,ne_eq,
    rteBeToCpu16_eq_zero_iff]
  grind

/-- What one rewrite makes of a fragment, once the new address is known. -/
def Mbuf.retargeted (m : Mbuf) (field : AddrField) (new : U32) : Mbuf :=
  (m.readdressed field.address new).l4Translated (m.data.load32 field.address) new

theorem Mbuf.retargeted_frame (m : Mbuf) (field : AddrField) (new : U32) (i : Nat) (low : i < 24) :
    (m.retargeted field new).data i = m.data i := by
  rw [retargeted,l4Translated_header _ _ _ i (by simp; omega),m.readdressed_frame field new i (.inl low)]

theorem Mbuf.retargeted_load16 (m : Mbuf) (field : AddrField) (new : U32) (off : Nat) (low : off+2 ≤ 24) :
    (m.retargeted field new).data.load16 off = m.data.load16 off :=
  Buffer.load16_congr fun i _ _ => m.retargeted_frame field new i (by omega)

section Retargeted
variable (m : Mbuf) (field : AddrField) (new : U32)

@[simp] theorem retargeted_fragmentField : (m.retargeted field new).fragmentField = m.fragmentField := by
  rw [Mbuf.fragmentField,m.retargeted_load16 field new _ (by simp)]
  rfl

@[simp] theorem retargeted_fragOffset : (m.retargeted field new).fragOffset = m.fragOffset := by
  simp [Mbuf.fragOffset]

@[simp] theorem retargeted_moreFragments : (m.retargeted field new).moreFragments = m.moreFragments := by
  simp [Mbuf.moreFragments]

@[simp] theorem retargeted_l4Len : (m.retargeted field new).l4Len = m.l4Len := by
  rw [Mbuf.l4Len,m.retargeted_load16 field new _ (by simp)]
  rfl

@[simp] theorem retargeted_nextProtoId : (m.retargeted field new).nextProtoId = m.nextProtoId :=
  m.retargeted_frame field new _ (by simp)

@[simp] theorem retargeted_packetId : (m.retargeted field new).packetId = m.packetId :=
  m.retargeted_load16 field new _ (by simp)

@[simp] theorem retargeted_headerLength :
    headerLength (m.retargeted field new).data = headerLength m.data := by
  rw [headerLength,m.retargeted_frame field new _ (by simp)]
  rfl

end Retargeted

def Mbuf.addr (m : Mbuf) (field : AddrField) : U32 := m.data.load32 field.address

theorem readdressed_addr (m : Mbuf) (field : AddrField) (new : U32) :
    (m.readdressed field.address new).addr field = new := by
  cases field <;>
    simp [Mbuf.addr,Mbuf.readdressed,Mbuf.cksumUpdated,AddrField.address,Buffer.load32_store16_frame]

theorem readdressed_addr_opposite (m : Mbuf) (field : AddrField) (new : U32) :
    (m.readdressed field.address new).addr field.opposite = m.addr field.opposite := by
  cases field <;>
    simp [Mbuf.addr,Mbuf.readdressed,Mbuf.cksumUpdated,AddrField.address,AddrField.opposite,
      Buffer.load32_store16_frame,Buffer.load32_store32_frame]

theorem retargeted_addr_eq (m : Mbuf) (field other : AddrField) (new : U32) :
    (m.retargeted field new).addr other = (m.readdressed field.address new).addr other := by
  have below : other.address + 4 ≤ 34 := by cases other <;> decide
  exact Buffer.load32_congr fun i _ _ => Mbuf.l4Translated_header _ _ _ i (by simp; omega)

theorem retargeted_key (m : Mbuf) (field : AddrField) (new : U32) :
    (m.retargeted field new).key =
      (if field = .src then new else m.src,if field = .dst then new else m.dst,m.nextProtoId,m.packetId) := by
  have own := (retargeted_addr_eq m field field new).trans (readdressed_addr m field new)
  have other := (retargeted_addr_eq m field field.opposite new).trans (readdressed_addr_opposite m field new)
  cases field with
  | src =>
    have source : (m.retargeted .src new).src = new := own
    have destination : (m.retargeted .src new).dst = m.dst := other
    simp [Mbuf.key,source,destination]
  | dst =>
    have source : (m.retargeted .dst new).src = m.src := other
    have destination : (m.retargeted .dst new).dst = new := own
    simp [Mbuf.key,source,destination]

theorem retargeted_later (m : Mbuf) (field : AddrField) (new : U32) (later : m.fragOffset ≠ 0) :
    m.retargeted field new = m.readdressed field.address new := by
  have none : (m.readdressed field.address new).proto = 0 := by
    rw [m.readdressed_proto,Mbuf.proto,if_pos ((nataIsFrag_iff m).mpr later)]
  exact Mbuf.l4Translated_other _ (by rw [none]; decide) (by rw [none]; decide) _ _

theorem retargeted_later_l4Bytes (m : Mbuf) (field : AddrField) (new : U32) (later : m.fragOffset ≠ 0) :
    (m.retargeted field new).l4Bytes = m.l4Bytes := by
  rw [Mbuf.l4Bytes,retargeted_l4Len,retargeted_later m field new later]
  exact List.map_congr_left fun i _ => m.readdressed_frame field new _ (.inr (by simp))

theorem proto_of_fragOffset (m : Mbuf) (whole : m.fragOffset = 0) : m.proto = m.nextProtoId := by
  rw [Mbuf.proto,if_neg (by rw [nataIsFrag_iff]; simpa using whole)]
  rfl

/-- The L4 checksum field of a TCP, UDP or UDPLite datagram, as the host loads it. -/
def Mbuf.l4Cksum (m : Mbuf) : U16 := m.data.load16 (l4Header + cksumOffset m.nextProtoId)

def offloadFlag (proto : Byte) : U64 := if proto = ipprotoTcp then pktTxTcpCksum else pktTxUdpCksum

/-- A protocol whose checksum covers the addresses. -/
def CoversAddresses (proto : Byte) : Prop := proto = ipprotoTcp ∨ proto = ipprotoUdplite ∨ proto = ipprotoUdp

section Whole

variable (m : Mbuf) (field : AddrField) (new : U32)

theorem readdressed_load16_frame (off : Nat) (beyond : l4Header ≤ off) :
    (m.readdressed field.address new).data.load16 off = m.data.load16 off :=
  Buffer.load16_congr fun i _ _ => m.readdressed_frame field new i (.inr (by simp at *; omega))

theorem readdressed_fragmentOffset : (m.readdressed field.address new).data.load16
    (ipv4Header + Ipv4.fragmentOffset) = m.data.load16 (ipv4Header + Ipv4.fragmentOffset) :=
  Buffer.load16_congr fun i _ _ => m.readdressed_frame field new i (.inl (by simp at *; omega))

theorem readdressed_l4Updated (first : m.fragOffset = 0) (off : Nat) (offload : U64) (before : U32) :
    (m.readdressed field.address new).l4Updated off offload before new =
      if m.moreFragments then (m.readdressed field.address new).cksumUpdated off before new
      else { m.readdressed field.address new with
        data := (m.readdressed field.address new).data.store16 off 0, olFlags := m.olFlags ||| offload } := by
  have fragment := nataIsFirstFrag_iff m
  rw [← readdressed_fragmentOffset m field new] at fragment
  rw [Mbuf.l4Updated]
  by_cases more : m.moreFragments = true
  · rw [if_pos (fragment.mpr ⟨first,more⟩),if_pos more]
  · rw [if_neg fun h => more (fragment.mp h).2,if_neg more]
    rfl

theorem retargeted_whole (first : m.fragOffset = 0) (known : CoversAddresses m.nextProtoId) :
    m.retargeted field new =
      if m.nextProtoId ≠ ipprotoTcp ∧ m.l4Cksum = 0 then m.readdressed field.address new
      else if m.moreFragments then
        (m.readdressed field.address new).cksumUpdated (l4Header + cksumOffset m.nextProtoId) (m.addr field) new
      else { m.readdressed field.address new with
        data := (m.readdressed field.address new).data.store16 (l4Header + cksumOffset m.nextProtoId) 0
        olFlags := m.olFlags ||| offloadFlag m.nextProtoId } := by
  have proto : (m.readdressed field.address new).proto = m.nextProtoId :=
    (m.readdressed_proto field new).trans (proto_of_fragOffset m first)
  rw [Mbuf.retargeted]
  by_cases tcp : m.nextProtoId = ipprotoTcp
  · have covered : ¬(m.nextProtoId ≠ ipprotoTcp ∧ m.l4Cksum = 0) := fun h => h.1 tcp
    rw [Mbuf.l4Translated_tcp _ (proto.trans tcp),readdressed_l4Updated m field new first,
      if_neg covered,cksumOffset,offloadFlag,if_pos tcp,if_pos tcp]
    rfl
  · have udp := known.resolve_left tcp
    have cksum : m.l4Cksum = m.data.load16 (l4Header + Udp.dgramCksum) := by
      rw [Mbuf.l4Cksum,cksumOffset,if_neg tcp]
    rw [Mbuf.l4Translated_udp _ (by rwa [proto]),readdressed_l4Updated m field new first,
      readdressed_load16_frame m field new _ (by simp),← cksum,cksumOffset,offloadFlag,if_neg tcp,if_neg tcp]
    by_cases zero : m.l4Cksum = 0
    · rw [if_pos zero,if_pos ⟨tcp,zero⟩]
    · have covered : ¬(m.nextProtoId ≠ ipprotoTcp ∧ m.l4Cksum = 0) := fun h => zero h.2
      rw [if_neg zero,if_neg covered]
      rfl

end Whole

theorem retargeted_first (m : Mbuf) (field : AddrField) (new : U32) (first : m.fragOffset = 0)
    (more : m.moreFragments = true) (proto : m.nextProtoId = ipprotoTcp ∨ m.nextProtoId = ipprotoUdp) :
    m.retargeted field new =
      if m.nextProtoId = ipprotoUdp ∧ m.data.load16 (l4Header + Udp.dgramCksum) = 0 then
        m.readdressed field.address new
      else (m.readdressed field.address new).cksumUpdated (l4Header + cksumOffset m.nextProtoId)
        (m.addr field) new := by
  have unchecked : (m.nextProtoId ≠ ipprotoTcp ∧ m.l4Cksum = 0) ↔
      (m.nextProtoId = ipprotoUdp ∧ m.data.load16 (l4Header + Udp.dgramCksum) = 0) := by
    rcases proto with tcp | udp
    · simp [tcp]
    · simp [udp,Mbuf.l4Cksum,cksumOffset]
  rw [retargeted_whole m field new first (proto.imp_right .inr),if_pos more]
  simp only [unchecked]

/-! ## L4 bytes -/

theorem length_l4Bytes (m : Mbuf) : m.l4Bytes.length = m.l4Len := by simp [Mbuf.l4Bytes]

theorem length_set16 (bytes : List Byte) (off : Nat) (v : U16) :
    (set16 bytes off v).length = bytes.length := by simp [set16]

theorem set16_append (xs ys : List Byte) (off : Nat) (v : U16) (inside : off+2 ≤ xs.length) :
    set16 (xs ++ ys) off v = set16 xs off v ++ ys := by
  rw [set16,List.set_append_left _ _ (by omega),List.set_append_left _ _ (by simp; omega)]
  rfl

theorem cksumOffset_bound (proto : Byte) (known : proto = ipprotoTcp ∨ proto = ipprotoUdp) (len : Nat)
    (tcp : proto = ipprotoTcp → 24 ≤ len) (udp : proto = ipprotoUdp → 8 ≤ len) :
    cksumOffset proto + 2 ≤ len := by
  rcases known with h | h
  · have := tcp h
    simp [cksumOffset,h]
    omega
  · have := udp h
    have other : ¬proto = ipprotoTcp := by rw [h]; decide
    simp only [cksumOffset,if_neg other,Udp.dgramCksum]
    omega

theorem l4Bytes_store16 (m : Mbuf) (off : Nat) (v : U16) :
    ({ m with data := m.data.store16 (l4Header + off) v } : Mbuf).l4Bytes = set16 m.l4Bytes off v := by
  have length : ({ m with data := m.data.store16 (l4Header + off) v } : Mbuf).l4Len = m.l4Len := by
    simp only [Mbuf.l4Len]
    rw [Buffer.load16_store16_frame _ _ _ _ (by simp; omega)]
  apply List.ext_getElem (by rw [length_set16,length_l4Bytes,length_l4Bytes,length])
  intro i _ _
  simp only [Mbuf.l4Bytes,set16,List.getElem_set,List.getElem_map,List.getElem_range,Buffer.store16]
  by_cases low : i = off
  · subst i
    simp
  · by_cases high : i = off+1
    · subst i
      simp [Nat.add_assoc]
    · simp [low,high,Ne.symm low,Ne.symm high,Nat.add_assoc]

theorem load16_ofBytes (m : Mbuf) (rest : List Byte) (off : Nat) (inside : off+2 ≤ m.l4Len) :
    (Buffer.ofBytes (m.l4Bytes ++ rest)).load16 off = m.data.load16 (l4Header + off) := by
  have byte : ∀ i, i < m.l4Len → Buffer.ofBytes (m.l4Bytes ++ rest) i = m.data (l4Header + i) := by
    intro i below
    have bound : i < m.l4Bytes.length := by rwa [length_l4Bytes]
    simp only [Buffer.ofBytes,List.getD_eq_getElem?_getD,List.getElem?_append_left bound]
    simp [Mbuf.l4Bytes,below]
  simp only [Buffer.load16]
  rw [byte off (by omega),byte (off+1) (by omega)]
  rfl

/-! ## All fragments -/

theorem reassemble_eq_some {m : Mbuf} {ms : List Mbuf} {d : Datagram} :
    reassemble (m :: ms) = some d ↔ (∀ f ∈ m :: ms, headerLength f.data = 5 ∧ f.key = m.key) ∧
      ∃ payload, payloadFrom 0 (m :: ms) = some payload ∧ d = ⟨m.src,m.dst,m.nextProtoId,payload⟩ := by
  rw [reassemble]
  split
  · rename_i alike
    simp only [Option.map_eq_map,Option.map_eq_some_iff]
    exact ⟨fun ⟨payload,whole,same⟩ => ⟨alike,payload,whole,same.symm⟩,
      fun ⟨_,payload,whole,same⟩ => ⟨payload,whole,same.symm⟩⟩
  · rename_i differ
    exact ⟨fun h => absurd h (by simp),fun h => absurd h.1 differ⟩

theorem payloadFrom_later (field : AddrField) (new : U32) (ms : List Mbuf) (off : Nat) (later : off ≠ 0) :
    payloadFrom off (ms.map fun m => m.retargeted field new) = payloadFrom off ms := by
  induction ms generalizing off with
  | nil => rfl
  | cons m ms ih =>
    by_cases here : m.fragOffset = off
    · have bytes := retargeted_later_l4Bytes m field new (here ▸ later)
      cases ms with
      | nil => simp [payloadFrom,bytes]
      | cons m' ms =>
        have tail := ih (off + m.l4Len) (by omega)
        simp only [List.map_cons] at tail
        simp only [List.map_cons,payloadFrom,retargeted_fragOffset,retargeted_moreFragments,
          retargeted_l4Len,bytes,tail]
    · cases ms <;> simp [payloadFrom,here]

theorem retargeted_first_l4Bytes (m : Mbuf) (rest : List Byte) (field : AddrField) (new : U32) (d : Datagram)
    (same : d = ⟨m.src,m.dst,m.nextProtoId,m.l4Bytes ++ rest⟩) (first : m.fragOffset = 0)
    (more : m.moreFragments = true) (known : d.proto = ipprotoTcp ∨ d.proto = ipprotoUdp)
    (inside : cksumOffset d.proto + 2 ≤ m.l4Len) :
    (m.retargeted field new).l4Bytes ++ rest = (d.retargeted field new).payload := by
  have addr : d.addr field = m.addr field := by
    subst same
    cases field <;> rfl
  have cksum : d.cksum = m.data.load16 (l4Header + cksumOffset d.proto) := by
    rw [Datagram.cksum,← load16_ofBytes m rest _ inside,same]
  have proto : d.proto = m.nextProtoId := by rw [same]
  have payload : d.payload = m.l4Bytes ++ rest := by rw [same]
  have kept : (m.readdressed field.address new).l4Bytes = m.l4Bytes := by
    have length : (m.readdressed field.address new).l4Len = m.l4Len := by
      rw [Mbuf.l4Len,Buffer.load16_congr fun i _ _ => m.readdressed_frame field new i (by simp at *; omega)]
      rfl
    rw [Mbuf.l4Bytes,length]
    exact List.map_congr_left fun i _ => m.readdressed_frame field new _ (.inr (by simp))
  have stored : (m.readdressed field.address new).data.load16 (l4Header + cksumOffset d.proto) = d.cksum := by
    rw [cksum]
    exact Buffer.load16_congr fun i _ _ => m.readdressed_frame field new i (by simp at *; omega)
  have update : ((m.readdressed field.address new).cksumUpdated (l4Header + cksumOffset d.proto)
      (m.addr field) new).l4Bytes =
      set16 m.l4Bytes (cksumOffset d.proto) (cksumUpdate d.cksum (d.addr field) new) := by
    rw [Mbuf.cksumUpdated,l4Bytes_store16,kept,stored,addr]
  rw [retargeted_first m field new first more (proto ▸ known),Datagram.retargeted,← proto]
  have udpCksum : d.proto = ipprotoUdp →
      (m.data.load16 (l4Header + Udp.dgramCksum) = 0 ↔ d.cksum = 0) := by
    intro udp
    have offset : cksumOffset d.proto = Udp.dgramCksum := by rw [udp]; rfl
    rw [cksum,offset]
  by_cases zero : d.proto = ipprotoUdp ∧ d.cksum = 0
  · rw [if_pos zero,if_pos ⟨zero.1,(udpCksum zero.1).mpr zero.2⟩,kept]
    exact payload.symm
  · rw [if_neg zero,if_neg fun h => zero ⟨h.1,(udpCksum h.1).mp h.2⟩,update,payload]
    exact (set16_append _ _ _ _ (by rw [length_l4Bytes]; exact inside)).symm

theorem reassemble_retargeted (first : Mbuf) (rest : List Mbuf) (d : Datagram) (field : AddrField)
    (new : U32) (whole : reassemble (first :: rest) = some d) (cut : rest ≠ [])
    (known : d.proto = ipprotoTcp ∨ d.proto = ipprotoUdp)
    (inside : cksumOffset d.proto + 2 ≤ first.l4Len) :
    reassemble ((first :: rest).map fun m => m.retargeted field new) = some (d.retargeted field new) := by
  obtain ⟨alike,payload,bytes,same⟩ := reassemble_eq_some.mp whole
  obtain ⟨second,rest,rfl⟩ := List.exists_cons_of_ne_nil cut
  rw [payloadFrom] at bytes
  split at bytes
  · rename_i start
    obtain ⟨tail,later,rfl⟩ := Option.map_eq_some_iff.mp bytes
    have payload' := retargeted_first_l4Bytes first tail field new d same start.1 start.2 known inside
    have keys := retargeted_key first field new
    rw [List.map_cons,reassemble_eq_some]
    refine ⟨?_,(d.retargeted field new).payload,?_,?_⟩
    · intro f member
      have image : f ∈ (first :: second :: rest).map fun m => m.retargeted field new := member
      obtain ⟨m,source,rfl⟩ := List.mem_map.mp image
      have shared := (alike m source).2
      simp only [Mbuf.key,Prod.mk.injEq] at shared
      obtain ⟨src,dst,proto,ident⟩ := shared
      refine ⟨(retargeted_headerLength m field new).trans (alike m source).1,?_⟩
      rw [retargeted_key,retargeted_key,src,dst,proto,ident]
    · have tail' := payloadFrom_later field new (second :: rest) (0 + first.l4Len) (by omega)
      rw [List.map_cons] at tail' ⊢
      rw [payloadFrom,if_pos ⟨by simpa using start.1,by simpa using start.2⟩,retargeted_l4Len,tail',later]
      exact congrArg some payload'
    · simp only [Mbuf.key,Prod.mk.injEq] at keys
      obtain ⟨src,dst,_,_⟩ := keys
      rw [src,dst,retargeted_nextProtoId,Datagram.retargeted,same]
      cases field <;> rfl
  · simp at bytes

/-! ## The checksum of the datagram -/

theorem addressWords_total (ip : U32) : OnesComplement.total (addressWords ip) ≡ 256 * ip.toNat [MOD 65535] := by
  have bound := ip.isLt
  have low := rteBeToCpu16_modEq (.ofNat 16 ip.toNat)
  have high := rteBeToCpu16_modEq (.ofNat 16 (ip.toNat / 65536))
  simp only [BitVec.toNat_ofNat] at low high
  have whole : 256 * (ip.toNat % 2^16) + 256 * (ip.toNat / 65536 % 2^16) ≡ 256 * ip.toNat [MOD 65535] :=
    modEq_of_multiples (a := 256 * (ip.toNat / 65536)) (b := 0) (by omega)
  simpa [addressWords] using (low.add high).trans whole

theorem exists_two_cons (bytes : List Byte) (long : 2 ≤ bytes.length) :
    ∃ a b rest, bytes = a :: b :: rest := by
  cases bytes with
  | nil => simp at long
  | cons a bytes =>
    cases bytes with
    | nil => simp at long
    | cons b rest => exact ⟨a,b,rest,rfl⟩

/-- Storing a word at an even offset exchanges one summand. -/
theorem beWords_set16 (bytes : List Byte) (k : Nat) (v : U16) (inside : 2*k+2 ≤ bytes.length) :
    OnesComplement.total (beWords (set16 bytes (2*k) v)) + 256 * ((Buffer.ofBytes bytes).load16 (2*k)).toNat ≡
      OnesComplement.total (beWords bytes) + 256 * v.toNat [MOD 65535] := by
  induction k generalizing bytes with
  | zero =>
    obtain ⟨a,b,rest,rfl⟩ := exists_two_cons bytes (by omega)
    have low := a.isLt
    have high := b.isLt
    have word := v.isLt
    simp only [set16,beWords,Buffer.load16,Buffer.ofBytes,OnesComplement.total_cons,List.set_cons_zero,
      List.set_cons_succ,List.getD_cons_zero,List.getD_cons_succ,BitVec.toNat_ofNat,Nat.mul_zero,
      Nat.zero_add]
    rw [Nat.mod_eq_of_lt (show 256 * a.toNat + b.toNat < 2^16 by omega),
      Nat.mod_eq_of_lt (show a.toNat + 256 * b.toNat < 2^16 by omega),
      Nat.mod_eq_of_lt (show v.toNat / 256 < 2^8 by omega),
      Nat.mod_eq_of_lt (show 256 * (v.toNat % 2^8) + v.toNat / 256 < 2^16 by omega)]
    exact modEq_of_multiples (a := v.toNat / 256) (b := b.toNat) (by omega)
  | succ k ih =>
    obtain ⟨a,b,rest,rfl⟩ := exists_two_cons bytes (by omega)
    have tail := ih rest (by simp at inside; omega)
    have shift : 2 * (k+1) = 2*k+1+1 := by omega
    have shifted : set16 (a :: b :: rest) (2 * (k+1)) v = a :: b :: set16 rest (2*k) v := by
      rw [shift]
      simp [set16]
    have load : (Buffer.ofBytes (a :: b :: rest)).load16 (2 * (k+1)) = (Buffer.ofBytes rest).load16 (2*k) := by
      rw [shift]
      simp [Buffer.load16,Buffer.ofBytes]
    rw [shifted,load,beWords,beWords,OnesComplement.total_cons,OnesComplement.total_cons,Nat.add_assoc,
      Nat.add_assoc]
    exact tail.add_left _

theorem retargeted_valid (d : Datagram) (field : AddrField) (new : U32)
    (known : d.proto = ipprotoTcp ∨ d.proto = ipprotoUdp) (inside : cksumOffset d.proto + 2 ≤ d.payload.length)
    (checksum : d.proto = ipprotoUdp → d.cksum ≠ 0) (valid : d.L4Valid) :
    (d.retargeted field new).L4Valid := by
  have update := (cksumUpdate_modEq d.cksum (d.addr field) new).mul_left 256
  obtain ⟨k,even⟩ : ∃ k, cksumOffset d.proto = 2*k := by
    rcases known with h | h <;> rw [h]
    · exact ⟨8,rfl⟩
    · exact ⟨3,rfl⟩
  have words := beWords_set16 d.payload k (cksumUpdate d.cksum (d.addr field) new) (even ▸ inside)
  have payload : (d.retargeted field new).payload =
      set16 d.payload (2*k) (cksumUpdate d.cksum (d.addr field) new) := by
    rw [Datagram.retargeted,if_neg fun h => checksum h.1 h.2,even]
  have field' : d.cksum = (Buffer.ofBytes d.payload).load16 (2*k) := by rw [Datagram.cksum,even]
  have proto : (d.retargeted field new).proto = d.proto := by
    cases field <;> rfl
  have before := addressWords_total (d.addr field)
  have after := addressWords_total new
  simp only [Datagram.L4Valid,Datagram.l4Words,OnesComplement.total_append,OnesComplement.total_cons,
    OnesComplement.total_nil,payload,length_set16,proto] at valid ⊢
  rw [← field'] at words
  cases field with
  | src =>
    simp only [Datagram.retargeted,Datagram.withAddr,Datagram.addr,Nat.ModEq] at *
    omega
  | dst =>
    simp only [Datagram.retargeted,Datagram.withAddr,Datagram.addr,Nat.ModEq] at *
    omega

/-! ## Sequences of rewrites -/

/-- The rewrites of an mbuf that quotes no datagram, on the mbuf alone. -/
def Mbuf.rewriteAll (table : NatLookup) : List AddrField → Mbuf → Option Mbuf
  | [], m => some m
  | field :: fields, m =>
    (natLookupIp table (rteBeToCpu32 (m.addr field))).bind fun new => rewriteAll table fields (m.retargeted field new)

/-- The same on a whole datagram. -/
def Datagram.rewriteAll (table : NatLookup) : List AddrField → Datagram → Option Datagram
  | [], d => some d
  | field :: fields, d =>
    (natLookupIp table (rteBeToCpu32 (d.addr field))).bind fun new => rewriteAll table fields (d.retargeted field new)

theorem not_isError_of_nextProtoId (m : Mbuf) (other : m.nextProtoId ≠ ipprotoIcmp) : ¬m.IsError := by
  intro error
  have proto := error.1
  unfold Mbuf.proto at proto
  split at proto
  · exact absurd proto (by decide)
  · exact other proto

theorem natRewriteAll_steady (config : AppConfig) (fields : List AddrField) (w : Worker) (m' : Mbuf)
    (other : w.pkt.nextProtoId ≠ ipprotoIcmp) (found : w.pkt.rewriteAll config.natLookup fields = some m') :
    Ensures (fun op answer => answer = steadyAnswer config op) (natRewriteAll fields) w fun all w' =>
      all = true ∧ w'.pkt = m' := by
  induction fields generalizing w with
  | nil => exact ⟨rfl,Option.some.inj found⟩
  | cons field fields ih =>
    obtain ⟨new,hit,rest⟩ := Option.bind_eq_some_iff.mp found
    have plain := not_isError_of_nextProtoId w.pkt other
    rw [natRewriteAll,ensures_bind]
    apply (actionNatRewrite_pkt field w).mono
    intro ret w₁ result
    rcases result with ⟨zero,p,new',loaded,hit',same,_⟩ | ⟨_,p,loaded,missing | ⟨_,_,error,_⟩⟩
    · subst loaded
      have agree : new' = new := Option.some.inj (hit'.symm.trans hit)
      subst agree
      have pkt : w₁.pkt = w.pkt.retargeted field new' := same plain
      rw [ensures_ite]
      refine ⟨fun _ => ih w₁ ?_ ?_,fun nonzero => absurd zero nonzero⟩
      · rw [pkt,retargeted_nextProtoId]
        exact other
      · rw [pkt]
        exact rest
    · subst loaded
      exact absurd (missing.symm.trans hit) (by simp)
    · exact absurd error plain

theorem rewriteFragment_eq (config : AppConfig) (fields : List AddrField) (w : Worker) (m m' : Mbuf)
    (other : m.nextProtoId ≠ ipprotoIcmp) (found : m.rewriteAll config.natLookup fields = some m') :
    rewriteFragment config fields w m = (true,m') := by
  have result := (natRewriteAll_steady config fields { w with pkt := m } m' other found).exec
    (steadyAnswer config) fun _ => rfl
  exact Prod.ext result.1 result.2

theorem payloadFrom_offset (ms : List Mbuf) (off : Nat) (payload : List Byte)
    (whole : payloadFrom off ms = some payload) : ∀ m ∈ ms, off ≤ m.fragOffset := by
  induction ms generalizing off payload with
  | nil => simp
  | cons m ms ih =>
    cases ms with
    | nil =>
      simp only [payloadFrom,Option.ite_none_right_eq_some] at whole
      simp [whole.1.1]
    | cons m' ms =>
      simp only [payloadFrom,Option.ite_none_right_eq_some] at whole
      obtain ⟨start,bytes⟩ := whole
      obtain ⟨tail,later,_⟩ := Option.map_eq_some_iff.mp bytes
      intro f member
      rcases List.mem_cons.mp member with rfl | member
      · exact start.1.ge
      · exact Nat.le_trans (Nat.le_add_right _ _) (ih _ _ later f member)

theorem retargeted_olFlags (m : Mbuf) (field : AddrField) (new : U32)
    (fragment : m.fragOffset ≠ 0 ∨ m.moreFragments = true)
    (known : m.nextProtoId = ipprotoTcp ∨ m.nextProtoId = ipprotoUdp) :
    (m.retargeted field new).olFlags = m.olFlags := by
  by_cases later : m.fragOffset = 0
  · rw [retargeted_first m field new later (fragment.resolve_left fun h => h later) known]
    split <;> rfl
  · rw [retargeted_later m field new later]
    rfl

/-- Rewriting the fragments one by one and rewriting the datagram commute. -/
theorem reassemble_rewriteAll (table : NatLookup) (fields : List AddrField) (first : Mbuf)
    (rest : List Mbuf) (d d' : Datagram) (whole : reassemble (first :: rest) = some d) (cut : rest ≠ [])
    (known : d.proto = ipprotoTcp ∨ d.proto = ipprotoUdp) (inside : cksumOffset d.proto + 2 ≤ first.l4Len)
    (found : d.rewriteAll table fields = some d') :
    ∃ f : Mbuf → Mbuf, (∀ m ∈ first :: rest, m.rewriteAll table fields = some (f m) ∧
      (f m).olFlags = m.olFlags) ∧ reassemble ((first :: rest).map f) = some d' := by
  induction fields generalizing first rest d with
  | nil =>
    cases found
    exact ⟨id,fun m _ => ⟨rfl,rfl⟩,by simpa using whole⟩
  | cons field fields ih =>
    obtain ⟨new,hit,later⟩ := Option.bind_eq_some_iff.mp found
    have step : reassemble (first.retargeted field new :: rest.map fun m => m.retargeted field new) =
        some (d.retargeted field new) := reassemble_retargeted first rest d field new whole cut known inside
    have proto : (d.retargeted field new).proto = d.proto := by cases field <;> rfl
    obtain ⟨f,each,all⟩ := ih _ _ (d.retargeted field new) step (by simpa using cut) (proto ▸ known) (by simpa [proto] using inside) later
    obtain ⟨alike,payload,bytes,same⟩ := reassemble_eq_some.mp whole
    refine ⟨fun m => f (m.retargeted field new),fun m member => ?_,by simpa [Function.comp_def] using all⟩
    have shared := (alike m member).2
    simp only [Mbuf.key,Prod.mk.injEq] at shared
    obtain ⟨src,dst,protocol,_⟩ := shared
    have addr : m.addr field = d.addr field := by
      rw [same]
      cases field with
      | src => exact src
      | dst => exact dst
    have image : m.retargeted field new ∈
        first.retargeted field new :: rest.map fun m => m.retargeted field new := by
      rcases List.mem_cons.mp member with rfl | behind
      · exact List.mem_cons_self
      · exact List.mem_cons_of_mem _ (List.mem_map_of_mem behind)
    obtain ⟨rewritten,flags⟩ := each _ image
    have fragment : m.fragOffset ≠ 0 ∨ m.moreFragments = true := by
      obtain ⟨second,others,rfl⟩ := List.exists_cons_of_ne_nil cut
      simp only [payloadFrom,Option.ite_none_right_eq_some] at bytes
      obtain ⟨start,bytes⟩ := bytes
      obtain ⟨tail,behind,_⟩ := Option.map_eq_some_iff.mp bytes
      rcases List.mem_cons.mp member with rfl | member
      · exact .inr start.2
      · have := payloadFrom_offset _ _ _ behind m member
        exact .inl (by omega)
    refine ⟨?_,flags.trans (retargeted_olFlags m field new fragment ?_)⟩
    · rw [Mbuf.rewriteAll,addr,hit]
      exact rewritten
    · rw [protocol]
      rwa [same] at known

theorem rewriteAll_datagram (table : NatLookup) (fields : List AddrField) (d : Datagram) (src' dst' : U32)
    (known : d.proto = ipprotoTcp ∨ d.proto = ipprotoUdp) (inside : cksumOffset d.proto + 2 ≤ d.payload.length)
    (found : translate table fields (d.src,d.dst) = some (src',dst')) :
    ∃ d', d.rewriteAll table fields = some d' ∧ d'.src = src' ∧ d'.dst = dst' ∧ d'.proto = d.proto ∧
      d'.payload.length = d.payload.length ∧
      (∀ i, i ≠ cksumOffset d.proto → i ≠ cksumOffset d.proto + 1 → d'.payload[i]? = d.payload[i]?) ∧
      (d.L4Valid → d.proto = ipprotoTcp ∨ d.cksum ≠ 0 ∧ fields.length = 1 → d'.L4Valid) ∧
      (d.proto = ipprotoUdp → d.cksum = 0 → d'.payload = d.payload) := by
  induction fields generalizing d with
  | nil =>
    have same : d.src = src' ∧ d.dst = dst' := by simpa [translate] using found
    exact ⟨d,rfl,same.1,same.2,rfl,rfl,fun _ _ _ => rfl,fun valid _ => valid,fun _ _ => rfl⟩
  | cons field fields ih =>
    have image : ∃ new, natLookupIp table (rteBeToCpu32 (d.addr field)) = some new ∧
        translate table fields ((d.retargeted field new).src,(d.retargeted field new).dst) =
          some (src',dst') := by
      cases field with
      | src => exact Option.bind_eq_some_iff.mp found
      | dst => exact Option.bind_eq_some_iff.mp found
    obtain ⟨new,hit,later⟩ := image
    have proto : (d.retargeted field new).proto = d.proto := by cases field <;> rfl
    have length : (d.retargeted field new).payload.length = d.payload.length := by
      rw [Datagram.retargeted]
      split
      · rfl
      · exact length_set16 _ _ _
    have outside : ∀ i, i ≠ cksumOffset d.proto → i ≠ cksumOffset d.proto + 1 →
        (d.retargeted field new).payload[i]? = d.payload[i]? := by
      intro i low high
      rw [Datagram.retargeted]
      split
      · rfl
      · simp only [set16]
        rw [List.getElem?_set_ne (Ne.symm high),List.getElem?_set_ne (Ne.symm low)]
    obtain ⟨d',all,source,destination,proto',length',outside',valid',zero'⟩ :=
      ih (d.retargeted field new) (proto ▸ known) (by rw [proto,length]; exact inside) later
    rw [proto] at outside' valid' zero'
    refine ⟨d',?_,source,destination,proto'.trans proto,length'.trans length,fun i low high => ?_,
      fun valid rewrites => ?_,fun udp none => ?_⟩
    · rw [Datagram.rewriteAll,hit]
      exact all
    · exact (outside' i low high).trans (outside i low high)
    · have once : (d.retargeted field new).L4Valid := by
        refine retargeted_valid d field new known inside (fun udp => ?_) valid
        rcases rewrites with tcp | ⟨nonzero,_⟩
        · exact absurd (tcp.symm.trans udp) (by decide)
        · exact nonzero
      rcases rewrites with tcp | ⟨_,single⟩
      · exact valid' once (.inl tcp)
      · have empty : fields = [] := by simpa using single
        subst empty
        cases all
        exact once
    · have kept : (d.retargeted field new).payload = d.payload := by
        rw [Datagram.retargeted,if_pos ⟨udp,none⟩]
      have cksum : (d.retargeted field new).cksum = 0 := by rw [Datagram.cksum,kept,proto,← none]; rfl
      exact (zero' udp cksum).trans kept

theorem natRewriteAll_fragments (config : AppConfig) (fields : List AddrField) (w : Worker) (first : Mbuf)
    (rest : List Mbuf) (d : Datagram) (src' dst' : U32) (whole : reassemble (first :: rest) = some d)
    (cut : rest ≠ [])
    (proto : d.proto = ipprotoTcp ∧ 24 ≤ first.l4Len ∨ d.proto = ipprotoUdp ∧ 8 ≤ first.l4Len)
    (found : translate config.natLookup fields (d.src,d.dst) = some (src',dst')) :
    (∀ m ∈ first :: rest, (rewriteFragment config fields w m).1 = true ∧
      (rewriteFragment config fields w m).2.olFlags = m.olFlags) ∧
    ∃ d', reassemble ((first :: rest).map fun m => (rewriteFragment config fields w m).2) = some d' ∧
      d'.src = src' ∧ d'.dst = dst' ∧ d'.proto = d.proto ∧ d'.payload.length = d.payload.length ∧
      (∀ i, i ≠ cksumOffset d.proto → i ≠ cksumOffset d.proto + 1 → d'.payload[i]? = d.payload[i]?) ∧
      (d.L4Valid → d.proto = ipprotoTcp ∨ d.cksum ≠ 0 ∧ fields.length = 1 → d'.L4Valid) ∧
      (d.proto = ipprotoUdp → d.cksum = 0 → d'.payload = d.payload) := by
  have known : d.proto = ipprotoTcp ∨ d.proto = ipprotoUdp := proto.imp And.left And.left
  have inside : cksumOffset d.proto + 2 ≤ first.l4Len := by
    refine cksumOffset_bound d.proto known _ (fun tcp => ?_) fun udp => ?_
    · exact (proto.resolve_right fun h => absurd (tcp.symm.trans h.1) (by decide)).2
    · exact (proto.resolve_left fun h => absurd (udp.symm.trans h.1) (by decide)).2
  obtain ⟨alike,payload,bytes,same⟩ := reassemble_eq_some.mp whole
  have long : first.l4Len ≤ d.payload.length := by
    obtain ⟨second,others,rfl⟩ := List.exists_cons_of_ne_nil cut
    simp only [payloadFrom,Option.ite_none_right_eq_some] at bytes
    obtain ⟨tail,_,joined⟩ := Option.map_eq_some_iff.mp bytes.2
    rw [same,← joined,List.length_append,length_l4Bytes]
    exact Nat.le_add_right _ _
  obtain ⟨d',all,facts⟩ := rewriteAll_datagram config.natLookup fields d src' dst' known
    (Nat.le_trans inside long) found
  obtain ⟨f,each,result⟩ := reassemble_rewriteAll config.natLookup fields first rest d d' whole cut known
    inside all
  have run : ∀ m ∈ first :: rest, rewriteFragment config fields w m = (true,f m) := by
    intro m member
    have shared := (alike m member).2
    simp only [Mbuf.key,Prod.mk.injEq] at shared
    have protocol : m.nextProtoId = d.proto := by rw [shared.2.2.1,same]
    refine rewriteFragment_eq config fields w m (f m) ?_ (each m member).1
    rw [protocol]
    rcases known with h | h <;> rw [h] <;> decide
  refine ⟨fun m member => ?_,d',?_,facts⟩
  · rw [run m member]
    exact ⟨rfl,(each m member).2⟩
  · rw [← result]
    exact congrArg reassemble (List.map_congr_left fun m member => by rw [run m member])

/-- A fragment of a UDP datagram from 10.0.0.1 to 10.0.0.2, with the two bytes of its fragment
field and its L4 bytes. -/
def udpFragment (high low : Byte) (bytes : List Byte) : Mbuf where
  data := .ofBytes (List.replicate 14 0 ++
    [0x45,0,0,.ofNat 8 (20 + bytes.length),0,7,high,low,64,17,0,0,10,0,0,1,10,0,0,2] ++ bytes)
  pktLen := 60
  olFlags := 0
  vlanTci := 0
  l2Len := 0
  l3Len := 0

instance (d : Datagram) : Decidable d.L4Valid := inferInstanceAs (Decidable (_ = _))

theorem natRewriteAll_fragments_udp :
    let first := udpFragment 0x20 0 [0,53,0,53,0,10,0xea,0x6b]
    let rest := [udpFragment 0 1 [1,2]]
    let d : Datagram := ⟨0x0100000a,0x0200000a,17,[0,53,0,53,0,10,0xea,0x6b,1,2]⟩
    let w := Worker.start first (fun _ => ⟨[],by decide⟩) fun _ => 0
    reassemble (first :: rest) = some d ∧ d.L4Valid ∧ d.cksum ≠ 0 ∧
      ∃ d', reassemble ((first :: rest).map fun m => (rewriteFragment bareConfig [.src] w m).2) = some d' ∧
        d'.src = rteBeToCpu32 0xd4c00001 ∧ d'.L4Valid := by
  intro first rest d w
  have whole : reassemble (first :: rest) = some d := by decide
  have valid : d.L4Valid := by decide
  have nonzero : d.cksum ≠ 0 := by decide
  obtain ⟨_,d',result,source,_,_,_,_,preserved,_⟩ := natRewriteAll_fragments bareConfig [.src] w first rest d
    (rteBeToCpu32 0xd4c00001) 0x0200000a whole (by simp [rest]) (.inr ⟨rfl,by decide⟩) (by decide)
  exact ⟨whole,valid,nonzero,d',result,source,preserved valid (.inr ⟨nonzero,rfl⟩)⟩

end Natasha
