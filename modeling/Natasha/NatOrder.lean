import Natasha.IcmpErrors
import Natasha.Ledger

/-! The order of a source and a destination rewrite. The two store into different addresses and
meet in the checksums, where updates commute exactly; a packet is dropped in either order when any
of the addresses to be looked up is missing. -/
namespace Natasha

open Interaction

variable {ok : (op : Op) → Ans op → Prop}

/-! ## Stores that commute -/

namespace Buffer

variable (b : Buffer)

theorem store16_comm (p q : Nat) (x y : U16) (apart : p+2 ≤ q ∨ q+2 ≤ p) :
    (b.store16 p x).store16 q y = (b.store16 q y).store16 p x := by
  funext i
  simp only [store16]
  split_ifs <;> first | rfl | omega

theorem store16_store32_comm (p q : Nat) (x : U16) (y : U32) (apart : p+2 ≤ q ∨ q+4 ≤ p) :
    (b.store16 p x).store32 q y = (b.store32 q y).store16 p x := by
  rw [store32,store32,store16_comm b p q _ _ (by omega),store16_comm _ p (q+2) _ _ (by omega)]

theorem store32_comm (p q : Nat) (x y : U32) (apart : p+4 ≤ q ∨ q+4 ≤ p) :
    (b.store32 p x).store32 q y = (b.store32 q y).store32 p x := by
  show ((b.store16 p _).store16 (p+2) _).store32 q y = _
  rw [store16_store32_comm _ _ _ _ _ (by omega),store16_store32_comm _ _ _ _ _ (by omega)]
  rfl

theorem store16_store16 (p : Nat) (x y : U16) : (b.store16 p x).store16 p y = b.store16 p y := by
  funext i
  simp only [store16]
  split_ifs <;> rfl

end Buffer

namespace Mbuf

variable (m : Mbuf)

/-- A store of a word into the frame. -/
def stored32 (off : Nat) (v : U32) : Mbuf := { m with data := m.data.store32 off v }

theorem readdressed_eq (address : Nat) (new : U32) :
    m.readdressed address new =
      (m.stored32 address new).cksumUpdated (ipv4Header + Ipv4.hdrChecksum) (m.data.load32 address) new := rfl

theorem cksumUpdated_comm (p q : Nat) (a a' b b' : U32) (apart : p = q ∨ p+2 ≤ q ∨ q+2 ≤ p) :
    (m.cksumUpdated p a a').cksumUpdated q b b' = (m.cksumUpdated q b b').cksumUpdated p a a' := by
  simp only [cksumUpdated]
  rcases apart with rfl | apart
  · rw [Buffer.load16_store16,Buffer.load16_store16,Buffer.store16_store16,Buffer.store16_store16,cksumUpdate_comm]
  · rw [Buffer.load16_store16_frame _ _ _ _ (by omega),Buffer.load16_store16_frame _ _ _ _ (by omega),
      Buffer.store16_comm _ _ _ _ _ apart]

theorem cksumUpdated_trans (p : Nat) (a b c : U32) :
    (m.cksumUpdated p a b).cksumUpdated p b c = m.cksumUpdated p a c := by
  simp only [cksumUpdated]
  rw [Buffer.load16_store16,Buffer.store16_store16,cksumUpdate_trans]

theorem cksumUpdated_stored32 (p q : Nat) (a a' v : U32) (apart : p+2 ≤ q ∨ q+4 ≤ p) :
    (m.cksumUpdated p a a').stored32 q v = (m.stored32 q v).cksumUpdated p a a' := by
  simp only [cksumUpdated,stored32]
  rw [Buffer.load16_store32_frame _ _ _ _ (by omega),Buffer.store16_store32_comm _ _ _ _ _ apart]

theorem stored32_comm (p q : Nat) (v v' : U32) (apart : p+4 ≤ q ∨ q+4 ≤ p) :
    (m.stored32 p v).stored32 q v' = (m.stored32 q v').stored32 p v := by
  simp only [stored32]
  rw [Buffer.store32_comm _ _ _ _ _ apart]

theorem stored32_load32 (p q : Nat) (v : U32) (apart : p+4 ≤ q ∨ q+4 ≤ p) :
    (m.stored32 p v).data.load32 q = m.data.load32 q :=
  Buffer.load32_store32_frame _ _ _ _ (by omega)

theorem cksumUpdated_load32 (p q : Nat) (a a' : U32) (apart : p+2 ≤ q ∨ q+4 ≤ p) :
    (m.cksumUpdated p a a').data.load32 q = m.data.load32 q :=
  Buffer.load32_store16_frame _ _ _ _ (by omega)

/-- The outer addresses. -/
theorem readdressed_comm (s d : U32) :
    (m.readdressed AddrField.src.address s).readdressed AddrField.dst.address d =
      (m.readdressed AddrField.dst.address d).readdressed AddrField.src.address s := by
  simp only [readdressed_eq,AddrField.address_src,AddrField.address_dst]
  rw [cksumUpdated_load32 _ _ _ _ _ (by simp),stored32_load32 _ _ _ _ (by simp),
    cksumUpdated_load32 _ _ _ _ _ (by simp),stored32_load32 _ _ _ _ (by simp),
    cksumUpdated_stored32 _ _ _ _ _ _ (by simp),cksumUpdated_stored32 _ _ _ _ _ _ (by simp),
    stored32_comm _ _ _ _ _ (by simp),cksumUpdated_comm _ _ _ _ _ _ _ (.inl rfl)]

theorem stored32_load16 (p q : Nat) (v : U32) (apart : p+4 ≤ q ∨ q+2 ≤ p) :
    (m.stored32 p v).data.load16 q = m.data.load16 q :=
  Buffer.load16_store32_frame _ _ _ _ (by omega)

/-- The stores of `icmp_nat_handle`, with the words they are computed from loaded in advance. -/
theorem innerTranslated_eq (inner : AddrField) (new : U32) :
    m.innerTranslated inner new =
      (((m.stored32 inner.innerAddress new).cksumUpdated (innerIpv4Header + Ipv4.hdrChecksum)
        (m.data.load32 inner.innerAddress) new).cksumUpdated (l4Header + Icmp.icmpCksum)
        ((m.data.load16 (innerIpv4Header + Ipv4.hdrChecksum)).setWidth 32)
        ((cksumUpdate (m.data.load16 (innerIpv4Header + Ipv4.hdrChecksum))
          (m.data.load32 inner.innerAddress) new).setWidth 32)).cksumUpdated (l4Header + Icmp.icmpCksum)
        (m.data.load32 inner.innerAddress) new := by
  have bounds := inner.innerAddress_bounds
  have cksum : ((m.stored32 inner.innerAddress new).cksumUpdated (innerIpv4Header + Ipv4.hdrChecksum)
      (m.data.load32 inner.innerAddress) new).data.load16 (innerIpv4Header + Ipv4.hdrChecksum) =
      cksumUpdate (m.data.load16 (innerIpv4Header + Ipv4.hdrChecksum)) (m.data.load32 inner.innerAddress) new := by
    rw [cksumUpdated,Buffer.load16_store16,stored32_load16 _ _ _ _ (by simp at *; omega)]
  rw [← cksum]
  rfl

/-- The quoted header lies behind everything that a new outer address changes. -/
theorem innerTranslated_readdressed (inner field : AddrField) (x a : U32) :
    (m.innerTranslated inner x).readdressed field.address a =
      (m.readdressed field.address a).innerTranslated inner x := by
  have bounds := inner.innerAddress_bounds
  have place : 26 ≤ field.address ∧ field.address + 4 ≤ l4Header := by cases field <;> decide
  have old : (m.innerTranslated inner x).data.load32 field.address = m.data.load32 field.address :=
    Buffer.load32_congr fun i _ _ => m.innerTranslated_header inner x i (by omega)
  have quoted : (m.readdressed field.address a).data.load32 inner.innerAddress = m.data.load32 inner.innerAddress :=
    readdressed_load32_frame m field a _ (by simp at *; omega)
  have cksum : (m.readdressed field.address a).data.load16 (innerIpv4Header + Ipv4.hdrChecksum) =
      m.data.load16 (innerIpv4Header + Ipv4.hdrChecksum) := readdressed_load16_frame m field a _ (by simp)
  rw [readdressed_eq,old,innerTranslated_eq,innerTranslated_eq _ inner x,quoted,cksum,readdressed_eq]
  simp at bounds place
  rw [cksumUpdated_stored32 _ _ _ _ _ _ (by simp; omega),cksumUpdated_stored32 _ _ _ _ _ _ (by simp; omega),
    cksumUpdated_stored32 _ _ _ _ _ _ (by simp; omega),cksumUpdated_stored32 _ _ _ _ _ _ (by simp; omega),
    stored32_comm _ _ _ _ _ (by omega),
    cksumUpdated_comm _ (l4Header + Icmp.icmpCksum) (ipv4Header + Ipv4.hdrChecksum) _ _ _ _ (by simp),
    cksumUpdated_comm _ (l4Header + Icmp.icmpCksum) (ipv4Header + Ipv4.hdrChecksum) _ _ _ _ (by simp),
    cksumUpdated_comm _ (innerIpv4Header + Ipv4.hdrChecksum) (ipv4Header + Ipv4.hdrChecksum) _ _ _ _ (by simp)]

/-- Both quoted addresses: the ICMP checksum absorbs the quoted checksum in two steps that make one. -/
theorem innerTranslated_twice (inner : AddrField) (x y : U32) :
    (m.innerTranslated inner x).innerTranslated inner.opposite y =
      ((((((m.stored32 inner.innerAddress x).stored32 inner.opposite.innerAddress y).cksumUpdated
        (innerIpv4Header + Ipv4.hdrChecksum) (m.data.load32 inner.innerAddress) x).cksumUpdated
        (innerIpv4Header + Ipv4.hdrChecksum) (m.data.load32 inner.opposite.innerAddress) y).cksumUpdated
        (l4Header + Icmp.icmpCksum) ((m.data.load16 (innerIpv4Header + Ipv4.hdrChecksum)).setWidth 32)
        ((cksumUpdate (cksumUpdate (m.data.load16 (innerIpv4Header + Ipv4.hdrChecksum))
          (m.data.load32 inner.innerAddress) x) (m.data.load32 inner.opposite.innerAddress) y).setWidth 32)).cksumUpdated
        (l4Header + Icmp.icmpCksum) (m.data.load32 inner.innerAddress) x).cksumUpdated
        (l4Header + Icmp.icmpCksum) (m.data.load32 inner.opposite.innerAddress) y := by
  have bounds := inner.innerAddress_bounds
  have bounds' := inner.opposite.innerAddress_bounds
  have apart : inner.opposite.innerAddress + 4 ≤ inner.innerAddress ∨ inner.innerAddress + 4 ≤ inner.opposite.innerAddress := by
    cases inner <;> decide
  simp at bounds bounds'
  have old : (m.innerTranslated inner x).data.load32 inner.opposite.innerAddress =
      m.data.load32 inner.opposite.innerAddress :=
    Buffer.load32_congr fun i _ _ => m.innerTranslated_frame inner x i (by simp; omega) (by simp; omega) (by omega)
  rw [innerTranslated_eq _ inner.opposite,old,m.innerTranslated_cksum,innerTranslated_eq]
  generalize m.data.load32 inner.innerAddress = a
  generalize m.data.load32 inner.opposite.innerAddress = b
  generalize m.data.load16 (innerIpv4Header + Ipv4.hdrChecksum) = c
  rw [cksumUpdated_stored32 _ _ _ _ _ _ (by simp; omega),cksumUpdated_stored32 _ _ _ _ _ _ (by simp; omega),
    cksumUpdated_stored32 _ _ _ _ _ _ (by simp; omega),
    cksumUpdated_comm _ (l4Header + Icmp.icmpCksum) (innerIpv4Header + Ipv4.hdrChecksum) _ _ _ _ (by simp),
    cksumUpdated_comm _ (l4Header + Icmp.icmpCksum) (innerIpv4Header + Ipv4.hdrChecksum) _ _ _ _ (by simp),
    cksumUpdated_comm _ (l4Header + Icmp.icmpCksum) (l4Header + Icmp.icmpCksum) a x _ _ (.inl rfl),
    cksumUpdated_trans]

theorem innerTranslated_comm (x y : U32) :
    (m.innerTranslated .dst x).innerTranslated .src y = (m.innerTranslated .src y).innerTranslated .dst x := by
  have forth := m.innerTranslated_twice .dst x y
  have back := m.innerTranslated_twice .src y x
  simp only [AddrField.opposite] at forth back
  rw [forth,back,stored32_comm _ _ _ _ _ (by decide),cksumUpdate_comm,
    cksumUpdated_comm _ (innerIpv4Header + Ipv4.hdrChecksum) (innerIpv4Header + Ipv4.hdrChecksum) _ _ _ _ (.inl rfl),
    cksumUpdated_comm _ (l4Header + Icmp.icmpCksum) (l4Header + Icmp.icmpCksum) (m.data.load32 AddrField.dst.innerAddress)
      x _ _ (.inl rfl)]

/-- A checksum that is left to the NIC. -/
def offloaded (field : Nat) (offload : U64) : Mbuf :=
  { m with data := m.data.store16 field 0, olFlags := m.olFlags ||| offload }

theorem offloaded_stored32 (p q : Nat) (offload : U64) (v : U32) (apart : p+2 ≤ q ∨ q+4 ≤ p) :
    (m.offloaded p offload).stored32 q v = (m.stored32 q v).offloaded p offload := by
  simp only [offloaded,stored32]
  rw [Buffer.store16_store32_comm _ _ _ _ _ apart]

theorem offloaded_cksumUpdated (p q : Nat) (offload : U64) (a a' : U32) (apart : p+2 ≤ q ∨ q+2 ≤ p) :
    (m.offloaded p offload).cksumUpdated q a a' = (m.cksumUpdated q a a').offloaded p offload := by
  simp only [offloaded,cksumUpdated]
  rw [Buffer.load16_store16_frame _ _ _ _ (by omega),Buffer.store16_comm _ _ _ _ _ apart]

theorem l4Updated_readdressed (offload : U64) (before after : U32) (field : AddrField) (a : U32) :
    (m.l4Updated (l4Header + Tcp.cksum) offload before after).readdressed field.address a =
      (m.readdressed field.address a).l4Updated (l4Header + Tcp.cksum) offload before after := by
  have place : 26 ≤ field.address ∧ field.address + 4 ≤ l4Header := by cases field <;> decide
  simp at place
  have old : (m.l4Updated (l4Header + Tcp.cksum) offload before after).data.load32 field.address =
      m.data.load32 field.address :=
    Buffer.load32_congr fun i _ _ => m.l4Updated_frame _ _ _ _ i (.inl (by simp; omega))
  rw [readdressed_eq,old,l4Updated,l4Updated,readdressed_fragmentOffset,readdressed_eq]
  split
  · rw [cksumUpdated_stored32 _ _ _ _ _ _ (by simp; omega),cksumUpdated_comm _ _ _ _ _ _ _ (.inr (by simp))]
  · show ((m.offloaded _ offload).stored32 _ a).cksumUpdated _ _ a = Mbuf.offloaded _ _ offload
    rw [offloaded_stored32 _ _ _ _ _ (by simp; omega),offloaded_cksumUpdated _ _ _ _ _ _ (by simp)]

theorem l4Updated_fragmentOffset (offload : U64) (before after : U32) :
    (m.l4Updated (l4Header + Tcp.cksum) offload before after).data.load16 (ipv4Header + Ipv4.fragmentOffset) =
      m.data.load16 (ipv4Header + Ipv4.fragmentOffset) :=
  Buffer.load16_congr fun i _ _ => m.l4Updated_frame _ _ _ _ i (.inl (by simp at *; omega))

theorem l4Updated_comm (offload : U64) (a a' b b' : U32) :
    (m.l4Updated (l4Header + Tcp.cksum) offload a a').l4Updated (l4Header + Tcp.cksum) offload b b' =
      (m.l4Updated (l4Header + Tcp.cksum) offload b b').l4Updated (l4Header + Tcp.cksum) offload a a' := by
  have first := m.l4Updated_fragmentOffset offload a a'
  have second := m.l4Updated_fragmentOffset offload b b'
  rw [l4Updated,first,l4Updated.eq_1 (m.l4Updated _ _ b b'),second]
  simp only [l4Updated]
  split
  · exact cksumUpdated_comm _ _ _ _ _ _ _ (.inl rfl)
  · rfl

/-! ## One rewrite -/

/-- A rewrite with the values that were found: `inner` is only used for the quoted address of an error. -/
def translated (field : AddrField) (new inner : U32) : Mbuf :=
  if m.IsError then (m.readdressed field.address new).innerTranslated field.opposite inner else m.retargeted field new

/-- The lookup of the quoted address, which only an error makes. -/
def innerLookup (table : NatLookup) (field : AddrField) : Option U32 :=
  if m.IsError then natLookupIp table (rteBeToCpu32 (m.data.load32 field.opposite.innerAddress)) else some 0

/-- `action_nat_rewrite` on the mbuf alone. -/
def natRewritten (table : NatLookup) (field : AddrField) : Option Mbuf := do
  let new ← natLookupIp table (rteBeToCpu32 (m.addr field))
  let inner ← m.innerLookup table field
  return m.translated field new inner

/-- The bytes that decide how a packet is rewritten. -/
theorem translated_frame (field : AddrField) (new inner : U32) (i : Nat) (kept : i < 24 ∨ i = l4Header) :
    (m.translated field new inner).data i = m.data i := by
  have bounds := field.opposite.innerAddress_bounds
  simp at bounds kept
  have outer := m.readdressed_frame field new i (by omega)
  unfold translated
  split
  · rw [innerTranslated_frame _ _ _ _ (by simp; omega) (by simp; omega) (by omega),outer]
  · rw [retargeted,l4Translated]
    split_ifs
    · rw [l4Updated_frame _ _ _ _ _ _ (by simp; omega),outer]
    · exact outer
    · rw [l4Updated_frame _ _ _ _ _ _ (by simp; omega),outer]
    · exact outer

theorem translated_proto (field : AddrField) (new inner : U32) : (m.translated field new inner).proto = m.proto := by
  have fragment : (m.translated field new inner).data.load16 (ipv4Header + Ipv4.fragmentOffset) =
      m.data.load16 (ipv4Header + Ipv4.fragmentOffset) :=
    Buffer.load16_congr fun i _ _ => m.translated_frame field new inner i (.inl (by simp at *; omega))
  simp only [proto,fragment]
  rw [m.translated_frame field new inner _ (.inl (by simp))]

theorem translated_isError (field : AddrField) (new inner : U32) :
    (m.translated field new inner).IsError ↔ m.IsError := by
  simp only [IsError,translated_proto]
  rw [m.translated_frame field new inner _ (.inr (by simp))]

theorem translated_addr_opposite (field : AddrField) (new inner : U32) :
    (m.translated field new inner).addr field.opposite = m.addr field.opposite := by
  have below : field.opposite.address + 4 ≤ l4Header := by cases field <;> decide
  rw [← readdressed_addr_opposite m field new]
  unfold translated
  split
  · exact Buffer.load32_congr fun i _ _ => innerTranslated_header _ _ _ i (by omega)
  · exact retargeted_addr_eq m field field.opposite new

theorem translated_innerLookup (table : NatLookup) (field : AddrField) (new inner : U32) :
    (m.translated field new inner).innerLookup table field.opposite = m.innerLookup table field.opposite := by
  unfold innerLookup
  by_cases error : m.IsError
  · have bounds := field.innerAddress_bounds
    have bounds' := field.opposite.innerAddress_bounds
    have apart : field.opposite.innerAddress + 4 ≤ field.innerAddress ∨
        field.innerAddress + 4 ≤ field.opposite.innerAddress := by
      cases field <;> decide
    simp at bounds bounds'
    rw [if_pos ((m.translated_isError field new inner).mpr error),if_pos error,AddrField.opposite_opposite,translated,
      if_pos error]
    have same : ((m.readdressed field.address new).innerTranslated field.opposite inner).data.load32 field.innerAddress =
        m.data.load32 field.innerAddress := by
      apply Buffer.load32_congr
      intro i _ _
      rw [innerTranslated_frame _ _ _ _ (by simp; omega) (by simp; omega) (by omega),
        m.readdressed_frame field new i (.inr (by omega))]
    rw [same]
  · rw [if_neg ((m.translated_isError field new inner).not.mpr error),if_neg error]

/-- TCP and what has no checksum of its own; the checksums of UDP may be absent. -/
def OneCksum : Prop := m.proto ≠ ipprotoUdplite ∧ m.proto ≠ ipprotoUdp

theorem translated_error (error : m.IsError) (field : AddrField) (new inner : U32) :
    m.translated field new inner = (m.readdressed field.address new).innerTranslated field.opposite inner := if_pos error

theorem translated_tcp (tcp : m.proto = ipprotoTcp) (field : AddrField) (new inner : U32) :
    m.translated field new inner =
      (m.readdressed field.address new).l4Updated (l4Header + Tcp.cksum) pktTxTcpCksum (m.addr field) new := by
  have plain : ¬m.IsError := fun error => absurd (tcp.symm.trans error.1) (by decide)
  rw [translated,if_neg plain]
  exact l4Translated_tcp _ ((m.readdressed_proto field new).trans tcp) _ _

theorem translated_other (plain : ¬m.IsError) (notTcp : m.proto ≠ ipprotoTcp) (known : m.OneCksum) (field : AddrField)
    (new inner : U32) : m.translated field new inner = m.readdressed field.address new := by
  have proto := m.readdressed_proto field new
  rw [translated,if_neg plain]
  exact l4Translated_other _ (by rwa [proto]) (by rw [proto]; exact not_or.mpr known) _ _

theorem translated_comm (known : m.OneCksum) (s d x y : U32) :
    (m.translated .src s x).translated .dst d y = (m.translated .dst d y).translated .src s x := by
  have forth := m.translated_proto .src s x
  have back := m.translated_proto .dst d y
  by_cases error : m.IsError
  · rw [translated_error _ ((m.translated_isError ..).mpr error),translated_error _ ((m.translated_isError ..).mpr error),
      m.translated_error error,m.translated_error error]
    simp only [AddrField.opposite]
    rw [innerTranslated_readdressed,innerTranslated_readdressed,readdressed_comm,innerTranslated_comm]
  · by_cases tcp : m.proto = ipprotoTcp
    · have destination : (m.translated .src s x).addr .dst = m.addr .dst := m.translated_addr_opposite .src s x
      have source : (m.translated .dst d y).addr .src = m.addr .src := m.translated_addr_opposite .dst d y
      rw [translated_tcp _ (forth.trans tcp),translated_tcp _ (back.trans tcp),destination,source,m.translated_tcp tcp,
        m.translated_tcp tcp,l4Updated_readdressed,l4Updated_readdressed,readdressed_comm,l4Updated_comm]
    · have known' : ∀ field new inner, (m.translated field new inner).OneCksum := by
        intro field new inner
        rw [OneCksum,m.translated_proto]
        exact known
      rw [translated_other _ ((m.translated_isError ..).not.mpr error) (by rwa [forth]) (known' ..),
        translated_other _ ((m.translated_isError ..).not.mpr error) (by rwa [back]) (known' ..),
        m.translated_other error tcp known,m.translated_other error tcp known,readdressed_comm]

/-- In either order all lookups succeed, with the same result, or one fails. -/
theorem natRewritten_comm (known : m.OneCksum) (table : NatLookup) :
    (m.natRewritten table .src).bind (natRewritten · table .dst) =
      (m.natRewritten table .dst).bind (natRewritten · table .src) := by
  have first : ∀ field, m.natRewritten table field = (natLookupIp table (rteBeToCpu32 (m.addr field))).bind fun new =>
      (m.innerLookup table field).bind fun inner => some (m.translated field new inner) := fun _ => rfl
  have second : ∀ field new inner, (m.translated field new inner).natRewritten table field.opposite =
      (natLookupIp table (rteBeToCpu32 (m.addr field.opposite))).bind fun new' =>
        (m.innerLookup table field.opposite).bind fun inner' =>
          some ((m.translated field new inner).translated field.opposite new' inner') := by
    intro field new inner
    rw [natRewritten,m.translated_addr_opposite,m.translated_innerLookup]
    rfl
  have src := second .src
  have dst := second .dst
  simp only [AddrField.opposite] at src dst
  simp only [first]
  cases outer : natLookupIp table (rteBeToCpu32 (m.addr .src)) <;>
  cases outer' : natLookupIp table (rteBeToCpu32 (m.addr .dst)) <;>
  cases quoted : m.innerLookup table .src <;>
  cases quoted' : m.innerLookup table .dst <;>
    simp [src,dst,outer,outer',quoted,quoted',m.translated_comm known]

end Mbuf

/-! ## Sequences of rewrites -/

/-- Between `w` and `w'` the packet was dropped for want of a rule: counted once, freed once. -/
structure DroppedNoRule (w w' : Worker) : Prop where
  queues : w'.txQueues = w.txQueues
  stats : w'.stats = Function.update w.stats .dropNoRule (w.stats .dropNoRule + 1)
  once : ∃ es, w'.log = w.log ++ es ∧ consumptions es = 1 ∧ freed es = 1

theorem Accessed.droppedNoRule (accessed : Accessed w w₁) : DroppedNoRule w ((w₁.logged .free).bumped .dropNoRule) := by
  obtain ⟨es,log,quiet⟩ := accessed.log
  refine ⟨accessed.queues,?_,es ++ [.free,.bump .dropNoRule],by simp [log],?_,?_⟩
  · simp only [Worker.bumped,Worker.logged_stats,accessed.stats]
  · rw [consumptions_append,consumptions,countP_accesses quiet _ rfl rfl]
    rfl
  · rw [freed_append,freed,countP_accesses quiet _ rfl rfl]
    rfl

theorem DroppedNoRule.after (accessed : Accessed w w₁) (dropped : DroppedNoRule w₁ w') : DroppedNoRule w w' := by
  obtain ⟨es,log,quiet⟩ := accessed.log
  obtain ⟨es',log',consumed,frees⟩ := dropped.once
  refine ⟨dropped.queues.trans accessed.queues,?_,es ++ es',by rw [log',log,List.append_assoc],?_,?_⟩
  · rw [dropped.stats,accessed.stats]
  · rw [consumptions_append,consumed,consumptions,countP_accesses quiet _ rfl rfl]
  · rw [freed_append,frees,freed,countP_accesses quiet _ rfl rfl]

/-- A rewrite ends in one of two ways. -/
def RewriteEnds (w : Worker) (ret : Int) (w' : Worker) : Prop := ret = 0 ∧ Accessed w w' ∨ ret = -1 ∧ DroppedNoRule w w'

theorem cksumUpdateAt_accessed (field : Nat) (before after : U32) (w : Worker) :
    Ensures ok (cksumUpdateAt field before after) w fun _ w' => Accessed w w' :=
  (ensures_cksumUpdateAt ..).mpr ((Accessed.read w).trans (.stored _ _))

theorem l4CksumUpdate_accessed (field : Nat) (offload : U64) (before after : U32) (w : Worker) :
    Ensures ok (l4CksumUpdate field offload before after) w fun _ w' => Accessed w w' := by
  simp only [l4CksumUpdate,load16,store16,ensures_bind,ensures_readPkt,ensures_ite,ensures_writePkt,ensures_cksumUpdateAt]
  have read := Accessed.read w
  exact ⟨fun _ => read.trans ((Accessed.read _).trans (.stored _ _)),fun _ => read.trans ((Accessed.stored _ _).trans (.stored _ _))⟩

theorem lookupAndRewrite_ends {rest : M Int} (since : Accessed w₀ w) (table : NatLookup) (ip : U32) (field : Nat)
    (found : ∀ w', Accessed w₀ w' → Ensures ok rest w' (RewriteEnds w₀)) :
    Ensures ok (do
      if (← lookupAndRewrite table ip field) < 0 then
        bump .dropNoRule
        return -1
      rest) w (RewriteEnds w₀) := by
  simp only [ensures_bind,ensures_lookupAndRewrite]
  refine ⟨fun _ => ?_,fun new _ => found _ (since.trans (.stored _ _))⟩
  exact .inr ⟨rfl,since.droppedNoRule⟩

theorem icmpNatHandle_ends (since : Accessed w₀ w) (inner : AddrField) :
    Ensures ok (icmpNatHandle inner) w (RewriteEnds w₀) := by
  unfold icmpNatHandle
  refine since.bind (Accessed.read w) fun icmpType w since => ?_
  rw [ensures_ite]
  refine ⟨fun _ => .inl ⟨rfl,since⟩,fun _ => ?_⟩
  refine since.bind (Accessed.read w) fun totalLength w since => ?_
  rw [if_neg (unlikely_nonneg _)]
  refine since.bind (Accessed.read w) fun oldIpv4Cksum w since => ?_
  refine since.bind (Accessed.read w) fun oldIpv4Address w since => ?_
  refine since.bind (fun _ _ => .refl w) fun config w since => ?_
  refine since.bind (fun _ _ => .refl w) fun _ w since => ?_
  refine lookupAndRewrite_ends since _ _ _ fun w since => ?_
  refine since.bind (Accessed.read w) fun newIpv4Address w since => ?_
  refine since.bind (cksumUpdateAt_accessed ..) fun _ w since => ?_
  refine since.bind (Accessed.read w) fun newIpv4Cksum w since => ?_
  refine since.bind (cksumUpdateAt_accessed ..) fun _ w since => ?_
  exact since.bind (cksumUpdateAt_accessed ..) fun _ w since => .inl ⟨rfl,since⟩

theorem actionNatRewriteImpl_ends (address : Nat) (inner : AddrField) (w : Worker) :
    Ensures ok (actionNatRewriteImpl address inner) w (RewriteEnds w) := by
  unfold actionNatRewriteImpl
  refine (Accessed.refl w).bind (Accessed.read w) fun saveIpv4 w since => ?_
  refine since.bind (fun _ _ => .refl w) fun config w since => ?_
  refine since.bind (fun _ _ => .refl w) fun _ w since => ?_
  refine lookupAndRewrite_ends since _ _ _ fun w since => ?_
  refine since.bind (Accessed.read w) fun newIpv4 w since => ?_
  refine since.bind (cksumUpdateAt_accessed ..) fun _ w since => ?_
  refine since.bind (Accessed.read w) fun nextProtoId w since => ?_
  refine since.bind (Accessed.read w) fun fragmentOffset w since => ?_
  simp only [ensures_ite]
  refine ⟨fun _ => ?_,fun _ => ⟨fun _ => ?_,fun _ => ⟨fun _ => icmpNatHandle_ends since inner,fun _ => .inl ⟨rfl,since⟩⟩⟩⟩
  · exact since.bind (l4CksumUpdate_accessed ..) fun _ w since => .inl ⟨rfl,since⟩
  · refine since.bind (Accessed.read w) fun cksum w since => ?_
    rw [ensures_ite]
    refine ⟨fun _ => .inl ⟨rfl,since⟩,fun _ => ?_⟩
    exact since.bind (l4CksumUpdate_accessed ..) fun _ w since => .inl ⟨rfl,since⟩

theorem actionNatRewrite_ends (field : AddrField) (w : Worker) : Ensures ok (actionNatRewrite field) w (RewriteEnds w) := by
  unfold actionNatRewrite
  split <;> exact actionNatRewriteImpl_ends _ _ w

theorem Mbuf.Rewritten.natRewritten {table : NatLookup} {field : AddrField} {m m' : Mbuf}
    (rewritten : m.Rewritten (tableAnswer table) field m') : m.natRewritten table field = some m' := by
  obtain ⟨p,new,(loaded : p.config.natLookup = table),found,plain,error⟩ := rewritten
  rw [loaded] at found
  have first : m.natRewritten table field =
      (m.innerLookup table field).bind fun inner => some (m.translated field new inner) := by
    rw [Mbuf.natRewritten,Mbuf.addr,found]
    rfl
  by_cases quotes : m.IsError
  · obtain ⟨q,inner,(loaded' : q.config.natLookup = table),found',same⟩ := error quotes
    have bounds := field.opposite.innerAddress_bounds
    rw [loaded',readdressed_load32_frame m field new _ (by simp at *; omega)] at found'
    rw [first,Mbuf.innerLookup,if_pos quotes,found',Option.bind_some,m.translated_error quotes,same]
  · rw [first,Mbuf.innerLookup,if_neg quotes,Option.bind_some,Mbuf.translated,if_neg quotes,plain quotes]
    rfl

theorem Mbuf.Missed.natRewritten {table : NatLookup} {field : AddrField} {m : Mbuf}
    (missed : m.Missed (tableAnswer table) field) : m.natRewritten table field = none := by
  obtain ⟨p,(loaded : p.config.natLookup = table),missing | ⟨new,found,quotes,q,(loaded' : q.config.natLookup = table),missing⟩⟩ :=
    missed
  · rw [loaded] at missing
    rw [Mbuf.natRewritten,Mbuf.addr,missing]
    rfl
  · have bounds := field.opposite.innerAddress_bounds
    rw [loaded',readdressed_load32_frame m field new _ (by simp at *; omega)] at missing
    rw [loaded] at found
    rw [Mbuf.natRewritten,Mbuf.addr,found,Mbuf.innerLookup,if_pos quotes,missing]
    rfl

/-- `action_nat_rewrite` under one table: the mbuf, the counters and the events. -/
theorem actionNatRewrite_table (table : NatLookup) (field : AddrField) (w : Worker) :
    Ensures (tableAnswer table) (actionNatRewrite field) w fun ret w' =>
      (∀ m', w.pkt.natRewritten table field = some m' → ret = 0 ∧ w'.pkt = m' ∧ Accessed w w') ∧
      (w.pkt.natRewritten table field = none → ret = -1 ∧ DroppedNoRule w w') := by
  apply ((actionNatRewrite_pkt field w).and (actionNatRewrite_ends field w)).mono
  rintro ret w' ⟨⟨rfl,rewritten⟩ | ⟨rfl,missed⟩,⟨same,accessed⟩ | ⟨same,dropped⟩⟩
  · rw [rewritten.natRewritten]
    exact ⟨fun m' found => ⟨rfl,Option.some.inj found,accessed⟩,fun none => by simp at none⟩
  · exact absurd same (by decide)
  · exact absurd same (by decide)
  · rw [missed.natRewritten]
    exact ⟨fun m' found => by simp at found,fun _ => ⟨rfl,dropped⟩⟩

/-- A sequence of rewrites on the mbuf alone. -/
def Mbuf.natRewrittenAll (table : NatLookup) : List AddrField → Mbuf → Option Mbuf
  | [], m => some m
  | field :: fields, m => (m.natRewritten table field).bind (natRewrittenAll table fields)

theorem natRewriteAll_ends (table : NatLookup) (fields : List AddrField) (w : Worker) :
    Ensures (tableAnswer table) (natRewriteAll fields) w fun all w' =>
      (∀ m', w.pkt.natRewrittenAll table fields = some m' → all = true ∧ w'.pkt = m' ∧ Accessed w w') ∧
      (w.pkt.natRewrittenAll table fields = none → all = false ∧ DroppedNoRule w w') := by
  induction fields generalizing w with
  | nil =>
    refine ⟨fun m' same => ⟨rfl,Option.some.inj same,.refl w⟩,fun missing => ?_⟩
    cases missing
  | cons field fields ih =>
    rw [natRewriteAll,ensures_bind]
    apply (actionNatRewrite_table table field w).mono
    intro ret w₁ result
    rw [Mbuf.natRewrittenAll]
    cases rewritten : w.pkt.natRewritten table field with
    | none =>
      obtain ⟨rfl,dropped⟩ := result.2 rewritten
      refine ⟨fun m' found => ?_,fun _ => ⟨rfl,dropped⟩⟩
      cases found
    | some m =>
      obtain ⟨rfl,rfl,accessed⟩ := result.1 m rewritten
      rw [ensures_ite]
      refine ⟨fun _ => (ih w₁).mono fun all w' rest => ?_,fun nonzero => absurd rfl nonzero⟩
      refine ⟨fun m' found => ?_,fun missing => ?_⟩
      · obtain ⟨good,same,accessed'⟩ := rest.1 m' found
        exact ⟨good,same,accessed.trans accessed'⟩
      · obtain ⟨bad,dropped⟩ := rest.2 missing
        exact ⟨bad,dropped.after accessed⟩

theorem natRewriteAll_commute (table : NatLookup) (w : Worker) (notUdp : w.pkt.nextProtoId ≠ ipprotoUdp)
    (notUdplite : w.pkt.nextProtoId ≠ ipprotoUdplite) :
    (∀ fields ∈ [[AddrField.src,.dst],[.dst,.src]],
      Ensures (tableAnswer table) (natRewriteAll fields) w fun all w' => all = false ∧ DroppedNoRule w w') ∨
    ∃ m', ∀ fields ∈ [[AddrField.src,.dst],[.dst,.src]],
      Ensures (tableAnswer table) (natRewriteAll fields) w fun all w' => all = true ∧ w'.pkt = m' ∧ Accessed w w' := by
  have known : w.pkt.OneCksum := by
    rw [Mbuf.OneCksum,Mbuf.proto]
    split
    · decide
    · exact ⟨notUdplite,notUdp⟩
  have pair : ∀ first second, w.pkt.natRewrittenAll table [first,second] =
      (w.pkt.natRewritten table first).bind (Mbuf.natRewritten · table second) := by
    intro first second
    simp [Mbuf.natRewrittenAll]
  have same : ∀ fields ∈ [[AddrField.src,.dst],[.dst,.src]],
      w.pkt.natRewrittenAll table fields = w.pkt.natRewrittenAll table [.src,.dst] := by
    have swapped := w.pkt.natRewritten_comm known table
    rw [← pair,← pair] at swapped
    simp [swapped]
  cases rewritten : w.pkt.natRewrittenAll table [.src,.dst] with
  | none =>
    left
    intro fields member
    exact (natRewriteAll_ends table fields w).mono fun all w' result => result.2 ((same fields member).trans rewritten)
  | some m' =>
    right
    refine ⟨m',fun fields member => ?_⟩
    exact (natRewriteAll_ends table fields w).mono fun all w' result => result.1 m' ((same fields member).trans rewritten)

/-- The same error sent by 10.0.0.2 about a packet to itself. -/
def translatedError : Mbuf :=
  (timeExceeded.stored32 AddrField.src.address (rteBeToCpu32 0x0a000002)).stored32 AddrField.dst.innerAddress
    (rteBeToCpu32 0x0a000002)

/-- An error with four addresses that are in the table, and one that comes from an address that is not. -/
theorem natRewriteAll_commute_errors :
    let w := Worker.start translatedError (fun _ => ⟨[],by decide⟩) fun _ => 0
    let r := exec (steadyAnswer bareConfig) (natRewriteAll [.src,.dst]) w
    let r' := exec (steadyAnswer bareConfig) (natRewriteAll [.dst,.src]) w
    let lost := Worker.start timeExceeded (fun _ => ⟨[],by decide⟩) fun _ => 0
    r.1 = true ∧ r'.1 = true ∧ r'.2.pkt = r.2.pkt ∧
      DroppedNoRule lost (exec (steadyAnswer bareConfig) (natRewriteAll [.src,.dst]) lost).2 ∧
      DroppedNoRule lost (exec (steadyAnswer bareConfig) (natRewriteAll [.dst,.src]) lost).2 := by
  have steady := steadyAnswer_table bareConfig
  have good : (exec (steadyAnswer bareConfig) (natRewriteAll [.src,.dst])
    (.start translatedError (fun _ => ⟨[],by decide⟩) fun _ => 0)).1 = true := by decide +kernel
  have bad : (exec (steadyAnswer bareConfig) (natRewriteAll [.src,.dst])
    (.start timeExceeded (fun _ => ⟨[],by decide⟩) fun _ => 0)).1 = false := by decide +kernel
  rcases natRewriteAll_commute bareConfig.natLookup (.start translatedError (fun _ => ⟨[],by decide⟩) fun _ => 0)
    (by decide) (by decide) with dropped | ⟨m',same⟩
  · have lost := ((dropped [.src,.dst] (by simp)).exec (steadyAnswer bareConfig) steady).1
    exact absurd (good.symm.trans lost) (by decide)
  rcases natRewriteAll_commute bareConfig.natLookup (.start timeExceeded (fun _ => ⟨[],by decide⟩) fun _ => 0)
    (by decide) (by decide) with dropped | ⟨m'',same'⟩
  · have forth := (same [.src,.dst] (by simp)).exec (steadyAnswer bareConfig) steady
    have back := (same [.dst,.src] (by simp)).exec (steadyAnswer bareConfig) steady
    have lost := (dropped [.src,.dst] (by simp)).exec (steadyAnswer bareConfig) steady
    have lost' := (dropped [.dst,.src] (by simp)).exec (steadyAnswer bareConfig) steady
    exact ⟨good,back.1,back.2.1.trans forth.2.1.symm,lost.2,lost'.2⟩
  · have sent := ((same' [.src,.dst] (by simp)).exec (steadyAnswer bareConfig) steady).1
    exact absurd (sent.symm.trans bad) (by decide)

end Natasha
