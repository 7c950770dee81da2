import Mathlib.Logic.Relation
import Natasha.Footprint
import Natasha.SourceMac
import Natasha.Verdict

/-! Where the frames come from that natasha sends. Each is a reply, or a frame that was received
with new Ethernet addresses, its IPv4 addresses translated by the table any number of times, and
nothing else changed but checksums and padding. -/
namespace Natasha

open Interaction

variable {ok : (op : Op) → Ans op → Prop} {dev : Devices} {port : Nat} {config : AppConfig} {table : NatLookup}

/-! ## Rewrites -/

/-- The table has `b` for `a`, both in the order of the wire. -/
def Translates (table : NatLookup) (a b : U32) : Prop := natLookupIp table (rteBeToCpu32 a) = some b

/-- `m'` came out of `m` by rewrites with the table. -/
structure Mbuf.Carried (table : NatLookup) (m m' : Mbuf) : Prop where
  proto : m'.proto = m.proto
  isError : m'.IsError ↔ m.IsError
  addresses : ∀ field : AddrField, Relation.ReflTransGen (Translates table) (m.addr field) (m'.addr field)
  quoted : m.IsError → ∀ field : AddrField, Relation.ReflTransGen (Translates table)
    (m.data.load32 field.innerAddress) (m'.data.load32 field.innerAddress)
  bytes : ∀ i, m'.data i ≠ m.data i → ∃ field, InRanges (m.footprint field l4Header) i
  length : m'.pktLen = m.pktLen

theorem AddrField.eq_or_opposite (field other : AddrField) : other = field ∨ other = field.opposite := by
  cases field <;> cases other <;> simp [opposite]

namespace Mbuf

variable {m m' m'' : Mbuf} {field : AddrField}

theorem footprint_congr (proto : m'.proto = m.proto) (isError : m'.IsError ↔ m.IsError) (field : AddrField) :
    m'.footprint field l4Header = m.footprint field l4Header := by
  have error : m'.IsErrorAt l4Header ↔ m.IsErrorAt l4Header := isError
  simp only [footprint,l4Footprint,proto,error]

theorem natRewritten_eq_some (rewritten : m.natRewritten table field = some m') :
    ∃ new inner, Translates table (m.addr field) new ∧
      (m.IsError → Translates table (m.data.load32 field.opposite.innerAddress) inner) ∧
      m' = m.translated field new inner := by
  obtain ⟨new,found,rest⟩ := Option.bind_eq_some_iff.mp rewritten
  obtain ⟨inner,quoted,same⟩ := Option.bind_eq_some_iff.mp rest
  refine ⟨new,inner,found,fun error => ?_,(Option.some.inj same).symm⟩
  rw [innerLookup,if_pos error] at quoted
  exact quoted

section Translated

variable (m) (field) (new inner : U32)

theorem translated_addr : (m.translated field new inner).addr field = new := by
  have below : field.address + 4 ≤ l4Header := by cases field <;> decide
  refine Eq.trans ?_ (readdressed_addr m field new)
  unfold translated
  split
  · exact Buffer.load32_congr fun i _ _ => innerTranslated_header _ _ _ i (by omega)
  · exact retargeted_addr_eq m field field new

theorem translated_quoted (error : m.IsError) :
    (m.translated field new inner).data.load32 field.opposite.innerAddress = inner := by
  rw [translated_error m error]
  exact innerTranslated_address _ _ _

theorem translated_quoted_opposite (error : m.IsError) :
    (m.translated field new inner).data.load32 field.innerAddress = m.data.load32 field.innerAddress := by
  have bounds := field.innerAddress_bounds
  have apart : field.opposite.innerAddress + 4 ≤ field.innerAddress ∨
      field.innerAddress + 4 ≤ field.opposite.innerAddress := by
    cases field <;> decide
  simp at bounds
  rw [translated_error m error]
  apply Buffer.load32_congr
  intro i _ _
  rw [innerTranslated_frame _ _ _ _ (by simp; omega) (by simp; omega) (by omega),
    m.readdressed_frame field new i (.inr (by omega))]

theorem translated_footprint (i : Nat) (changed : (m.translated field new inner).data i ≠ m.data i) :
    InRanges (m.footprint field l4Header) i := by
  by_contra outside
  simp only [footprint,inRanges_cons,not_or] at outside
  obtain ⟨address,cksum,l4⟩ := outside
  have outer : (m.readdressed field.address new).data i = m.data i := by
    rw [readdressed,cksumUpdated_frame _ _ _ _ _ (by omega)]
    exact Buffer.store32_frame _ _ _ _ (by omega)
  rw [← readdressed_l4Footprint m field new] at l4
  apply changed
  rw [← outer]
  unfold translated
  split
  · exact innerTranslated_footprint _ field inner i ((m.readdressed_isError field new).mpr ‹_›) l4
  · exact l4Translated_footprint _ field _ _ i l4

theorem translated_pktLen : (m.translated field new inner).pktLen = m.pktLen := by
  unfold translated
  split
  · rfl
  · unfold retargeted l4Translated l4Updated
    split_ifs <;> rfl

end Translated

theorem Carried.refl (m : Mbuf) : m.Carried table m :=
  ⟨rfl,Iff.rfl,fun _ => .refl,fun _ _ => .refl,fun _ changed => absurd rfl changed,rfl⟩

theorem Carried.rewrite (carried : m.Carried table m') (rewritten : m'.natRewritten table field = some m'') :
    m.Carried table m'' := by
  obtain ⟨new,inner,found,quoted,rfl⟩ := natRewritten_eq_some rewritten
  have isError := (m'.translated_isError field new inner).trans carried.isError
  refine ⟨(m'.translated_proto field new inner).trans carried.proto,isError,fun other => ?_,fun error other => ?_,
    fun i changed => ?_,(m'.translated_pktLen field new inner).trans carried.length⟩
  · have own := m'.translated_addr field new inner
    have opposite := m'.translated_addr_opposite field new inner
    rcases AddrField.eq_or_opposite field other with rfl | rfl
    · rw [own]
      exact (carried.addresses other).tail found
    · rw [opposite]
      exact carried.addresses field.opposite
  · have error' := carried.isError.mpr error
    have own := m'.translated_quoted field new inner error'
    have opposite := m'.translated_quoted_opposite field new inner error'
    rcases AddrField.eq_or_opposite field other with rfl | rfl
    · rw [opposite]
      exact carried.quoted error other
    · rw [own]
      exact (carried.quoted error field.opposite).tail (quoted error')
  · by_cases before : m'.data i = m.data i
    · rw [← before] at changed
      refine ⟨field,?_⟩
      rw [← footprint_congr carried.proto carried.isError field]
      exact m'.translated_footprint field new inner i changed
    · exact carried.bytes i before

end Mbuf

/-! ## What is sent -/

/-- What a frame sent to `out` has of the frame it was received as. -/
structure Mbuf.Forwards (table : NatLookup) (mac : Mac) (out : OutPacket) (frame m : Mbuf) : Prop where
  ethernet : frame.data.loadMac Eth.dAddr = out.nextHop ∧ frame.data.loadMac Eth.sAddr = mac
  vlan : frame.vlanTci = .ofInt 16 out.vlan
  addresses : ∀ field : AddrField, Relation.ReflTransGen (Translates table) (m.unpadded.addr field) (frame.addr field)
  quoted : m.unpadded.IsError → ∀ field : AddrField, Relation.ReflTransGen (Translates table)
    (m.unpadded.data.load32 field.innerAddress) (frame.data.load32 field.innerAddress)
  bytes : ∀ i, Eth.etherType ≤ i → frame.data i ≠ m.data i →
    sizeofEtherHdr + m.totalLength ≤ i ∧ i < m.pktLen.toNat ∨ ∃ field, InRanges (m.unpadded.footprint field l4Header) i
  length : frame.pktLen = m.pktLen

/-- Clearing the padding touches nothing else, whatever the lengths say. -/
theorem Mbuf.unpadded_changed (m : Mbuf) (i : Nat) (changed : m.unpadded.data i ≠ m.data i) :
    sizeofEtherHdr + m.totalLength ≤ i ∧ i < m.pktLen.toNat := by
  by_cases inside : i < sizeofEtherHdr + m.totalLength
  · exact absurd (m.unpadded_frame i inside) changed
  refine ⟨Nat.not_lt.mp inside,?_⟩
  simp only [unpadded] at changed
  split at changed
  case isTrue padded =>
    have fits := paddingLen_fits _ _ padded
    by_contra beyond
    exact changed (Buffer.zero_frame _ _ _ _ (.inr (by omega)))
  case isFalse packed => exact absurd rfl changed

theorem Mbuf.Carried.forwards {m m' : Mbuf} (carried : m.unpadded.Carried table m') (mac : Mac) (out : OutPacket) :
    (m'.outgoing mac out).Forwards table mac out m where
  ethernet := by
    constructor
    · exact Buffer.loadMac_storeMac _ _ _
    · exact (Buffer.loadMac_storeMac_frame _ _ _ _ (by simp)).trans (Buffer.loadMac_storeMac _ _ _)
  vlan := rfl
  addresses field := by
    have place : sizeofEtherHdr ≤ field.address := by cases field <;> decide
    have same : (m'.outgoing mac out).addr field = m'.addr field :=
      Buffer.load32_congr fun i low _ => outgoing_frame _ _ _ _ (by omega)
    rw [same]
    exact carried.addresses field
  quoted error field := by
    have place := field.innerAddress_bounds.1
    have same : (m'.outgoing mac out).data.load32 field.innerAddress = m'.data.load32 field.innerAddress :=
      Buffer.load32_congr fun i low _ => outgoing_frame _ _ _ _ (by simp at *; omega)
    rw [same]
    exact carried.quoted error field
  bytes i behind changed := by
    have same : (m'.outgoing mac out).data i = m'.data i := by
      simp only [Mbuf.outgoing,Mbuf.prepared]
      rw [Buffer.storeMac_frame _ _ _ _ (by simp at *; omega),Buffer.storeMac_frame _ _ _ _ (by simp at *; omega)]
    rw [same] at changed
    by_cases kept : m'.data i = m.unpadded.data i
    · exact .inl (m.unpadded_changed i (kept ▸ changed))
    · exact .inr (carried.bytes i kept)
  length := by
    have metadata := congrArg Mbuf.pktLen m.unpadded_metadata
    exact carried.length.trans metadata

/-- Where a frame in the queue of `q` comes from, when `m` was received on `port`. -/
inductive Origin (dev : Devices) (config : AppConfig) (port : Nat) (m : Mbuf) : (q : Nat) → (frame : Mbuf) → Prop
  /-- The reply to a ping, on the same port. -/
  | echo (pings : m.Pings dev config) : Origin dev config port m port m.unpadded.echoed.prepared
  /-- The answer of the port to a question for one of its addresses. -/
  | arp (arp : m.data.load16 Eth.etherType = rteBeToCpu16 etherTypeArp) (request : m.arpOp = arpOpRequest)
      (mine : (m.arpTarget,m.vlanId) ∈ (config.ports port).ipAddresses) {reply : Mbuf}
      (replies : reply.ArpRepliesTo (dev.macaddr port) m) : Origin dev config port m port reply
  /-- The frame itself, where the rules sent it. -/
  | forwarded (ruled : m.Ruled dev config) {out : OutPacket} (named : out ∈ config.rules.outs) {frame : Mbuf}
      (forwards : frame.Forwards config.natLookup (dev.macaddr port) out m) :
      Origin dev config port m out.port.toNat frame

theorem verdict_origin (m : Mbuf) (f : Nat × Mbuf) (member : f ∈ (verdict dev config port m).frames) :
    Origin dev config port m f.1 f.2 := by
  unfold verdict at member
  split at member
  case isTrue bad => exact absurd member List.not_mem_nil
  case isFalse good =>
  split at member
  case isTrue ipv4 =>
    unfold Mbuf.ipv4Verdict at member
    split at member
    case isTrue mine =>
      split at member
      case isTrue request =>
        obtain rfl := List.mem_singleton.mp member
        exact .echo ⟨good,ipv4,mine.1,mine.2,request⟩
      case isFalse other => exact absurd member List.not_mem_nil
    case isFalse foreign =>
      have ruled : m.Ruled dev config := ⟨good,ipv4,fun icmp => Bool.eq_false_iff.mpr fun mine => foreign ⟨icmp,mine⟩⟩
      unfold Mbuf.ruled at member
      split at member
      case isTrue none => exact absurd member List.not_mem_nil
      case isFalse rules =>
      have holds : (config.rules.eval dev config.natLookup port m.unpadded).Holds dev port
          (m.unpadded.Carried config.natLookup) config.rules.outs :=
        Node.eval_holds (fun _ _ _ carried rewritten => carried.rewrite rewritten) config.rules m.unpadded (.refl _)
      split at member
      case h_1 verdict walked =>
        rw [walked] at holds
        obtain ⟨out,named,m',carried,rfl⟩ := holds f member
        exact .forwarded ruled named (carried.forwards _ out)
      case h_2 => exact absurd member List.not_mem_nil
  case isFalse other =>
  split at member
  case isTrue arp =>
    unfold Mbuf.arpVerdict at member
    split at member
    case isTrue request =>
      obtain rfl := List.mem_singleton.mp member
      exact .arp arp request.1 request.2 (arpReply_repliesTo _ m)
    case isFalse foreign => exact absurd member List.not_mem_nil
  case isFalse unknown => exact absurd member List.not_mem_nil

theorem Worker.Holds.stream {w : Worker} {q : Nat} {frame : Mbuf} (holds : w.Holds q frame) : frame ∈ w.stream q := by
  rcases holds with waiting | ⟨pkts,sent,offered,member⟩
  · exact List.mem_append_right _ waiting
  · refine List.mem_append_left _ (List.mem_flatMap.mpr ⟨(pkts,sent),?_,member⟩)
    exact List.mem_filterMap.mpr ⟨_,offered,if_pos rfl⟩

/-- Within the arrays of the source, no frame is made up: each was received, and natasha answered it or
its rules sent it on. -/
theorem mainLoop_origins (loads : ∀ p, ok .appConfig p → p.config = config) (within : WithinArrays dev config)
    (n : Nat) (pkt : Mbuf) (rx : Nat → RxBurst) (tx : Nat → Nat) :
    Ensures ok (mainLoop dev n) (.start pkt rx tx) fun _ w => ∀ q frame, w.Holds q frame →
      q < natashaMaxQueues ∧ ∃ r ∈ polled rx (polls dev n), Origin dev config r.1 r.2 q frame := by
  refine (mainLoop_yields loads n (.start pkt rx tx) fun _ _ => rfl).mono fun _ w h q frame holds => ?_
  have member : frame ∈ framesFor q (answers dev config (polled rx (polls dev n))) := h.1.start_stream q ▸ holds.stream
  obtain ⟨f,answered,same⟩ := List.mem_filterMap.mp member
  have queue := within.answers rx n f answered
  obtain ⟨r,received,sent⟩ := List.mem_flatMap.mp answered
  have origin := verdict_origin r.2 f sent
  split at same
  case isTrue here =>
    obtain rfl := Option.some.inj same
    exact ⟨here ▸ queue,r,received,here ▸ origin⟩
  case isFalse elsewhere => cases same

/-- One segment, on the first device. -/
def oneSegment : Nat → RxBurst
  | 0 => ⟨[receivedSegment],by decide⟩
  | _ => ⟨[],Nat.zero_le maxRxBurst⟩

theorem mainLoop_origins_forwarding :
    let w := (exec (steadyAnswer (forwarding 1)) (mainLoop twoPorts 1) (.start receivedSegment oneSegment fun _ => 0)).2
    (w.stream 1).length = 1 ∧ ∀ q frame, w.Holds q frame →
      q < natashaMaxQueues ∧ ∃ r ∈ polled oneSegment (polls twoPorts 1), Origin twoPorts (forwarding 1) r.1 r.2 q frame := by
  have loads : ∀ p, steadyOnly (forwarding 1) .appConfig p → p.config = forwarding 1 :=
    fun _ loaded => congrArg ConfigPtr.config loaded
  have within : WithinArrays twoPorts (forwarding 1) := ⟨by decide,(by decide : 1 < natashaMaxQueues)⟩
  refine ⟨rfl,?_⟩
  exact Ensures.exec (mainLoop_origins loads within 1 receivedSegment oneSegment fun _ => 0)
    (steadyAnswer (forwarding 1)) fun _ => rfl

end Natasha
