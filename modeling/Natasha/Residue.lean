import Natasha.IcmpErrors
import Natasha.Lib.Simulation
import Natasha.Reception

/-! The bytes behind a packet. Two frames that differ only there are dispatched side by side: the
runs stay in step for as long as no load reaches behind `pkt_len`. The loads that can do so are
the sum of `icmp_echo` and the quoted header in `icmp_nat_handle`. -/
namespace Natasha

open Interaction

/-! ## Twins -/

/-- Two mbufs with the same metadata that hold the same packet. -/
structure Mbuf.Twin (m m' : Mbuf) : Prop where
  pktLen : m.pktLen = m'.pktLen
  olFlags : m.olFlags = m'.olFlags
  vlanTci : m.vlanTci = m'.vlanTci
  l2Len : m.l2Len = m'.l2Len
  l3Len : m.l3Len = m'.l3Len
  bytes : ∀ i < m.pktLen.toNat, m.data i = m'.data i

theorem Mbuf.Twin.refl (m : Mbuf) : m.Twin m := ⟨rfl,rfl,rfl,rfl,rfl,fun _ _ => rfl⟩

/-- The same event, up to the mbufs offered to the NIC. -/
inductive Event.Twin : Event → Event → Prop
  | same (e : Event) : Twin e e
  | burst (port sent : Nat) (twins : List.Forall₂ Mbuf.Twin pkts pkts') :
      Twin (.burst port pkts sent) (.burst port pkts' sent)

/-- Nothing that the workers counted, queued, sent or freed tells them apart. -/
structure Worker.SameFate (w w' : Worker) : Prop where
  stats : w.stats = w'.stats
  queues : ∀ port, List.Forall₂ Mbuf.Twin (w.txQueues port).pkts (w'.txQueues port).pkts
  log : List.Forall₂ Event.Twin w.log w'.log

structure Worker.Twin (w w' : Worker) : Prop extends SameFate w w' where
  pkt : w.pkt.Twin w'.pkt
  rx : w.rx = w'.rx
  tx : w.tx = w'.tx

theorem Worker.Twin.holding (w : Worker) {m m' : Mbuf} (twin : m.Twin m') :
    Worker.Twin { w with pkt := m } { w with pkt := m' } where
  stats := rfl
  queues _ := List.forall₂_same.mpr fun m _ => .refl m
  log := List.forall₂_same.mpr fun e _ => .same e
  pkt := twin
  rx := rfl
  tx := rfl

theorem Worker.Twin.logged {w w' : Worker} (twin : w.Twin w') {es es' : List Event} (events : List.Forall₂ Event.Twin es es') :
    Worker.Twin { w with log := w.log ++ es } { w' with log := w'.log ++ es' } :=
  { twin with log := List.rel_append twin.log events }

/-! ## Two runs -/

namespace Buffer

theorem store8_congr {a b : Buffer} {i : Nat} (same : a i = b i) (off : Nat) (v : Byte) :
    a.store8 off v i = b.store8 off v i := by
  simp only [store8,same]

theorem store16_congr {a b : Buffer} {i : Nat} (same : a i = b i) (off : Nat) (v : U16) :
    a.store16 off v i = b.store16 off v i := by
  simp only [store16,same]

theorem store32_congr {a b : Buffer} {i : Nat} (same : a i = b i) (off : Nat) (v : U32) :
    a.store32 off v i = b.store32 off v i :=
  store16_congr (store16_congr same _ _) _ _

theorem storeMac_congr {a b : Buffer} {i : Nat} (same : a i = b i) (off : Nat) (mac : Mac) :
    a.storeMac off mac i = b.storeMac off mac i := by
  simp only [storeMac,same]

end Buffer

/-- Twin workers whose mbufs satisfy `P`. -/
def Twins (P : Mbuf → Prop) (w w' : Worker) : Prop := w.Twin w' ∧ P w.pkt

/-- From mbufs that satisfy `P` the code does the same for both and leaves mbufs that satisfy `Q`. -/
abbrev Blind (P : Mbuf → Prop) (code : M α) (Q : α → Mbuf → Prop) : Prop := Twice (Twins P) code fun a => Twins (Q a)

/-- `P` does not depend on the `len` bytes from `off` on. -/
def Apart (P : Mbuf → Prop) (off len : Nat) : Prop :=
  ∀ (m : Mbuf) (b : Buffer), (∀ i, i < off ∨ off+len ≤ i → b i = m.data i) → P m → P { m with data := b }

namespace Blind

variable {P P' Q : Mbuf → Prop} {off : Nat}

theorem pure {R : α → Mbuf → Prop} (holds : ∀ m, P m → R a m) : Blind P (Pure.pure a) R :=
  Twice.pure fun _ _ twins => ⟨twins.1,holds _ twins.2⟩

theorem strengthen {code : M α} {R : α → Mbuf → Prop} (blind : Blind P code R) (stronger : ∀ m, P' m → P m) : Blind P' code R :=
  blind.mono (fun _ _ twins => ⟨twins.1,stronger _ twins.2⟩) fun _ _ _ twins => twins

theorem weaken {code : M α} {R R' : α → Mbuf → Prop} (blind : Blind P code R) (weaker : ∀ a m, R a m → R' a m) :
    Blind P code R' :=
  blind.mono (fun _ _ twins => twins) fun a _ _ twins => ⟨twins.1,weaker a _ twins.2⟩

theorem forget {code : M α} {R : α → Mbuf → Prop} (blind : Blind P code fun a m => P m ∧ R a m) : Blind P code fun _ => P :=
  blind.weaken fun _ _ holds => holds.1

theorem event (e : Event) : Blind P (Natasha.event e) fun _ => P :=
  Twice.modifyGet fun _ _ twins => ⟨rfl,twins.1.logged (.cons (.same e) .nil),twins.2⟩

theorem bump (stat : Stat) : Blind P (Natasha.bump stat) fun _ => P := by
  refine Twice.modifyGet fun w w' twins => ⟨rfl,?_,twins.2⟩
  have logged := twins.1.logged (.cons (.same (.bump stat)) .nil)
  exact { logged with stats := by simp only [twins.1.stats] }

theorem readPkt {f : Mbuf → α} (same : ∀ m m', m.Twin m' → P m → f m = f m') :
    Blind P (Natasha.readPkt f) fun a m => P m ∧ a = f m :=
  Twice.modifyGet fun _ _ twins =>
    ⟨same _ _ twins.1.pkt twins.2,twins.1.logged (.cons (.same .read) .nil),twins.2,rfl⟩

theorem writePkt {f : Mbuf → Mbuf} (twin : ∀ m m', m.Twin m' → P m → (f m).Twin (f m')) (holds : ∀ m, P m → Q (f m)) :
    Blind P (Natasha.writePkt f) fun _ => Q := by
  refine Twice.modifyGet fun w w' twins => ⟨rfl,?_,holds _ twins.2⟩
  have logged := twins.1.logged (.cons (.same .write) .nil)
  exact { logged with pkt := twin _ _ twins.1.pkt twins.2 }

/-! ### Loads and stores -/

theorem load8 (inside : ∀ m, P m → off < m.pktLen.toNat) :
    Blind P (Natasha.load8 off) fun a m => P m ∧ a = m.data off :=
  readPkt fun m _ twin holds => twin.bytes off (inside m holds)

theorem load16 (inside : ∀ m, P m → off+2 ≤ m.pktLen.toNat) :
    Blind P (Natasha.load16 off) fun a m => P m ∧ a = m.data.load16 off :=
  readPkt fun m _ twin holds => Buffer.load16_congr fun i _ upper => twin.bytes i (by have := inside m holds; omega)

theorem load32 (inside : ∀ m, P m → off+4 ≤ m.pktLen.toNat) :
    Blind P (Natasha.load32 off) fun a m => P m ∧ a = m.data.load32 off :=
  readPkt fun m _ twin holds => Buffer.load32_congr fun i _ upper => twin.bytes i (by have := inside m holds; omega)

theorem loadMac (inside : ∀ m, P m → off+6 ≤ m.pktLen.toNat) : Blind P (Natasha.loadMac off) fun _ => P :=
  (readPkt fun m _ twin holds =>
    Buffer.loadMac_congr fun i _ upper => twin.bytes i (by have := inside m holds; omega)).forget

/-- A store that does the same to every byte of both. -/
theorem store {store : Buffer → Buffer} {len : Nat} (pointwise : ∀ {a b : Buffer} {i : Nat}, a i = b i → store a i = store b i)
    (frame : ∀ (b : Buffer) i, i < off ∨ off+len ≤ i → store b i = b i) (apart : Apart P off len) :
    Blind P (Natasha.writePkt fun m => { m with data := store m.data }) fun _ => P := by
  refine writePkt (fun m m' twin _ => ?_) fun m holds => apart m _ (frame m.data) holds
  exact { twin with bytes := fun i inside => pointwise (twin.bytes i inside) }

theorem store8 (apart : Apart P off 1) (v : Byte) : Blind P (Natasha.store8 off v) fun _ => P := by
  exact store (fun same => Buffer.store8_congr same off v) (fun b i outside => Buffer.store8_frame b off v i (by omega)) apart

theorem store16 (apart : Apart P off 2) (v : U16) : Blind P (Natasha.store16 off v) fun _ => P := by
  exact store (fun same => Buffer.store16_congr same off v) (fun b i => Buffer.store16_frame b off v i) apart

theorem store32 (apart : Apart P off 4) (v : U32) : Blind P (Natasha.store32 off v) fun _ => P := by
  exact store (fun same => Buffer.store32_congr same off v) (fun b i => Buffer.store32_frame b off v i) apart

theorem storeMac (apart : Apart P off 6) (mac : Mac) : Blind P (Natasha.storeMac off mac) fun _ => P := by
  exact store (fun same => Buffer.storeMac_congr same off mac) (fun b i => Buffer.storeMac_frame b off mac i) apart

/-! ### Requests -/

theorem appConfig : Blind P Natasha.appConfig fun _ => P := Twice.perform Op.appConfig

theorem readConfig (p : ConfigPtr) (member : Member) : Blind P (Natasha.readConfig p member) fun _ => P :=
  Twice.perform (Op.read p member)

theorem isNatashaPortIp (p : ConfigPtr) (ip : U32) (vlan : U16) (port : Nat) :
    Blind P (Natasha.isNatashaPortIp p ip vlan port) fun _ => P :=
  (readConfig p _).bind fun _ => pure fun _ holds => holds

theorem isNatashaIp (dev : Devices) (p : ConfigPtr) (ip : U32) (vlan : U16) :
    Blind P (Natasha.isNatashaIp dev p ip vlan) fun _ => P := by
  have scan : ∀ ports : List Nat, Blind P (isNatashaIpOn p ip vlan ports) fun _ => P := by
    intro ports
    induction ports with
    | nil => exact pure fun _ holds => holds
    | cons port ports ih =>
      exact (isNatashaPortIp p ip vlan port).bind fun _ => Twice.ite _ (fun _ => pure fun _ holds => holds) fun _ => ih
  exact scan _

end Blind

/-! ### The transmit queues -/

section Send

variable {w w' : Worker} {port : Nat}

theorem Mbuf.Twin.prepared {m m' : Mbuf} (twin : m.Twin m') : m.prepared.Twin m'.prepared where
  pktLen := twin.pktLen
  olFlags := by simp only [Mbuf.prepared,twin.vlanTci,twin.olFlags]
  vlanTci := twin.vlanTci
  l2Len := rfl
  l3Len := rfl
  bytes := twin.bytes

theorem Worker.Twin.filled (twin : w.Twin w') (port : Nat) : List.Forall₂ Mbuf.Twin (w.filled port) (w'.filled port) :=
  List.rel_append (twin.queues port) (.cons twin.pkt.prepared .nil)

theorem Worker.Twin.enqueued (twin : w.Twin w') (port : Nat) : (w.enqueued port).Twin (w'.enqueued port) := by
  have accesses : w.pkt.sendAccesses = w'.pkt.sendAccesses := by simp only [Mbuf.sendAccesses,twin.pkt.vlanTci]
  have slot : (w.txQueues port).pkts.length = (w'.txQueues port).pkts.length := (twin.queues port).length_eq
  have logged := twin.logged (List.forall₂_same.mpr fun e (_ : e ∈ w.pkt.sendAccesses ++
    [.enqueue port (w.txQueues port).pkts.length]) => Event.Twin.same e)
  refine { logged with pkt := twin.pkt.prepared, log := ?_ }
  simp only [Worker.enqueued,← accesses,← slot]
  exact logged.log

theorem Worker.Twin.setQueue (twin : w.Twin w') {q q' : TxQueue} (twins : List.Forall₂ Mbuf.Twin q.pkts q'.pkts) :
    (w.setQueue port q).Twin (w'.setQueue port q') := by
  refine { twin with queues := fun other => ?_ }
  by_cases same : other = port
  · subst other
    simpa [Worker.setQueue] using twins
  · simpa [Worker.setQueue,Function.update_of_ne same] using twin.queues other

theorem Worker.Twin.flushed (twin : w.Twin w') {pkts pkts' : List Mbuf} (twins : List.Forall₂ Mbuf.Twin pkts pkts') :
    (w.flushed port pkts).Twin (w'.flushed port pkts') := by
  have length := twins.length_eq
  have taken : w.taken pkts = w'.taken pkts' := by simp only [Worker.taken,twin.tx,length]
  have events : List.Forall₂ Event.Twin (flushEvents port pkts (w.taken pkts)) (flushEvents port pkts' (w'.taken pkts')) := by
    rw [taken,flushEvents,flushEvents,length]
    exact .cons (.burst port _ twins) (List.forall₂_same.mpr fun e _ => .same e)
  have emptied : (w.setQueue port .empty).Twin (w'.setQueue port .empty) := twin.setQueue .nil
  have logged := emptied.logged events
  exact { logged with stats := by simp only [Worker.flushed,twin.stats,taken,length], tx := by simp only [Worker.flushed,twin.tx] }

theorem Blind.txSend {P Q : Mbuf → Prop} (port : Nat) (holds : ∀ m, P m → Q m.prepared) :
    Blind P (Natasha.txSend port) fun _ => Q := by
  rintro w w' ⟨twin,start⟩
  have twins := twin.filled port
  have length := twins.length_eq
  by_cases room : (w.filled port).length < maxTxBurst
  · have run : ∀ {w : Worker} (room : (w.filled port).length < maxTxBurst),
        (Natasha.txSend port).run w = .done (0,(w.enqueued port).setQueue port ⟨w.filled port,room⟩) :=
      fun room => run_eq_done fun ok post => by rw [ensures_txSend]; simp [room]
    rw [run room,run (length ▸ room)]
    exact .done ⟨rfl,(twin.enqueued port).setQueue twins,holds _ start⟩
  · have run : ∀ {w : Worker}, ¬(w.filled port).length < maxTxBurst → (Natasha.txSend port).run w =
        .done ((w.enqueued port).taken (w.filled port),(w.enqueued port).flushed port (w.filled port)) :=
      fun full => run_eq_done fun ok post => by rw [ensures_txSend]; simp [full]
    rw [run room,run (length ▸ room)]
    refine .done ⟨?_,(twin.enqueued port).flushed twins,holds _ start⟩
    simp only [Worker.taken,(twin.enqueued port).tx,length]

end Send

/-! ## Rules -/

/-- At least `len` bytes. -/
def Mbuf.Long (len : Nat) (m : Mbuf) : Prop := len ≤ m.pktLen.toNat

/-- Long enough for the loads of every action: an ICMP error holds the whole quoted header. -/
def Mbuf.Covered (m : Mbuf) : Prop := m.Long 60 ∧ (m.IsError → m.Long (innerIpv4Header + sizeofIpv4Hdr))

theorem apart_long (len off n : Nat) : Apart (Mbuf.Long len) off n := fun _ _ _ long => long

theorem isError_congr (m : Mbuf) {b : Buffer} (same : ∀ i ∈ [20,21,23,34], b i = m.data i) :
    Mbuf.IsError { m with data := b } ↔ m.IsError := by
  simp only [List.forall_mem_cons] at same
  obtain ⟨first,second,proto,type,_⟩ := same
  have fragment : b.load16 20 = m.data.load16 20 := by simp only [Buffer.load16,first,second]
  simp only [Mbuf.IsError,Mbuf.proto,ipv4Header,l4Header,sizeofEtherHdr,sizeofIpv4Hdr,Ipv4.nextProtoId,
    Ipv4.fragmentOffset,Icmp.icmpType,Nat.reduceAdd,fragment,proto,type]
  exact Iff.rfl

theorem apart_covered {off len : Nat} (apart : ∀ i ∈ [20,21,23,34], i < off ∨ off+len ≤ i) :
    Apart Mbuf.Covered off len := by
  intro m b frame covered
  refine ⟨covered.1,fun error => covered.2 ?_⟩
  exact (isError_congr m fun i member => frame i (apart i member)).mp error

namespace Blind

variable {P : Mbuf → Prop}

theorem cksumUpdateAt {field : Nat} (inside : ∀ m, P m → field+2 ≤ m.pktLen.toNat) (apart : Apart P field 2)
    (before after : U32) : Blind P (Natasha.cksumUpdateAt field before after) fun _ => P :=
  (load16 inside).forget.bind fun _ => store16 apart _

theorem lookupAndRewrite {field : Nat} (apart : Apart P field 4) (table : NatLookup) (ip : U32) :
    Blind P (Natasha.lookupAndRewrite table ip field) fun _ => P := by
  unfold Natasha.lookupAndRewrite
  cases natLookupIp table ip with
  | none => exact (event .free).bind fun _ => pure fun _ holds => holds
  | some value => exact (store32 apart value).bind fun _ => pure fun _ holds => holds

theorem icmpNatHandle (inner : AddrField) :
    Blind (fun m => m.Covered ∧ m.proto = ipprotoIcmp) (Natasha.icmpNatHandle inner) fun _ => Mbuf.Covered := by
  have quoted : inner.offset + 4 ≤ sizeofIpv4Hdr := by cases inner <;> decide
  have done : ∀ ret : Int, Blind (Mbuf.Long (innerIpv4Header + sizeofIpv4Hdr)) (Pure.pure ret) fun _ => Mbuf.Covered :=
    fun ret => pure fun m long => ⟨Nat.le_trans (by decide) long,fun _ => long⟩
  have inside : ∀ {off}, off ≤ innerIpv4Header + sizeofIpv4Hdr → ∀ m : Mbuf,
      m.Long (innerIpv4Header + sizeofIpv4Hdr) → off ≤ m.pktLen.toNat :=
    fun below _ long => Nat.le_trans below long
  unfold Natasha.icmpNatHandle
  refine (load8 fun m holds => Nat.lt_of_lt_of_le (by decide) holds.1.1).bind fun icmpType => ?_
  refine Twice.ite _ (fun _ => pure fun m holds => holds.1.1) fun error => ?_
  -- from here on the frame is known to hold the quoted header
  refine Blind.strengthen (P := Mbuf.Long (innerIpv4Header + sizeofIpv4Hdr)) ?_ fun m holds => ?_
  · refine (load16 (inside (by decide))).forget.bind fun totalLength => ?_
    refine Twice.ite _ (fun _ => done _) fun _ => ?_
    refine (load16 (inside (by decide))).forget.bind fun oldIpv4Cksum => ?_
    refine (load32 (inside (by omega))).forget.bind fun oldIpv4Address => ?_
    refine appConfig.bind fun config => (readConfig config _).bind fun _ => ?_
    refine (lookupAndRewrite (apart_long _ _ _) _ _).bind fun ret => ?_
    refine Twice.ite _ (fun _ => (bump _).bind fun _ => done _) fun _ => ?_
    refine (load32 (inside (by omega))).forget.bind fun newIpv4Address => ?_
    refine (cksumUpdateAt (inside (by decide)) (apart_long _ _ _) _ _).bind fun _ => ?_
    refine (load16 (inside (by decide))).forget.bind fun newIpv4Cksum => ?_
    refine (cksumUpdateAt (inside (by decide)) (apart_long _ _ _) _ _).bind fun _ => ?_
    exact (cksumUpdateAt (inside (by decide)) (apart_long _ _ _) _ _).bind fun _ => done _
  · obtain ⟨⟨covered,icmp⟩,rfl⟩ := holds
    exact covered.2 (Decidable.not_not.mp fun other => error ((not_isError_iff m icmp).mp other))

theorem mark (flags : U64) :
    Blind Mbuf.Covered (Natasha.writePkt fun m => { m with olFlags := m.olFlags ||| flags }) fun _ => Mbuf.Covered :=
  writePkt (fun _ _ twin _ => { twin with olFlags := by simp only [twin.olFlags] }) fun _ covered => covered

theorem l4CksumUpdate {field : Nat} (inside : field+2 ≤ 60) (apart : ∀ i ∈ [20,21,23,34], i < field ∨ field+2 ≤ i)
    (offload : U64) (before after : U32) :
    Blind Mbuf.Covered (Natasha.l4CksumUpdate field offload before after) fun _ => Mbuf.Covered := by
  refine (load16 fun m covered => Nat.le_trans (by decide) covered.1).forget.bind fun fragmentOffset => ?_
  refine Twice.ite _ (fun _ => ?_) fun _ => ?_
  · exact cksumUpdateAt (fun m covered => Nat.le_trans inside covered.1) (apart_covered apart) before after
  · exact (store16 (apart_covered apart) 0).bind fun _ => mark offload

theorem actionNatRewriteImpl (field : AddrField) :
    Blind Mbuf.Covered (Natasha.actionNatRewriteImpl field.address field.opposite) fun _ => Mbuf.Covered := by
  have address : field.address = 26 ∨ field.address = 30 := by cases field <;> simp [AddrField.address]
  have inside : ∀ {off}, off ≤ 60 → ∀ m : Mbuf, m.Covered → off ≤ m.pktLen.toNat :=
    fun below _ covered => Nat.le_trans below covered.1
  have outer : Apart Mbuf.Covered field.address 4 := by
    apply apart_covered
    rcases address with same | same <;> rw [same] <;> decide
  unfold Natasha.actionNatRewriteImpl
  refine (load32 (inside (by omega))).forget.bind fun saveIpv4 => ?_
  refine appConfig.bind fun config => (readConfig config _).bind fun _ => ?_
  refine (lookupAndRewrite outer _ _).bind fun ret => ?_
  refine Twice.ite _ (fun _ => (bump _).bind fun _ => pure fun _ covered => covered) fun _ => ?_
  refine (load32 (inside (by omega))).forget.bind fun newIpv4 => ?_
  refine (cksumUpdateAt (inside (by decide)) (apart_covered (by decide)) _ _).bind fun _ => ?_
  refine (load8 fun m covered => Nat.lt_of_lt_of_le (by decide) covered.1).bind fun nextProtoId => ?_
  refine (load16 fun m holds => inside (by decide) m holds.1).bind fun fragmentOffset => ?_
  have plain : ∀ {code : M Int}, Blind Mbuf.Covered code (fun _ => Mbuf.Covered) → Blind (fun m => (m.Covered ∧
      nextProtoId = m.data (ipv4Header + Ipv4.nextProtoId)) ∧
      fragmentOffset = m.data.load16 (ipv4Header + Ipv4.fragmentOffset)) code fun _ => Mbuf.Covered :=
    fun blind => blind.strengthen fun _ holds => holds.1.1
  have done : Blind Mbuf.Covered (Pure.pure (0 : Int)) fun _ => Mbuf.Covered := pure fun _ covered => covered
  refine Twice.ite _ (fun _ => plain ?_) fun _ => Twice.ite _ (fun _ => plain ?_) fun _ => Twice.ite _ (fun icmp => ?_)
    fun _ => plain done
  · exact (l4CksumUpdate (by decide) (by decide) _ _ _).bind fun _ => done
  · refine (load16 (inside (by decide))).forget.bind fun dgramCksum => Twice.ite _ (fun _ => done) fun _ => ?_
    exact (l4CksumUpdate (by decide) (by decide) _ _ _).bind fun _ => done
  · refine (icmpNatHandle field.opposite).strengthen ?_
    rintro m ⟨⟨covered,rfl⟩,rfl⟩
    exact ⟨covered,icmp⟩

theorem actionNatRewrite (field : AddrField) : Blind Mbuf.Covered (Natasha.actionNatRewrite field) fun _ => Mbuf.Covered := by
  cases field with
  | src => exact actionNatRewriteImpl .src
  | dst => exact actionNatRewriteImpl .dst

theorem actionPrint : Blind Mbuf.Covered Natasha.actionPrint fun _ => Mbuf.Covered := by
  have inside : ∀ {off}, off ≤ 60 → ∀ m : Mbuf, m.Covered → off ≤ m.pktLen.toNat :=
    fun below _ covered => Nat.le_trans below covered.1
  have done : Blind Mbuf.Covered (Pure.pure (0 : Int)) fun _ => Mbuf.Covered := pure fun _ covered => covered
  refine (load32 (inside (by decide))).forget.bind fun _ => (load32 (inside (by decide))).forget.bind fun _ => ?_
  refine (load8 (inside (by decide))).forget.bind fun nextProtoId => ?_
  refine Twice.ite _ (fun _ => ?_) fun _ => Twice.ite _ (fun _ => ?_) fun _ => Twice.ite _ (fun _ => ?_) fun _ => done
  · exact (load32 (inside (by decide))).forget.bind fun _ => (load8 (inside (by decide))).forget.bind fun _ => done
  · exact (load32 (inside (by decide))).forget.bind fun _ => done
  · exact (load16 (inside (by decide))).forget.bind fun _ => done

theorem actionOut (dev : Devices) (port : Nat) (out : OutPacket) :
    Blind Mbuf.Covered (Natasha.actionOut dev port out) fun _ => Mbuf.Covered := by
  have tagged : Blind Mbuf.Covered (Natasha.writePkt fun m => { m with vlanTci := .ofInt 16 out.vlan }) fun _ =>
      Mbuf.Covered :=
    writePkt (fun _ _ twin _ => { twin with vlanTci := rfl }) fun _ covered => covered
  refine (storeMac (apart_covered (by decide)) _).bind fun _ => (storeMac (apart_covered (by decide)) _).bind fun _ => ?_
  have sent : Blind Mbuf.Covered (Natasha.txSend out.port.toNat) fun _ => Mbuf.Covered := txSend _ fun _ covered => covered
  exact (mark _).bind fun _ => tagged.bind fun _ => sent.bind fun _ => pure fun _ covered => covered

theorem condInNetwork (field : AddrField) (network : Ipv4Network) :
    Blind Mbuf.Covered (Natasha.condInNetwork field network) fun _ => Mbuf.Covered := by
  have inside : ipv4Header + field.offset + 4 ≤ 60 := by cases field <;> decide
  exact (load32 fun m covered => Nat.le_trans inside covered.1).forget.bind fun _ => pure fun _ covered => covered

theorem condVlan (vlan : Int) : Blind Mbuf.Covered (Natasha.condVlan vlan) fun _ => Mbuf.Covered := by
  refine (readPkt fun m m' twin _ => ?_).forget.bind fun _ => pure fun _ covered => covered
  simp only [Mbuf.vlanId,twin.vlanTci]

theorem invoke (dev : Devices) (port : Nat) (action : Action) :
    Blind Mbuf.Covered (action.invoke dev port) fun _ => Mbuf.Covered := by
  refine (event _).bind fun _ => ?_
  cases action with
  | condIpv4SrcInNetwork network => exact condInNetwork .src network
  | condIpv4DstInNetwork network => exact condInNetwork .dst network
  | condVlan vlan => exact condVlan vlan
  | natRewrite field => exact actionNatRewrite field
  | out packet => exact actionOut dev port packet
  | print => exact actionPrint
  | drop => exact (bump _).bind fun _ => (event .free).bind fun _ => pure fun _ covered => covered

theorem processRules (dev : Devices) (port : Nat) (p : ConfigPtr) (node : Node) :
    Blind Mbuf.Covered (Natasha.processRules dev port p node) fun _ => Mbuf.Covered := by
  have done : ∀ ret : Int, Blind Mbuf.Covered (Pure.pure ret) fun _ => Mbuf.Covered := fun _ => pure fun _ covered => covered
  induction node with
  | null => exact done 0
  | noop => exact (readConfig p _).bind fun _ => done 0
  | action action => exact (readConfig p _).bind fun _ => invoke dev port action
  | seq left right ihl ihr =>
    refine (readConfig p _).bind fun _ => ihl.bind fun _ => Twice.ite _ (fun _ => done _) fun _ => ?_
    exact ihr.bind fun _ => Twice.ite _ (fun _ => done _) fun _ => done _
  | ifElse left right ihl ihr =>
    refine (readConfig p _).bind fun _ => ihl.bind fun _ => Twice.ite _ (fun _ => done _) fun _ => ?_
    refine Twice.ite _ (fun _ => ?_) fun _ => done _
    exact ihr.bind fun _ => Twice.ite _ (fun _ => done _) fun _ => done _
  | cond left right ihl ihr =>
    refine (readConfig p _).bind fun _ => ihl.bind fun _ => Twice.ite _ (fun _ => done _) fun _ => ?_
    refine Twice.ite _ (fun _ => done _) fun _ => ?_
    exact ihr.bind fun _ => Twice.ite _ (fun _ => done _) fun _ => done _
  | and left right ihl ihr | or left right ihl ihr =>
    refine (readConfig p _).bind fun _ => ihl.bind fun _ => Twice.ite _ (fun _ => done _) fun _ => ?_
    refine Twice.ite _ (fun _ => done _) fun _ => ?_
    exact ihr.bind fun _ => Twice.ite _ (fun _ => done _) fun _ => done _

end Blind

/-! ## Replies -/

def Mbuf.Summable (m : Mbuf) : Prop := m.Long 60 ∧ m.Long (l4Header + m.echoLen)

/-- The loads of every action stay in the packet, and those of a reply if the frame asks for one. -/
def Mbuf.Contained (m : Mbuf) : Prop :=
  m.Covered ∧ (m.data (ipv4Header + Ipv4.nextProtoId) = ipprotoIcmp →
    m.data (l4Header + Icmp.icmpType) = ipIcmpEchoRequest → m.Long (l4Header + m.echoLen))

theorem apart_summable {off len : Nat} (apart : ∀ i ∈ [16,17], i < off ∨ off+len ≤ i) : Apart Mbuf.Summable off len := by
  intro m b frame summable
  have first : b 16 = m.data 16 := frame 16 (apart 16 (by simp))
  have second : b 17 = m.data 17 := frame 17 (apart 17 (by simp))
  have same : Mbuf.echoLen { m with data := b } = m.echoLen := by
    simp only [Mbuf.echoLen,Buffer.load16,ipv4Header,sizeofEtherHdr,Ipv4.totalLength,Nat.reduceAdd,first,second]
  refine ⟨summable.1,?_⟩
  rw [same]
  exact summable.2

theorem rteRawCksum_congr {a b : Buffer} {off len : Nat} (same : ∀ i, off ≤ i → i < off+len → a i = b i) :
    rteRawCksum a off len = rteRawCksum b off len := by
  rw [rteRawCksum,rteRawCksum,wordsOf_congr same]

namespace Blind

theorem icmpEcho (port : Nat) : Blind Mbuf.Summable (Natasha.icmpEcho port) fun _ _ => True := by
  have inside : ∀ {off}, off ≤ 60 → ∀ m : Mbuf, m.Summable → off ≤ m.pktLen.toNat :=
    fun below _ summable => Nat.le_trans below summable.1
  have header : Blind Mbuf.Summable (Natasha.readPkt fun m => rteIpv4Cksum m.data ipv4Header) fun _ => Mbuf.Summable := by
    refine (readPkt fun m m' twin summable => ?_).forget
    rw [rteIpv4Cksum,rteIpv4Cksum,rteRawCksum_congr fun i _ upper => twin.bytes i (inside (by simp at upper; omega) m summable)]
  unfold Natasha.icmpEcho
  refine (store8 (apart_summable (by decide)) _).bind fun _ => ?_
  refine (loadMac (inside (by decide))).bind fun tmpEth => (loadMac (inside (by decide))).bind fun dAddr => ?_
  refine (storeMac (apart_summable (by decide)) _).bind fun _ => (storeMac (apart_summable (by decide)) _).bind fun _ => ?_
  refine (load32 (inside (by decide))).forget.bind fun tmpIp => (load32 (inside (by decide))).forget.bind fun dstIp => ?_
  refine (store32 (apart_summable (by decide)) _).bind fun _ => (store32 (apart_summable (by decide)) _).bind fun _ => ?_
  refine (store16 (apart_summable (by decide)) _).bind fun _ => header.bind fun hdrChecksum => ?_
  refine (store16 (apart_summable (by decide)) _).bind fun _ => (store16 (apart_summable (by decide)) _).bind fun _ => ?_
  refine (load16 (inside (by decide))).bind fun totalLength => ?_
  refine (readPkt fun m m' twin holds => ?_).bind fun icmpCksum => ?_
  · obtain ⟨summable,rfl⟩ := holds
    exact rteRawCksum_congr fun i _ upper => twin.bytes i (Nat.lt_of_lt_of_le upper summable.2)
  · have sent : Blind Mbuf.Summable (Natasha.txSend port) fun _ _ => True := txSend port fun _ _ => trivial
    refine Blind.strengthen (P := Mbuf.Summable) ?_ fun _ holds => holds.1.1
    exact (store16 (apart_summable (by decide)) _).bind fun _ => sent.bind fun _ => pure fun _ _ => trivial

/-- A frame that is not addressed to natasha is left as it is. -/
theorem icmpAnswer (dev : Devices) (port : Nat) :
    Blind (fun m => m.Contained ∧ m.data (ipv4Header + Ipv4.nextProtoId) = ipprotoIcmp) (Natasha.icmpAnswer dev port)
      fun ret m => ret < 0 → m.Contained := by
  have long : ∀ {off} (m : Mbuf), m.Contained → off ≤ 60 → off ≤ m.pktLen.toNat :=
    fun m contained below => Nat.le_trans below contained.1.1
  refine (load32 fun m holds => long m holds.1 (by decide)).forget.bind fun dstIp => appConfig.bind fun config => ?_
  refine (readPkt fun m m' twin _ => by simp only [Mbuf.vlanId,twin.vlanTci]).forget.bind fun vlan => ?_
  refine (isNatashaIp dev config _ vlan).bind fun mine => ?_
  refine Twice.ite _ (fun _ => pure fun m holds _ => holds.1) fun _ => ?_
  have dispatched : Blind (fun m => m.Contained ∧ m.data (ipv4Header + Ipv4.nextProtoId) = ipprotoIcmp)
      (icmpDispatch port) fun _ _ => True := by
    refine (load8 fun m holds => long m holds.1 (by decide)).bind fun icmpType => ?_
    refine Twice.ite _ (fun request => ?_) fun _ => pure fun _ _ => trivial
    refine (icmpEcho port).strengthen ?_
    rintro m ⟨⟨contained,icmp⟩,rfl⟩
    exact ⟨contained.1.1,contained.2 icmp request⟩
  refine dispatched.bind fun ret => Twice.ite _ (fun _ => ?_) fun _ => pure fun _ _ negative => absurd negative (by decide)
  exact (bump _).bind fun _ => (event .free).bind fun _ => pure fun _ _ negative => absurd negative (by decide)

theorem fixNexus9000PaddingBug :
    Blind (fun m => m.Long 60 ∧ m.unpadded.Contained) Natasha.fixNexus9000PaddingBug fun _ => Mbuf.Contained := by
  refine (load16 fun m holds => Nat.le_trans (by decide) holds.1).bind fun totalLength => ?_
  refine (readPkt fun m m' twin _ => twin.pktLen).bind fun pktLen => ?_
  refine Twice.ite _ (fun padded => writePkt (fun m m' twin _ => ?_) ?_) fun packed => pure ?_
  · exact { twin with bytes := fun i inside => by simp only [Buffer.zero,twin.bytes i inside] }
  · rintro m ⟨⟨⟨_,contained⟩,rfl⟩,rfl⟩
    rw [Mbuf.unpadded,if_pos padded] at contained
    exact contained
  · rintro m ⟨⟨⟨_,contained⟩,rfl⟩,rfl⟩
    rw [Mbuf.unpadded,if_neg packed] at contained
    exact contained

theorem ipv4Handle (dev : Devices) (port : Nat) :
    Blind (fun m => m.Long 60 ∧ m.unpadded.Contained) (Natasha.ipv4Handle dev port) fun _ _ => True := by
  have done : ∀ ret : Int, Blind Mbuf.Contained (Pure.pure ret) fun _ _ => True := fun _ => pure fun _ _ => trivial
  have rules : Blind Mbuf.Contained (do
      let config ← Natasha.appConfig
      Natasha.readConfig config .rules
      if config.config.rules = .null then
        return -1
      let config ← Natasha.appConfig
      Natasha.readConfig config .rules
      let ret ← Natasha.processRules dev port config config.config.rules
      Natasha.event (.rules ret)
      return 0) fun _ _ => True := by
    refine appConfig.bind fun config => (readConfig config _).bind fun _ => Twice.ite _ (fun _ => done _) fun _ => ?_
    refine appConfig.bind fun config => (readConfig config _).bind fun _ => ?_
    refine ((processRules dev port config _).strengthen fun _ contained => contained.1).bind fun ret => ?_
    exact (event _).bind fun _ => pure fun _ _ => trivial
  refine fixNexus9000PaddingBug.bind fun _ => ?_
  refine (load8 fun m contained => Nat.lt_of_lt_of_le (by decide) contained.1.1).bind fun nextProtoId => ?_
  refine Twice.ite _ (fun icmp => ?_) fun _ => rules.strengthen fun _ holds => holds.1
  refine ((icmpAnswer dev port).strengthen ?_).bind fun ret => ?_
  · rintro m ⟨contained,rfl⟩
    exact ⟨contained,icmp⟩
  · refine Twice.ite _ (fun _ => pure fun _ _ => trivial) fun negative => rules.strengthen fun _ holds => holds ?_
    exact Int.not_le.mp negative

theorem arpHandle (dev : Devices) (port : Nat) : Blind (Mbuf.Long 60) (Natasha.arpHandle dev port) fun _ _ => True := by
  have inside : ∀ {off}, off ≤ 60 → ∀ m : Mbuf, m.Long 60 → off ≤ m.pktLen.toNat := fun below _ long => Nat.le_trans below long
  have apart := apart_long 60
  have done : ∀ ret : Int, Blind (Mbuf.Long 60) (Pure.pure ret) fun _ _ => True := fun _ => pure fun _ _ => trivial
  have sent : Blind (Mbuf.Long 60) (Natasha.txSend port) fun _ _ => True := txSend port fun _ _ => trivial
  refine (load16 (inside (by decide))).forget.bind fun arpOp => Twice.ite _ (fun _ => ?_) fun _ => done _
  refine (load32 (inside (by decide))).forget.bind fun arpSip => (load32 (inside (by decide))).forget.bind fun arpTip => ?_
  refine appConfig.bind fun config => ?_
  refine (readPkt fun m m' twin _ => by simp only [Mbuf.vlanId,twin.vlanTci]).forget.bind fun vlan => ?_
  refine (isNatashaPortIp config _ vlan port).bind fun mine => Twice.ite _ (fun _ => done _) fun _ => ?_
  refine (store16 (apart _ _) _).bind fun _ => (loadMac (inside (by decide))).bind fun sAddr => ?_
  refine (storeMac (apart _ _) _).bind fun _ => (storeMac (apart _ _) _).bind fun _ => ?_
  refine (loadMac (inside (by decide))).bind fun arpSha => (storeMac (apart _ _) _).bind fun _ => ?_
  refine (storeMac (apart _ _) _).bind fun _ => (store32 (apart _ _) _).bind fun _ => (store32 (apart _ _) _).bind fun _ => ?_
  exact sent.bind fun _ => pure fun _ _ => trivial

theorem dispatchPacket (dev : Devices) (port : Nat) :
    Blind (fun m => m.Long 60 ∧ (m.olFlags &&& pktRxIpCksumMask ≠ pktRxIpCksumBad →
        m.data.load16 Eth.etherType = rteBeToCpu16 etherTypeIpv4 → m.unpadded.Contained))
      (Natasha.dispatchPacket dev port) fun _ _ => True := by
  have handled : ∀ status : Int, Blind (fun _ => True) (do
      if status < 0 then
        Natasha.bump .dropUnhandledEthertype
        rtePktmbufFree
      return (0 : Int)) fun _ _ => True := fun status =>
    Twice.ite _ (fun _ => (bump _).bind fun _ => (event .free).bind fun _ => pure fun _ _ => trivial) fun _ =>
      pure fun _ _ => trivial
  -- the frame has passed the test of its flags
  have rest : Blind (fun m => m.Long 60 ∧ (m.data.load16 Eth.etherType = rteBeToCpu16 etherTypeIpv4 → m.unpadded.Contained))
      (do
        let ethType ← Natasha.load16 Eth.etherType
        let status ←
          if ethType = rteBeToCpu16 etherTypeIpv4 then Natasha.ipv4Handle dev port
          else if ethType = rteBeToCpu16 etherTypeArp then Natasha.arpHandle dev port
          else Pure.pure (-1)
        if status < 0 then
          Natasha.bump .dropUnhandledEthertype
          rtePktmbufFree
        return (0 : Int)) fun _ _ => True := by
    refine (load16 fun m holds => Nat.le_trans (by decide) holds.1).bind fun ethType => ?_
    refine Twice.ite _ (fun ipv4 => ?_) fun _ => Twice.ite _ (fun _ => ?_) fun _ => ?_
    · refine Blind.strengthen ((ipv4Handle dev port).bind handled) ?_
      rintro m ⟨⟨long,contained⟩,rfl⟩
      exact ⟨long,contained ipv4⟩
    · exact Blind.strengthen ((arpHandle dev port).bind handled) fun _ holds => holds.1.1
    · exact (handled (-1)).strengthen fun _ _ => trivial
  refine (readPkt fun m m' twin _ => twin.olFlags).bind fun olFlags => Twice.ite _ (fun _ => ?_) fun good => ?_
  · exact (bump _).bind fun _ => (event .free).bind fun _ => pure fun _ _ => trivial
  · refine Blind.strengthen (Twice.ite _ (fun _ => (bump _).bind fun _ => rest) fun _ => rest) ?_
    rintro m ⟨⟨long,contained⟩,rfl⟩
    exact ⟨long,contained good⟩

end Blind

/-- What becomes of the frame does not depend on the bytes behind it, under any configuration. -/
def Mbuf.SelfContained (m : Mbuf) : Prop :=
  ∀ (config : AppConfig) (dev : Devices) (port : Nat) (w : Worker) (m' : Mbuf), m.Twin m' →
    (exec (steadyAnswer config) (dispatchPacket dev port) { w with pkt := m }).2.SameFate
      (exec (steadyAnswer config) (dispatchPacket dev port) { w with pkt := m' }).2

theorem selfContained (m : Mbuf) (long : m.Long 60)
    (contained : m.olFlags &&& pktRxIpCksumMask ≠ pktRxIpCksumBad →
      m.data.load16 Eth.etherType = rteBeToCpu16 etherTypeIpv4 → m.unpadded.Contained) : m.SelfContained := by
  intro config dev port w m' twin
  have start : Twins (fun m => m.Long 60 ∧ (m.olFlags &&& pktRxIpCksumMask ≠ pktRxIpCksumBad →
      m.data.load16 Eth.etherType = rteBeToCpu16 etherTypeIpv4 → m.unpadded.Contained))
      { w with pkt := m } { w with pkt := m' } := ⟨.holding w twin,long,contained⟩
  exact ((Blind.dispatchPacket dev port).exec start (steadyAnswer config)).2.1.toSameFate

end Natasha
