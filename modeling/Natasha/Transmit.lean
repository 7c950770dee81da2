import Natasha.Worker

/-! Closed forms of the transmit path. `tx_flush` and `tx_send` load no configuration, so
each has exactly one outcome; callers use these states and never unfold the loops. -/
namespace Natasha

open Interaction

variable {ok : (op : Op) → Ans op → Prop}

@[simp] theorem ensures_event (e : Event) (w : Worker) (post : Unit → Worker → Prop) :
    Ensures ok (event e) w post ↔ post () (w.logged e) := Iff.rfl

@[simp] theorem ensures_readPkt (f : Mbuf → α) (w : Worker) (post : α → Worker → Prop) :
    Ensures ok (readPkt f) w post ↔ post (f w.pkt) (w.logged .read) := Iff.rfl

def Worker.stored (w : Worker) (f : Mbuf → Mbuf) : Worker :=
  { w with pkt := f w.pkt, log := w.log ++ [.write] }

def Worker.bumped (w : Worker) (stat : Stat) : Worker :=
  { w with stats := Function.update w.stats stat (w.stats stat + 1), log := w.log ++ [.bump stat] }

namespace Worker

@[simp] theorem stored_pkt (w : Worker) (f : Mbuf → Mbuf) : (w.stored f).pkt = f w.pkt := rfl
@[simp] theorem stored_txQueues (w : Worker) (f : Mbuf → Mbuf) : (w.stored f).txQueues = w.txQueues := rfl
@[simp] theorem stored_stats (w : Worker) (f : Mbuf → Mbuf) : (w.stored f).stats = w.stats := rfl
@[simp] theorem stored_log (w : Worker) (f : Mbuf → Mbuf) : (w.stored f).log = w.log ++ [.write] := rfl
@[simp] theorem bumped_pkt (w : Worker) (s : Stat) : (w.bumped s).pkt = w.pkt := rfl
@[simp] theorem bumped_txQueues (w : Worker) (s : Stat) : (w.bumped s).txQueues = w.txQueues := rfl
@[simp] theorem bumped_log (w : Worker) (s : Stat) : (w.bumped s).log = w.log ++ [.bump s] := rfl

end Worker

@[simp] theorem ensures_writePkt (f : Mbuf → Mbuf) (w : Worker) (post : Unit → Worker → Prop) :
    Ensures ok (writePkt f) w post ↔ post () (w.stored f) := Iff.rfl

@[simp] theorem ensures_bump (s : Stat) (w : Worker) (post : Unit → Worker → Prop) :
    Ensures ok (bump s) w post ↔ post () (w.bumped s) := Iff.rfl

@[simp] theorem ensures_rtePktmbufFree (w : Worker) (post : Unit → Worker → Prop) :
    Ensures ok rtePktmbufFree w post ↔ post () (w.logged .free) := Iff.rfl

@[simp] theorem ensures_appConfig (w : Worker) (post : ConfigPtr → Worker → Prop) :
    Ensures ok appConfig w post ↔ ∀ p, ok .appConfig p → post p w := Iff.rfl

@[simp] theorem ensures_readConfig (p : ConfigPtr) (m : Member) (w : Worker)
    (post : Unit → Worker → Prop) :
    Ensures ok (readConfig p m) w post ↔ (ok (.read p m) () → post () w) :=
  ⟨fun h => h (),fun h _ => h⟩

@[simp] theorem ensures_loadFlags (p : ConfigPtr) (w : Worker) (post : U32 → Worker → Prop) :
    Ensures ok (loadFlags p) w post ↔ ∀ flags, ok (.flags p) flags → post flags w := Iff.rfl

@[simp] theorem ensures_storeFlags (p : ConfigPtr) (value : U32) (w : Worker)
    (post : Unit → Worker → Prop) :
    Ensures ok (storeFlags p value) w post ↔ (ok (.setFlags p value) () → post () w) :=
  ⟨fun h => h (),fun h _ => h⟩

def Worker.dispatching (w : Worker) (port : Nat) (pkt : Mbuf) : Worker :=
  { w with pkt := pkt, log := w.log ++ [.receive port] }

@[simp] theorem ensures_beginDispatch (port : Nat) (pkt : Mbuf) (w : Worker)
    (post : Unit → Worker → Prop) :
    Ensures ok (beginDispatch port pkt) w post ↔ (ok .dispatch () → post () (w.dispatching port pkt)) :=
  ⟨fun h => h (),fun h _ => h⟩

/-- The events of freeing the mbufs in `remaining` slots from `n` on. -/
def notSent (port n : Nat) : (remaining : Nat) → List Event
  | 0 => []
  | remaining+1 => .bump .dropTxNotsent :: .freeTx port n :: notSent port (n+1) remaining

def addNotSent (stats : Stat → U64) (count : Nat) : Stat → U64 :=
  Function.update stats .dropTxNotsent (stats .dropTxNotsent + .ofNat 64 count)

theorem addNotSent_zero (stats : Stat → U64) : addNotSent stats 0 = stats := by
  simp [addNotSent]

theorem addNotSent_succ (stats : Stat → U64) (count : Nat) :
    addNotSent (Function.update stats .dropTxNotsent (stats .dropTxNotsent + 1)) count =
      addNotSent stats (count+1) := by
  have carry : (1 : U64) + .ofNat 64 count = .ofNat 64 (count+1) := by
    rw [BitVec.add_comm,BitVec.ofNat_add]
    rfl
  simp only [addNotSent,Function.update_idem,Function.update_self]
  rw [BitVec.add_assoc,carry]

theorem ensures_freeNotSent (port n remaining : Nat) (w : Worker) (post : Unit → Worker → Prop) :
    Ensures ok (freeNotSent port n remaining) w post ↔ post () { w with
      stats := addNotSent w.stats remaining, log := w.log ++ notSent port n remaining } := by
  induction remaining generalizing n w with
  | zero => simp [freeNotSent,notSent,addNotSent_zero]
  | succ remaining ih =>
    simp only [freeNotSent,ensures_bind,ensures_bump,ensures_event,ih]
    simp only [Worker.logged,Worker.bumped,notSent,addNotSent_succ,List.append_assoc,
      List.cons_append,List.nil_append]

/-- The events of a flush of `pkts` of which the NIC takes `sent`. -/
def flushEvents (port : Nat) (pkts : List Mbuf) (sent : Nat) : List Event :=
  .burst port pkts sent :: notSent port sent (pkts.length - sent)

/-- What the NIC takes of the mbufs offered next. -/
def Worker.taken (w : Worker) (pkts : List Mbuf) : Nat := min (w.tx 0) pkts.length

def Worker.flushed (w : Worker) (port : Nat) (pkts : List Mbuf) : Worker :=
  { w with
    tx := fun i => w.tx (i+1)
    txQueues := Function.update w.txQueues port .empty
    stats := addNotSent w.stats (pkts.length - w.taken pkts)
    log := w.log ++ flushEvents port pkts (w.taken pkts) }

theorem ensures_txFlush (port : Nat) (pkts : List Mbuf) (w : Worker) (post : Nat → Worker → Prop) :
    Ensures ok (txFlush port pkts) w post ↔
      (pkts = [] → post 0 w) ∧ (pkts ≠ [] → post (w.taken pkts) (w.flushed port pkts)) := by
  by_cases empty : pkts = []
  · simp [txFlush,empty]
  · have some : ¬ pkts.length = 0 := by simpa using empty
    simp only [txFlush,some,if_false,ensures_bind,ensures_freeNotSent,rteEthTxBurst,
      ensures_modifyGet,ensures_modify,ensures_pure,empty,false_implies,true_and,ne_eq,
      not_false_eq_true,true_implies]
    simp only [Worker.setQueue,Worker.flushed,Worker.taken,flushEvents,List.append_assoc,
      List.cons_append,List.nil_append]

/-- The mbuf as `tx_send` stores it. -/
def Mbuf.prepared (m : Mbuf) : Mbuf :=
  { m with
    olFlags := if m.vlanTci ≠ 0#16 then m.olFlags ||| pktTxVlanPkt else m.olFlags
    l2Len := sizeofEtherHdr
    l3Len := sizeofIpv4Hdr }

/-- The accesses of `tx_send` to the mbuf, all before it is stored in the queue. -/
def Mbuf.sendAccesses (m : Mbuf) : List Event :=
  if m.vlanTci ≠ 0#16 then [.read,.write,.write] else [.read,.write]

/-- The worker when `tx_send` has stored the mbuf and not yet looked at the length. -/
def Worker.enqueued (w : Worker) (port : Nat) : Worker :=
  { w with
    pkt := w.pkt.prepared
    log := w.log ++ (w.pkt.sendAccesses ++ [.enqueue port (w.txQueues port).pkts.length]) }

def Worker.filled (w : Worker) (port : Nat) : List Mbuf := (w.txQueues port).pkts ++ [w.pkt.prepared]

theorem ensures_txSend (port : Nat) (w : Worker) (post : Nat → Worker → Prop) :
    Ensures ok (txSend port) w post ↔
      (∀ room : (w.filled port).length < maxTxBurst,
        post 0 ((w.enqueued port).setQueue port ⟨w.filled port,room⟩)) ∧
      (¬(w.filled port).length < maxTxBurst →
        post ((w.enqueued port).taken (w.filled port))
          ((w.enqueued port).flushed port (w.filled port))) := by
  have nonempty : w.filled port ≠ [] := by simp [Worker.filled]
  by_cases vlan : w.pkt.vlanTci = 0#16
  all_goals
    simp only [txSend,ensures_bind,ensures_readPkt,ensures_writePkt,ensures_get,ensures_event,
      ensures_ite,ensures_dite,ensures_modify,ensures_pure,ensures_txFlush,vlan,ne_eq,not_true,
      not_false_eq_true,false_implies,true_implies,true_and,and_true]
    constructor
    · rintro ⟨resting,full⟩
      refine ⟨fun room => ?_,fun room => ?_⟩
      · simpa [Worker.enqueued,Worker.filled,Worker.logged,Worker.stored,Mbuf.prepared,
          Mbuf.sendAccesses,vlan] using resting (by simpa [Worker.filled] using room)
      · simpa [Worker.enqueued,Worker.filled,Worker.logged,Worker.stored,Mbuf.prepared,
          Mbuf.sendAccesses,vlan] using (full (by simpa [Worker.filled] using room)).2 (by simp)
    · rintro ⟨resting,full⟩
      refine ⟨fun room => ?_,fun room => ⟨by simp,fun _ => ?_⟩⟩
      · simpa [Worker.enqueued,Worker.filled,Worker.logged,Worker.stored,Mbuf.prepared,
          Mbuf.sendAccesses,vlan] using resting (by simpa [Worker.filled] using room)
      · simpa [Worker.enqueued,Worker.filled,Worker.logged,Worker.stored,Mbuf.prepared,
          Mbuf.sendAccesses,vlan] using full (by simpa [Worker.filled] using room)

end Natasha
