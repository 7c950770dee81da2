import Natasha.Ledger

/-! One transmit queue over any sequence of `tx_send` and `tx_flush` calls: what is stored where,
what is offered to the NIC in which order, and what becomes of an offer that is taken in part. -/
namespace Natasha

open Interaction

variable {ok : (op : Op) → Ans op → Prop}

/-! ## Calls and what they leave in the log -/

/-- A call on the queue of a port: `tx_send` of an mbuf, or `tx_flush`. -/
inductive TxCall where
  | send (pkt : Mbuf)
  | flush

def TxCall.invoke (port : Nat) : TxCall → M Nat
  | .send pkt => do
    modify fun w => { w with pkt := pkt }
    txSend port
  | .flush => do
    let w ← get
    txFlush port (w.txQueues port).pkts

/-- The values that a sequence of calls returns. -/
def txCalls (port : Nat) : List TxCall → M (List Nat)
  | [] => return []
  | call :: calls => do
    let ret ← call.invoke port
    let rets ← txCalls port calls
    return ret :: rets

/-- The mbuf of a `tx_send`, as the queue holds it. -/
def TxCall.sent : TxCall → List Mbuf
  | .send pkt => [pkt.prepared]
  | .flush => []

namespace Event

def storedSlot (port : Nat) : Event → Option Nat
  | .enqueue p slot => if p = port then some slot else none
  | _ => none

/-- The mbufs of a burst, and how many of them the NIC takes. -/
def burstOf (port : Nat) : Event → Option (List Mbuf × Nat)
  | .burst p offered sent => if p = port then some (offered,sent) else none
  | _ => none

def freedSlot (port : Nat) : Event → Option Nat
  | .freeTx p slot => if p = port then some slot else none
  | _ => none

end Event

def storedSlots (port : Nat) (es : List Event) : List Nat := es.filterMap (Event.storedSlot port)
def bursts (port : Nat) (es : List Event) : List (List Mbuf × Nat) := es.filterMap (Event.burstOf port)
def freedSlots (port : Nat) (es : List Event) : List Nat := es.filterMap (Event.freedSlot port)

@[simp] theorem bursts_nil (port : Nat) : bursts port [] = [] := rfl
@[simp] theorem freedSlots_nil (port : Nat) : freedSlots port [] = [] := rfl

theorem filterMap_notSent (f : Event → Option α) (bump : f (.bump .dropTxNotsent) = none)
    (free : ∀ port slot, f (.freeTx port slot) = none) (port n remaining : Nat) :
    (notSent port n remaining).filterMap f = [] := by
  induction remaining generalizing n with
  | zero => rfl
  | succ remaining ih => simpa [notSent,bump,free] using ih (n+1)

theorem freedSlots_notSent (port n remaining : Nat) :
    freedSlots port (notSent port n remaining) = List.range' n remaining := by
  induction remaining generalizing n with
  | zero => rfl
  | succ remaining ih =>
    rw [List.range'_succ,← ih (n+1)]
    simp [freedSlots,notSent,Event.freedSlot,List.filterMap_cons]

theorem filterMap_sendAccesses (f : Event → Option α) (read : f .read = none) (write : f .write = none) (m : Mbuf) :
    m.sendAccesses.filterMap f = [] := by
  refine List.filterMap_eq_nil_iff.mpr fun e member => ?_
  have access := sendAccesses_quiet m e member
  cases e <;> simp_all [Event.accesses]

section Flush

variable (port : Nat) (pkts : List Mbuf) (sent : Nat)

@[simp] theorem storedSlots_flushEvents : storedSlots port (flushEvents port pkts sent) = [] := by
  simpa [storedSlots,flushEvents,Event.storedSlot] using filterMap_notSent (Event.storedSlot port) rfl (fun _ _ => rfl) port _ _

@[simp] theorem bursts_flushEvents : bursts port (flushEvents port pkts sent) = [(pkts,sent)] := by
  simpa [bursts,flushEvents,Event.burstOf] using filterMap_notSent (Event.burstOf port) rfl (fun _ _ => rfl) port _ _

@[simp] theorem freedSlots_flushEvents :
    freedSlots port (flushEvents port pkts sent) = List.range' sent (pkts.length - sent) := by
  rw [← freedSlots_notSent port]
  rfl

end Flush

/-! ## One call -/

/-- A call, the value it returns and what it does. -/
structure TxRecord where
  call : TxCall
  ret : Nat
  events : List Event

structure TxRecord.Lawful (port : Nat) (r : TxRecord) : Prop where
  /-- `tx_send` stores one mbuf, inside of the array. -/
  stores : match r.call with
    | .send _ => ∃ slot < maxTxBurst, storedSlots port r.events = [slot]
    | .flush => storedSlots port r.events = []
  once : (bursts port r.events).length ≤ 1
  /-- The NIC takes the first mbufs of a burst. -/
  taken : ∀ burst ∈ bursts port r.events, burst.2 ≤ burst.1.length
  /-- The others are freed, each of them once. -/
  freed : freedSlots port r.events = (bursts port r.events).flatMap fun burst =>
    List.range' burst.2 (burst.1.length - burst.2)
  accepted : r.ret = ((bursts port r.events).map Prod.snd).sum

/-- The queue and the counter, from before a sequence of events to after it. -/
structure Drained (port : Nat) (sent : List Mbuf) (es : List Event) (w w' : Worker) : Prop where
  log : w'.log = w.log ++ es
  order : (bursts port es).flatMap Prod.fst ++ (w'.txQueues port).pkts = (w.txQueues port).pkts ++ sent
  dropTxNotsent : w'.stats .dropTxNotsent = w.stats .dropTxNotsent + .ofNat 64 (freedSlots port es).length

theorem Drained.refl (port : Nat) (w : Worker) : Drained port [] [] w w :=
  ⟨(List.append_nil _).symm,(List.append_nil _).symm,(BitVec.add_zero _).symm⟩

theorem Drained.trans (first : Drained port sent es w w') (second : Drained port sent' es' w' w'') :
    Drained port (sent ++ sent') (es ++ es') w w'' where
  log := by rw [second.log,first.log,List.append_assoc]
  order := by
    rw [bursts,List.filterMap_append,List.flatMap_append,List.append_assoc]
    calc _ = (bursts port es).flatMap Prod.fst ++ ((w'.txQueues port).pkts ++ sent') := congrArg _ second.order
      _ = ((w.txQueues port).pkts ++ sent) ++ sent' := by rw [← List.append_assoc,first.order]
      _ = _ := List.append_assoc ..
  dropTxNotsent := by
    rw [second.dropTxNotsent,first.dropTxNotsent,BitVec.add_assoc,← BitVec.ofNat_add,freedSlots,freedSlots,freedSlots,
      List.filterMap_append,List.length_append]

/-- The events of `tx_send` up to the store. -/
def Worker.storeEvents (w : Worker) (port : Nat) : List Event :=
  w.pkt.sendAccesses ++ [.enqueue port (w.txQueues port).pkts.length]

section Store

variable (w : Worker) (port : Nat) (es : List Event)

theorem storedSlots_store :
    storedSlots port (w.storeEvents port ++ es) = (w.txQueues port).pkts.length :: storedSlots port es := by
  rw [storedSlots,Worker.storeEvents,List.filterMap_append,List.filterMap_append,filterMap_sendAccesses _ rfl rfl]
  simp [storedSlots,Event.storedSlot]

theorem bursts_store : bursts port (w.storeEvents port ++ es) = bursts port es := by
  rw [bursts,Worker.storeEvents,List.filterMap_append,List.filterMap_append,filterMap_sendAccesses _ rfl rfl]
  simp [bursts,Event.burstOf,List.filterMap_cons]

theorem freedSlots_store : freedSlots port (w.storeEvents port ++ es) = freedSlots port es := by
  rw [freedSlots,Worker.storeEvents,List.filterMap_append,List.filterMap_append,filterMap_sendAccesses _ rfl rfl]
  simp [freedSlots,Event.freedSlot,List.filterMap_cons]

/-- A send goes on to do what its events after the store say. -/
theorem TxRecord.Lawful.send (ret : Nat) (rest : TxRecord.Lawful port ⟨.flush,ret,es⟩) :
    TxRecord.Lawful port ⟨.send w.pkt,ret,w.storeEvents port ++ es⟩ where
  stores := by
    have none : storedSlots port es = [] := rest.stores
    exact ⟨_,(w.txQueues port).room,by rw [storedSlots_store,none]⟩
  once := by simpa [bursts_store] using rest.once
  taken := by simpa [bursts_store] using rest.taken
  freed := by simpa [bursts_store,freedSlots_store] using rest.freed
  accepted := by simpa [bursts_store] using rest.accepted

end Store

theorem lawful_idle (port : Nat) : TxRecord.Lawful port ⟨.flush,0,[]⟩ :=
  ⟨rfl,Nat.zero_le _,nofun,rfl,rfl⟩

theorem lawful_flush (port : Nat) (pkts : List Mbuf) (sent : Nat) (le : sent ≤ pkts.length) :
    TxRecord.Lawful port ⟨.flush,sent,flushEvents port pkts sent⟩ := by
  constructor
  · simp
  · simp
  · simpa using le
  · simp
  · simp

theorem TxCall.invoke_lawful (port : Nat) (call : TxCall) (w : Worker) :
    Ensures ok (call.invoke port) w fun ret w' =>
      ∃ es, TxRecord.Lawful port ⟨call,ret,es⟩ ∧ Drained port call.sent es w w' := by
  cases call with
  | send pkt =>
    simp only [invoke,ensures_bind,ensures_modify,ensures_txSend]
    refine ⟨fun room => ⟨_,.send { w with pkt := pkt } port [] 0 (lawful_idle port),?_⟩,fun full =>
      ⟨_,.send { w with pkt := pkt } port (flushEvents port _ _) _ (lawful_flush port _ _ (Nat.min_le_right ..)),?_⟩⟩
    · constructor
      · simp [Worker.enqueued,Worker.storeEvents]
      · rw [bursts_store]
        simp [Worker.filled,TxCall.sent]
      · rw [freedSlots_store]
        simp [Worker.enqueued]
    · constructor
      · simp [Worker.flushed,Worker.enqueued,Worker.storeEvents]
      · simp [bursts_store,Worker.flushed,Worker.filled,TxCall.sent,TxQueue.empty]
      · simp [freedSlots_store,Worker.flushed,Worker.enqueued,addNotSent]
  | flush =>
    simp only [invoke,ensures_bind,ensures_get,ensures_txFlush]
    refine ⟨fun empty => ⟨[],lawful_idle port,.refl port w⟩,fun nonempty =>
      ⟨_,lawful_flush port _ _ (Nat.min_le_right ..),?_⟩⟩
    constructor
    · rfl
    · simp [Worker.flushed,TxQueue.empty,TxCall.sent]
    · simp [Worker.flushed,addNotSent]

/-! ## Any number of calls -/

theorem txCalls_lawful (port : Nat) (calls : List TxCall) (w : Worker) :
    Ensures ok (txCalls port calls) w fun rets w' => ∃ records : List TxRecord,
      records.map TxRecord.call = calls ∧ records.map TxRecord.ret = rets ∧ (∀ r ∈ records, r.Lawful port) ∧
        Drained port (calls.flatMap TxCall.sent) (records.flatMap TxRecord.events) w w' := by
  induction calls generalizing w with
  | nil => exact ⟨[],rfl,rfl,nofun,.refl port w⟩
  | cons call calls ih =>
    simp only [txCalls,ensures_bind,ensures_pure]
    refine (call.invoke_lawful port w).mono fun ret w₁ first => (ih w₁).mono fun rets w₂ later => ?_
    obtain ⟨es,lawful,here⟩ := first
    obtain ⟨records,calls,rets,all,rest⟩ := later
    exact ⟨⟨call,ret,es⟩ :: records,by simp [calls],by simp [rets],List.forall_mem_cons.mpr ⟨lawful,all⟩,
      here.trans rest⟩

/-- From an empty queue on, what is offered and what waits is what was sent. -/
theorem txCalls_discipline (port : Nat) (calls : List TxCall) (w : Worker) (empty : w.txQueues port = .empty) :
    Ensures ok (txCalls port calls) w fun rets w' => ∃ records : List TxRecord,
      records.map TxRecord.call = calls ∧ records.map TxRecord.ret = rets ∧ (∀ r ∈ records, r.Lawful port) ∧
      w'.log = w.log ++ records.flatMap TxRecord.events ∧
      (bursts port (records.flatMap TxRecord.events)).flatMap Prod.fst ++ (w'.txQueues port).pkts =
        calls.flatMap TxCall.sent ∧
      w'.stats .dropTxNotsent =
        w.stats .dropTxNotsent + .ofNat 64 (freedSlots port (records.flatMap TxRecord.events)).length := by
  refine (txCalls_lawful port calls w).mono fun rets w' run => ?_
  obtain ⟨records,same,returned,lawful,drained⟩ := run
  have order := drained.order
  rw [empty] at order
  exact ⟨records,same,returned,lawful,drained.log,order,drained.dropTxNotsent⟩

/-- A frame with a VLAN tag. -/
def taggedFrame : Mbuf where
  data := .ofBytes [2,0,0,0,0,1,2,0,0,0,0,2,8,0]
  pktLen := 60
  olFlags := 0
  vlanTci := 7
  l2Len := 0
  l3Len := 0

/-- A flush of one mbuf, and one that the 32nd of the next brings about. -/
@[irreducible] def overflowing : List TxCall := .send taggedFrame :: .flush :: List.replicate 33 (.send taggedFrame)

/-- A NIC that takes three of each burst. -/
def threeTaken : Worker := .start taggedFrame (fun _ => ⟨[],Nat.zero_le _⟩) fun _ => 3

theorem txCalls_discipline_overflowing :
    threeTaken.txQueues 1 = .empty ∧ Ensures anyAnswer (txCalls 1 overflowing) threeTaken fun rets w' =>
      ∃ records : List TxRecord,
        records.map TxRecord.call = overflowing ∧ records.map TxRecord.ret = rets ∧ (∀ r ∈ records, r.Lawful 1) ∧
        w'.log = threeTaken.log ++ records.flatMap TxRecord.events ∧
        (bursts 1 (records.flatMap TxRecord.events)).flatMap Prod.fst ++ (w'.txQueues 1).pkts =
          overflowing.flatMap TxCall.sent ∧
        w'.stats .dropTxNotsent =
          threeTaken.stats .dropTxNotsent + .ofNat 64 (freedSlots 1 (records.flatMap TxRecord.events)).length :=
  ⟨rfl,txCalls_discipline 1 overflowing threeTaken rfl⟩

end Natasha
