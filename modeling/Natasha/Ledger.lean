import Mathlib.Algebra.BigOperators.Group.List.Basic
import Natasha.Transmit

/-! Reading the event log. `Stage.next` is the life of one mbuf between its reception and the
end of its dispatch: which events are lawful while the worker owns it, while it owes a
counter or a free, and after it is gone. `Books` ties the log to counters and queues. -/
namespace Natasha

open Interaction

/-- The counters of dropped packets: all but `rx_bad_l4_cksum`. -/
def Stat.isDrop (s : Stat) : Bool := s != .rxBadL4Cksum

namespace Event

def consumes : Event → Bool
  | .free | .enqueue _ _ => true
  | _ => false

def accesses : Event → Bool
  | .read | .write => true
  | _ => false

def isBump (s : Stat) : Event → Bool
  | .bump t => t == s
  | _ => false

def isFree : Event → Bool
  | .free | .freeTx _ _ => true
  | _ => false

def isFreeTx (port slot : Nat) : Event → Bool
  | .freeTx p n => p == port && n == slot
  | _ => false

def isQueueFree : Event → Bool
  | .freeTx _ _ => true
  | _ => false

def isEnqueue : Event → Bool
  | .enqueue _ _ => true
  | _ => false

def isEnqueueOn (port : Nat) : Event → Bool
  | .enqueue p _ => p == port
  | _ => false

def isReceive : Event → Bool
  | .receive _ => true
  | _ => false

/-- The rules ran to the end without a breaking action. -/
def isEnd : Event → Bool
  | .rules ret => 0 ≤ ret
  | _ => false

def queue : Event → Option Nat
  | .enqueue port _ | .burst port _ _ => some port
  | _ => none

/-- The mbufs a burst offers, those of one queue and of any, and those the NIC takes. -/
def offeredOn (port : Nat) : Event → Nat
  | .burst p offered _ => if p = port then offered.length else 0
  | _ => 0

def offered : Event → Nat
  | .burst _ offered _ => offered.length
  | _ => 0

def accepted : Event → Nat
  | .burst _ _ sent => sent
  | _ => 0

end Event

def consumptions (es : List Event) : Nat := es.countP Event.consumes
def bumps (s : Stat) (es : List Event) : Nat := es.countP (Event.isBump s)
def freed (es : List Event) : Nat := es.countP Event.isFree
def freedQueued (es : List Event) : Nat := es.countP Event.isQueueFree
def enqueued (es : List Event) : Nat := es.countP Event.isEnqueue
def enqueuedOn (port : Nat) (es : List Event) : Nat := es.countP (Event.isEnqueueOn port)
def received (es : List Event) : Nat := es.countP Event.isReceive
def ended (es : List Event) : Nat := es.countP Event.isEnd
def offeredOn (port : Nat) (es : List Event) : Nat := (es.map (Event.offeredOn port)).sum
def offered (es : List Event) : Nat := (es.map Event.offered).sum
def accepted (es : List Event) : Nat := (es.map Event.accepted).sum

section Lists
variable (e : Event) (xs ys : List Event)
@[simp] theorem bumps_nil (s : Stat) : bumps s [] = 0 := rfl
@[simp] theorem enqueuedOn_nil (port : Nat) : enqueuedOn port [] = 0 := rfl
@[simp] theorem offeredOn_nil (port : Nat) : offeredOn port [] = 0 := rfl
@[simp] theorem bumps_cons (s : Stat) :
    bumps s (e :: xs) = bumps s xs + if e.isBump s then 1 else 0 := List.countP_cons ..
@[simp] theorem freed_cons : freed (e :: xs) = freed xs + if e.isFree then 1 else 0 := List.countP_cons ..
@[simp] theorem freed_append : freed (xs ++ ys) = freed xs + freed ys := List.countP_append
@[simp] theorem enqueuedOn_cons (port : Nat) :
    enqueuedOn port (e :: xs) = enqueuedOn port xs + if e.isEnqueueOn port then 1 else 0 :=
  List.countP_cons ..
@[simp] theorem offeredOn_cons (port : Nat) :
    offeredOn port (e :: xs) = e.offeredOn port + offeredOn port xs := by simp [offeredOn]
@[simp] theorem consumptions_append : consumptions (xs ++ ys) = consumptions xs + consumptions ys :=
  List.countP_append
@[simp] theorem bumps_append (s : Stat) : bumps s (xs ++ ys) = bumps s xs + bumps s ys :=
  List.countP_append
@[simp] theorem enqueuedOn_append (port : Nat) :
    enqueuedOn port (xs ++ ys) = enqueuedOn port xs + enqueuedOn port ys := List.countP_append
@[simp] theorem freedQueued_append : freedQueued (xs ++ ys) = freedQueued xs + freedQueued ys :=
  List.countP_append
@[simp] theorem offered_append : offered (xs ++ ys) = offered xs + offered ys := by simp [offered]
@[simp] theorem received_append : received (xs ++ ys) = received xs + received ys := List.countP_append
@[simp] theorem ended_append : ended (xs ++ ys) = ended xs + ended ys := List.countP_append
@[simp] theorem offeredOn_append (port : Nat) :
    offeredOn port (xs ++ ys) = offeredOn port xs + offeredOn port ys := by simp [offeredOn]
@[simp] theorem accepted_append : accepted (xs ++ ys) = accepted xs + accepted ys := by simp [accepted]
end Lists

/-- Where one mbuf stands. -/
inductive Stage where
  /-- The worker owns it. -/
  | held
  /-- The worker owns it and executes an action that must end its processing. -/
  | breaking
  /-- A drop counter was incremented for it; the free is owed. -/
  | counted
  /-- It was freed; its counter is owed. -/
  | uncounted
  | freed
  /-- It is in a transmit queue. -/
  | queued (port slot : Nat)
  /-- The enqueue filled the queue, which was offered: `remaining` slots from `next` on are to
  be counted and freed. -/
  | flushing (port next remaining : Nat)
  | releasing (port next remaining : Nat)
  /-- The rules ran to the end: nobody owns it. -/
  | ended
  deriving DecidableEq

/-- Actions that end the processing of a packet whatever it holds. -/
def Action.isBreaking : Action → Bool
  | .out _ | .drop => true
  | _ => false

namespace Stage

/-- The counters that account for an mbuf freed in its own dispatch. -/
def ownDrop (s : Stat) : Bool := s != .rxBadL4Cksum && s != .dropTxNotsent

/-- Lawful events. Everything not listed is a violation: an access or a second free of an
mbuf that is gone, a counter without its free, a free without its counter. -/
def next : Stage → Event → Option Stage
  | .held, .read | .held, .write => some .held
  | .held, .call action => some (if action.isBreaking then .breaking else .held)
  | .held, .rules ret => if ret < 0 then none else some .ended
  | .held, .bump s => if ownDrop s then some .counted else if s = .rxBadL4Cksum then some .held else none
  | .held, .free => some .uncounted
  | .held, .enqueue port slot => some (.queued port slot)
  | .breaking, .read | .breaking, .write => some .breaking
  | .breaking, .bump s => if ownDrop s then some .counted else none
  | .breaking, .enqueue port slot => some (.queued port slot)
  | .counted, .free => some .freed
  | .uncounted, .bump s => if ownDrop s then some .freed else none
  | .freed, .rules ret => if ret < 0 then some .freed else none
  | .queued port slot, .rules ret => if ret < 0 then some (.queued port slot) else none
  | .queued port slot, .burst p offered sent =>
    if p = port ∧ offered.length = slot+1 ∧ sent ≤ offered.length then
      some (.flushing port sent (offered.length - sent))
    else none
  | .flushing port n (remaining+1), .bump s =>
    if s = .dropTxNotsent then some (.releasing port n remaining) else none
  | .flushing port n 0, .rules ret => if ret < 0 then some (.flushing port n 0) else none
  | .releasing port n remaining, .freeTx p slot =>
    if p = port ∧ slot = n then some (.flushing port (n+1) remaining) else none
  | _, _ => none

/-- Everything a lawful event can do to a stage. -/
inductive Moves : Stage → Event → Stage → Prop
  | read : Moves .held .read .held
  | write : Moves .held .write .held
  | call (going : action.isBreaking = false) : Moves .held (.call action) .held
  | breaks (breaking : action.isBreaking = true) : Moves .held (.call action) .breaking
  | ends (nonneg : 0 ≤ ret) : Moves .held (.rules ret) .ended
  | badL4 : Moves .held (.bump .rxBadL4Cksum) .held
  | counts (own : ownDrop stat = true) : Moves .held (.bump stat) .counted
  | frees : Moves .held .free .uncounted
  | stores (port slot : Nat) : Moves .held (.enqueue port slot) (.queued port slot)
  | breakingRead : Moves .breaking .read .breaking
  | breakingWrite : Moves .breaking .write .breaking
  | breakingCounts (own : ownDrop stat = true) : Moves .breaking (.bump stat) .counted
  | breakingStores (port slot : Nat) : Moves .breaking (.enqueue port slot) (.queued port slot)
  | freesCounted : Moves .counted .free .freed
  | countsFreed (own : ownDrop stat = true) : Moves .uncounted (.bump stat) .freed
  | freedReturns (negative : ret < 0) : Moves .freed (.rules ret) .freed
  | queuedReturns (port slot : Nat) (negative : ret < 0) :
      Moves (.queued port slot) (.rules ret) (.queued port slot)
  | flushes (port slot sent : Nat) (pkts : List Mbuf) (filled : pkts.length = slot+1) (bounded : sent ≤ pkts.length) :
      Moves (.queued port slot) (.burst port pkts sent) (.flushing port sent (pkts.length - sent))
  | countsSlot (port n remaining : Nat) : Moves (.flushing port n (remaining+1)) (.bump .dropTxNotsent) (.releasing port n remaining)
  | flushedReturns (port n : Nat) (negative : ret < 0) : Moves (.flushing port n 0) (.rules ret) (.flushing port n 0)
  | freesSlot (port n remaining : Nat) : Moves (.releasing port n remaining) (.freeTx port n) (.flushing port (n+1) remaining)

theorem next_moves {s t : Stage} {e : Event} (lawful : s.next e = some t) : Moves s e t := by
  unfold next at lawful
  split at lawful
  case h_5 stat =>
    split at lawful
    case isTrue own => exact Option.some.inj lawful ▸ .counts own
    case isFalse =>
      obtain ⟨rfl,same⟩ := Option.ite_none_right_eq_some.1 lawful
      exact Option.some.inj same ▸ .badL4
  all_goals simp only [Option.ite_none_right_eq_some,Option.ite_none_left_eq_some,Option.some.injEq,
    reduceCtorEq] at lawful
  case h_1 => exact lawful ▸ .read
  case h_2 => exact lawful ▸ .write
  case h_3 action =>
    cases breaking : action.isBreaking
    · exact (by simpa [breaking] using lawful : held = t) ▸ .call breaking
    · exact (by simpa [breaking] using lawful : Stage.breaking = t) ▸ .breaks breaking
  case h_4 => exact lawful.2 ▸ .ends (not_lt.1 lawful.1)
  case h_6 => exact lawful ▸ .frees
  case h_7 port slot => exact lawful ▸ .stores port slot
  case h_8 => exact lawful ▸ .breakingRead
  case h_9 => exact lawful ▸ .breakingWrite
  case h_10 => exact lawful.2 ▸ .breakingCounts lawful.1
  case h_11 port slot => exact lawful ▸ .breakingStores port slot
  case h_12 => exact lawful ▸ .freesCounted
  case h_13 => exact lawful.2 ▸ .countsFreed lawful.1
  case h_14 => exact lawful.2 ▸ .freedReturns lawful.1
  case h_15 port slot ret => exact lawful.2 ▸ .queuedReturns port slot lawful.1
  case h_16 port slot _ pkts sent =>
    obtain ⟨⟨rfl,filled,bounded⟩,rfl⟩ := lawful
    exact .flushes _ slot sent pkts filled bounded
  case h_17 port n remaining _ =>
    obtain ⟨rfl,rfl⟩ := lawful
    exact .countsSlot port n remaining
  case h_18 port n _ => exact lawful.2 ▸ .flushedReturns port n lawful.1
  case h_19 port n remaining _ _ =>
    obtain ⟨⟨rfl,rfl⟩,rfl⟩ := lawful
    exact .freesSlot _ _ remaining

def run (s : Stage) (es : List Event) : Option Stage := es.foldlM next s

@[simp] theorem run_nil (s : Stage) : s.run [] = some s := rfl

@[simp] theorem run_cons (s : Stage) (e : Event) (es : List Event) :
    s.run (e :: es) = (s.next e).bind fun t => t.run es := rfl

theorem run_append (s t : Stage) (xs ys : List Event) (first : s.run xs = some t) :
    s.run (xs ++ ys) = t.run ys := by
  rw [run,List.foldlM_append]
  simp only [run] at first
  rw [first]
  rfl

def Consumed : Stage → Prop
  | .freed | .queued _ _ => True
  | .flushing _ _ remaining => remaining = 0
  | _ => False

theorem run_notSent (port n remaining : Nat) :
    (Stage.flushing port n remaining).run (notSent port n remaining) =
      some (.flushing port (n+remaining) 0) := by
  induction remaining generalizing n with
  | zero => rfl
  | succ remaining ih =>
    have shifted := ih (n+1)
    rw [show n+1+remaining = n+(remaining+1) by omega] at shifted
    simpa [notSent,next] using shifted

/-! ### What a lawful history says -/

theorem run_split {s t : Stage} {xs ys : List Event} (lawful : s.run (xs ++ ys) = some t) :
    ∃ m, s.run xs = some m ∧ m.run ys = some t := by
  rw [run,List.foldlM_append] at lawful
  exact Option.bind_eq_some_iff.mp lawful

/-- One once the mbuf was freed or stored in a queue. -/
def credit : Stage → Nat
  | .held | .breaking | .counted | .ended => 0
  | .uncounted | .freed | .queued _ _ | .flushing _ _ _ | .releasing _ _ _ => 1

theorem credit_le (s : Stage) : s.credit ≤ 1 := by cases s <;> simp [credit]

theorem Consumed.credit {s : Stage} (consumed : s.Consumed) : s.credit = 1 := by
  cases s <;> simp_all [Consumed,Stage.credit]

theorem next_credit {s t : Stage} {e : Event} (lawful : s.next e = some t) :
    t.credit = s.credit + if e.consumes then 1 else 0 := by
  cases next_moves lawful <;> simp [credit,Event.consumes]

/-- What every lawful event balances, every lawful history does. -/
theorem run_balance (f : Stage → Nat) (gain loss : Event → Nat)
    (step : ∀ s e t, next s e = some t → f s + gain e = f t + loss e) {s t : Stage} {es : List Event}
    (lawful : s.run es = some t) : f s + (es.map gain).sum = f t + (es.map loss).sum := by
  induction es generalizing s with
  | nil =>
    cases lawful
    rfl
  | cons e es ih =>
    obtain ⟨m,first,rest⟩ := Option.bind_eq_some_iff.mp lawful
    have head := step s e m first
    have tail := ih rest
    simp only [List.map_cons,List.sum_cons]
    omega

theorem sum_map_ite (p : Event → Bool) (es : List Event) :
    (es.map fun e => if p e then 1 else 0).sum = es.countP p := by
  induction es with
  | nil => rfl
  | cons e es ih => simp [List.countP_cons,ih,Nat.add_comm]

theorem run_count (f : Stage → Nat) (p : Event → Bool)
    (step : ∀ s e t, next s e = some t → f t = f s + if p e then 1 else 0) {s t : Stage}
    {es : List Event} (lawful : s.run es = some t) : f t = f s + es.countP p := by
  have balance := run_balance f (fun e => if p e then 1 else 0) (fun _ => 0)
    (fun s e t h => (step s e t h).symm) lawful
  simpa [sum_map_ite] using balance.symm

theorem run_credit {s t : Stage} {es : List Event} (lawful : s.run es = some t) :
    t.credit = s.credit + consumptions es :=
  run_count credit Event.consumes (fun _ _ _ => next_credit) lawful

theorem consumptions_eq {t : Stage} {es : List Event} (lawful : Stage.held.run es = some t) :
    consumptions es = t.credit := by
  rw [run_credit lawful]
  simp [credit]

theorem next_gone {s t : Stage} {e : Event} (lawful : s.next e = some t) (gone : s.credit = 1) :
    e.accesses = false := by
  cases next_moves lawful <;> simp_all [credit,Event.accesses]

/-- Once consumed, the mbuf is neither accessed nor consumed again. -/
theorem run_gone {s t : Stage} {es : List Event} (lawful : s.run es = some t) (gone : s.credit = 1) :
    ∀ e ∈ es, e.accesses = false ∧ e.consumes = false := by
  induction es generalizing s with
  | nil => simp
  | cons e es ih =>
    obtain ⟨m,first,rest⟩ := Option.bind_eq_some_iff.mp lawful
    have credit := next_credit first
    have bound := credit_le m
    have quiet : e.consumes = false := by
      apply Bool.eq_false_iff.mpr
      intro consumes
      rw [consumes,if_pos rfl] at credit
      omega
    rw [quiet] at credit
    intro x member
    rcases List.mem_cons.mp member with rfl | later
    · exact ⟨next_gone first gone,quiet⟩
    · exact ih rest (by simpa [gone] using credit) x later

/-- The stages of a packet whose rules can still run, or ran, to the end come from `held`, by
an event that breaks nothing off. -/
theorem next_kept {s t : Stage} {e : Event} (lawful : s.next e = some t)
    (kept : t = .held ∨ t = .ended) :
    s = .held ∧ (t = .ended → ∃ ret, 0 ≤ ret ∧ e = .rules ret) ∧
      (∀ action, action.isBreaking = true → e ≠ .call action) ∧ e ≠ .bump .dropNoRule := by
  cases next_moves lawful with
  | read | write => simp
  | call going =>
    refine ⟨rfl,by simp,fun action breaking same => ?_,by simp⟩
    obtain rfl := Event.call.inj same
    simp [going] at breaking
  | ends nonneg => simp [nonneg]
  | badL4 => simp
  | _ => simp at kept

theorem run_kept {s t : Stage} {es : List Event} (lawful : s.run es = some t)
    (kept : t = .held ∨ t = .ended) :
    (s = .held ∨ s = .ended) ∧ (s = .held → t = .ended → ∃ ret, 0 ≤ ret ∧ Event.rules ret ∈ es) ∧
      (∀ action, action.isBreaking = true → Event.call action ∉ es) ∧ Event.bump .dropNoRule ∉ es := by
  induction es generalizing s with
  | nil =>
    cases lawful
    exact ⟨kept,by rintro rfl ⟨⟩,by simp,by simp⟩
  | cons e es ih =>
    obtain ⟨m,first,rest⟩ := Option.bind_eq_some_iff.mp lawful
    obtain ⟨stage,returned,calls,bumped⟩ := ih rest
    obtain ⟨held,last,call,bump⟩ := next_kept first stage
    refine ⟨.inl held,fun _ ended => ?_,fun action breaking => ?_,?_⟩
    · rcases stage with stage | stage
      · obtain ⟨ret,nonneg,member⟩ := returned stage ended
        exact ⟨ret,nonneg,List.mem_cons_of_mem _ member⟩
      · obtain ⟨ret,nonneg,rfl⟩ := last stage
        exact ⟨ret,nonneg,List.mem_cons_self⟩
    · simpa using ⟨(call action breaking).symm,calls action breaking⟩
    · simpa using ⟨bump.symm,bumped⟩

theorem next_rules {s t : Stage} {ret : Int} (lawful : s.next (.rules ret) = some t) :
    (ret < 0 ∧ t.credit = 1) ∨ (0 ≤ ret ∧ t = .ended) := by
  cases next_moves lawful with
  | ends nonneg => exact .inr ⟨nonneg,rfl⟩
  | freedReturns negative => exact .inl ⟨negative,rfl⟩
  | queuedReturns port slot negative => exact .inl ⟨negative,rfl⟩
  | flushedReturns port n negative => exact .inl ⟨negative,rfl⟩

theorem run_ended {t : Stage} {es : List Event} (lawful : Stage.ended.run es = some t) :
    t = .ended := by
  cases es with
  | nil => exact (Option.some.inj lawful).symm
  | cons e es => simp [next] at lawful

/-- The value of `process_rules` tells whether the mbuf is gone. -/
theorem run_rules {t : Stage} {es : List Event} {ret : Int} (lawful : Stage.held.run es = some t)
    (member : Event.rules ret ∈ es) : ret < 0 ↔ t.credit = 1 := by
  obtain ⟨before,after,rfl⟩ := List.append_of_mem member
  obtain ⟨m,_,rest⟩ := run_split lawful
  obtain ⟨m',first,rest⟩ := Option.bind_eq_some_iff.mp rest
  rcases next_rules first with ⟨negative,gone⟩ | ⟨nonneg,rfl⟩
  · have final := run_credit rest
    have bound := credit_le t
    constructor <;> omega
  · rw [run_ended rest]
    simp [Stage.credit]
    omega

/-- The slots of a queue that a flush on the way to a stage may have freed. -/
def releases (port slot : Nat) : Stage → Nat
  | .flushing p n _ | .releasing p n _ => if p = port ∧ slot < n then 1 else 0
  | _ => 0

theorem next_releases {s t : Stage} {e : Event} (port slot : Nat) (lawful : s.next e = some t) :
    s.releases port slot + (if e.isFreeTx port slot then 1 else 0) ≤ t.releases port slot := by
  cases next_moves lawful with
  | countsSlot p n remaining => simp [releases,Event.isFreeTx]
  | freesSlot p n remaining =>
    by_cases same : p = port
    · simp only [releases,Event.isFreeTx,same,true_and,beq_self_eq_true,Bool.true_and,beq_iff_eq]
      split_ifs <;> omega
    · simp [releases,Event.isFreeTx,same]
  | _ => simp [releases,Event.isFreeTx]

theorem run_releases {s t : Stage} {es : List Event} (port slot : Nat) (lawful : s.run es = some t) :
    s.releases port slot + es.countP (Event.isFreeTx port slot) ≤ t.releases port slot := by
  induction es generalizing s with
  | nil =>
    cases lawful
    simp
  | cons e es ih =>
    obtain ⟨m,first,rest⟩ := Option.bind_eq_some_iff.mp lawful
    have head := next_releases port slot first
    have tail := ih rest
    rw [List.countP_cons]
    omega

theorem releases_le (s : Stage) (port slot : Nat) : s.releases port slot ≤ 1 := by
  cases s <;> simp [releases] <;> split <;> simp

end Stage

def QueuesIn (ports : Nat → Prop) (es : List Event) : Prop :=
  ∀ e ∈ es, ∀ port, e.queue = some port → ports port

@[simp] theorem queuesIn_nil (ports : Nat → Prop) : QueuesIn ports [] := by simp [QueuesIn]

@[simp] theorem queuesIn_cons (ports : Nat → Prop) (e : Event) (es : List Event) :
    QueuesIn ports (e :: es) ↔ (∀ port, e.queue = some port → ports port) ∧ QueuesIn ports es :=
  List.forall_mem_cons

@[simp] theorem queuesIn_append (ports : Nat → Prop) (xs ys : List Event) :
    QueuesIn ports (xs ++ ys) ↔ QueuesIn ports xs ∧ QueuesIn ports ys :=
  List.forall_mem_append

/-! ### The events of a flush -/

theorem bumps_notSent (s : Stat) (port n remaining : Nat) :
    bumps s (notSent port n remaining) = if s = .dropTxNotsent then remaining else 0 := by
  induction remaining generalizing n with
  | zero => simp [notSent]
  | succ remaining ih =>
    simp only [notSent,bumps_cons,ih,Event.isBump]
    by_cases same : s = .dropTxNotsent
    · simp [same]
    · simp [same,Ne.symm same]

theorem countP_notSent (p : Event → Bool) (bump : p (.bump .dropTxNotsent) = false)
    (free : ∀ port slot, p (.freeTx port slot) = false) (port n remaining : Nat) :
    (notSent port n remaining).countP p = 0 := by
  induction remaining generalizing n with
  | zero => rfl
  | succ remaining ih => simpa [notSent,List.countP_cons,bump,free] using ih (n+1)

theorem sum_notSent (f : Event → Nat) (bump : f (.bump .dropTxNotsent) = 0)
    (free : ∀ port slot, f (.freeTx port slot) = 0) (port n remaining : Nat) :
    ((notSent port n remaining).map f).sum = 0 := by
  induction remaining generalizing n with
  | zero => rfl
  | succ remaining ih => simpa [notSent,bump,free] using ih (n+1)

theorem offeredOn_notSent (q port n remaining : Nat) : offeredOn q (notSent port n remaining) = 0 :=
  sum_notSent _ rfl (fun _ _ => rfl) port n remaining

theorem enqueuedOn_notSent (q port n remaining : Nat) : enqueuedOn q (notSent port n remaining) = 0 :=
  countP_notSent _ rfl (fun _ _ => rfl) port n remaining

@[simp] theorem bumps_flushEvents (s : Stat) (port : Nat) (pkts : List Mbuf) (sent : Nat) :
    bumps s (flushEvents port pkts sent) = if s = .dropTxNotsent then pkts.length - sent else 0 := by
  simp [flushEvents,bumps_notSent,Event.isBump]

@[simp] theorem offeredOn_flushEvents (q port : Nat) (pkts : List Mbuf) (sent : Nat) :
    offeredOn q (flushEvents port pkts sent) = if port = q then pkts.length else 0 := by
  simp [flushEvents,offeredOn_notSent,Event.offeredOn]

@[simp] theorem enqueuedOn_flushEvents (q port : Nat) (pkts : List Mbuf) (sent : Nat) :
    enqueuedOn q (flushEvents port pkts sent) = 0 := by
  simp [flushEvents,enqueuedOn_notSent,Event.isEnqueueOn]

theorem queuesIn_notSent (ports : Nat → Prop) (port n remaining : Nat) :
    QueuesIn ports (notSent port n remaining) := by
  induction remaining generalizing n with
  | zero => simp [notSent]
  | succ remaining ih => simp [notSent,Event.queue,ih]

@[simp] theorem queuesIn_flushEvents (ports : Nat → Prop) (port : Nat) (pkts : List Mbuf) (sent : Nat) :
    QueuesIn ports (flushEvents port pkts sent) ↔ ports port := by
  simp [flushEvents,Event.queue,queuesIn_notSent]

/-- The log since `w₀` is `es`, and the counters and the queues agree with it. `ports` are
the queues that may be used. -/
structure Books (ports : Nat → Prop) (w₀ w : Worker) (es : List Event) : Prop where
  log : w.log = w₀.log ++ es
  stats : ∀ s, w.stats s = w₀.stats s + .ofNat 64 (bumps s es)
  queues : ∀ port, (w.txQueues port).pkts.length + offeredOn port es =
    (w₀.txQueues port).pkts.length + enqueuedOn port es
  allowed : QueuesIn ports es

namespace Books

variable {ports : Nat → Prop}

theorem refl (w : Worker) : Books ports w w [] :=
  ⟨by simp,by simp,by simp,by simp⟩

theorem trans (first : Books ports w₀ w₁ xs) (second : Books ports w₁ w₂ ys) :
    Books ports w₀ w₂ (xs ++ ys) where
  log := by rw [second.log,first.log,List.append_assoc]
  stats s := by
    rw [second.stats,first.stats,bumps_append,BitVec.ofNat_add,BitVec.add_assoc]
  queues port := by
    have a := first.queues port
    have b := second.queues port
    rw [offeredOn_append,enqueuedOn_append]
    omega
  allowed := (queuesIn_append ..).mpr ⟨first.allowed,second.allowed⟩

/-- Events with no counter and no queue behind them. -/
def plain : Event → Bool
  | .bump _ | .enqueue _ _ | .burst _ _ _ => false
  | _ => true

theorem logged (w : Worker) (e : Event) (quiet : plain e = true) : Books ports w (w.logged e) [e] := by
  cases e with
  | bump | enqueue | burst => simp [plain] at quiet
  | _ =>
    exact ⟨rfl,by simp [Event.isBump],by simp [Event.offeredOn,Event.isEnqueueOn],by simp [Event.queue]⟩

theorem stored (w : Worker) (f : Mbuf → Mbuf) : Books ports w (w.stored f) [.write] :=
  ⟨rfl,by simp [Event.isBump],by simp [Event.offeredOn,Event.isEnqueueOn],by simp [Event.queue]⟩

theorem bumped (w : Worker) (s : Stat) : Books ports w (w.bumped s) [.bump s] where
  log := rfl
  stats t := by
    by_cases same : t = s
    · subst t
      simp [Worker.bumped,Event.isBump]
    · simp [Worker.bumped,Event.isBump,Function.update_of_ne same,Ne.symm same]
  queues port := by simp [Event.offeredOn,Event.isEnqueueOn]
  allowed := by simp [Event.queue]

theorem flushed_stats (w : Worker) (port : Nat) (pkts : List Mbuf) (s : Stat) :
    (w.flushed port pkts).stats s =
      w.stats s + .ofNat 64 (bumps s (flushEvents port pkts (w.taken pkts))) := by
  rw [bumps_flushEvents]
  by_cases same : s = .dropTxNotsent
  · subst s
    simp [Worker.flushed,addNotSent]
  · simp [Worker.flushed,addNotSent,same]

theorem flushed (w : Worker) (port : Nat) (allowed : ports port) :
    Books ports w (w.flushed port (w.txQueues port).pkts)
      (flushEvents port (w.txQueues port).pkts (w.taken (w.txQueues port).pkts)) where
  log := rfl
  stats := flushed_stats w port _
  queues q := by
    by_cases same : q = port
    · subst q
      simp [Worker.flushed,TxQueue.empty]
    · simp [Worker.flushed,Function.update_of_ne same,Ne.symm same]
  allowed := (queuesIn_flushEvents ..).mpr allowed

end Books

/-- Between `w` and `w₁` the mbuf was loaded from and stored into, and nothing else happened. -/
structure Accessed (w w₁ : Worker) : Prop where
  queues : w₁.txQueues = w.txQueues
  stats : w₁.stats = w.stats
  log : ∃ es, w₁.log = w.log ++ es ∧ ∀ e ∈ es, e.accesses = true

/-- Accesses end nothing. -/
theorem countP_accesses {es : List Event} (quiet : ∀ e ∈ es, e.accesses = true) (p : Event → Bool) (read : p .read = false)
    (write : p .write = false) : es.countP p = 0 := by
  refine List.countP_eq_zero.mpr fun e member holds => ?_
  have access := quiet e member
  cases e <;> simp_all [Event.accesses]

theorem sendAccesses_quiet (m : Mbuf) : ∀ e ∈ m.sendAccesses, e.accesses = true := by
  unfold Mbuf.sendAccesses
  split <;> simp [Event.accesses]

theorem Accessed.refl (w : Worker) : Accessed w w := ⟨rfl,rfl,[],by simp,by simp⟩

theorem Accessed.trans (first : Accessed w w₁) (second : Accessed w₁ w₂) : Accessed w w₂ := by
  obtain ⟨xs,log,quiet⟩ := first.log
  obtain ⟨ys,log',quiet'⟩ := second.log
  refine ⟨second.queues.trans first.queues,second.stats.trans first.stats,xs ++ ys,?_,?_⟩
  · rw [log',log,List.append_assoc]
  · exact List.forall_mem_append.mpr ⟨quiet,quiet'⟩

theorem Accessed.read (w : Worker) : Accessed w (w.logged .read) := ⟨rfl,rfl,_,rfl,by simp [Event.accesses]⟩

theorem Accessed.stored (w : Worker) (f : Mbuf → Mbuf) : Accessed w (w.stored f) :=
  ⟨rfl,rfl,_,rfl,by simp [Event.accesses]⟩

/-- Code that only accesses the mbuf, and what follows it. -/
theorem Accessed.bind {ok : (op : Op) → Ans op → Prop} {code : M α} {next : α → M β} {post : β → Worker → Prop}
    (since : Accessed w₀ w) (accesses : Ensures ok code w fun _ w' => Accessed w w')
    (rest : ∀ a w', Accessed w₀ w' → Ensures ok (next a) w' post) : Ensures ok (code >>= next) w post := by
  rw [ensures_bind]
  exact accesses.mono fun a w' accessed => rest a w' (since.trans accessed)

end Natasha
