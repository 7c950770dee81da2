import Mathlib.Algebra.BigOperators.Intervals
import Natasha.Fate

/-! Packet accounting over whole runs of `main_loop`. Every free of the log stands next to the
increment of one drop counter, and every packet received is freed, taken by a NIC,
waiting in a queue, or left behind by rules that ran to the end. -/
namespace Natasha

open Interaction

variable {ok : (op : Op) → Ans op → Prop} {ports : Nat → Prop} {w₀ w : Worker} {s t : Stage}

/-! ## Frees and counters -/

/-- Frees and increments of drop counters come in adjacent pairs, in either order. -/
inductive Accounted : List Event → Prop where
  | nil : Accounted []
  | other (e : Event) (es : List Event) (noFree : e.isFree = false)
      (noDrop : ∀ s : Stat, s.isDrop = true → e ≠ .bump s) (rest : Accounted es) : Accounted (e :: es)
  | counted (s : Stat) (e : Event) (es : List Event) (drop : s.isDrop = true) (free : e.isFree = true)
      (rest : Accounted es) : Accounted (.bump s :: e :: es)
  | uncounted (s : Stat) (e : Event) (es : List Event) (drop : s.isDrop = true) (free : e.isFree = true)
      (rest : Accounted es) : Accounted (e :: .bump s :: es)

theorem Accounted.append {xs ys : List Event} (first : Accounted xs) (second : Accounted ys) :
    Accounted (xs ++ ys) := by
  induction first with
  | nil => exact second
  | other e es noFree noDrop _ ih => exact .other e _ noFree noDrop ih
  | counted s e es drop free _ ih => exact .counted s e _ drop free ih
  | uncounted s e es drop free _ ih => exact .uncounted s e _ drop free ih

def dropBumps (es : List Event) : Nat :=
  bumps .dropNoRule es + bumps .dropNatCondition es + bumps .dropBadL3Cksum es +
    bumps .dropUnknownIcmp es + bumps .dropUnhandledEthertype es + bumps .dropTxNotsent es

theorem dropBumps_cons_bump (s : Stat) (es : List Event) (drop : s.isDrop = true) :
    dropBumps (.bump s :: es) = dropBumps es + 1 := by
  cases s <;> simp_all [dropBumps,Event.isBump,Stat.isDrop] <;> omega

theorem dropBumps_cons_other (e : Event) (es : List Event)
    (noDrop : ∀ s : Stat, s.isDrop = true → e ≠ .bump s) : dropBumps (e :: es) = dropBumps es := by
  cases e with
  | bump t =>
    have kept : t.isDrop = false := Bool.eq_false_iff.mpr fun drop => noDrop t drop rfl
    cases t <;> simp_all [dropBumps,Event.isBump,Stat.isDrop]
  | _ => simp [dropBumps,Event.isBump]

@[simp] theorem Event.isFree_bump (s : Stat) : (Event.bump s).isFree = false := rfl

theorem Event.not_bump_of_isFree {e : Event} (free : e.isFree = true) (s : Stat) : e ≠ .bump s := by
  rintro rfl
  simp at free

theorem Accounted.freed_eq {es : List Event} (accounted : Accounted es) : freed es = dropBumps es := by
  induction accounted with
  | nil => rfl
  | other e es noFree noDrop _ ih =>
    rw [dropBumps_cons_other e es noDrop,← ih]
    simp [noFree]
  | counted s e es drop free _ ih =>
    rw [dropBumps_cons_bump s _ drop,dropBumps_cons_other e es fun s _ => e.not_bump_of_isFree free s,← ih]
    simp [free]
  | uncounted s e es drop free _ ih =>
    rw [dropBumps_cons_other e _ fun s _ => e.not_bump_of_isFree free s,dropBumps_cons_bump s _ drop,← ih]
    simp [free]

/-- What the events after a stage must begin with: the free or the counter owed. -/
def Stage.Owes : Stage → List Event → Prop
  | .counted, es | .releasing _ _ _, es => ∃ e rest, es = e :: rest ∧ e.isFree = true ∧ Accounted rest
  | .uncounted, es => ∃ s rest, es = .bump s :: rest ∧ s.isDrop = true ∧ Accounted rest
  | _, es => Accounted es

theorem Stage.ownDrop_isDrop {s : Stat} (own : ownDrop s = true) : s.isDrop = true := by
  cases s <;> simp_all [ownDrop,Stat.isDrop]

theorem Stage.next_owes {e : Event} {es : List Event} (lawful : s.next e = some t) (owes : t.Owes es) :
    s.Owes (e :: es) := by
  cases next_moves lawful with
  | counts own | breakingCounts own =>
    obtain ⟨e,rest,rfl,free,accounted⟩ := owes
    exact .counted _ e rest (ownDrop_isDrop own) free accounted
  | frees =>
    obtain ⟨s,rest,rfl,drop,accounted⟩ := owes
    exact .uncounted s _ rest drop rfl accounted
  | countsSlot port n remaining =>
    obtain ⟨e,rest,rfl,free,accounted⟩ := owes
    exact .counted _ e rest rfl free accounted
  | freesCounted | freesSlot port n remaining => exact ⟨_,es,rfl,rfl,owes⟩
  | countsFreed own => exact ⟨_,es,rfl,ownDrop_isDrop own,owes⟩
  | badL4 => exact .other _ es rfl (fun s drop same => by cases same; simp [Stat.isDrop] at drop) owes
  | _ => exact .other _ es rfl (fun _ _ => by simp) owes

theorem Stage.run_owes {es : List Event} (lawful : s.run es = some t)
    (settled : t.Consumed ∨ t = .ended) : s.Owes es := by
  induction es generalizing s with
  | nil =>
    cases lawful
    cases t <;> simp_all [Stage.Consumed,Stage.Owes,Accounted.nil]
  | cons e es ih =>
    obtain ⟨m,first,rest⟩ := Option.bind_eq_some_iff.mp lawful
    exact next_owes first (ih rest)

/-! ## Balance of a log -/

/-- A log in which no packet is lost: frees are counted, every packet received is consumed or
left behind by the rules, and every mbuf offered is taken by the NIC or freed. -/
structure Balanced (es : List Event) : Prop where
  accounted : Accounted es
  settled : received es = consumptions es + ended es
  handed : offered es = accepted es + freedQueued es

theorem Balanced.nil : Balanced [] := ⟨.nil,rfl,rfl⟩

theorem Balanced.append {xs ys : List Event} (first : Balanced xs) (second : Balanced ys) :
    Balanced (xs ++ ys) where
  accounted := first.accounted.append second.accounted
  settled := by
    have a := first.settled
    have b := second.settled
    simp only [received_append,consumptions_append,ended_append]
    omega
  handed := by
    have a := first.handed
    have b := second.handed
    simp only [offered_append,accepted_append,freedQueued_append]
    omega

namespace Stage

def closed : Stage → Nat
  | .ended => 1
  | _ => 0

/-- The offered mbufs still to be freed. -/
def remaining : Stage → Nat
  | .flushing _ _ n => n
  | .releasing _ _ n => n+1
  | _ => 0

theorem next_closed {e : Event} (lawful : s.next e = some t) :
    t.closed = s.closed + if e.isEnd then 1 else 0 := by
  cases next_moves lawful <;> simp_all [closed,Event.isEnd]

theorem next_remaining {e : Event} (lawful : s.next e = some t) :
    s.remaining + e.offered = t.remaining + (e.accepted + if e.isQueueFree then 1 else 0) := by
  cases next_moves lawful with
  | flushes port slot sent pkts filled bounded =>
    simp only [remaining,Event.offered,Event.accepted,Event.isQueueFree,Bool.false_eq_true,if_false]
    omega
  | _ => simp [remaining,Event.offered,Event.accepted,Event.isQueueFree]

theorem next_receive {e : Event} (lawful : s.next e = some t) : e.isReceive = false := by
  cases next_moves lawful <;> rfl

theorem run_receive {es : List Event} (lawful : s.run es = some t) : received es = 0 := by
  have counted := run_count (fun _ => 0) Event.isReceive (fun s e t h => by simp [next_receive h]) lawful
  simpa [received] using counted.symm

theorem balanced {es : List Event} (port : Nat) (lawful : Stage.held.run es = some t)
    (settled : t.Consumed ∨ t = .ended) : Balanced (.receive port :: es) where
  accounted := .other _ _ rfl (fun _ _ => by simp) (run_owes lawful settled)
  settled := by
    have consumed := consumptions_eq lawful
    have closed : t.closed = 0 + Natasha.ended es := run_count closed Event.isEnd (fun _ _ _ => next_closed) lawful
    have quiet := run_receive lawful
    have one : t.credit + t.closed = 1 := by
      rcases settled with h | rfl
      · cases t <;> simp_all [Consumed,credit,Stage.closed]
      · rfl
    have first : received (.receive port :: es) = received es + 1 := List.countP_cons_of_pos rfl
    have second : consumptions (.receive port :: es) = consumptions es :=
      List.countP_cons_of_neg (by simp [Event.consumes])
    have third : Natasha.ended (.receive port :: es) = Natasha.ended es :=
      List.countP_cons_of_neg (by simp [Event.isEnd])
    omega
  handed := by
    have balance := run_balance remaining Event.offered _ (fun _ _ _ => next_remaining) lawful
    have empty : t.remaining = 0 := by
      rcases settled with h | rfl
      · cases t <;> simp_all [Consumed,remaining]
      · rfl
    rw [List.sum_map_add,sum_map_ite,empty] at balance
    simpa [offered,accepted,freedQueued,Event.offered,Event.accepted,Event.isQueueFree,remaining] using balance

end Stage

theorem accounted_notSent (port n remaining : Nat) : Accounted (notSent port n remaining) := by
  induction remaining generalizing n with
  | zero => exact .nil
  | succ remaining ih => exact .counted _ _ _ rfl rfl (ih (n+1))

theorem freedQueued_notSent (port n remaining : Nat) : freedQueued (notSent port n remaining) = remaining := by
  induction remaining generalizing n with
  | zero => rfl
  | succ remaining ih => simpa [notSent,freedQueued,List.countP_cons,Event.isQueueFree] using ih (n+1)

theorem balanced_flushEvents (port : Nat) (pkts : List Mbuf) (sent : Nat) (bounded : sent ≤ pkts.length) :
    Balanced (flushEvents port pkts sent) where
  accounted := .other _ _ rfl (fun _ _ => by simp) (accounted_notSent ..)
  settled := by
    have receptions := countP_notSent Event.isReceive rfl (fun _ _ => rfl) port sent (pkts.length - sent)
    have consumed := countP_notSent Event.consumes rfl (fun _ _ => rfl) port sent (pkts.length - sent)
    have closed := countP_notSent Event.isEnd rfl (fun _ _ => rfl) port sent (pkts.length - sent)
    simp [flushEvents,received,consumptions,ended,Event.isReceive,Event.consumes,Event.isEnd,
      receptions,consumed,closed]
  handed := by
    have freed := freedQueued_notSent port sent (pkts.length - sent)
    have offer := sum_notSent Event.offered rfl (fun _ _ => rfl) port sent (pkts.length - sent)
    have taken := sum_notSent Event.accepted rfl (fun _ _ => rfl) port sent (pkts.length - sent)
    simp only [freedQueued] at freed
    simp [flushEvents,offered,accepted,freedQueued,Event.offered,Event.accepted,Event.isQueueFree,
      offer,taken,freed]
    omega

/-! ## Runs -/

/-- Since `w₀` the worker did what a balanced log records. -/
def Audited (ports : Nat → Prop) (w₀ w : Worker) : Prop := ∃ es, Books ports w₀ w es ∧ Balanced es

theorem Audited.refl (w : Worker) : Audited ports w w := ⟨[],Books.refl w,.nil⟩

theorem Audited.step {es : List Event} {w' : Worker} (audited : Audited ports w₀ w)
    (books : Books ports w w' es) (balanced : Balanced es) : Audited ports w₀ w' := by
  obtain ⟨before,past,kept⟩ := audited
  exact ⟨before ++ es,past.trans books,kept.append balanced⟩

theorem Books.dispatching (w : Worker) (port : Nat) (pkt : Mbuf) :
    Books ports w (w.dispatching port pkt) [.receive port] :=
  ⟨rfl,by simp [Event.isBump,Worker.dispatching],
    by simp [Event.offeredOn,Event.isEnqueueOn,Worker.dispatching],by simp [Event.queue]⟩

theorem dispatch_audited (dev : Devices) (port : Nat) (pkt : Mbuf) (audited : Audited ports w₀ w)
    (allowed : ports port) (admits : Admits ok ports True) :
    Ensures ok (dispatchPacket dev port) (w.dispatching port pkt) fun _ w' => Audited ports w₀ w' := by
  apply (dispatchPacket_fate dev port _ allowed admits).mono
  intro _ w' settled
  obtain ⟨t,settled,es,books,lawful⟩ := settled
  exact audited.step ((Books.dispatching w port pkt).trans books)
    (Stage.balanced port lawful (settled.imp_right And.left))

theorem dispatchAll_audited (dev : Devices) (port : Nat) (pkts : List Mbuf)
    (audited : Audited ports w₀ w) (allowed : ports port) (admits : Admits ok ports True) :
    Ensures ok (dispatchAll dev port pkts) w fun _ w' => Audited ports w₀ w' := by
  induction pkts generalizing w with
  | nil => exact audited
  | cons pkt pkts ih =>
    rw [dispatchAll,ensures_bind,ensures_beginDispatch]
    intro _
    rw [ensures_bind]
    exact (dispatch_audited dev port pkt audited allowed admits).mono fun _ _ audited => ih audited

theorem Audited.polled (audited : Audited ports w₀ w) (rx : Nat → RxBurst) :
    Audited ports w₀ { w with rx := rx } := by
  obtain ⟨es,books,balanced⟩ := audited
  exact ⟨es,⟨books.log,books.stats,books.queues,books.allowed⟩,balanced⟩

theorem handlePorts_audited (dev : Devices) (list : List Nat) (audited : Audited ports w₀ w)
    (allowed : ∀ port ∈ list, ports port) (admits : Admits ok ports True) :
    Ensures ok (handlePorts dev list) w fun _ w' => Audited ports w₀ w' := by
  induction list generalizing w with
  | nil => exact audited
  | cons port list ih =>
    simp only [handlePorts,handlePort,rteEthRxBurst,ensures_bind,ensures_modifyGet]
    refine (dispatchAll_audited dev port _ (audited.polled _) (allowed port (by simp)) admits).mono
      fun _ _ audited => ?_
    exact ih audited fun q member => allowed q (List.mem_cons_of_mem _ member)

theorem flushPorts_audited (list : List Nat) (audited : Audited ports w₀ w)
    (allowed : ∀ port ∈ list, ports port) :
    Ensures ok (flushPorts list) w fun _ w' => Audited ports w₀ w' ∧
      ∀ q, q ∈ list ∨ (w.txQueues q).pkts = [] → (w'.txQueues q).pkts = [] := by
  induction list generalizing w with
  | nil => exact ⟨audited,fun q h => h.resolve_left List.not_mem_nil⟩
  | cons port list ih =>
    have later : ∀ q ∈ list, ports q := fun q member => allowed q (List.mem_cons_of_mem _ member)
    simp only [flushPorts,ensures_bind,ensures_get,ensures_txFlush]
    refine ⟨fun empty => ?_,fun _ => ?_⟩
    · refine (ih audited later).mono fun _ w' h => ⟨h.1,fun q cases => h.2 q ?_⟩
      rcases cases with member | done
      · rcases List.mem_cons.mp member with rfl | member
        · exact .inr empty
        · exact .inl member
      · exact .inr done
    · have flushed : Audited ports w₀ (w.flushed port (w.txQueues port).pkts) :=
        audited.step (Books.flushed w port (allowed port (by simp)))
          (balanced_flushEvents port _ _ (taken_le ..))
      refine (ih flushed later).mono fun _ w' h => ⟨h.1,fun q cases => h.2 q ?_⟩
      by_cases same : q = port
      · subst q
        exact .inr (by simp [Worker.flushed,TxQueue.empty])
      · rcases cases with member | done
        · exact .inl ((List.mem_cons.mp member).resolve_left same)
        · exact .inr (by simpa [Worker.flushed,Function.update_of_ne same] using done)

/-- Between two iterations: the books are kept and the devices' queues are empty. -/
def AtRest (dev : Devices) (ports : Nat → Prop) (w₀ w : Worker) : Prop :=
  Audited ports w₀ w ∧ ∀ q < dev.count.toNat, (w.txQueues q).pkts = []

theorem iteration_atRest (dev : Devices) (atRest : AtRest dev ports w₀ w)
    (allowed : ∀ port < dev.count.toNat, ports port) (admits : Admits ok ports True) :
    Ensures ok (iteration dev) w fun _ w' => AtRest dev ports w₀ w' := by
  have inRange : ∀ port ∈ List.range dev.count.toNat, ports port :=
    fun port member => allowed port (List.mem_range.mp member)
  simp only [iteration,iterationBody,ensures_bind,ensures_appConfig,ensures_loadFlags,ensures_storeFlags]
  intro config _ flags _ _
  apply (handlePorts_audited dev _ atRest.1 inRange admits).mono
  intro _ w' audited
  exact (flushPorts_audited _ audited inRange).mono fun _ w'' h =>
    ⟨h.1,fun q below => h.2 q (.inl (List.mem_range.mpr below))⟩

theorem mainLoop_atRest (dev : Devices) (n : Nat) (atRest : AtRest dev ports w₀ w)
    (allowed : ∀ port < dev.count.toNat, ports port) (admits : Admits ok ports True) :
    Ensures ok (mainLoop dev n) w fun _ w' => AtRest dev ports w₀ w' := by
  induction n generalizing w with
  | zero => exact atRest
  | succ n ih =>
    simp only [mainLoop,ensures_bind]
    exact (iteration_atRest dev atRest allowed admits).mono fun _ _ atRest => ih atRest

/-! ## The balance of the queues -/

theorem QueuesIn.mono {ports' : Nat → Prop} {es : List Event} (queues : QueuesIn ports es)
    (wider : ∀ q, ports q → ports' q) : QueuesIn ports' es :=
  fun e member port queue => wider port (queues e member port queue)

theorem enqueuedOn_outside {es : List Event} {q : Nat} (queues : QueuesIn ports es) (outside : ¬ports q) :
    enqueuedOn q es = 0 := by
  apply List.countP_eq_zero.mpr
  intro e member on
  cases e with
  | enqueue port slot =>
    have same : port = q := by simpa [Event.isEnqueueOn] using on
    exact outside (same ▸ queues _ member port rfl)
  | _ => simp [Event.isEnqueueOn] at on

theorem enqueued_eq_sum (n : Nat) (es : List Event) (queues : QueuesIn (· < n) es) :
    enqueued es = ∑ q ∈ Finset.range n, enqueuedOn q es := by
  induction es with
  | nil => simp [enqueued]
  | cons e es ih =>
    rw [queuesIn_cons] at queues
    have tail := ih queues.2
    cases e with
    | enqueue port slot =>
      have below : port < n := queues.1 port rfl
      simpa [enqueued,List.countP_cons,Event.isEnqueue,Event.isEnqueueOn,Finset.sum_add_distrib,below] using tail
    | _ => simpa [enqueued,Event.isEnqueue,Event.isEnqueueOn] using tail

theorem offered_eq_sum (n : Nat) (es : List Event) (queues : QueuesIn (· < n) es) :
    offered es = ∑ q ∈ Finset.range n, offeredOn q es := by
  induction es with
  | nil => simp [offered]
  | cons e es ih =>
    rw [queuesIn_cons] at queues
    have tail := ih queues.2
    cases e with
    | burst port pkts sent =>
      have below : port < n := queues.1 port rfl
      simpa [offered,Event.offered,Event.offeredOn,Finset.sum_add_distrib,below] using tail
    | _ => simpa [offered,Event.offered,Event.offeredOn] using tail

theorem consumptions_add_freedQueued (es : List Event) :
    consumptions es + freedQueued es = freed es + enqueued es := by
  induction es with
  | nil => rfl
  | cons e es ih =>
    simp only [consumptions,freedQueued,freed,enqueued,List.countP_cons] at ih ⊢
    cases e <;> simp [Event.consumes,Event.isQueueFree,Event.isFree,Event.isEnqueue] <;> omega

/-! ## Accounting -/

/-- The sum of the drop counters. -/
def Worker.drops (w : Worker) : U64 :=
  w.stats .dropNoRule + w.stats .dropNatCondition + w.stats .dropBadL3Cksum +
    w.stats .dropUnknownIcmp + w.stats .dropUnhandledEthertype + w.stats .dropTxNotsent

/-- The mbufs in the transmit queues of the core. -/
def Worker.waiting (w : Worker) : Nat :=
  ∑ q ∈ Finset.range natashaMaxQueues, (w.txQueues q).pkts.length

/-- Every configuration a load finds has `out` ports that are indices of `core.tx_queues`. -/
def queueAnswer : (op : Op) → Ans op → Prop
  | .appConfig, p => Node.OutsIn (· < natashaMaxQueues) p.config.rules
  | _, _ => True

theorem Node.OutsIn.mono {ports' : Nat → Prop} {node : Node} (outs : node.OutsIn ports)
    (wider : ∀ q, ports q → ports' q) : node.OutsIn ports' := by
  induction node with
  | null | noop => trivial
  | action function =>
    cases function with
    | out packet => exact wider _ outs
    | _ => trivial
  | seq _ _ left right | ifElse _ _ left right | cond _ _ left right | and _ _ left right
  | or _ _ left right => exact ⟨left outs.1,right outs.2⟩

theorem Books.drops {es : List Event} {pkt : Mbuf} {rx : Nat → RxBurst} {tx : Nat → Nat}
    (books : Books ports (.start pkt rx tx) w es) (accounted : Accounted es) :
    w.drops = .ofNat 64 (freed es) := by
  have count : ∀ s, w.stats s = .ofNat 64 (bumps s es) := fun s => by
    simpa [Worker.start] using books.stats s
  rw [accounted.freed_eq]
  simp only [Worker.drops,dropBumps,count,BitVec.ofNat_add]

/-- From an empty start, what waits is what was stored and not offered. -/
theorem Books.waiting {es : List Event} {pkt : Mbuf} {rx : Nat → RxBurst} {tx : Nat → Nat}
    (books : Books ports (.start pkt rx tx) w es) (n : Nat) (bounded : ∀ q, ports q → q < n)
    (more : natashaMaxQueues ≤ n) (empty : ∀ q, natashaMaxQueues ≤ q → (w.txQueues q).pkts = []) :
    w.waiting + offered es = enqueued es := by
  have queues := books.allowed.mono bounded
  have each : ∀ q, (w.txQueues q).pkts.length + offeredOn q es = enqueuedOn q es := fun q => by
    simpa [Worker.start,TxQueue.empty] using books.queues q
  have all : w.waiting = ∑ q ∈ Finset.range n, (w.txQueues q).pkts.length := by
    apply Finset.sum_subset (Finset.range_mono more)
    intro q _ outside
    rw [empty q (by simpa using outside)]
    rfl
  rw [all,offered_eq_sum n es queues,enqueued_eq_sum n es queues,← Finset.sum_add_distrib]
  exact Finset.sum_congr rfl fun q _ => each q

theorem mainLoop_accounting (dev : Devices) (n : Nat) (pkt : Mbuf) (rx : Nat → RxBurst)
    (tx : Nat → Nat) :
    Ensures queueAnswer (mainLoop dev n) (.start pkt rx tx) fun _ w =>
      Accounted w.log ∧ w.drops = .ofNat 64 (freed w.log) ∧
        received w.log = freed w.log + accepted w.log + w.waiting + ended w.log := by
  have admits : Admits queueAnswer (fun q => q < natashaMaxQueues ∨ q < dev.count.toNat) True :=
    fun p outs => ⟨Node.OutsIn.mono outs fun _ => Or.inl,fun _ => trivial⟩
  have atRest : AtRest dev (fun q => q < natashaMaxQueues ∨ q < dev.count.toNat)
      (.start pkt rx tx) (.start pkt rx tx) := ⟨Audited.refl _,fun _ _ => rfl⟩
  refine (mainLoop_atRest dev n atRest (fun _ => Or.inr) admits).mono ?_
  rintro _ w ⟨⟨es,books,balanced⟩,flushed⟩
  have log : w.log = es := by simpa [Worker.start] using books.log
  have count := dev.count.isLt
  -- a queue beyond the array belongs to a device, and those are flushed
  have empty : ∀ q, natashaMaxQueues ≤ q → (w.txQueues q).pkts = [] := by
    intro q beyond
    by_cases device : q < dev.count.toNat
    · exact flushed q device
    · have unused : enqueuedOn q es = 0 := enqueuedOn_outside books.allowed (by omega)
      have queues : (w.txQueues q).pkts.length + offeredOn q es = 0 := by
        rw [books.queues q,unused]
        rfl
      exact List.length_eq_zero_iff.mp (Nat.eq_zero_of_add_eq_zero_right queues)
  have waiting := books.waiting 256 (by simp [natashaMaxQueues]; omega) (by decide) empty
  have settled := balanced.settled
  have handed := balanced.handed
  have frees := consumptions_add_freedQueued es
  rw [log]
  exact ⟨balanced.accounted,books.drops balanced.accounted,by omega⟩

end Natasha
