import Natasha.ArpReply
import Natasha.Fate
import Natasha.NatOrder
import Natasha.TransmitQueue

/-! What becomes of a received frame, as a function of the frame and of the configuration. The
worker computes that function frame by frame: no frame leaves a trace in the treatment of another,
and how frames arrive in bursts and leave in bursts does not matter. -/
namespace Natasha

open Interaction

variable {ok : (op : Op) → Ans op → Prop} {dev : Devices} {port : Nat}
  {config : AppConfig} {table : NatLookup} {w w' w'' : Worker}

/-! ## The function -/

inductive Verdict where
  /-- Put into the transmit queue of a port, as `frame`. -/
  | sent (port : Nat) (frame : Mbuf)
  /-- Freed, and counted. -/
  | dropped (stat : Stat)
  /-- The rules ran to the end: neither. -/
  | leaked

namespace Verdict

def frames : Verdict → List (Nat × Mbuf)
  | .sent port frame => [(port,frame)]
  | .dropped _ | .leaked => []

def stats : Verdict → List Stat
  | .dropped stat => [stat]
  | .sent _ _ | .leaked => []

end Verdict

/-- Where the rules are with a frame: done with it, or going on with the frame as it is now after a
node of value `value`. -/
inductive Walked where
  | stopped (verdict : Verdict)
  | going (value : Bool) (m : Mbuf)

def Walked.andThen (walked : Walked) (next : Bool → Mbuf → Walked) : Walked :=
  match walked with
  | .stopped verdict => .stopped verdict
  | .going value m => next value m

section Evaluation

variable (dev : Devices) (table : NatLookup) (port : Nat)

def Action.eval (m : Mbuf) : Action → Walked
  | .condIpv4SrcInNetwork network =>
    .going (ipv4InNetwork (rteBeToCpu32 (m.data.load32 (ipv4Header + AddrField.src.offset))) network) m
  | .condIpv4DstInNetwork network =>
    .going (ipv4InNetwork (rteBeToCpu32 (m.data.load32 (ipv4Header + AddrField.dst.offset))) network) m
  | .condVlan vlan => .going (decide ((m.vlanId.toNat : Int) = vlan)) m
  | .natRewrite field =>
    match m.natRewritten table field with
    | some m' => .going false m'
    | none => .stopped (.dropped .dropNoRule)
  | .out packet => .stopped (.sent packet.port.toNat (m.outgoing (dev.macaddr port) packet))
  | .print => .going false m
  | .drop => .stopped (.dropped .dropNatCondition)

def Node.eval : Node → Mbuf → Walked
  | .null, m | .noop, m => .going false m
  | .action function, m => function.eval dev table port m
  | .seq left right, m =>
    (left.eval m).andThen fun _ m => (right.eval m).andThen fun _ m => .going false m
  | .ifElse left right, m =>
    (left.eval m).andThen fun value m =>
      if value then .going false m else (right.eval m).andThen fun _ m => .going false m
  | .cond left right, m =>
    (left.eval m).andThen fun value m =>
      if value then (right.eval m).andThen fun _ m => .going true m else .going false m
  | .and left right, m => (left.eval m).andThen fun value m => if value then right.eval m else .going false m
  | .or left right, m => (left.eval m).andThen fun value m => if value then .going true m else right.eval m

end Evaluation

section Verdicts

variable (dev : Devices) (config : AppConfig) (port : Nat) (m : Mbuf)

/-- What is not for natasha goes through the rules. -/
def Mbuf.ruled : Verdict :=
  if config.rules = .null then .dropped .dropUnhandledEthertype
  else match config.rules.eval dev config.natLookup port m with
    | .stopped verdict => verdict
    | .going _ _ => .leaked

/-- A datagram whose padding is cleared. -/
def Mbuf.ipv4Verdict : Verdict :=
  if m.data (ipv4Header + Ipv4.nextProtoId) = ipprotoIcmp ∧
      config.isNatashaIp dev (rteBeToCpu32 (m.data.load32 (ipv4Header + Ipv4.dstAddr))) m.vlanId = true then
    if m.data (l4Header + Icmp.icmpType) = ipIcmpEchoRequest then .sent port m.echoed.prepared
    else .dropped .dropUnknownIcmp
  else m.ruled dev config port

def Mbuf.arpVerdict : Verdict :=
  if m.arpOp = arpOpRequest ∧ (m.arpTarget,m.vlanId) ∈ (config.ports port).ipAddresses then
    .sent port (Mbuf.prepared { m with data := m.data.arpReply (dev.macaddr port) })
  else .dropped .dropUnhandledEthertype

/-- By the flags of the driver. -/
def Mbuf.BadL3 : Prop := m.olFlags &&& pktRxIpCksumMask = pktRxIpCksumBad
def Mbuf.BadL4 : Prop := m.olFlags &&& pktRxL4CksumMask = pktRxL4CksumBad

instance : Decidable m.BadL3 := inferInstanceAs (Decidable (_ = _))
instance : Decidable m.BadL4 := inferInstanceAs (Decidable (_ = _))

def verdict : Verdict :=
  if m.BadL3 then .dropped .dropBadL3Cksum
  else if m.data.load16 Eth.etherType = rteBeToCpu16 etherTypeIpv4 then m.unpadded.ipv4Verdict dev config port
  else if m.data.load16 Eth.etherType = rteBeToCpu16 etherTypeArp then m.arpVerdict dev config port
  else .dropped .dropUnhandledEthertype

/-- The counters that `dispatch_packet` and what it calls increment. -/
def countedFor : List Stat :=
  (if ¬m.BadL3 ∧ m.BadL4 then [.rxBadL4Cksum] else []) ++ (verdict dev config port m).stats

end Verdicts

/-! ## Destinations -/

/-- The destinations of a tree. -/
def Node.outs : Node → List OutPacket
  | .action (.out packet) => [packet]
  | .null | .noop | .action _ => []
  | .seq left right | .ifElse left right | .cond left right | .and left right | .or left right => left.outs ++ right.outs

/-- The frame that goes on, or the one that is sent to one of `outs`, satisfies `kept`. -/
def Walked.Holds (dev : Devices) (port : Nat) (kept : Mbuf → Prop) (outs : List OutPacket) : Walked → Prop
  | .going _ m => kept m
  | .stopped verdict => ∀ f ∈ verdict.frames, ∃ out ∈ outs, ∃ m, kept m ∧
      f = (out.port.toNat,m.outgoing (dev.macaddr port) out)

namespace Walked.Holds

variable {kept : Mbuf → Prop} {outs more : List OutPacket} {walked : Walked}

theorem mono (holds : walked.Holds dev port kept outs) (subset : outs ⊆ more) : walked.Holds dev port kept more := by
  cases walked with
  | going value m => exact holds
  | stopped verdict =>
    intro f member
    obtain ⟨out,named,rest⟩ := holds f member
    exact ⟨out,subset named,rest⟩

theorem andThen {next : Bool → Mbuf → Walked} (holds : walked.Holds dev port kept outs)
    (rest : ∀ value m, kept m → (next value m).Holds dev port kept outs) : (walked.andThen next).Holds dev port kept outs := by
  cases walked with
  | going value m => exact rest value m holds
  | stopped verdict => exact holds

end Walked.Holds

/-- What a rewrite keeps, the rules keep. -/
theorem Node.eval_holds {kept : Mbuf → Prop}
    (rewrite : ∀ m field m', kept m → m.natRewritten table field = some m' → kept m') (node : Node) (m : Mbuf)
    (first : kept m) : (node.eval dev table port m).Holds dev port kept node.outs := by
  induction node generalizing m with
  | null | noop => exact first
  | action function =>
    cases function with
    | natRewrite field =>
      cases rewritten : m.natRewritten table field with
      | some m' =>
        simp only [eval,Action.eval,rewritten]
        exact rewrite m field m' first rewritten
      | none =>
        simp only [eval,Action.eval,rewritten]
        exact fun f member => absurd member List.not_mem_nil
    | out packet =>
      rintro f member
      obtain rfl := List.mem_singleton.mp member
      exact ⟨packet,List.mem_singleton_self _,m,first,rfl⟩
    | drop => exact fun f member => absurd member List.not_mem_nil
    | condIpv4SrcInNetwork | condIpv4DstInNetwork | condVlan | print => exact first
  | seq left right ihl ihr =>
    refine ((ihl m first).mono (List.subset_append_left _ _)).andThen fun _ m first => ?_
    exact ((ihr m first).mono (List.subset_append_right _ _)).andThen fun _ m first => first
  | ifElse left right ihl ihr =>
    refine ((ihl m first).mono (List.subset_append_left _ _)).andThen fun value m first => ?_
    split
    · exact first
    · exact ((ihr m first).mono (List.subset_append_right _ _)).andThen fun _ m first => first
  | cond left right ihl ihr =>
    refine ((ihl m first).mono (List.subset_append_left _ _)).andThen fun value m first => ?_
    split
    · exact ((ihr m first).mono (List.subset_append_right _ _)).andThen fun _ m first => first
    · exact first
  | and left right ihl ihr =>
    refine ((ihl m first).mono (List.subset_append_left _ _)).andThen fun value m first => ?_
    split
    · exact (ihr m first).mono (List.subset_append_right _ _)
    · exact first
  | or left right ihl ihr =>
    refine ((ihl m first).mono (List.subset_append_left _ _)).andThen fun value m first => ?_
    split
    · exact first
    · exact (ihr m first).mono (List.subset_append_right _ _)

theorem Node.OutsIn.outs {ports : Nat → Prop} {node : Node} (outsIn : node.OutsIn ports) :
    ∀ out ∈ node.outs, ports out.port.toNat := by
  induction node with
  | null | noop => exact fun out none => absurd none List.not_mem_nil
  | action function =>
    cases function with
    | out packet => exact fun out member => List.mem_singleton.mp member ▸ outsIn
    | _ => exact fun out none => absurd none List.not_mem_nil
  | seq left right ihl ihr | ifElse left right ihl ihr | cond left right ihl ihr | and left right ihl ihr
  | or left right ihl ihr =>
    exact fun out member => (List.mem_append.mp member).elim (ihl outsIn.1 out) (ihr outsIn.2 out)

/-- A frame is sent to the port that it came from, or to a destination of the rules. -/
theorem verdict_queue (m : Mbuf) (f : Nat × Mbuf) (member : f ∈ (verdict dev config port m).frames) :
    f.1 = port ∨ ∃ out ∈ config.rules.outs, f.1 = out.port.toNat := by
  have here {frame : Mbuf} (sent : f ∈ (Verdict.sent port frame).frames) : f.1 = port :=
    congrArg Prod.fst (List.mem_singleton.mp sent)
  have holds (m : Mbuf) : (config.rules.eval dev config.natLookup port m).Holds dev port (fun _ => True) config.rules.outs :=
    Node.eval_holds (fun _ _ _ _ _ => trivial) config.rules m trivial
  unfold verdict Mbuf.ipv4Verdict Mbuf.arpVerdict Mbuf.ruled at member
  split_ifs at member
  all_goals first
    | exact .inl (here member)
    | exact absurd member List.not_mem_nil
    | skip
  split at member
  case h_1 verdict walked =>
    have sent := holds m.unpadded
    rw [walked] at sent
    obtain ⟨out,named,_,_,rfl⟩ := sent f member
    exact .inr ⟨out,named,rfl⟩
  case h_2 => exact absurd member List.not_mem_nil

/-- The indices of a run are those of cells: there are no more devices than cells of `ports`, and
every `out` names a cell of `tx_queues`. -/
structure WithinArrays (dev : Devices) (config : AppConfig) : Prop where
  devices : dev.count.toNat ≤ natashaMaxEthports
  outs : config.rules.OutsIn (· < natashaMaxQueues)

theorem WithinArrays.verdict (within : WithinArrays dev config) (device : port < dev.count.toNat) (m : Mbuf)
    (f : Nat × Mbuf) (member : f ∈ (Natasha.verdict dev config port m).frames) : f.1 < natashaMaxQueues := by
  have cells : natashaMaxEthports < natashaMaxQueues := by decide
  have devices := within.devices
  rcases verdict_queue m f member with back | ⟨out,named,there⟩
  · omega
  · exact there ▸ within.outs.outs out named

/-! ## The worker from outside -/

/-- The frames of the queue of `q`. -/
def framesFor (q : Nat) (frames : List (Nat × Mbuf)) : List Mbuf :=
  frames.filterMap fun f => if f.1 = q then some f.2 else none

@[simp] theorem framesFor_nil (q : Nat) : framesFor q [] = [] := rfl

theorem framesFor_append (q : Nat) (xs ys : List (Nat × Mbuf)) :
    framesFor q (xs ++ ys) = framesFor q xs ++ framesFor q ys :=
  List.filterMap_append

/-- All that was put into the queue of `q`, in order: what was offered to the NIC and what waits. -/
def Worker.stream (w : Worker) (q : Nat) : List Mbuf := (bursts q w.log).flatMap Prod.fst ++ (w.txQueues q).pkts

/-- Between `w` and `w'` the worker polled the devices `polls` times, queued `frames` and incremented the
counters `counted`. `dropTxNotsent` depends on the NIC. -/
structure Yields (polls : Nat) (frames : List (Nat × Mbuf)) (counted : List Stat) (w w' : Worker) : Prop where
  stream : ∀ q, w'.stream q = w.stream q ++ framesFor q frames
  stats : ∀ s ≠ .dropTxNotsent, w'.stats s = w.stats s + .ofNat 64 (counted.count s)
  rx : ∀ i, w'.rx i = w.rx (i + polls)

namespace Yields

variable {polls polls' : Nat} {frames frames' : List (Nat × Mbuf)} {counted counted' : List Stat}

theorem refl (w : Worker) : Yields 0 [] [] w w :=
  ⟨fun _ => (List.append_nil _).symm,fun _ _ => (BitVec.add_zero _).symm,fun _ => rfl⟩

theorem trans (first : Yields polls frames counted w w') (second : Yields polls' frames' counted' w' w'') :
    Yields (polls + polls') (frames ++ frames') (counted ++ counted') w w'' where
  stream q := by rw [second.stream,first.stream,framesFor_append,List.append_assoc]
  stats s other := by
    rw [second.stats s other,first.stats s other,BitVec.add_assoc,← BitVec.ofNat_add,List.count_append]
  rx i := by rw [second.rx,first.rx,Nat.add_assoc,Nat.add_comm polls']

/-- Events that are no burst. -/
theorem quiet (es : List Event) (log : w'.log = w.log ++ es) (queues : w'.txQueues = w.txQueues)
    (stats : w'.stats = w.stats) (rx : w'.rx = w.rx) (none : ∀ q, bursts q es = []) : Yields 0 [] [] w w' where
  stream q := by
    rw [Worker.stream,log,bursts,List.filterMap_append,queues]
    rw [← bursts,← bursts,none q]
    simp [Worker.stream]
  stats s _ := by simp [stats]
  rx i := congrFun rx i

theorem logged (e : Event) (none : ∀ q, bursts q [e] = []) : Yields 0 [] [] w (w.logged e) :=
  quiet [e] rfl rfl rfl rfl none

theorem stored (f : Mbuf → Mbuf) : Yields 0 [] [] w (w.stored f) := quiet [.write] rfl rfl rfl rfl fun _ => rfl

theorem bumped (stat : Stat) : Yields 0 [] [stat] w (w.bumped stat) where
  stream q := by simp [Worker.stream,bursts,Event.burstOf]
  stats s _ := by
    by_cases same : s = stat
    · subst s
      simp [Worker.bumped]
    · simp [Worker.bumped,Function.update_of_ne same,Ne.symm same]
  rx _ := rfl

/-- What came before counts as well. -/
theorem after (first : Yields 0 [] [] w w') (second : Yields polls frames counted w' w'') :
    Yields polls frames counted w w'' := by
  simpa using first.trans second

theorem start_stream {pkt : Mbuf} {rx : Nat → RxBurst} {tx : Nat → Nat}
    (yields : Yields polls frames counted (.start pkt rx tx) w) (q : Nat) : w.stream q = framesFor q frames :=
  yields.stream q

theorem start_stats {pkt : Mbuf} {rx : Nat → RxBurst} {tx : Nat → Nat}
    (yields : Yields polls frames counted (.start pkt rx tx) w) {s : Stat} (other : s ≠ .dropTxNotsent) :
    w.stats s = .ofNat 64 (counted.count s) := by
  simpa [Worker.start] using yields.stats s other

end Yields

theorem bursts_flushEvents_ne {p q : Nat} (other : p ≠ q) (pkts : List Mbuf) (sent : Nat) :
    bursts p (flushEvents q pkts sent) = [] := by
  rw [bursts,flushEvents,List.filterMap_cons,filterMap_notSent _ rfl fun _ _ => rfl]
  simp [Event.burstOf,Ne.symm other]

theorem txSend_yields (q : Nat) (w : Worker) :
    Ensures ok (txSend q) w fun _ w' => Yields 0 [(q,w.pkt.prepared)] [] w w' := by
  have elsewhere : ∀ p, p ≠ q → framesFor p [(q,w.pkt.prepared)] = [] := fun p other => by
    simp [framesFor,Ne.symm other]
  have here : framesFor q [(q,w.pkt.prepared)] = [w.pkt.prepared] := by simp [framesFor]
  have others : ∀ p ≠ q, ∀ es : List Event, bursts p (w.storeEvents q ++ es) = bursts p es := by
    intro p other es
    rw [bursts,Worker.storeEvents,List.filterMap_append,List.filterMap_append,filterMap_sendAccesses _ rfl rfl]
    simp [bursts,Event.burstOf,List.filterMap_cons]
  rw [ensures_txSend]
  constructor
  · intro room
    refine ⟨fun p => ?_,fun s _ => by simp [Worker.enqueued],fun _ => rfl⟩
    have log : ((w.enqueued q).setQueue q ⟨w.filled q,room⟩).log = w.log ++ (w.storeEvents q ++ []) := by
      simp [Worker.enqueued,Worker.storeEvents]
    rw [Worker.stream,log,bursts,List.filterMap_append,← bursts,← bursts]
    by_cases same : p = q
    · subst p
      rw [bursts_store,here]
      simp [Worker.filled,Worker.stream]
    · rw [others p same,elsewhere p same]
      simp [Worker.stream,Function.update_of_ne same,Worker.enqueued]
  · intro full
    have queued : (w.filled q) = (w.txQueues q).pkts ++ [w.pkt.prepared] := rfl
    refine ⟨fun p => ?_,fun s other => ?_,fun _ => rfl⟩
    · have log : ((w.enqueued q).flushed q (w.filled q)).log =
          w.log ++ (w.storeEvents q ++ flushEvents q (w.filled q) ((w.enqueued q).taken (w.filled q))) := by
        simp [Worker.flushed,Worker.enqueued,Worker.storeEvents]
      rw [Worker.stream,log,bursts,List.filterMap_append,← bursts,← bursts]
      by_cases same : p = q
      · subst p
        rw [bursts_store,here,bursts_flushEvents,queued]
        simp [Worker.stream,Worker.flushed,TxQueue.empty]
      · rw [others p same,elsewhere p same,bursts_flushEvents_ne same]
        simp [Worker.stream,Worker.flushed,Function.update_of_ne same,Worker.enqueued]
    · simp [Worker.flushed,Worker.enqueued,addNotSent,Function.update_of_ne other]

/-! ## The rules -/

/-- Code that queues nothing and increments the counters that its value tells. -/
def Counts (ok : (op : Op) → Ans op → Prop) (w : Worker) (counted : α → List Stat) (code : M α) : Prop :=
  Ensures ok code w fun a w' => Yields 0 [] (counted a) w w'

/-- The value of code that frees the frame when it misses an address in the table. -/
def noRule (ret : Int) : List Stat := if ret < 0 then [.dropNoRule] else []

namespace Counts

variable {code other : M α} {next : α → M β} {counted : α → List Stat} {counted' : β → List Stat}

theorem pure (a : α) (none : counted a = []) : Counts ok w counted (Pure.pure a : M α) := by
  rw [Counts,ensures_pure,none]
  exact .refl w

theorem bind (first : Counts ok w (fun _ => []) code) (second : ∀ a w', Counts ok w' counted' (next a)) :
    Counts ok w counted' (code >>= next) := by
  unfold Counts at *
  rw [ensures_bind]
  exact first.mono fun a w' quiet => (second a w').mono fun _ _ rest => quiet.after rest

theorem ite (c : Prop) [Decidable c] (yes : Counts ok w counted code) (no : Counts ok w counted other) :
    Counts ok w counted (if c then code else other) := by
  split
  · exact yes
  · exact no

theorem readPkt (f : Mbuf → α) : Counts ok w (fun _ => []) (Natasha.readPkt f) := .logged .read fun _ => rfl

theorem writePkt (f : Mbuf → Mbuf) : Counts ok w (fun _ => []) (Natasha.writePkt f) := .stored f

theorem appConfig : Counts ok w (fun _ => []) Natasha.appConfig := fun _ _ => .refl w

theorem readConfig (p : ConfigPtr) (member : Member) : Counts ok w (fun _ => []) (Natasha.readConfig p member) :=
  fun _ _ => .refl w

theorem cksumUpdateAt (field : Nat) (before after : U32) :
    Counts ok w (fun _ => []) (Natasha.cksumUpdateAt field before after) :=
  (readPkt _).bind fun _ _ => writePkt _

theorem l4CksumUpdate (field : Nat) (offload : U64) (before after : U32) :
    Counts ok w (fun _ => []) (Natasha.l4CksumUpdate field offload before after) :=
  (readPkt _).bind fun _ _ => ite _ (cksumUpdateAt ..) ((writePkt _).bind fun _ _ => writePkt _)

/-- Load the table, translate the word at `field` and go on if it is there. -/
theorem translate (ip : U32) (field : Nat) {rest : M Int} (more : ∀ w, Counts ok w noRule rest) :
    Counts ok w noRule (do
      let config ← Natasha.appConfig
      Natasha.readConfig config .natLookup
      if (← lookupAndRewrite config.config.natLookup ip field) < 0 then
        bump .dropNoRule
        return -1
      rest) := by
  refine appConfig.bind fun p w => (readConfig _ _).bind fun _ w => ?_
  rw [Counts,ensures_bind,ensures_lookupAndRewrite]
  constructor
  · intro missing
    rw [ensures_ite]
    refine ⟨fun _ => ?_,fun nonneg => absurd neg_one_lt_zero nonneg⟩
    exact Yields.after (.logged .free fun _ => rfl) (.bumped .dropNoRule)
  · intro new found
    rw [ensures_ite]
    refine ⟨fun negative => absurd negative (lt_irrefl 0),fun _ => ?_⟩
    exact Ensures.mono (more _) fun _ _ rest => Yields.after (.stored _) rest

theorem icmpNatHandle (inner : AddrField) : Counts ok w noRule (Natasha.icmpNatHandle inner) := by
  unfold Natasha.icmpNatHandle
  refine (readPkt _).bind fun _ _ => ite _ (pure _ rfl) ((readPkt _).bind fun _ _ => ?_)
  rw [if_neg (unlikely_nonneg _)]
  exact (readPkt _).bind fun _ _ => (readPkt _).bind fun _ _ => translate _ _ fun _ =>
    (readPkt _).bind fun _ _ => (cksumUpdateAt ..).bind fun _ _ => (readPkt _).bind fun _ _ =>
      (cksumUpdateAt ..).bind fun _ _ => (cksumUpdateAt ..).bind fun _ _ => pure _ rfl

theorem actionNatRewriteImpl (address : Nat) (inner : AddrField) :
    Counts ok w noRule (Natasha.actionNatRewriteImpl address inner) := by
  refine (readPkt _).bind fun _ _ => translate _ _ fun _ => (readPkt _).bind fun _ _ =>
    (cksumUpdateAt ..).bind fun _ _ => (readPkt _).bind fun _ _ => (readPkt _).bind fun _ _ => ?_
  refine ite _ ((l4CksumUpdate ..).bind fun _ _ => pure _ rfl) (ite _ ?_ (ite _ (icmpNatHandle _) (pure _ rfl)))
  exact (readPkt _).bind fun _ _ => ite _ (pure _ rfl) ((l4CksumUpdate ..).bind fun _ _ => pure _ rfl)

theorem actionNatRewrite (field : AddrField) : Counts ok w noRule (Natasha.actionNatRewrite field) := by
  unfold Natasha.actionNatRewrite
  split
  · exact actionNatRewriteImpl _ _
  · exact actionNatRewriteImpl _ _

theorem actionPrint : Counts ok w (fun _ => []) Natasha.actionPrint :=
  (readPkt _).bind fun _ _ => (readPkt _).bind fun _ _ => (readPkt _).bind fun _ _ =>
    ite _ ((readPkt _).bind fun _ _ => (readPkt _).bind fun _ _ => pure _ rfl)
      (ite _ ((readPkt _).bind fun _ _ => pure _ rfl)
        (ite _ ((readPkt _).bind fun _ _ => pure _ rfl) (pure _ rfl)))

end Counts

/-- The value of an action or a node and the state it leaves are those of the evaluation. -/
def Walked.Follows (walked : Walked) (w : Worker) (ret : Int) (w' : Worker) : Prop :=
  match walked with
  | .stopped verdict => ret = -1 ∧ Yields 0 verdict.frames verdict.stats w w'
  | .going value m => ret = value.toInt ∧ w'.pkt = m ∧ Yields 0 [] [] w w'

theorem Walked.Follows.after {walked : Walked} {ret : Int} (first : Yields 0 [] [] w w')
    (follows : walked.Follows w' ret w'') : walked.Follows w ret w'' := by
  cases walked with
  | stopped verdict => exact ⟨follows.1,first.after follows.2⟩
  | going value m => exact ⟨follows.1,follows.2.1,first.after follows.2.2⟩

theorem toInt_nonneg (value : Bool) : ¬value.toInt < 0 := by cases value <;> decide

/-- A node that is walked first; a negative value ends the processing. -/
theorem Walked.Follows.walk {code : M Int} {after : Int → M Int} {walked : Walked} {next : Bool → Mbuf → Walked}
    (first : Ensures ok code w (walked.Follows w))
    (rest : ∀ value w', Ensures ok (after value.toInt) w' ((next value w'.pkt).Follows w')) :
    Ensures ok (do
      let ret ← code
      if ret < 0 then return -1 else after ret) w ((walked.andThen next).Follows w) := by
  rw [ensures_bind]
  apply first.mono
  intro ret w' follows
  cases walked with
  | stopped verdict =>
    obtain ⟨rfl,yields⟩ := follows
    exact ⟨rfl,yields⟩
  | going value m =>
    obtain ⟨rfl,rfl,quiet⟩ := follows
    rw [if_neg (toInt_nonneg value)]
    exact (rest value w').mono fun _ _ follows => follows.after quiet

theorem Walked.andThen_going (walked : Walked) : walked.andThen .going = walked := by cases walked <;> rfl

/-- A node that is walked last. -/
theorem Walked.Follows.last {code : M Int} {walked : Walked} (only : Ensures ok code w (walked.Follows w)) :
    Ensures ok (do
      let ret ← code
      if ret < 0 then return -1
      return ret) w (walked.Follows w) := by
  rw [← walked.andThen_going]
  exact Walked.Follows.walk only fun _ w => ⟨rfl,rfl,.refl w⟩

/-! ## Handlers -/

/-- A handler has done what the verdict says, or refuses the packet where that is the verdict. -/
def Verdict.Settled (v : Verdict) (w : Worker) (ret : Int) (w' : Worker) : Prop :=
  0 ≤ ret ∧ Yields 0 v.frames v.stats w w' ∨
    ret < 0 ∧ v = .dropped .dropUnhandledEthertype ∧ Yields 0 [] [] w w'

theorem Verdict.Settled.after {v : Verdict} {ret : Int} (first : Yields 0 [] [] w w') (settled : v.Settled w' ret w'') :
    v.Settled w ret w'' := by
  rcases settled with ⟨nonneg,yields⟩ | ⟨negative,refused,quiet⟩
  · exact .inl ⟨nonneg,first.after yields⟩
  · exact .inr ⟨negative,refused,first.after quiet⟩

theorem Verdict.Settled.refused {v : Verdict} (verdict : v = .dropped .dropUnhandledEthertype)
    (quiet : Yields 0 [] [] w w') : v.Settled w (-1) w' :=
  .inr ⟨by decide,verdict,quiet⟩

/-- `dispatch_packet` frees what a handler refuses. -/
theorem Verdict.Settled.finish {v : Verdict} {code : M Int} (handled : Ensures ok code w (v.Settled w)) :
    Ensures ok (do
      let status ← code
      if status < 0 then
        bump .dropUnhandledEthertype
        rtePktmbufFree
      return 0 : M Int) w fun _ w' => Yields 0 v.frames v.stats w w' := by
  rw [ensures_bind]
  refine handled.mono fun ret w' settled => ?_
  simp only [ensures_ite,ensures_bind,ensures_bump,ensures_rtePktmbufFree,ensures_pure]
  rcases settled with ⟨nonneg,yields⟩ | ⟨negative,rfl,quiet⟩
  · exact ⟨fun negative => absurd negative (Int.not_lt.mpr nonneg),fun _ => yields⟩
  · refine ⟨fun _ => quiet.after ?_,fun nonneg => absurd negative nonneg⟩
    exact (Yields.bumped _).trans (.logged .free fun _ => rfl)

theorem icmpEcho_yields (w : Worker) :
    Ensures ok (icmpEcho port) w fun ret w' => 0 ≤ ret ∧ Yields 0 [(port,w.pkt.echoed.prepared)] [] w w' := by
  show Ensures ok (icmpEchoWith rteRawCksumAt port) w _
  simp only [icmpEchoWith,rteRawCksumAt,load16,store16,ensures_bind,ensures_icmpEchoHeaders,ensures_readPkt,
    ensures_writePkt,ensures_pure]
  apply (txSend_yields port _).mono
  intro sent w' yields
  refine ⟨Int.natCast_nonneg _,Yields.after ?_ yields⟩
  exact .quiet (echoAccesses ++ [.read,.read,.write]) (by simp [Worker.replying]) rfl rfl rfl fun _ => rfl

/-! ## What comes in -/

/-- What is received when the devices of `ports` are polled one after the other, each frame with its device. -/
def polled (rx : Nat → RxBurst) : List Nat → List (Nat × Mbuf)
  | [] => []
  | port :: ports => (rx 0).pkts.map (port,·) ++ polled (fun i => rx (i+1)) ports

theorem polled_append (rx : Nat → RxBurst) (xs ys : List Nat) :
    polled rx (xs ++ ys) = polled rx xs ++ polled (fun i => rx (i + xs.length)) ys := by
  induction xs generalizing rx with
  | nil => rfl
  | cons port xs ih =>
    simp only [List.cons_append,polled,ih,List.append_assoc,List.length_cons,Nat.add_assoc]

/-- The devices in the order in which `n` iterations poll them. -/
def polls (dev : Devices) (n : Nat) : List Nat := (List.replicate n (List.range dev.count.toNat)).flatten

/-- The frames that a list of received frames makes the worker queue, in order. -/
def answers (dev : Devices) (config : AppConfig) (received : List (Nat × Mbuf)) : List (Nat × Mbuf) :=
  received.flatMap fun r => (verdict dev config r.1 r.2).frames

def counters (dev : Devices) (config : AppConfig) (received : List (Nat × Mbuf)) : List Stat :=
  received.flatMap fun r => countedFor dev config r.1 r.2

theorem answers_append (xs ys : List (Nat × Mbuf)) :
    answers dev config (xs ++ ys) = answers dev config xs ++ answers dev config ys := List.flatMap_append

theorem counters_append (xs ys : List (Nat × Mbuf)) :
    counters dev config (xs ++ ys) = counters dev config xs ++ counters dev config ys := List.flatMap_append

theorem polled_port (rx : Nat → RxBurst) (ports : List Nat) : ∀ r ∈ polled rx ports, r.1 ∈ ports := by
  induction ports generalizing rx with
  | nil => exact fun r none => absurd none List.not_mem_nil
  | cons port ports ih =>
    intro r member
    rcases List.mem_append.mp member with here | later
    · obtain ⟨m,_,rfl⟩ := List.mem_map.mp here
      exact List.mem_cons_self
    · exact List.mem_cons_of_mem port (ih _ r later)

/-- What is received comes from the devices. -/
theorem polled_device (rx : Nat → RxBurst) (n : Nat) : ∀ r ∈ polled rx (polls dev n), r.1 < dev.count.toNat := by
  intro r member
  obtain ⟨round,rounds,port⟩ := List.mem_flatten.mp (polled_port rx _ r member)
  rw [List.eq_of_mem_replicate rounds] at port
  exact List.mem_range.mp port

/-- No frame is for a queue behind the array. -/
theorem WithinArrays.answers (within : WithinArrays dev config) (rx : Nat → RxBurst) (n : Nat) :
    ∀ f ∈ Natasha.answers dev config (polled rx (polls dev n)), f.1 < natashaMaxQueues := by
  intro f member
  obtain ⟨r,received,sent⟩ := List.mem_flatMap.mp member
  exact within.verdict (polled_device rx n r received) r.2 f sent

theorem WithinArrays.behind (within : WithinArrays dev config) (rx : Nat → RxBurst) (n : Nat) {q : Nat}
    (behind : natashaMaxQueues ≤ q) : framesFor q (Natasha.answers dev config (polled rx (polls dev n))) = [] := by
  rw [framesFor,List.filterMap_eq_nil_iff]
  intro f member
  have below := within.answers rx n f member
  exact if_neg (by omega)

theorem flushPorts_yields (list : List Nat) (w : Worker) :
    Ensures ok (flushPorts list) w fun _ w' => Yields 0 [] [] w w' ∧
      ∀ q, q ∈ list ∨ (w.txQueues q).pkts = [] → (w'.txQueues q).pkts = [] := by
  induction list generalizing w with
  | nil => exact ⟨.refl w,fun q h => h.resolve_left List.not_mem_nil⟩
  | cons port list ih =>
    simp only [flushPorts,ensures_bind,ensures_get,ensures_txFlush]
    refine ⟨fun empty => ?_,fun _ => ?_⟩
    · refine (ih w).mono fun _ w' h => ⟨h.1,fun q cases => h.2 q ?_⟩
      rcases cases with member | done
      · rcases List.mem_cons.mp member with rfl | member
        · exact .inr empty
        · exact .inl member
      · exact .inr done
    · have flushed : Yields 0 [] [] w (w.flushed port (w.txQueues port).pkts) := by
        refine ⟨fun q => ?_,fun s other => ?_,fun _ => rfl⟩
        · rw [Worker.stream,Worker.flushed,bursts,List.filterMap_append,← bursts,← bursts]
          by_cases same : q = port
          · subst q
            simp [Worker.stream,TxQueue.empty]
          · rw [bursts_flushEvents_ne same]
            simp [Worker.stream,Function.update_of_ne same]
        · simp [Worker.flushed,addNotSent,Function.update_of_ne other]
      refine (ih _).mono fun _ w' h => ⟨flushed.after h.1,fun q cases => h.2 q ?_⟩
      by_cases same : q = port
      · subst q
        exact .inr (by simp [Worker.flushed,TxQueue.empty])
      · rcases cases with member | done
        · exact .inl ((List.mem_cons.mp member).resolve_left same)
        · exact .inr (by simpa [Worker.flushed,Function.update_of_ne same] using done)

/-! ## Packets and runs -/

section Steady

variable (loads : ∀ p, ok .appConfig p → p.config = config)

include loads

theorem actionNatRewrite_follows (field : AddrField) (w : Worker) :
    Ensures ok (actionNatRewrite field) w
      ((Action.eval dev config.natLookup port w.pkt (.natRewrite field)).Follows w) := by
  have table : ∀ op answer, ok op answer → tableAnswer config.natLookup op answer := by
    intro op answer admitted
    cases op with
    | appConfig => exact congrArg AppConfig.natLookup (loads answer admitted)
    | _ => trivial
  have rewrites := (actionNatRewrite_table config.natLookup field w).fewer table
  apply (Ensures.and (Counts.actionNatRewrite field) rewrites).mono
  rintro ret w' ⟨counts,found,missed⟩
  rw [Action.eval]
  cases rewritten : w.pkt.natRewritten config.natLookup field with
  | some m' =>
    obtain ⟨rfl,same,_⟩ := found m' rewritten
    exact ⟨rfl,same,counts⟩
  | none =>
    obtain ⟨rfl,_⟩ := missed rewritten
    exact ⟨rfl,counts⟩

theorem invoke_follows (action : Action) (w : Worker) :
    Ensures ok (action.invoke dev port) w ((action.eval dev config.natLookup port w.pkt).Follows w) := by
  have called : Yields 0 [] [] w (w.logged (.call action)) := .logged _ fun _ => rfl
  unfold Action.invoke
  rw [ensures_bind,ensures_event]
  cases action with
  | condIpv4SrcInNetwork network => exact ⟨rfl,rfl,called.after (.logged .read fun _ => rfl)⟩
  | condIpv4DstInNetwork network => exact ⟨rfl,rfl,called.after (.logged .read fun _ => rfl)⟩
  | condVlan vlan => exact ⟨rfl,rfl,called.after (.logged .read fun _ => rfl)⟩
  | natRewrite field => exact (actionNatRewrite_follows loads field _).mono fun _ _ follows => follows.after called
  | print =>
    have same : Ensures ok actionPrint (w.logged (.call .print)) fun ret w' => ret = 0 ∧ w'.pkt = w.pkt := by
      simp [actionPrint,load32,load16,load8]
    apply (Ensures.and Counts.actionPrint same).mono
    rintro ret w' ⟨quiet,rfl,same⟩
    exact ⟨rfl,same,called.after quiet⟩
  | drop => exact ⟨rfl,called.after ((Yields.bumped _).trans (.logged .free fun _ => rfl))⟩
  | out packet =>
    simp only [actionOut,storeMac,ensures_bind,ensures_writePkt,ensures_pure]
    apply (txSend_yields packet.port.toNat _).mono
    intro _ w' sent
    refine ⟨rfl,called.after (Yields.after ?_ sent)⟩
    exact Yields.after (.stored _) (Yields.after (.stored _) (Yields.after (.stored _) (.stored _)))

theorem processRules_follows (p : ConfigPtr) (node : Node) (w : Worker) :
    Ensures ok (processRules dev port p node) w ((node.eval dev config.natLookup port w.pkt).Follows w) := by
  have visited : ∀ {code : M Int} {walked : Walked} {w : Worker}, Ensures ok code w (walked.Follows w) →
      Ensures ok (readConfig p .rules >>= fun _ => code) w (walked.Follows w) := fun rest => by
    rw [ensures_bind]
    exact fun _ _ => rest
  induction node generalizing w with
  | null => exact ⟨rfl,rfl,.refl w⟩
  | noop => exact visited ⟨rfl,rfl,.refl w⟩
  | action function => exact visited (invoke_follows loads function w)
  | seq left right ihl ihr =>
    exact visited (Walked.Follows.walk (ihl w) fun _ w => Walked.Follows.walk (ihr w) fun _ w => ⟨rfl,rfl,.refl w⟩)
  | ifElse left right ihl ihr =>
    refine visited (Walked.Follows.walk (ihl w) fun value w => ?_)
    cases value with
    | true => exact ⟨rfl,rfl,.refl w⟩
    | false => exact Walked.Follows.walk (ihr w) fun _ w => ⟨rfl,rfl,.refl w⟩
  | cond left right ihl ihr =>
    refine visited (Walked.Follows.walk (ihl w) fun value w => ?_)
    cases value with
    | true => exact Walked.Follows.walk (ihr w) fun _ w => ⟨rfl,rfl,.refl w⟩
    | false => exact ⟨rfl,rfl,.refl w⟩
  | and left right ihl ihr =>
    refine visited (Walked.Follows.walk (ihl w) fun value w => ?_)
    cases value with
    | true => exact Walked.Follows.last (ihr w)
    | false => exact ⟨rfl,rfl,.refl w⟩
  | or left right ihl ihr =>
    refine visited (Walked.Follows.walk (ihl w) fun value w => ?_)
    cases value with
    | true => exact ⟨rfl,rfl,.refl w⟩
    | false => exact Walked.Follows.last (ihr w)

theorem ipv4Rules_settled (w : Worker) :
    Ensures ok (ipv4Rules dev port) w ((w.pkt.ruled dev config port).Settled w) := by
  simp only [ipv4Rules,ensures_bind,ensures_appConfig,ensures_readConfig,ensures_ite,ensures_pure]
  intro p loaded _
  rw [loads p loaded]
  refine ⟨fun null => .refused (if_pos null) (.refl w),fun rules q loaded _ => ?_⟩
  rw [loads q loaded]
  refine (processRules_follows loads q config.rules w).mono fun ret w' follows => ?_
  rw [ensures_event,Mbuf.ruled,if_neg rules]
  have logged : Yields 0 [] [] w' (w'.logged (.rules ret)) := .logged _ fun _ => rfl
  cases walked : config.rules.eval dev config.natLookup port w.pkt with
  | stopped verdict =>
    rw [walked] at follows
    exact .inl ⟨le_rfl,by simpa using follows.2.trans logged⟩
  | going value m =>
    rw [walked] at follows
    exact .inl ⟨le_rfl,follows.2.2.after logged⟩

/-- A datagram that is for natasha. -/
theorem icmpAnswer_yields (w : Worker)
    (mine : config.isNatashaIp dev (rteBeToCpu32 (w.pkt.data.load32 (ipv4Header + Ipv4.dstAddr))) w.pkt.vlanId = true) :
    Ensures ok (icmpAnswer dev port) w fun ret w' => ret = 0 ∧
      if w.pkt.data (l4Header + Icmp.icmpType) = ipIcmpEchoRequest then Yields 0 [(port,w.pkt.echoed.prepared)] [] w w'
      else Yields 0 [] [.dropUnknownIcmp] w w' := by
  have read : ∀ w : Worker, Yields 0 [] [] w (w.logged .read) := fun w => .logged .read fun _ => rfl
  simp only [icmpAnswer,load32,ensures_bind,ensures_readPkt,ensures_appConfig]
  intro p loaded
  apply ensures_isNatashaIp
  rw [loads p loaded]
  simp only [Worker.logged_pkt,mine,Bool.not_true,Bool.false_eq_true,if_false,icmpDispatch,load8,ensures_bind,
    ensures_readPkt]
  by_cases request : w.pkt.data (l4Header + Icmp.icmpType) = ipIcmpEchoRequest
  · simp only [request,if_true]
    refine (icmpEcho_yields _).mono fun ret w' echoed => ?_
    rw [if_neg (Int.not_lt.mpr echoed.1)]
    exact ⟨rfl,(read w).after ((read _).after ((read _).after echoed.2))⟩
  · simp only [request,if_false]
    exact ⟨rfl,(read w).after ((read _).after ((read _).after ((Yields.bumped _).trans (.logged .free fun _ => rfl))))⟩

/-- `ipv4_handle` on a datagram whose padding is cleared. -/
theorem unpadded_settled (w : Worker) :
    Ensures ok (do
      if (← load8 (ipv4Header + Ipv4.nextProtoId)) = ipprotoIcmp then
        let ret ← icmpAnswer dev port
        if ret ≥ 0 then
          return ret
      ipv4Rules dev port : M Int) w ((w.pkt.ipv4Verdict dev config port).Settled w) := by
  have read : ∀ w : Worker, Yields 0 [] [] w (w.logged .read) := fun w => .logged .read fun _ => rfl
  simp only [load8,ensures_bind,ensures_readPkt]
  by_cases icmp : w.pkt.data (ipv4Header + Ipv4.nextProtoId) = ipprotoIcmp
  · simp only [icmp,if_true,ensures_bind]
    by_cases mine : config.isNatashaIp dev (rteBeToCpu32 (w.pkt.data.load32 (ipv4Header + Ipv4.dstAddr))) w.pkt.vlanId = true
    · refine (icmpAnswer_yields loads (w.logged .read) mine).mono fun ret w' answered => ?_
      obtain ⟨rfl,answered⟩ := answered
      rw [if_pos (le_refl (0 : Int)),Mbuf.ipv4Verdict,if_pos ⟨icmp,mine⟩]
      rw [Worker.logged_pkt] at answered
      refine .inl ⟨le_rfl,(read w).after ?_⟩
      split at answered
      case isTrue request =>
        rw [if_pos request]
        exact answered
      case isFalse other =>
        rw [if_neg other]
        exact answered
    · refine (icmpAnswer_foreign dev port (w.logged .read) ?_).mono fun ret w' refused => ?_
      · intro p loaded
        rw [loads p loaded,Mbuf.mine_iff]
        exact mine
      · obtain ⟨rfl,rfl⟩ := refused
        rw [if_neg (by decide),Mbuf.ipv4Verdict,if_neg fun h => mine h.2]
        exact (ipv4Rules_settled loads _).mono fun ret w' settled => settled.after ((read w).after ((read _).after (read _)))
  · simp only [icmp,if_false]
    rw [Mbuf.ipv4Verdict,if_neg fun h => icmp h.1]
    exact (ipv4Rules_settled loads _).mono fun ret w' settled => settled.after (read w)

theorem ipv4Handle_settled (w : Worker) :
    Ensures ok (ipv4Handle dev port) w ((w.pkt.unpadded.ipv4Verdict dev config port).Settled w) := by
  have clean : Yields 0 [] [] w { w with pkt := w.pkt.unpadded, log := w.log ++ w.pkt.paddingAccesses } := by
    refine .quiet w.pkt.paddingAccesses rfl rfl rfl rfl fun q => ?_
    unfold Mbuf.paddingAccesses
    split <;> rfl
  unfold ipv4Handle
  rw [ensures_bind,ensures_fixNexus9000PaddingBug]
  exact (unpadded_settled loads _).mono fun ret w' settled => settled.after clean

theorem arpHandle_settled (w : Worker) :
    Ensures ok (arpHandle dev port) w ((w.pkt.arpVerdict dev config port).Settled w) := by
  have read : ∀ w : Worker, Yields 0 [] [] w (w.logged .read) := fun w => .logged .read fun _ => rfl
  by_cases request : w.pkt.arpOp = arpOpRequest
  · have opcode := request
    rw [Mbuf.arpOp] at opcode
    simp only [arpHandle,arpRequest,load16,load32,store16,store32,storeMac,loadMac,isNatashaPortIp,ensures_bind,
      ensures_readPkt,ensures_appConfig,ensures_readConfig,ensures_pure,opcode,if_true,Worker.logged_pkt]
    intro p loaded _
    rw [loads p loaded]
    by_cases mine : (w.pkt.arpTarget,w.pkt.vlanId) ∈ (config.ports port).ipAddresses
    · have found := (any_address_iff _ _ _).mpr mine
      simp only [Mbuf.arpTarget] at found
      simp only [found,Bool.not_true,Bool.false_eq_true,if_false,ensures_bind,ensures_readPkt,ensures_writePkt,ensures_pure]
      refine (txSend_yields port _).mono fun sent w' yields => ?_
      rw [Mbuf.arpVerdict,if_pos ⟨request,mine⟩]
      refine .inl ⟨Int.natCast_nonneg _,Yields.after ?_ yields⟩
      exact .quiet (.read :: arpAccesses) (by simp [arpAccesses]) rfl rfl rfl fun _ => rfl
    · have missing := Bool.eq_false_iff.mpr (mt (any_address_iff _ _ _).mp mine)
      simp only [Mbuf.arpTarget] at missing
      simp only [missing,Bool.not_false,if_true,ensures_pure]
      refine .refused ?_ ((read w).after ((read _).after ((read _).after (read _))))
      rw [Mbuf.arpVerdict,if_neg fun h => mine h.2]
  · have opcode := request
    rw [Mbuf.arpOp] at opcode
    simp only [arpHandle,load16,ensures_bind,ensures_readPkt,opcode,if_false,ensures_pure]
    refine .refused ?_ (read w)
    rw [Mbuf.arpVerdict,if_neg fun h => request h.1]

/-- What `dispatch_packet` does with the frame once its L3 checksum is not known to be bad. -/
theorem handle_yields (w : Worker) (good : ¬w.pkt.BadL3) :
    Ensures ok (do
      let ethType ← load16 Eth.etherType
      let status ←
        if ethType = rteBeToCpu16 etherTypeIpv4 then ipv4Handle dev port
        else if ethType = rteBeToCpu16 etherTypeArp then arpHandle dev port
        else pure (-1)
      if status < 0 then
        bump .dropUnhandledEthertype
        rtePktmbufFree
      return 0 : M Int) w fun _ w' =>
        Yields 0 (verdict dev config port w.pkt).frames (verdict dev config port w.pkt).stats w w' := by
  have read : Yields 0 [] [] w (w.logged .read) := .logged .read fun _ => rfl
  rw [load16,ensures_bind,ensures_readPkt,verdict,if_neg good]
  split
  · exact (Verdict.Settled.finish (ipv4Handle_settled loads (w.logged .read))).mono fun _ _ yields => read.after yields
  · split
    · exact (Verdict.Settled.finish (arpHandle_settled loads (w.logged .read))).mono fun _ _ yields => read.after yields
    · have refused : Verdict.Settled (.dropped .dropUnhandledEthertype) (w.logged .read) (-1) (w.logged .read) :=
        .refused rfl (.refl _)
      exact (Verdict.Settled.finish ((ensures_pure _ _ _).mpr refused)).mono fun _ _ yields => read.after yields

theorem dispatchPacket_yields (w : Worker) :
    Ensures ok (dispatchPacket dev port) w fun _ w' =>
      Yields 0 (verdict dev config port w.pkt).frames (countedFor dev config port w.pkt) w w' := by
  have read : Yields 0 [] [] w (w.logged .read) := .logged .read fun _ => rfl
  unfold dispatchPacket
  rw [ensures_bind,ensures_readPkt,ensures_ite]
  constructor
  · intro bad
    have frames : (verdict dev config port w.pkt) = .dropped .dropBadL3Cksum := if_pos bad
    have counted : countedFor dev config port w.pkt = [.dropBadL3Cksum] := by
      rw [countedFor,frames,if_neg fun h => h.1 bad]
      rfl
    rw [frames,counted]
    exact read.after ((Yields.bumped _).trans (.logged .free fun _ => rfl))
  · intro good
    rw [ensures_ite]
    refine ⟨fun bad => ?_,fun fair => ?_⟩
    · have counted : countedFor dev config port w.pkt = .rxBadL4Cksum :: (verdict dev config port w.pkt).stats := by
        rw [countedFor,if_pos ⟨good,bad⟩]
        rfl
      rw [counted,ensures_bind,ensures_bump]
      refine (handle_yields loads ((w.logged .read).bumped .rxBadL4Cksum) good).mono fun _ w' handled => ?_
      simpa using (read.after (.bumped _)).trans handled
    · have counted : countedFor dev config port w.pkt = (verdict dev config port w.pkt).stats := by
        rw [countedFor,if_neg fun h => fair h.2]
        rfl
      rw [counted]
      exact (handle_yields loads (w.logged .read) good).mono fun _ w' handled => read.after handled

theorem dispatchAll_yields (port : Nat) (pkts : List Mbuf) (w : Worker) :
    Ensures ok (dispatchAll dev port pkts) w fun _ w' =>
      Yields 0 (answers dev config (pkts.map (port,·))) (counters dev config (pkts.map (port,·))) w w' := by
  induction pkts generalizing w with
  | nil => exact .refl w
  | cons pkt pkts ih =>
    rw [dispatchAll,ensures_bind,ensures_beginDispatch]
    intro _
    rw [ensures_bind]
    have begun : Yields 0 [] [] w (w.dispatching port pkt) := .quiet [.receive port] rfl rfl rfl rfl fun _ => rfl
    refine (dispatchPacket_yields loads (w.dispatching port pkt)).mono fun _ w₁ first => ?_
    exact (ih w₁).mono fun _ w₂ rest => begun.after (first.trans rest)

theorem handlePorts_yields (list : List Nat) (w : Worker) :
    Ensures ok (handlePorts dev list) w fun _ w' =>
      Yields list.length (answers dev config (polled w.rx list)) (counters dev config (polled w.rx list)) w w' := by
  induction list generalizing w with
  | nil => exact .refl w
  | cons port list ih =>
    simp only [handlePorts,handlePort,rteEthRxBurst,ensures_bind,ensures_modifyGet]
    refine (dispatchAll_yields loads port _ _).mono fun _ w₁ first => ?_
    refine (ih w₁).mono fun _ w₂ rest => ?_
    have polled : Yields 1 [] [] w { w with rx := fun i => w.rx (i+1) } :=
      ⟨fun _ => by simp [Worker.stream],fun _ _ => by simp,fun _ => rfl⟩
    have later : w₁.rx = fun i => w.rx (i+1) := funext fun i => first.rx i
    have all := (polled.trans first).trans rest
    rw [later] at all
    simpa [Natasha.polled,answers_append,counters_append,Nat.add_comm] using all

theorem iteration_yields (w : Worker) :
    Ensures ok (iteration dev) w fun _ w' =>
      Yields dev.count.toNat (answers dev config (polled w.rx (List.range dev.count.toNat)))
        (counters dev config (polled w.rx (List.range dev.count.toNat))) w w' ∧
      ∀ q < dev.count.toNat, (w'.txQueues q).pkts = [] := by
  simp only [iteration,iterationBody,ensures_bind,ensures_appConfig,ensures_loadFlags,ensures_storeFlags]
  intro p _ flags _ _
  refine (handlePorts_yields loads _ w).mono fun _ w₁ handled => ?_
  refine (flushPorts_yields _ w₁).mono fun _ w₂ flushed => ⟨?_,fun q below => flushed.2 q (.inl (List.mem_range.mpr below))⟩
  simpa using handled.trans flushed.1

theorem mainLoop_yields (n : Nat) (w : Worker) (empty : ∀ q < dev.count.toNat, (w.txQueues q).pkts = []) :
    Ensures ok (mainLoop dev n) w fun _ w' =>
      Yields (polls dev n).length (answers dev config (polled w.rx (polls dev n)))
        (counters dev config (polled w.rx (polls dev n))) w w' ∧
      ∀ q < dev.count.toNat, (w'.txQueues q).pkts = [] := by
  induction n generalizing w with
  | zero => exact ⟨.refl w,empty⟩
  | succ n ih =>
    rw [mainLoop,ensures_bind]
    refine (iteration_yields loads w).mono fun _ w₁ first => ?_
    refine (ih w₁ first.2).mono fun _ w₂ rest => ⟨?_,rest.2⟩
    have later : w₁.rx = fun i => w.rx (i + dev.count.toNat) := funext fun i => first.1.rx i
    have all := first.1.trans rest.1
    rw [later] at all
    have order : polls dev (n+1) = List.range dev.count.toNat ++ polls dev n := rfl
    rw [order,polled_append,answers_append,counters_append,List.length_append,List.length_range]
    exact all

/-- Within the arrays of the source, the worker is the verdict, applied to one frame after the other. -/
theorem mainLoop_verdicts (within : WithinArrays dev config) (n : Nat) (pkt : Mbuf) (rx : Nat → RxBurst)
    (tx : Nat → Nat) :
    Ensures ok (mainLoop dev n) (.start pkt rx tx) fun _ w =>
      (∀ q, (bursts q w.log).flatMap Prod.fst ++ (w.txQueues q).pkts =
        framesFor q (answers dev config (polled rx (polls dev n)))) ∧
      (∀ q, natashaMaxQueues ≤ q → (bursts q w.log).flatMap Prod.fst ++ (w.txQueues q).pkts = []) ∧
      (∀ q < dev.count.toNat, (w.txQueues q).pkts = []) ∧
      ∀ s ≠ .dropTxNotsent, w.stats s = .ofNat 64 ((counters dev config (polled rx (polls dev n))).count s) := by
  refine (mainLoop_yields loads n _ fun _ _ => rfl).mono fun _ w h => ⟨h.1.start_stream,fun q behind => ?_,h.2,?_⟩
  · exact (h.1.start_stream q).trans (within.behind rx n behind)
  · exact fun s other => h.1.start_stats other

end Steady

/-- Two pings, and between them a question for an address of nobody. -/
def pingsAndQuestion : Nat → RxBurst
  | 0 => ⟨[paddedPing,whoHas 9],by decide⟩
  | 1 => ⟨[paddedPing],by decide⟩
  | _ => ⟨[],Nat.zero_le maxRxBurst⟩

/-- The NIC takes nothing; the replies were offered all the same. -/
theorem mainLoop_verdicts_pings :
    let w := (exec (steadyAnswer pinged) (mainLoop soleDevice 2) (.start paddedPing pingsAndQuestion fun _ => 0)).2
    ((bursts 0 w.log).flatMap Prod.fst ++ (w.txQueues 0).pkts).length = 2 ∧ w.stats .dropUnhandledEthertype = 1 := by
  have loads : ∀ p, steadyOnly pinged .appConfig p → p.config = pinged := fun _ loaded => congrArg ConfigPtr.config loaded
  have within : WithinArrays soleDevice pinged := ⟨by decide,trivial⟩
  obtain ⟨stream,_,_,stats⟩ := Ensures.exec (mainLoop_verdicts loads within 2 paddedPing pingsAndQuestion fun _ => 0)
    (steadyAnswer pinged) fun _ => rfl
  constructor
  · rw [stream 0]
    decide +kernel
  · rw [stats _ (by decide)]
    decide +kernel

end Natasha
