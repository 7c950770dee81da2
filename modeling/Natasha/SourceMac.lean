import Natasha.Completion
import Natasha.Fate
import Natasha.Reception

/-! The source address of the frames in the transmit queues. Three producers fill them:
`action_out` stores the address of the port the packet came in on, `icmp_echo` what the
request was addressed to, and `arp_request` asks for the address of the port it replies on. -/
namespace Natasha

open Interaction

variable {ok : (op : Op) → Ans op → Prop} {ports : Nat → Prop} {addressed : Prop}
  {dev : Devices} {port : Nat} {w₀ w w' : Worker}

def Mbuf.source (m : Mbuf) : Mac := m.data.loadMac Eth.sAddr

/-- The frame waits in the queue of `q`, or did so until it was offered to the NIC. -/
def Worker.Holds (w : Worker) (q : Nat) (m : Mbuf) : Prop :=
  m ∈ (w.txQueues q).pkts ∨ ∃ pkts sent, .burst q pkts sent ∈ w.log ∧ m ∈ pkts

/-- Neither an `out` nor frames on their way. -/
def Event.quiet : Event → Bool
  | .call (.out _) | .burst _ _ _ => false
  | _ => true

/-- Frames that are held were held before events without a burst. -/
theorem Worker.Holds.before {q : Nat} {m : Mbuf} (holds : w.Holds q m) (es : List Event)
    (log : w.log = w₀.log ++ es) (queues : w.txQueues = w₀.txQueues) (none : ∀ pkts sent, .burst q pkts sent ∉ es) : w₀.Holds q m := by
  rcases holds with waiting | ⟨pkts,sent,offered,member⟩
  · exact .inl (queues ▸ waiting)
  · rw [log] at offered
    rcases List.mem_append.mp offered with before | after
    · exact .inr ⟨pkts,sent,before,member⟩
    · exact absurd after (none pkts sent)

theorem quiet_burst {es : List Event} (quiet : ∀ e ∈ es, e.quiet = true) (q : Nat) (pkts : List Mbuf)
    (sent : Nat) : .burst q pkts sent ∉ es := by
  intro member
  have loud := quiet _ member
  simp [Event.quiet] at loud

theorem quiet_call {es : List Event} (quiet : ∀ e ∈ es, e.quiet = true) (out : OutPacket) :
    .call (.out out) ∉ es := by
  intro member
  have loud := quiet _ member
  simp [Event.quiet] at loud

/-- What a dispatch of a packet from `port` did since `w₀`: it called `out` for queues of `ports`
only and, if all of them have the address of `port` and the packet is `addressed` to it where that
matters, queued frames with the address of the queue. -/
structure Sends (dev : Devices) (port : Nat) (ports : Nat → Prop) (addressed : Prop) (w₀ w : Worker) (es : List Event) : Prop where
  log : w.log = w₀.log ++ es
  outs : ∀ out, .call (.out out) ∈ es → ports out.port.toNat
  frames : addressed → (∀ out, .call (.out out) ∈ es → dev.macaddr out.port.toNat = dev.macaddr port) →
    ∀ q m, w.Holds q m → w₀.Holds q m ∨ m.source = dev.macaddr q

namespace Sends

variable {es es' : List Event}

theorem trans (first : Sends dev port ports addressed w₀ w es) (second : Sends dev port ports addressed w w' es') :
    Sends dev port ports addressed w₀ w' (es ++ es') where
  log := by rw [second.log,first.log,List.append_assoc]
  outs out member := by
    rcases List.mem_append.mp member with before | after
    · exact first.outs out before
    · exact second.outs out after
  frames served suited q m holds := by
    rcases second.frames served (fun out later => suited out (List.mem_append_right _ later)) q m holds with kept | own
    · exact first.frames served (fun out earlier => suited out (List.mem_append_left _ earlier)) q m kept
    · exact .inr own

/-- Code that leaves the queues alone and calls no `out`. -/
theorem quiet (es : List Event) (log : w.log = w₀.log ++ es) (queues : w.txQueues = w₀.txQueues)
    (quiet : ∀ e ∈ es, e.quiet = true) : Sends dev port ports addressed w₀ w es where
  log := log
  outs out member := absurd member (quiet_call quiet out)
  frames _ _ q _ holds := .inl (holds.before es log queues (quiet_burst quiet q))

end Sends

/-- Code that only sends frames with the address of their queue. -/
def Sending (ok : (op : Op) → Ans op → Prop) (dev : Devices) (port : Nat) (ports : Nat → Prop)
    (addressed : Prop) (w : Worker) (code : M α) : Prop :=
  Ensures ok code w fun _ w' => ∃ es, Sends dev port ports addressed w w' es

namespace Sending

variable {code : M α} {next : α → M β}

theorem pure (a : α) : Sending ok dev port ports addressed w (Pure.pure a : M α) :=
  ⟨_,.quiet [] (List.append_nil _).symm rfl (by simp)⟩

theorem bind (first : Sending ok dev port ports addressed w code) (second : ∀ a w', Sending ok dev port ports addressed w' (next a)) :
    Sending ok dev port ports addressed w (code >>= next) := by
  unfold Sending at *
  rw [ensures_bind]
  apply first.mono
  rintro a w' ⟨es,before⟩
  apply (second a w').mono
  rintro b w'' ⟨es',after⟩
  exact ⟨es ++ es',before.trans after⟩

theorem branch (c : Prop) [Decidable c] {other : M α} (yes : c → Sending ok dev port ports addressed w code)
    (no : ¬c → Sending ok dev port ports addressed w other) : Sending ok dev port ports addressed w (if c then code else other) := by
  split
  case isTrue holds => exact yes holds
  case isFalse fails => exact no fails

theorem ite (c : Prop) [Decidable c] {other : M α} (yes : Sending ok dev port ports addressed w code)
    (no : Sending ok dev port ports addressed w other) : Sending ok dev port ports addressed w (if c then code else other) :=
  branch c (fun _ => yes) fun _ => no

theorem event (e : Event) (quiet : e.quiet = true) : Sending ok dev port ports addressed w (Natasha.event e) :=
  ⟨_,.quiet [e] rfl rfl (by simpa using quiet)⟩

theorem readPkt (f : Mbuf → α) : Sending ok dev port ports addressed w (Natasha.readPkt f) :=
  ⟨_,.quiet [.read] rfl rfl (by simp [Event.quiet])⟩

theorem writePkt (f : Mbuf → Mbuf) : Sending ok dev port ports addressed w (Natasha.writePkt f) :=
  ⟨_,.quiet [.write] rfl rfl (by simp [Event.quiet])⟩

theorem bump (stat : Stat) : Sending ok dev port ports addressed w (Natasha.bump stat) :=
  ⟨_,.quiet [.bump stat] rfl rfl (by simp [Event.quiet])⟩

theorem appConfig : Sending ok dev port ports addressed w Natasha.appConfig :=
  fun _ _ => ⟨_,.quiet [] (List.append_nil _).symm rfl (by simp)⟩

theorem load {next : ConfigPtr → M α} (each : ∀ p, ok .appConfig p → Sending ok dev port ports addressed w (next p)) :
    Sending ok dev port ports addressed w (Natasha.appConfig >>= next) := by
  unfold Sending
  rw [ensures_bind]
  exact each

theorem readConfig (p : ConfigPtr) (m : Member) : Sending ok dev port ports addressed w (Natasha.readConfig p m) :=
  fun _ _ => ⟨_,.quiet [] (List.append_nil _).symm rfl (by simp)⟩

theorem visited {p : ConfigPtr} {m : Member} (rest : Sending ok dev port ports addressed w code) :
    Sending ok dev port ports addressed w (Natasha.readConfig p m >>= fun _ => code) := by
  unfold Sending
  rw [ensures_bind]
  exact fun _ _ => rest

/-- What was done before counts as well. -/
theorem since {es : List Event} (rest : Sending ok dev port ports addressed w code) (first : Sends dev port ports addressed w₀ w es) :
    Ensures ok code w fun _ w' => ∃ es, Sends dev port ports addressed w₀ w' es := by
  apply Ensures.mono rest
  rintro _ w' ⟨es',after⟩
  exact ⟨es ++ es',first.trans after⟩

theorem loaded {f : Mbuf → α} (rest : Sending ok dev port ports addressed (w.logged .read) (next (f w.pkt))) :
    Sending ok dev port ports addressed w (Natasha.readPkt f >>= next) := by
  unfold Sending
  rw [ensures_bind]
  exact rest.since (.quiet [.read] rfl rfl (by simp [Event.quiet]))

theorem stored {f : Mbuf → Mbuf} {next : Unit → M β} (rest : Sending ok dev port ports addressed (w.stored f) (next ())) :
    Sending ok dev port ports addressed w (Natasha.writePkt f >>= next) := by
  unfold Sending
  rw [ensures_bind]
  exact rest.since (.quiet [.write] rfl rfl (by simp [Event.quiet]))

theorem cksumUpdateAt (field : Nat) (before after : U32) :
    Sending ok dev port ports addressed w (Natasha.cksumUpdateAt field before after) :=
  (readPkt _).bind fun _ _ => writePkt _

theorem l4CksumUpdate (field : Nat) (offload : U64) (before after : U32) :
    Sending ok dev port ports addressed w (Natasha.l4CksumUpdate field offload before after) :=
  (readPkt _).bind fun _ _ => ite _ (cksumUpdateAt ..) ((writePkt _).bind fun _ _ => writePkt _)

theorem lookupAndRewrite (table : NatLookup) (ip : U32) (field : Nat) :
    Sending ok dev port ports addressed w (Natasha.lookupAndRewrite table ip field) := by
  unfold Natasha.lookupAndRewrite
  split
  · exact (event .free rfl).bind fun _ _ => pure _
  · exact (writePkt _).bind fun _ _ => pure _

/-- Load the table, translate the word at `field` and go on if it is there. -/
theorem translate (ip : U32) (field : Nat) {rest : M Int} (more : ∀ w, Sending ok dev port ports addressed w rest) :
    Sending ok dev port ports addressed w (do
      let config ← Natasha.appConfig
      Natasha.readConfig config .natLookup
      if (← Natasha.lookupAndRewrite config.config.natLookup ip field) < 0 then
        Natasha.bump .dropNoRule
        return -1
      rest) :=
  appConfig.bind fun _ _ => (readConfig _ _).bind fun _ _ => (lookupAndRewrite ..).bind fun _ w' =>
    ite _ ((bump _).bind fun _ _ => pure _) (more w')

theorem icmpNatHandle (inner : AddrField) : Sending ok dev port ports addressed w (Natasha.icmpNatHandle inner) :=
  (readPkt _).bind fun _ _ => ite _ (pure _) ((readPkt _).bind fun _ _ => ite _ (pure _)
    ((readPkt _).bind fun _ _ => (readPkt _).bind fun _ _ => translate _ _ fun _ =>
      (readPkt _).bind fun _ _ => (cksumUpdateAt ..).bind fun _ _ => (readPkt _).bind fun _ _ =>
        (cksumUpdateAt ..).bind fun _ _ => (cksumUpdateAt ..).bind fun _ _ => pure _))

theorem actionNatRewriteImpl (address : Nat) (inner : AddrField) :
    Sending ok dev port ports addressed w (Natasha.actionNatRewriteImpl address inner) := by
  refine (readPkt _).bind fun _ _ => translate _ _ fun _ => (readPkt _).bind fun _ _ =>
    (cksumUpdateAt ..).bind fun _ _ => (readPkt _).bind fun _ _ => (readPkt _).bind fun _ _ => ?_
  refine ite _ ((l4CksumUpdate ..).bind fun _ _ => pure _) (ite _ ?_ (ite _ (icmpNatHandle _) (pure _)))
  exact (readPkt _).bind fun _ _ => ite _ (pure _) ((l4CksumUpdate ..).bind fun _ _ => pure _)

theorem actionPrint : Sending ok dev port ports addressed w Natasha.actionPrint :=
  (readPkt _).bind fun _ _ => (readPkt _).bind fun _ _ => (readPkt _).bind fun _ _ =>
    ite _ ((readPkt _).bind fun _ _ => (readPkt _).bind fun _ _ => pure _)
      (ite _ ((readPkt _).bind fun _ _ => pure _)
        (ite _ ((readPkt _).bind fun _ _ => pure _) (pure _)))

end Sending

/-! ## Transmit -/

theorem quiet_sendAccesses (m : Mbuf) : ∀ e ∈ m.sendAccesses, e.quiet = true := by
  unfold Mbuf.sendAccesses
  split <;> simp [Event.quiet]

theorem quiet_notSent (q n remaining : Nat) : ∀ e ∈ notSent q n remaining, e.quiet = true := by
  induction remaining generalizing n with
  | zero => simp [notSent]
  | succ remaining ih =>
    intro e member
    rcases List.mem_cons.mp member with rfl | member
    · rfl
    rcases List.mem_cons.mp member with rfl | member
    · rfl
    · exact ih (n+1) e member

/-- Everything in the queue of `q` after `tx_send` was there or is the mbuf under dispatch. -/
theorem filled_holds (w : Worker) (q : Nat) (m : Mbuf) (member : m ∈ w.filled q) :
    w.Holds q m ∨ m.source = w.pkt.source := by
  rcases List.mem_append.mp member with waiting | new
  · exact .inl (.inl waiting)
  · obtain rfl := List.mem_singleton.mp new
    exact .inr rfl

theorem quiet_enqueue (w : Worker) (q : Nat) :
    ∀ e ∈ w.pkt.sendAccesses ++ [.enqueue q (w.txQueues q).pkts.length], e.quiet = true := by
  intro e member
  rcases List.mem_append.mp member with access | last
  · exact quiet_sendAccesses w.pkt e access
  · obtain rfl := List.mem_singleton.mp last
    rfl

theorem txSend_holds (q : Nat) (w : Worker) :
    Ensures ok (txSend q) w fun _ w' => ∃ es, w'.log = w.log ++ es ∧ (∀ out, .call (.out out) ∉ es) ∧
      ∀ q' m, w'.Holds q' m → w.Holds q' m ∨ q' = q ∧ m.source = w.pkt.source := by
  have stored := quiet_enqueue w q
  rw [ensures_txSend]
  constructor
  · intro room
    refine ⟨_,rfl,quiet_call stored,?_⟩
    rintro q' m (waiting | ⟨pkts,sent,offered,member⟩)
    · rw [Worker.setQueue_txQueues] at waiting
      by_cases same : q' = q
      · subst q'
        rw [Function.update_self] at waiting
        exact (filled_holds w q m waiting).imp_right fun own => ⟨rfl,own⟩
      · rw [Function.update_of_ne same] at waiting
        exact .inl (.inl waiting)
    · rcases List.mem_append.mp offered with before | after
      · exact .inl (.inr ⟨pkts,sent,before,member⟩)
      · exact absurd after (quiet_burst stored _ _ _)
  · intro full
    have rest := quiet_notSent q ((w.enqueued q).taken (w.filled q))
      ((w.filled q).length - (w.enqueued q).taken (w.filled q))
    refine ⟨_,List.append_assoc _ _ _,?_,?_⟩
    · intro out member
      rcases List.mem_append.mp member with before | after
      · exact quiet_call stored out before
      · rcases List.mem_cons.mp after with burst | after
        · cases burst
        · exact quiet_call rest out after
    · rintro q' m (waiting | ⟨pkts,sent,offered,member⟩)
      · by_cases same : q' = q
        · subst q'
          simp [Worker.flushed,TxQueue.empty] at waiting
        · simp only [Worker.flushed,Function.update_of_ne same] at waiting
          exact .inl (.inl waiting)
      · rcases List.mem_append.mp offered with before | after
        · rcases List.mem_append.mp before with before | access
          · exact .inl (.inr ⟨pkts,sent,before,member⟩)
          · exact absurd access (quiet_burst stored _ _ _)
        · rcases List.mem_cons.mp after with burst | after
          · cases burst
            exact (filled_holds w q m member).imp_right fun own => ⟨rfl,own⟩
          · exact absurd after (quiet_burst rest _ _ _)

theorem Sending.txSend {q : Nat} (own : addressed → w.pkt.source = dev.macaddr q) :
    Sending ok dev port ports addressed w (Natasha.txSend q) := by
  apply (txSend_holds q w).mono
  rintro _ w' ⟨es,log,quiet,holds⟩
  refine ⟨es,log,fun out member => absurd member (quiet out),fun served _ q' m held => ?_⟩
  rcases holds q' m held with kept | ⟨rfl,new⟩
  · exact .inl kept
  · exact .inr (new.trans (own served))

/-! ## Rules -/

/-- The action sends the mbuf to queues of `ports` only and, where the processing goes on, `next`
holds of its value and of the mbuf it leaves. -/
def Action.Routes (ok : (op : Op) → Ans op → Prop) (ports : Nat → Prop) (m : Mbuf) (next : Int → Mbuf → Prop) :
    Action → Prop
  | .condIpv4SrcInNetwork network =>
    next (ipv4InNetwork (rteBeToCpu32 (m.data.load32 (ipv4Header + AddrField.src.offset))) network).toInt m
  | .condIpv4DstInNetwork network =>
    next (ipv4InNetwork (rteBeToCpu32 (m.data.load32 (ipv4Header + AddrField.dst.offset))) network).toInt m
  | .condVlan vlan => next (decide ((m.vlanId.toNat : Int) = vlan)).toInt m
  | .natRewrite field => ∀ m', m.Rewritten ok field m' → next 0 m'
  | .out packet => ports packet.port.toNat
  | .print => next 0 m
  | .drop => True

/-- The same for the tree, as a precondition of the walk through it. -/
def Node.Routes (ok : (op : Op) → Ans op → Prop) (ports : Nat → Prop) :
    Node → Mbuf → (next : Int → Mbuf → Prop) → Prop
  | .null, m, next | .noop, m, next => next 0 m
  | .action function, m, next => function.Routes ok ports m next
  | .seq left right, m, next =>
    left.Routes ok ports m fun _ m => right.Routes ok ports m fun _ m => next 0 m
  | .ifElse left right, m, next =>
    left.Routes ok ports m fun ret m =>
      (ret = 0 → right.Routes ok ports m fun _ m => next 0 m) ∧ (ret ≠ 0 → next 0 m)
  | .cond left right, m, next =>
    left.Routes ok ports m fun ret m =>
      (ret = 0 → next 0 m) ∧ (ret ≠ 0 → right.Routes ok ports m fun _ m => next 1 m)
  | .and left right, m, next =>
    left.Routes ok ports m fun ret m => (ret = 0 → next 0 m) ∧ (ret ≠ 0 → right.Routes ok ports m next)
  | .or left right, m, next =>
    left.Routes ok ports m fun ret m => (ret ≠ 0 → next 1 m) ∧ (ret = 0 → right.Routes ok ports m next)

theorem Node.OutsIn.routes {node : Node} (outs : node.OutsIn ports) (m : Mbuf) {next : Int → Mbuf → Prop}
    (always : ∀ ret m, next ret m) : node.Routes ok ports m next := by
  induction node generalizing m next with
  | null | noop => exact always _ _
  | action function =>
    cases function with
    | out packet => exact outs
    | drop => trivial
    | natRewrite field => exact fun _ _ => always _ _
    | condIpv4SrcInNetwork | condIpv4DstInNetwork | condVlan | print => exact always _ _
  | seq left right ihl ihr => exact ihl outs.1 m fun _ _ => ihr outs.2 _ fun _ _ => always _ _
  | ifElse left right ihl ihr =>
    exact ihl outs.1 m fun _ _ => ⟨fun _ => ihr outs.2 _ fun _ _ => always _ _,fun _ => always _ _⟩
  | cond left right ihl ihr =>
    exact ihl outs.1 m fun _ _ => ⟨fun _ => always _ _,fun _ => ihr outs.2 _ fun _ _ => always _ _⟩
  | and left right ihl ihr => exact ihl outs.1 m fun _ _ => ⟨fun _ => always _ _,fun _ => ihr outs.2 _ always⟩
  | or left right ihl ihr => exact ihl outs.1 m fun _ _ => ⟨fun _ => always _ _,fun _ => ihr outs.2 _ always⟩

/-- Code of the rules: it sends frames as `Sends` says and, unless it ends the processing, `next`
holds of its value and of the mbuf it leaves. -/
def Routing (ok : (op : Op) → Ans op → Prop) (dev : Devices) (port : Nat) (ports : Nat → Prop)
    (addressed : Prop) (w : Worker) (next : Int → Mbuf → Prop) (code : M Int) : Prop :=
  Ensures ok code w fun ret w' => (∃ es, Sends dev port ports addressed w w' es) ∧ (¬ret < 0 → next ret w'.pkt)

namespace Routing

variable {next next' : Int → Mbuf → Prop} {code : M Int}

theorem pure (ret : Int) (going : ¬ret < 0 → next ret w.pkt) :
    Routing ok dev port ports addressed w next (Pure.pure ret) :=
  ⟨⟨_,.quiet [] (List.append_nil _).symm rfl (by simp)⟩,going⟩

theorem branch (c : Prop) [Decidable c] {other : M Int} (yes : c → Routing ok dev port ports addressed w next code)
    (no : ¬c → Routing ok dev port ports addressed w next other) :
    Routing ok dev port ports addressed w next (if c then code else other) := by
  split
  case isTrue holds => exact yes holds
  case isFalse fails => exact no fails

theorem readConfig (p : ConfigPtr) (member : Member) (rest : Routing ok dev port ports addressed w next code) :
    Routing ok dev port ports addressed w next (Natasha.readConfig p member >>= fun _ => code) := by
  unfold Routing
  rw [ensures_bind]
  exact fun _ _ => rest

/-- A node that is walked first; a negative value ends the processing. -/
theorem walk {after : Int → M Int} (first : Routing ok dev port ports addressed w next code)
    (rest : ∀ ret w', next ret w'.pkt → Routing ok dev port ports addressed w' next' (after ret)) :
    Routing ok dev port ports addressed w next' (do
      let ret ← code
      if ret < 0 then return -1 else after ret) := by
  unfold Routing
  rw [ensures_bind]
  apply Ensures.mono first
  rintro ret w' ⟨⟨es,before⟩,going⟩
  rw [ensures_ite]
  refine ⟨fun negative => ⟨⟨es,before⟩,fun going => absurd neg_one_lt_zero going⟩,fun nonneg => ?_⟩
  apply Ensures.mono (rest ret w' (going nonneg))
  rintro _ w'' ⟨⟨es',after⟩,going⟩
  exact ⟨⟨es ++ es',before.trans after⟩,going⟩

/-- A condition reads the mbuf and leaves it alone. -/
theorem cond (action : Action) (f : Mbuf → α) (value : α → Int) (holds : next (value (f w.pkt)) w.pkt)
    (quiet : (Event.call action).quiet = true) :
    Routing ok dev port ports addressed w next (do
      event (.call action)
      let a ← readPkt f
      return value a) :=
  ⟨⟨_,.quiet [.call action,.read] (by simp [Worker.logged]) rfl (by simpa [Event.quiet] using quiet)⟩,fun _ => holds⟩

/-- The source address is that of the ingress port, so it is right if the egress port has the same. -/
theorem out (out : OutPacket) (allowed : ports out.port.toNat) :
    Routing ok dev port ports addressed w next (Action.invoke dev port (.out out)) := by
  have source : ((w.pkt.data.storeMac Eth.sAddr (dev.macaddr port)).storeMac Eth.dAddr out.nextHop).loadMac
      Eth.sAddr = dev.macaddr port := by
    rw [Buffer.loadMac_storeMac_frame _ _ _ _ (by simp),Buffer.loadMac_storeMac]
  unfold Routing
  simp only [Action.invoke,actionOut,storeMac,ensures_bind,ensures_event,ensures_writePkt,ensures_pure]
  apply (txSend_holds out.port.toNat _).mono
  rintro _ w' ⟨es,log,quiet,holds⟩
  have called : Sends dev port ports addressed w w' (.call (.out out) :: .write :: .write :: .write :: .write :: es) := by
    refine ⟨by simp [log],?_,?_⟩
    · intro other member
      simp only [List.mem_cons,reduceCtorEq,false_or,Event.call.injEq,Action.out.injEq] at member
      rcases member with rfl | later
      · exact allowed
      · exact absurd later (quiet other)
    · intro _ suited q m held
      have same := suited out List.mem_cons_self
      rcases holds q m held with kept | ⟨rfl,new⟩
      · exact .inl (kept.before [.call (.out out),.write,.write,.write,.write] (by simp) rfl (by simp))
      · right
        rw [new,same]
        exact source
  exact ⟨⟨_,called⟩,fun going => absurd neg_one_lt_zero going⟩

theorem natRewrite (field : AddrField) (routes : ∀ m', w.pkt.Rewritten ok field m' → next 0 m') :
    Routing ok dev port ports addressed w next (Action.invoke dev port (.natRewrite field)) := by
  have sends : Sending ok dev port ports addressed w (Action.invoke dev port (.natRewrite field)) :=
    (Sending.event _ rfl).bind fun _ _ =>
      Sending.ite _ (Sending.actionNatRewriteImpl _ _) (Sending.actionNatRewriteImpl _ _)
  have leaves : Ensures ok (Action.invoke dev port (.natRewrite field)) w fun ret w' =>
      ret = 0 ∧ w.pkt.Rewritten ok field w'.pkt ∨ ret = -1 ∧ w.pkt.Missed ok field := by
    simp only [Action.invoke,ensures_bind,ensures_event]
    exact actionNatRewrite_pkt field _
  apply (Ensures.and sends leaves).mono
  rintro ret w' ⟨sends,⟨rfl,rewritten⟩ | ⟨rfl,_⟩⟩
  · exact ⟨sends,fun _ => routes _ rewritten⟩
  · exact ⟨sends,fun going => absurd neg_one_lt_zero going⟩

theorem print (routes : next 0 w.pkt) :
    Routing ok dev port ports addressed w next (Action.invoke dev port .print) := by
  have sends : Sending ok dev port ports addressed w (Action.invoke dev port .print) :=
    (Sending.event _ rfl).bind fun _ _ => Sending.actionPrint
  have leaves : Ensures ok (Action.invoke dev port .print) w fun ret w' => ret = 0 ∧ w'.pkt = w.pkt := by
    simp [Action.invoke,Natasha.actionPrint,load32,load16,load8]
  apply (Ensures.and sends leaves).mono
  rintro ret w' ⟨sends,rfl,same⟩
  exact ⟨sends,fun _ => same ▸ routes⟩

theorem invoke (action : Action) (routes : action.Routes ok ports w.pkt next) :
    Routing ok dev port ports addressed w next (action.invoke dev port) := by
  cases action with
  | condIpv4SrcInNetwork network => exact cond _ (fun m => m.data.load32 _) _ routes rfl
  | condIpv4DstInNetwork network => exact cond _ (fun m => m.data.load32 _) _ routes rfl
  | condVlan vlan => exact cond _ Mbuf.vlanId _ routes rfl
  | natRewrite field => exact natRewrite field routes
  | out packet => exact out packet routes
  | print => exact print routes
  | drop =>
    refine ⟨⟨_,.quiet [.call .drop,.bump .dropNatCondition,.free] ?_ rfl (by simp [Event.quiet])⟩,
      fun going => absurd neg_one_lt_zero going⟩
    simp [Worker.logged]

theorem processRules (config : ConfigPtr) (node : Node) (routes : node.Routes ok ports w.pkt next) :
    Routing ok dev port ports addressed w next (Natasha.processRules dev port config node) := by
  induction node generalizing w next with
  | null => exact pure 0 fun _ => routes
  | noop => exact readConfig _ _ (pure 0 fun _ => routes)
  | action action => exact readConfig _ _ (invoke action routes)
  | seq left right ihl ihr =>
    exact readConfig _ _ ((ihl routes).walk fun _ _ routes => (ihr routes).walk fun _ _ routes => pure 0 fun _ => routes)
  | ifElse left right ihl ihr =>
    refine readConfig _ _ ((ihl routes).walk fun ret _ routes => branch _ (fun zero => ?_) fun nonzero => ?_)
    · exact (ihr (routes.1 zero)).walk fun _ _ routes => pure 0 fun _ => routes
    · exact pure 0 fun _ => routes.2 nonzero
  | cond left right ihl ihr =>
    refine readConfig _ _ ((ihl routes).walk fun ret _ routes => branch _ (fun zero => ?_) fun nonzero => ?_)
    · exact pure 0 fun _ => routes.1 zero
    · exact (ihr (routes.2 nonzero)).walk fun _ _ routes => pure 1 fun _ => routes
  | and left right ihl ihr =>
    refine readConfig _ _ ((ihl routes).walk fun ret _ routes => branch _ (fun zero => ?_) fun nonzero => ?_)
    · exact pure 0 fun _ => routes.1 zero
    · exact (ihr (routes.2 nonzero)).walk fun ret _ routes => pure ret fun _ => routes
  | or left right ihl ihr =>
    refine readConfig _ _ ((ihl routes).walk fun ret _ routes => branch _ (fun nonzero => ?_) fun zero => ?_)
    · exact pure 1 fun _ => routes.1 nonzero
    · exact (ihr (routes.2 (not_not.mp zero))).walk fun ret _ routes => pure ret fun _ => routes

theorem sending (routing : Routing ok dev port ports addressed w next code) :
    Sending ok dev port ports addressed w code := Ensures.mono routing fun _ _ sent => sent.1

end Routing

theorem Sending.applyRules (routes : ∀ p, ok .appConfig p → p.config.rules.Routes ok ports w.pkt fun _ _ => True) :
    Sending ok dev port ports addressed w (do
      let config ← Natasha.appConfig
      Natasha.readConfig config .rules
      if config.config.rules = .null then
        return -1
      let config ← Natasha.appConfig
      Natasha.readConfig config .rules
      let ret ← Natasha.processRules dev port config config.config.rules
      Natasha.event (.rules ret)
      return 0 : M Int) := by
  refine load fun _ _ => visited (ite _ (pure _) (load fun p loaded => visited ?_))
  exact (Routing.processRules p _ (routes p loaded)).sending.bind fun _ _ => (event _ rfl).bind fun _ _ => pure _

/-! ## Replies -/

/-- The reply has the address the request was sent to. -/
theorem Sending.icmpEcho (sentTo : addressed → w.pkt.data.loadMac Eth.dAddr = dev.macaddr port) :
    Sending ok dev port ports addressed w (Natasha.icmpEcho port) := by
  unfold Natasha.icmpEcho
  refine .stored (.loaded (.loaded (.stored (.stored (.loaded (.loaded (.stored (.stored (.stored (.loaded
    (.stored (.stored (.loaded (.loaded (.stored ((Sending.txSend ?_).bind fun _ _ => pure _))))))))))))))))
  -- the stores after the exchange of the addresses lie behind the Ethernet header
  intro served
  simp (disch := simp) only [Mbuf.source,Worker.stored_pkt,Worker.logged_pkt,Buffer.loadMac_store16_frame,
    Buffer.loadMac_store32_frame]
  rw [Buffer.loadMac_storeMac_frame _ _ _ _ (by simp),Buffer.loadMac_storeMac,
    Buffer.loadMac_store8_frame _ _ _ _ (by simp)]
  exact sentTo served

/-- What is not for natasha is refused and left as it is, for `rest` to go on with. -/
theorem Sending.icmpAnswer {rest : Int → M Int} (sentTo : addressed → ∀ p, ok .appConfig p →
      p.config.isNatashaIp dev (rteBeToCpu32 (w.pkt.data.load32 (ipv4Header + Ipv4.dstAddr))) w.pkt.vlanId = true →
      w.pkt.data (l4Header + Icmp.icmpType) = ipIcmpEchoRequest →
        w.pkt.data.loadMac Eth.dAddr = dev.macaddr port)
    (refused : ∀ p, ok .appConfig p →
      p.config.isNatashaIp dev (rteBeToCpu32 (w.pkt.data.load32 (ipv4Header + Ipv4.dstAddr))) w.pkt.vlanId = false →
        Sending ok dev port ports addressed ((w.logged .read).logged .read) (rest (-1)))
    (answered : ∀ w', Sending ok dev port ports addressed w' (rest 0)) :
    Sending ok dev port ports addressed w (Natasha.icmpAnswer dev port >>= rest) := by
  unfold Natasha.icmpAnswer
  simp only [bind_assoc]
  refine .loaded (load fun p found => .loaded ?_)
  unfold Sending
  rw [ensures_bind]
  refine ensures_isNatashaIp dev p _ _ _ ?_
  rw [Worker.logged_pkt]
  cases mine : p.config.isNatashaIp dev (rteBeToCpu32 (w.pkt.data.load32 (ipv4Header + Ipv4.dstAddr))) w.pkt.vlanId
  case false => exact refused p found mine
  case true =>
    simp only [Bool.not_true,Bool.false_eq_true,if_false,bind_assoc]
    refine bind (.loaded (branch _ (fun request => ?_) fun _ => pure _)) fun _ _ => ?_
    · exact Sending.icmpEcho fun served => sentTo served p found mine request
    · split
      · exact (bump _).bind fun _ _ => (event _ rfl).bind fun _ _ => answered _
      · exact answered _

theorem Sending.arpHandle : Sending ok dev port ports addressed w (Natasha.arpHandle dev port) := by
  refine (readPkt _).bind fun _ _ => ite _ ?_ (pure _)
  refine .loaded (.loaded (appConfig.bind fun p _ => .loaded (bind ?_ fun _ _ => ite _ (pure _) ?_)))
  · exact (readConfig _ _).bind fun _ _ => pure _
  · refine .stored (.loaded (.stored (.stored (.loaded (.stored (.stored (.stored (.stored
      ((Sending.txSend ?_).bind fun _ _ => pure _)))))))))
    intro _
    simp (disch := simp) only [Mbuf.source,Worker.stored_pkt,Worker.logged_pkt,Buffer.loadMac_store32_frame,
      Buffer.loadMac_storeMac_frame,Buffer.loadMac_storeMac]

/-- A request that is answered was sent to the address of the port it came in on. -/
def Mbuf.Addressed (m : Mbuf) (ok : (op : Op) → Ans op → Prop) (dev : Devices) (port : Nat) : Prop :=
  ∀ p, ok .appConfig p → m.Pings dev p.config → m.data.loadMac Eth.dAddr = dev.macaddr port

/-- Where the rules get the frame, they send it to queues of `ports` only. -/
def Mbuf.Routed (m : Mbuf) (ok : (op : Op) → Ans op → Prop) (dev : Devices) (ports : Nat → Prop) : Prop :=
  ∀ p q, ok .appConfig p → ok .appConfig q → m.Ruled dev p.config →
    q.config.rules.Routes ok ports m.unpadded fun _ _ => True

section Dispatch

variable (sentTo : addressed → w.pkt.Addressed ok dev port) (routed : w.pkt.Routed ok dev ports)

include sentTo routed

theorem Sending.ipv4Handle (cksum : w.pkt.olFlags &&& pktRxIpCksumMask ≠ pktRxIpCksumBad)
    (ipv4 : w.pkt.data.load16 Eth.etherType = rteBeToCpu16 etherTypeIpv4) :
    Sending ok dev port ports addressed w (Natasha.ipv4Handle dev port) := by
  unfold Natasha.ipv4Handle Sending
  rw [ensures_bind,ensures_fixNexus9000PaddingBug]
  refine since ?_ (.quiet w.pkt.paddingAccesses rfl rfl ?_)
  · refine .loaded (branch _ (fun icmp => ?_) fun other => ?_)
    · apply Sending.icmpAnswer
      · intro served p loaded mine request
        exact w.pkt.unpadded_loadMac.trans (sentTo served p loaded ⟨cksum,ipv4,icmp,mine,request⟩)
      · intro p loaded foreign
        refine ite _ (pure _) (Sending.applyRules fun q found => ?_)
        exact routed p q loaded found ⟨cksum,ipv4,fun _ => foreign⟩
      · exact fun _ => pure _
    · exact Sending.applyRules fun q found => routed q q found found ⟨cksum,ipv4,fun icmp => absurd icmp other⟩
  · unfold Mbuf.paddingAccesses
    split <;> simp [Event.quiet]

theorem Sending.handle (cksum : w.pkt.olFlags &&& pktRxIpCksumMask ≠ pktRxIpCksumBad) :
    Sending ok dev port ports addressed w (do
      let ethType ← load16 Eth.etherType
      let status ←
        if ethType = rteBeToCpu16 etherTypeIpv4 then Natasha.ipv4Handle dev port
        else if ethType = rteBeToCpu16 etherTypeArp then Natasha.arpHandle dev port
        else Pure.pure (-1)
      if status < 0 then
        Natasha.bump .dropUnhandledEthertype
        rtePktmbufFree
      return 0 : M Int) := by
  have finish : ∀ (status : Int) w, Sending ok dev port ports addressed w (do
      if status < 0 then
        Natasha.bump .dropUnhandledEthertype
        rtePktmbufFree
      return 0 : M Int) :=
    fun _ _ => ite _ ((bump _).bind fun _ _ => (event _ rfl).bind fun _ _ => pure _) (pure _)
  refine .loaded (branch _ (fun ipv4 => ?_) fun _ => ite _ (Sending.arpHandle.bind finish) ((pure _).bind finish))
  exact (Sending.ipv4Handle (w := w.logged .read) sentTo routed cksum ipv4).bind finish

theorem Sending.dispatchPacket : Sending ok dev port ports addressed w (Natasha.dispatchPacket dev port) := by
  refine .loaded (branch _ (fun _ => ?_) fun cksum => ?_)
  · exact (bump _).bind fun _ _ => (event _ rfl).bind fun _ _ => pure _
  · refine ite _ ?_ (Sending.handle (w := w.logged .read) sentTo routed cksum)
    unfold Sending
    rw [ensures_bind]
    have counted := Sending.handle (w := (w.logged .read).bumped .rxBadL4Cksum) sentTo routed cksum
    exact counted.since (.quiet [.bump .rxBadL4Cksum] rfl rfl (by simp [Event.quiet]))

end Dispatch

/-! ## Runs -/

/-- The states of a worker between two packets, from `w₀` on. Each packet comes with the answers
to its loads of the configuration, and `suited` says which packets are considered. -/
inductive Reaches (dev : Devices)
    (suited : ((op : Op) → Ans op → Prop) → (port : Nat) → (pkt : Mbuf) → Prop) (w₀ : Worker) : Worker → Prop
  | start : Reaches dev suited w₀ w₀
  | poll {w : Worker} (reached : Reaches dev suited w₀ w) (rx : Nat → RxBurst) :
      Reaches dev suited w₀ { w with rx := rx }
  | dispatch {w : Worker} (reached : Reaches dev suited w₀ w) (ok : (op : Op) → Ans op → Prop) (port : Nat)
      (device : port < dev.count.toNat) (pkt : Mbuf) (met : suited ok port pkt) {r : Int × Worker}
      (ends : Ends ok (dispatchPacket dev port) (w.dispatching port pkt) r) : Reaches dev suited w₀ r.2
  | flush {w : Worker} (reached : Reaches dev suited w₀ w) (q : Nat) :
      Reaches dev suited w₀ (w.flushed q (w.txQueues q).pkts)

section MainLoop

variable {suited : ((op : Op) → Ans op → Prop) → Nat → Mbuf → Prop} (met : ∀ port pkt, suited ok port pkt)

include met

theorem dispatchAll_reaches (device : port < dev.count.toNat) (pkts : List Mbuf)
    (reached : Reaches dev suited w₀ w) :
    Ensures ok (dispatchAll dev port pkts) w fun _ w' => Reaches dev suited w₀ w' := by
  induction pkts generalizing w with
  | nil => exact reached
  | cons pkt pkts ih =>
    rw [dispatchAll,ensures_bind,ensures_beginDispatch]
    intro _
    rw [ensures_bind,ensures_iff_ends]
    intro r ends
    exact ih (.dispatch reached ok port device pkt (met port pkt) ends)

theorem handlePorts_reaches (list : List Nat) (devices : ∀ port ∈ list, port < dev.count.toNat)
    (reached : Reaches dev suited w₀ w) :
    Ensures ok (handlePorts dev list) w fun _ w' => Reaches dev suited w₀ w' := by
  induction list generalizing w with
  | nil => exact reached
  | cons port list ih =>
    simp only [handlePorts,handlePort,rteEthRxBurst,ensures_bind,ensures_modifyGet]
    apply (dispatchAll_reaches met (devices port List.mem_cons_self) _ (reached.poll _)).mono
    intro _ w' reached
    exact ih (fun q member => devices q (List.mem_cons_of_mem _ member)) reached

omit met in
theorem flushPorts_reaches (list : List Nat) (reached : Reaches dev suited w₀ w) :
    Ensures ok (flushPorts list) w fun _ w' => Reaches dev suited w₀ w' := by
  induction list generalizing w with
  | nil => exact reached
  | cons q list ih =>
    simp only [flushPorts,ensures_bind,ensures_get,ensures_txFlush]
    exact ⟨fun _ => ih reached,fun _ => ih (reached.flush q)⟩

theorem iteration_reaches (reached : Reaches dev suited w₀ w) :
    Ensures ok (iteration dev) w fun _ w' => Reaches dev suited w₀ w' := by
  simp only [iteration,iterationBody,ensures_bind,ensures_appConfig,ensures_loadFlags,ensures_storeFlags]
  intro config _ flags _ _
  apply (handlePorts_reaches met _ (fun port member => List.mem_range.mp member) reached).mono
  intro _ w' handled
  exact flushPorts_reaches _ handled

/-- Every iteration of `main_loop` goes through reachable states. -/
theorem mainLoop_reaches (n : Nat) (reached : Reaches dev suited w₀ w) :
    Ensures ok (mainLoop dev n) w fun _ w' => Reaches dev suited w₀ w' := by
  induction n generalizing w with
  | zero => exact reached
  | succ n ih =>
    rw [mainLoop,ensures_bind]
    exact (iteration_reaches met reached).mono fun _ _ reached => ih reached

end MainLoop

/-- The rules send the packet to ports with the address of the one it came in on, and no request
is answered that was sent to another address. -/
def Suited (dev : Devices) (ok : (op : Op) → Ans op → Prop) (port : Nat) (pkt : Mbuf) : Prop :=
  pkt.Routed ok dev (fun q => dev.macaddr q = dev.macaddr port) ∧ pkt.Addressed ok dev port

theorem flushed_holds {q q' : Nat} {m : Mbuf} (holds : (w.flushed q (w.txQueues q).pkts).Holds q' m) :
    w.Holds q' m := by
  rcases holds with waiting | ⟨pkts,sent,offered,member⟩
  · by_cases same : q' = q
    · subst q'
      simp [Worker.flushed,TxQueue.empty] at waiting
    · simp only [Worker.flushed,Function.update_of_ne same] at waiting
      exact .inl waiting
  · rcases List.mem_append.mp offered with before | after
    · exact .inr ⟨pkts,sent,before,member⟩
    · rcases List.mem_cons.mp after with burst | after
      · cases burst
        exact .inl member
      · exact absurd after (quiet_burst (quiet_notSent _ _ _) _ _ _)

/-- Every frame that waits in a queue, or did so, has the source address of the port of the queue,
in every state reached by dispatches that are suited. -/
theorem reaches_source (pkt : Mbuf) (rx : Nat → RxBurst) (tx : Nat → Nat)
    (reached : Reaches dev (Suited dev) (.start pkt rx tx) w) (q : Nat) (m : Mbuf) (holds : w.Holds q m) :
    m.source = dev.macaddr q := by
  induction reached with
  | start =>
    rcases holds with waiting | ⟨_,_,offered,_⟩
    · exact absurd waiting List.not_mem_nil
    · exact absurd offered List.not_mem_nil
  | poll reached rx ih => exact ih holds
  | @dispatch w reached ok port device pkt met r ends ih =>
    have sending : Sending ok dev port (fun q => dev.macaddr q = dev.macaddr port) True (w.dispatching port pkt)
        (dispatchPacket dev port) := Sending.dispatchPacket (fun _ => met.2) met.1
    obtain ⟨es,sends⟩ := (ensures_iff_ends _ _ _).mp sending _ ends
    rcases sends.frames trivial sends.outs q m holds with kept | own
    · exact ih (kept.before [.receive port] rfl rfl (by simp))
    · exact own
  | flush reached q ih => exact ih (flushed_holds holds)

/-- The segment as it is received, behind an Ethernet header. -/
def receivedSegment : Mbuf :=
  { tcpSegment 0 with data := (tcpSegment 0).data.store16 Eth.etherType (rteBeToCpu16 etherTypeIpv4) }

/-- Nothing comes in. -/
def idle (_ : Nat) : RxBurst := ⟨[],Nat.zero_le _⟩

/-- Everything is sent to the next router, on the port given. -/
def forwarding (port : Byte) : AppConfig := { bareConfig with rules := .action (.out { nextRouter with port := port }) }

/-- The state when the segment came in on port 0. -/
def forwarded (port : Byte) : Worker :=
  (exec (steadyAnswer (forwarding port)) (dispatchPacket twoPorts 0)
    ((Worker.start receivedSegment idle fun _ => 0).dispatching 0 receivedSegment)).2

theorem forwarded_reaches (port : Byte) {suited : ((op : Op) → Ans op → Prop) → Nat → Mbuf → Prop}
    (met : suited (steadyOnly (forwarding port)) 0 receivedSegment) :
    Reaches twoPorts suited (.start receivedSegment idle fun _ => 0) (forwarded port) :=
  .dispatch .start (steadyOnly (forwarding port)) 0 (by decide) receivedSegment met (ends_exec _ _ _ fun _ => rfl)

theorem forwarded_suited : Suited twoPorts (steadyOnly (forwarding 0)) 0 receivedSegment := by
  constructor
  · rintro p q _ rfl _
    rfl
  · intro p _ pings
    exact absurd pings.icmp (by decide)

theorem reaches_source_forwarded :
    Reaches twoPorts (Suited twoPorts) (.start receivedSegment idle fun _ => 0) (forwarded 0) ∧
      ∃ m, ((forwarded 0).txQueues 0).pkts = [m] ∧ m.source = twoPorts.macaddr 0 := by
  have reached := forwarded_reaches 0 forwarded_suited
  exact ⟨reached,_,rfl,reaches_source receivedSegment idle (fun _ => 0) reached 0 _
    (.inl List.mem_cons_self)⟩

/-- A segment from port 0 that is sent on port 1 has the address of port 0. -/
theorem forwarded_wrong_source :
    ¬∀ (dev : Devices) (pkt : Mbuf) (rx : Nat → RxBurst) (tx : Nat → Nat) (w : Worker),
      Reaches dev (fun _ _ _ => True) (.start pkt rx tx) w →
        ∀ q, ∀ m ∈ (w.txQueues q).pkts, m.source = dev.macaddr q := by
  intro claim
  have same := claim twoPorts receivedSegment idle (fun _ => 0) (forwarded 1)
    (forwarded_reaches 1 trivial) 1 _ List.mem_cons_self
  exact absurd (congrFun same 0) (by decide)

end Natasha
