import Natasha.Ownership
import Natasha.Rewrite

/-! The fate of a dispatched packet. What a return value says about the mbuf changes from layer
to layer: an action and `process_rules` return a negative value when it is gone,
`icmp_dispatch`, `arp_handle` and `ipv4_handle` when the caller still has to free it. -/
namespace Natasha

open Interaction

variable {ok : (op : Op) → Ans op → Prop} {ports : Nat → Prop} {w₀ w : Worker} {s t : Stage}

/-- The values a path through the rules can return without breaking, when a condition may come
out either way and a rewrite may succeed. -/
structure Completes where
  zero : Prop
  positive : Prop

namespace Completes

/-- Some path runs to the end. -/
def any (c : Completes) : Prop := c.zero ∨ c.positive

def Allows (c : Completes) (ret : Int) : Prop := (ret = 0 → c.zero) ∧ (0 < ret → c.positive)

theorem any_of_allows {c : Completes} {ret : Int} (allows : c.Allows ret) (nonneg : 0 ≤ ret) :
    c.any := by
  rcases Int.le_iff_eq_or_lt.mp nonneg with zero | positive
  · exact .inl (allows.1 zero.symm)
  · exact .inr (allows.2 positive)

theorem allows_neg (c : Completes) {ret : Int} (negative : ret < 0) : c.Allows ret :=
  ⟨fun zero => absurd negative (by simp [zero]),fun positive => absurd negative (by omega)⟩

theorem allows_zero {c : Completes} (zero : c.zero) : c.Allows 0 :=
  ⟨fun _ => zero,fun positive => absurd positive (by decide)⟩

theorem allows_one {c : Completes} (positive : c.positive) : c.Allows 1 :=
  ⟨fun zero => absurd zero (by decide),fun _ => positive⟩

end Completes

def Action.completes : Action → Completes
  | .condIpv4SrcInNetwork _ | .condIpv4DstInNetwork _ | .condVlan _ => ⟨True,True⟩
  | .natRewrite _ | .print => ⟨True,False⟩
  | .out _ | .drop => ⟨False,False⟩

def Node.completes : Node → Completes
  | .null | .noop => ⟨True,False⟩
  | .action function => function.completes
  | .seq left right => ⟨left.completes.any ∧ right.completes.any,False⟩
  | .ifElse left right => ⟨left.completes.positive ∨ left.completes.zero ∧ right.completes.any,False⟩
  | .cond left right => ⟨left.completes.zero,left.completes.positive ∧ right.completes.any⟩
  | .and left right =>
    ⟨left.completes.zero ∨ left.completes.positive ∧ right.completes.zero,
      left.completes.positive ∧ right.completes.positive⟩
  | .or left right =>
    ⟨left.completes.zero ∧ right.completes.zero,
      left.completes.positive ∨ left.completes.zero ∧ right.completes.positive⟩

/-- Every control path ends in `out` or `drop`. -/
def Node.EndsInOutOrDrop (node : Node) : Prop := ¬node.completes.any

/-- Every `out` of the tree names a queue of `ports`. -/
def Node.OutsIn (ports : Nat → Prop) : Node → Prop
  | .null | .noop => True
  | .action (.out packet) => ports packet.port.toNat
  | .action _ => True
  | .seq left right | .ifElse left right | .cond left right | .and left right | .or left right =>
    left.OutsIn ports ∧ right.OutsIn ports

/-- The convention of actions and of `process_rules`: a negative value says that the mbuf is
gone, any other one that it is still owned. -/
structure RulesFate (ports : Nat → Prop) (w₀ : Worker) (c : Completes) (ret : Int) (w : Worker) : Prop where
  gone : ret < 0 → Gone ports w₀ w
  held : 0 ≤ ret → Since ports w₀ .held w
  allows : c.Allows ret

namespace RulesFate

variable {c d : Completes}

theorem of_gone (gone : Gone ports w₀ w) : RulesFate ports w₀ c (-1) w :=
  ⟨fun _ => gone,fun nonneg => absurd nonneg (by decide),c.allows_neg (by decide)⟩

theorem of_held {ret : Int} (since : Since ports w₀ .held w) (nonneg : 0 ≤ ret) (allows : c.Allows ret) :
    RulesFate ports w₀ c ret w :=
  ⟨fun negative => absurd nonneg (by omega),fun _ => since,allows⟩

theorem zero (since : Since ports w₀ .held w) (allowed : c.zero) : RulesFate ports w₀ c 0 w :=
  of_held since le_rfl (Completes.allows_zero allowed)

theorem one (since : Since ports w₀ .held w) (allowed : c.positive) : RulesFate ports w₀ c 1 w :=
  of_held since (by decide) (Completes.allows_one allowed)

/-- Stop at a negative value, and else go on with the mbuf still owned. -/
theorem andThen {first : M Int} {rest : Int → M Int} (fate : Ensures ok first w (RulesFate ports w₀ c))
    (next : ∀ ret w', 0 ≤ ret → c.Allows ret → Since ports w₀ .held w' →
      Ensures ok (rest ret) w' (RulesFate ports w₀ d)) :
    Ensures ok (do
      let ret ← first
      if ret < 0 then return -1
      rest ret) w (RulesFate ports w₀ d) := by
  rw [ensures_bind]
  apply fate.mono
  intro ret w' fate
  rw [ensures_ite]
  refine ⟨fun negative => of_gone (fate.gone negative),fun nonneg => ?_⟩
  exact next ret w' (Int.not_lt.mp nonneg) fate.allows (fate.held (Int.not_lt.mp nonneg))

end RulesFate

/-! ## Actions -/

theorem lookupAndRewrite_fate (since : Since ports w₀ .held w) (table : NatLookup) (ip : U32)
    (field : Nat) :
    Ensures ok (lookupAndRewrite table ip field) w fun ret w' =>
      (ret < 0 → Since ports w₀ .uncounted w') ∧ (¬ret < 0 → Since ports w₀ .held w') := by
  unfold lookupAndRewrite
  cases natLookupIp table ip with
  | none =>
    have freed : Since ports w₀ .uncounted (w.logged .free) := since.step (Books.logged w .free rfl) rfl
    simpa using freed
  | some value =>
    have rewritten : Since ports w₀ .held (w.stored fun m =>
        { m with data := m.data.store32 field value }) := since.write Stage.owns_held _
    simpa [store32] using rewritten

/-- `lookup_and_rewrite` as both its callers use it: a miss is counted and ends the packet. -/
theorem lookupAndRewrite_then {rest : M Int} {c : Completes} (since : Since ports w₀ .held w)
    (table : NatLookup) (ip : U32) (field : Nat)
    (found : ∀ w', Since ports w₀ .held w' → Ensures ok rest w' (RulesFate ports w₀ c)) :
    Ensures ok (do
      if (← lookupAndRewrite table ip field) < 0 then
        bump .dropNoRule
        return -1
      rest) w (RulesFate ports w₀ c) := by
  rw [ensures_bind]
  apply (lookupAndRewrite_fate since table ip field).mono
  intro ret w' fate
  rw [ensures_ite]
  refine ⟨fun miss => ?_,fun hit => found w' (fate.2 hit)⟩
  have counted : Since ports w₀ .freed (w'.bumped .dropNoRule) :=
    (fate.1 miss).step (Books.bumped w' .dropNoRule) rfl
  exact RulesFate.of_gone ⟨.freed,trivial,counted⟩

theorem Keeps.returnZero {code : M α} {c : Completes} (keeps : Keeps ok ports code) (allowed : c.zero)
    (since : Since ports w₀ .held w) :
    Ensures ok (do let _ ← code; return 0) w (RulesFate ports w₀ c) :=
  keeps.before Stage.owns_held since fun _ _ since => .zero since allowed

theorem icmpNatHandle_fate (since : Since ports w₀ .held w) (inner : AddrField) :
    Ensures ok (icmpNatHandle inner) w (RulesFate ports w₀ ⟨True,False⟩) := by
  have own := Stage.owns_held
  unfold icmpNatHandle
  refine (Keeps.readPkt _).before own since fun icmpType w since => ?_
  rw [ensures_ite]
  refine ⟨fun _ => RulesFate.zero since trivial,fun _ => ?_⟩
  refine (Keeps.readPkt _).before own since fun totalLength w since => ?_
  rw [if_neg (unlikely_nonneg _)]
  refine (Keeps.readPkt _).before own since fun oldIpv4Cksum w since => ?_
  refine (Keeps.readPkt _).before own since fun oldIpv4Address w since => ?_
  refine Keeps.appConfig.before own since fun config w since => ?_
  refine (Keeps.readConfig _ _).before own since fun _ w since => ?_
  refine lookupAndRewrite_then since _ _ _ fun w since => ?_
  refine (Keeps.readPkt _).before own since fun newIpv4Address w since => ?_
  refine (Keeps.cksumUpdateAt ..).before own since fun _ w since => ?_
  refine (Keeps.readPkt _).before own since fun newIpv4Cksum w since => ?_
  refine (Keeps.cksumUpdateAt ..).before own since fun _ w since => ?_
  exact (Keeps.cksumUpdateAt ..).returnZero trivial since

theorem actionNatRewriteImpl_fate (since : Since ports w₀ .held w) (address : Nat) (inner : AddrField) :
    Ensures ok (actionNatRewriteImpl address inner) w (RulesFate ports w₀ ⟨True,False⟩) := by
  have own := Stage.owns_held
  unfold actionNatRewriteImpl
  refine (Keeps.readPkt _).before own since fun saveIpv4 w since => ?_
  refine Keeps.appConfig.before own since fun config w since => ?_
  refine (Keeps.readConfig _ _).before own since fun _ w since => ?_
  refine lookupAndRewrite_then since _ _ _ fun w since => ?_
  refine (Keeps.readPkt _).before own since fun newIpv4 w since => ?_
  refine (Keeps.cksumUpdateAt ..).before own since fun _ w since => ?_
  refine (Keeps.readPkt _).before own since fun nextProtoId w since => ?_
  refine (Keeps.readPkt _).before own since fun fragmentOffset w since => ?_
  rw [ensures_ite]
  refine ⟨fun _ => (Keeps.l4CksumUpdate ..).returnZero trivial since,fun _ => ?_⟩
  rw [ensures_ite]
  refine ⟨fun _ => ?_,fun _ => ?_⟩
  · refine (Keeps.readPkt _).before own since fun dgramCksum w since => ?_
    rw [ensures_ite]
    exact ⟨fun _ => RulesFate.zero since trivial,
      fun _ => (Keeps.l4CksumUpdate ..).returnZero trivial since⟩
  · rw [ensures_ite]
    exact ⟨fun _ => icmpNatHandle_fate since inner,fun _ => RulesFate.zero since trivial⟩

theorem actionNatRewrite_fate (since : Since ports w₀ .held w) (field : AddrField) :
    Ensures ok (actionNatRewrite field) w (RulesFate ports w₀ ⟨True,False⟩) := by
  unfold actionNatRewrite
  split <;> exact actionNatRewriteImpl_fate since _ _

theorem Since.dropped (since : Since ports w₀ s w) (own : s.Owns) (stat : Stat)
    (counter : Stage.ownDrop stat = true) : Gone ports w₀ ((w.bumped stat).logged .free) := by
  have counted : Since ports w₀ .counted (w.bumped stat) :=
    since.step (Books.bumped w stat) (by rcases own with rfl | rfl <;> simp [Stage.next,counter])
  exact ⟨.freed,trivial,counted.step (Books.logged _ .free rfl) rfl⟩

theorem actionDrop_fate {c : Completes} (since : Since ports w₀ s w) (own : s.Owns) :
    Ensures ok actionDrop w (RulesFate ports w₀ c) :=
  RulesFate.of_gone (since.dropped own .dropNatCondition rfl)

theorem actionOut_fate {c : Completes} (since : Since ports w₀ s w) (own : s.Owns) (dev : Devices)
    (port : Nat) (out : OutPacket) (allowed : ports out.port.toNat) :
    Ensures ok (actionOut dev port out) w (RulesFate ports w₀ c) := by
  unfold actionOut
  refine (Keeps.writePkt _).before own since fun _ w since => ?_
  refine (Keeps.writePkt _).before own since fun _ w since => ?_
  refine (Keeps.writePkt _).before own since fun _ w since => ?_
  refine (Keeps.writePkt _).before own since fun _ w since => ?_
  rw [ensures_bind]
  exact (since.txSend own _ allowed).mono fun _ _ gone => RulesFate.of_gone gone

theorem actionPrint_fate (since : Since ports w₀ .held w) :
    Ensures ok actionPrint w (RulesFate ports w₀ ⟨True,False⟩) := by
  have zero : Ensures ok actionPrint w fun ret _ => ret = 0 := by
    simp [actionPrint,load8,load16,load32]
  refine ((Keeps.actionPrint Stage.owns_held since).and zero).mono ?_
  rintro _ w' ⟨since,rfl⟩
  exact .zero since trivial

theorem Keeps.returnBool {code : M α} (keeps : Keeps ok ports code) (value : α → Bool)
    (since : Since ports w₀ .held w) :
    Ensures ok (do let a ← code; return (value a).toInt) w (RulesFate ports w₀ ⟨True,True⟩) := by
  refine keeps.before Stage.owns_held since fun a w since => ?_
  rw [ensures_pure]
  cases value a with
  | false => exact .zero since trivial
  | true => exact .one since trivial

theorem Since.call (since : Since ports w₀ .held w) (action : Action) :
    Since ports w₀ (if action.isBreaking then .breaking else .held) (w.logged (.call action)) :=
  since.step (Books.logged w _ rfl) rfl

theorem invoke_fate (since : Since ports w₀ .held w) (dev : Devices) (port : Nat) (action : Action)
    (outs : (Node.action action).OutsIn ports) :
    Ensures ok (action.invoke dev port) w (RulesFate ports w₀ action.completes) := by
  have called := since.call action
  unfold Action.invoke
  rw [ensures_bind,ensures_event]
  cases action with
  | condIpv4SrcInNetwork network => exact (Keeps.readPkt _).returnBool _ called
  | condIpv4DstInNetwork network => exact (Keeps.readPkt _).returnBool _ called
  | condVlan vlan => exact (Keeps.readPkt _).returnBool _ called
  | natRewrite field => exact actionNatRewrite_fate called field
  | out packet => exact actionOut_fate called Stage.owns_breaking dev port packet outs
  | print => exact actionPrint_fate called
  | drop => exact actionDrop_fate called Stage.owns_breaking

/-! ## The rules tree -/

/-- `process_rules` returns a negative value exactly when the mbuf is gone. The induction is
on the tree; each case threads the stage through the children in the order they run. -/
theorem processRules_fate (dev : Devices) (port : Nat) (config : ConfigPtr) (node : Node)
    (outs : node.OutsIn ports) (since : Since ports w₀ .held w) :
    Ensures ok (processRules dev port config node) w (RulesFate ports w₀ node.completes) := by
  have own := Stage.owns_held
  induction node generalizing w with
  | null => exact RulesFate.zero since trivial
  | noop => exact (Keeps.readConfig _ _).returnZero trivial since
  | action action =>
    exact (Keeps.readConfig _ _).before own since fun _ w since => invoke_fate since dev port action outs
  | seq left right leftFate rightFate =>
    refine (Keeps.readConfig _ _).before own since fun _ w since => ?_
    refine RulesFate.andThen (leftFate outs.1 since) fun _ w nonneg first since => ?_
    refine RulesFate.andThen (rightFate outs.2 since) fun _ w nonneg' second since => ?_
    exact .zero since ⟨Completes.any_of_allows first nonneg,Completes.any_of_allows second nonneg'⟩
  | ifElse left right leftFate rightFate =>
    refine (Keeps.readConfig _ _).before own since fun _ w since => ?_
    refine RulesFate.andThen (leftFate outs.1 since) fun ret w nonneg first since => ?_
    rw [ensures_ite]
    refine ⟨fun zero => ?_,fun nonzero => ?_⟩
    · refine RulesFate.andThen (rightFate outs.2 since) fun _ w nonneg' second since => ?_
      exact .zero since (.inr ⟨first.1 zero,Completes.any_of_allows second nonneg'⟩)
    · exact RulesFate.zero since (.inl (first.2 (by omega)))
  | cond left right leftFate rightFate =>
    refine (Keeps.readConfig _ _).before own since fun _ w since => ?_
    refine RulesFate.andThen (leftFate outs.1 since) fun ret w nonneg first since => ?_
    rw [ensures_ite]
    refine ⟨fun zero => RulesFate.zero since (first.1 zero),fun nonzero => ?_⟩
    refine RulesFate.andThen (rightFate outs.2 since) fun _ w nonneg' second since => ?_
    exact .one since ⟨first.2 (by omega),Completes.any_of_allows second nonneg'⟩
  | and left right leftFate rightFate =>
    refine (Keeps.readConfig _ _).before own since fun _ w since => ?_
    refine RulesFate.andThen (leftFate outs.1 since) fun ret w nonneg first since => ?_
    rw [ensures_ite]
    refine ⟨fun zero => RulesFate.zero since (.inl (first.1 zero)),fun nonzero => ?_⟩
    have positive := first.2 (by omega)
    refine RulesFate.andThen (rightFate outs.2 since) fun _ w nonneg' second since => ?_
    exact .of_held since nonneg' ⟨fun zero => .inr ⟨positive,second.1 zero⟩,
      fun both => ⟨positive,second.2 both⟩⟩
  | or left right leftFate rightFate =>
    refine (Keeps.readConfig _ _).before own since fun _ w since => ?_
    refine RulesFate.andThen (leftFate outs.1 since) fun ret w nonneg first since => ?_
    rw [ensures_ite]
    refine ⟨fun nonzero => RulesFate.one since (.inl (first.2 (by omega))),fun zero => ?_⟩
    have zero := first.1 (Decidable.not_not.mp zero)
    refine RulesFate.andThen (rightFate outs.2 since) fun _ w nonneg' second since => ?_
    exact .of_held since nonneg' ⟨fun other => ⟨zero,second.1 other⟩,
      fun positive => .inr ⟨zero,second.2 positive⟩⟩

/-! ## Handlers -/

/-- Nothing is left to do: the mbuf is gone or, where that may happen, the rules are over. -/
def Settled (ports : Nat → Prop) (mayEnd : Prop) (w₀ w : Worker) : Prop :=
  ∃ t, (t.Consumed ∨ t = .ended ∧ mayEnd) ∧ Since ports w₀ t w

theorem Gone.settled {mayEnd : Prop} (gone : Gone ports w₀ w) : Settled ports mayEnd w₀ w :=
  gone.imp fun _ h => ⟨.inl h.1,h.2⟩

/-- The convention of the handlers: a negative value asks the caller to free. -/
structure HandlerFate (ports : Nat → Prop) (mayEnd : Prop) (w₀ : Worker) (ret : Int) (w : Worker) : Prop where
  held : ret < 0 → Since ports w₀ .held w
  settled : 0 ≤ ret → Settled ports mayEnd w₀ w

namespace HandlerFate

variable {mayEnd : Prop}

theorem refused (since : Since ports w₀ .held w) : HandlerFate ports mayEnd w₀ (-1) w :=
  ⟨fun _ => since,fun nonneg => absurd nonneg (by decide)⟩

theorem done {ret : Int} (nonneg : 0 ≤ ret) (settled : Settled ports mayEnd w₀ w) :
    HandlerFate ports mayEnd w₀ ret w :=
  ⟨fun negative => absurd nonneg (by omega),fun _ => settled⟩

end HandlerFate

variable {mayEnd : Prop}

theorem txSend_handled (since : Since ports w₀ .held w) (port : Nat) (allowed : ports port) :
    Ensures ok (do return (← txSend port : Int)) w (HandlerFate ports mayEnd w₀) := by
  rw [ensures_bind]
  exact (since.txSend Stage.owns_held port allowed).mono fun sent _ gone =>
    .done (Int.natCast_nonneg sent) gone.settled

theorem icmpEcho_fate (since : Since ports w₀ .held w) (port : Nat) (allowed : ports port) :
    Ensures ok (icmpEcho port) w (HandlerFate ports mayEnd w₀) := by
  have own := Stage.owns_held
  unfold icmpEcho
  refine (Keeps.writePkt _).before own since fun _ w since => ?_
  refine (Keeps.readPkt _).before own since fun tmpEth w since => ?_
  refine (Keeps.readPkt _).before own since fun dAddr w since => ?_
  refine (Keeps.writePkt _).before own since fun _ w since => ?_
  refine (Keeps.writePkt _).before own since fun _ w since => ?_
  refine (Keeps.readPkt _).before own since fun tmpIp w since => ?_
  refine (Keeps.readPkt _).before own since fun dstAddr w since => ?_
  refine (Keeps.writePkt _).before own since fun _ w since => ?_
  refine (Keeps.writePkt _).before own since fun _ w since => ?_
  refine (Keeps.writePkt _).before own since fun _ w since => ?_
  refine (Keeps.readPkt _).before own since fun hdrChecksum w since => ?_
  refine (Keeps.writePkt _).before own since fun _ w since => ?_
  refine (Keeps.writePkt _).before own since fun _ w since => ?_
  refine (Keeps.readPkt _).before own since fun totalLength w since => ?_
  refine (Keeps.readPkt _).before own since fun icmpCksum w since => ?_
  refine (Keeps.writePkt _).before own since fun _ w since => ?_
  exact txSend_handled since port allowed

theorem icmpDispatch_fate (since : Since ports w₀ .held w) (port : Nat) (allowed : ports port) :
    Ensures ok (icmpDispatch port) w (HandlerFate ports mayEnd w₀) := by
  unfold icmpDispatch
  refine (Keeps.readPkt _).before Stage.owns_held since fun icmpType w since => ?_
  rw [ensures_ite]
  exact ⟨fun _ => icmpEcho_fate since port allowed,fun _ => HandlerFate.refused since⟩

theorem icmpAnswer_fate (since : Since ports w₀ .held w) (dev : Devices) (port : Nat)
    (allowed : ports port) :
    Ensures ok (icmpAnswer dev port) w (HandlerFate ports mayEnd w₀) := by
  have own := Stage.owns_held
  unfold icmpAnswer
  refine (Keeps.readPkt _).before own since fun dstIp w since => ?_
  refine Keeps.appConfig.before own since fun config w since => ?_
  refine (Keeps.readPkt _).before own since fun vlan w since => ?_
  refine (Keeps.isNatashaIpOn ..).before own since fun mine w since => ?_
  rw [ensures_ite]
  refine ⟨fun _ => HandlerFate.refused since,fun _ => ?_⟩
  have dispatched : Ensures ok (icmpDispatch port) w (HandlerFate ports mayEnd w₀) :=
    icmpDispatch_fate since port allowed
  rw [ensures_bind]
  apply dispatched.mono
  intro ret w fate
  rw [ensures_ite]
  refine ⟨fun negative => ?_,fun nonneg => ?_⟩
  · exact HandlerFate.done le_rfl ((fate.held negative).dropped own .dropUnknownIcmp rfl).settled
  · exact HandlerFate.done le_rfl (fate.settled (Int.not_lt.mp nonneg))

theorem RulesFate.logged {c : Completes} {ret : Int} (fate : RulesFate ports w₀ c ret w)
    (falls : c.any → mayEnd) : Settled ports mayEnd w₀ (w.logged (.rules ret)) := by
  by_cases negative : ret < 0
  · obtain ⟨t,consumed,since⟩ := fate.gone negative
    refine ⟨t,.inl consumed,since.step (Books.logged w _ rfl) ?_⟩
    cases t <;> simp_all [Stage.Consumed,Stage.next]
  · have nonneg := Int.not_lt.mp negative
    refine ⟨.ended,.inr ⟨rfl,falls (Completes.any_of_allows fate.allows nonneg)⟩,
      (fate.held nonneg).step (Books.logged w _ rfl) ?_⟩
    simp [Stage.next,negative]

/-- What a worker may find in a configuration: rules that send to `ports` only, and that end
without a breaking action only where `mayEnd`. -/
def Admits (ok : (op : Op) → Ans op → Prop) (ports : Nat → Prop) (mayEnd : Prop) : Prop :=
  ∀ p, ok .appConfig p → p.config.rules.OutsIn ports ∧ (p.config.rules.completes.any → mayEnd)

theorem ipv4Handle_fate (since : Since ports w₀ .held w) (dev : Devices) (port : Nat)
    (allowed : ports port) (admits : Admits ok ports mayEnd) :
    Ensures ok (ipv4Handle dev port) w (HandlerFate ports mayEnd w₀) := by
  have own := Stage.owns_held
  have rules : ∀ w, Since ports w₀ .held w → Ensures ok (do
      let config ← appConfig
      readConfig config .rules
      if config.config.rules = .null then
        return -1
      let config ← appConfig
      readConfig config .rules
      let ret ← processRules dev port config config.config.rules
      event (.rules ret)
      return (0 : Int)) w (HandlerFate ports mayEnd w₀) := by
    intro w since
    refine Keeps.appConfig.before own since fun config w since => ?_
    refine (Keeps.readConfig _ _).before own since fun _ w since => ?_
    rw [ensures_ite]
    refine ⟨fun _ => HandlerFate.refused since,fun _ => ?_⟩
    rw [ensures_bind,ensures_appConfig]
    intro config loaded
    refine (Keeps.readConfig _ _).before own since fun _ w since => ?_
    rw [ensures_bind]
    obtain ⟨outs,falls⟩ := admits config loaded
    apply (processRules_fate dev port config _ outs since).mono
    intro ret w fate
    exact HandlerFate.done le_rfl (fate.logged falls)
  unfold ipv4Handle
  refine Keeps.fixNexus9000PaddingBug.before own since fun _ w since => ?_
  refine (Keeps.readPkt _).before own since fun nextProtoId w since => ?_
  rw [ensures_ite]
  refine ⟨fun _ => ?_,fun _ => rules w since⟩
  have answered : Ensures ok (icmpAnswer dev port) w (HandlerFate ports mayEnd w₀) :=
    icmpAnswer_fate since dev port allowed
  rw [ensures_bind]
  apply answered.mono
  intro ret w fate
  rw [ensures_ite]
  exact ⟨fun nonneg => HandlerFate.done nonneg (fate.settled nonneg),
    fun negative => rules w (fate.held (Int.not_le.mp negative))⟩

theorem arpRequest_fate (since : Since ports w₀ .held w) (dev : Devices) (port : Nat)
    (allowed : ports port) : Ensures ok (arpRequest dev port) w (HandlerFate ports mayEnd w₀) := by
  have own := Stage.owns_held
  unfold arpRequest
  refine (Keeps.readPkt _).before own since fun sourceIp w since => ?_
  refine (Keeps.readPkt _).before own since fun targetIp w since => ?_
  refine Keeps.appConfig.before own since fun config w since => ?_
  refine (Keeps.readPkt _).before own since fun vlan w since => ?_
  refine (Keeps.isNatashaPortIp ..).before own since fun mine w since => ?_
  rw [ensures_ite]
  refine ⟨fun _ => HandlerFate.refused since,fun _ => ?_⟩
  refine (Keeps.writePkt _).before own since fun _ w since => ?_
  refine (Keeps.readPkt _).before own since fun sAddr w since => ?_
  refine (Keeps.writePkt _).before own since fun _ w since => ?_
  refine (Keeps.writePkt _).before own since fun _ w since => ?_
  refine (Keeps.readPkt _).before own since fun arpSha w since => ?_
  refine (Keeps.writePkt _).before own since fun _ w since => ?_
  refine (Keeps.writePkt _).before own since fun _ w since => ?_
  refine (Keeps.writePkt _).before own since fun _ w since => ?_
  refine (Keeps.writePkt _).before own since fun _ w since => ?_
  exact txSend_handled since port allowed

theorem arpHandle_fate (since : Since ports w₀ .held w) (dev : Devices) (port : Nat)
    (allowed : ports port) : Ensures ok (arpHandle dev port) w (HandlerFate ports mayEnd w₀) := by
  unfold arpHandle
  refine (Keeps.readPkt _).before Stage.owns_held since fun arpOp w since => ?_
  rw [ensures_ite]
  exact ⟨fun _ => arpRequest_fate since dev port allowed,fun _ => HandlerFate.refused since⟩

/-- The end of `dispatch_packet`: free what no handler took. -/
theorem finish_settled {handler : M Int} (fate : Ensures ok handler w (HandlerFate ports mayEnd w₀)) :
    Ensures ok (do
      let status ← handler
      if status < 0 then
        bump .dropUnhandledEthertype
        rtePktmbufFree
      return (0 : Int)) w fun _ w' => Settled ports mayEnd w₀ w' := by
  rw [ensures_bind]
  apply fate.mono
  intro status w' fate
  rw [ensures_ite]
  refine ⟨fun negative => ?_,fun nonneg => fate.settled (Int.not_lt.mp nonneg)⟩
  exact ((fate.held negative).dropped Stage.owns_held .dropUnhandledEthertype rfl).settled

theorem dispatchPacket_fate (dev : Devices) (port : Nat) (w : Worker) (allowed : ports port)
    (admits : Admits ok ports mayEnd) :
    Ensures ok (dispatchPacket dev port) w fun _ w' => Settled ports mayEnd w w' := by
  have own := Stage.owns_held
  have received : Since ports w .held w := Since.refl w
  unfold dispatchPacket
  refine (Keeps.readPkt _).before own received fun olFlags w' since => ?_
  rw [ensures_ite]
  refine ⟨fun _ => (since.dropped own .dropBadL3Cksum rfl).settled,fun _ => ?_⟩
  -- a bad L4 checksum is counted and the packet goes on
  have counted : Since ports w .held (w'.bumped .rxBadL4Cksum) :=
    since.step (Books.bumped w' .rxBadL4Cksum) rfl
  rw [ensures_ite,ensures_bind,ensures_bump]
  constructor
  all_goals
    intro _
    refine (Keeps.readPkt _).before own (by assumption) fun ethType w' since => ?_
    rw [ensures_ite,ensures_ite]
    exact ⟨fun _ => finish_settled (ipv4Handle_fate since dev port allowed admits),
      fun _ => ⟨fun _ => finish_settled (arpHandle_fate since dev port allowed),
        fun _ => finish_settled (HandlerFate.refused since)⟩⟩

/-! ## Ownership -/

/-- Nothing touches the mbuf once it is consumed. -/
def Untouched (es : List Event) : Prop :=
  ∀ before e after, es = before ++ e :: after → e.consumes = true →
    ∀ x ∈ after, x.accesses = false ∧ x.consumes = false

theorem Stage.untouched {es : List Event} (lawful : s.run es = some t) : Untouched es := by
  rintro before e after rfl consumes
  obtain ⟨m,_,rest⟩ := run_split lawful
  obtain ⟨m',first,rest⟩ := Option.bind_eq_some_iff.mp rest
  have credit := next_credit first
  have bound := credit_le m'
  rw [if_pos consumes] at credit
  exact run_gone rest (by omega)

/-- What the events `es` of one dispatch say about its mbuf. Storing the mbuf may fill the
queue, which is then flushed at once: that frees each of its slots at most once. -/
structure Disposal (es : List Event) : Prop where
  once : consumptions es ≤ 1
  untouched : Untouched es
  slots : ∀ port slot, es.countP (Event.isFreeTx port slot) ≤ 1
  rules : ∀ ret, .rules ret ∈ es → (ret < 0 ↔ consumptions es = 1)
  /-- The rules ran to the end, and neither `out`, `drop` nor a failed rewrite happened. -/
  kept : consumptions es = 0 → (∃ ret, 0 ≤ ret ∧ Event.rules ret ∈ es) ∧
    (∀ action, action.isBreaking = true → Event.call action ∉ es) ∧ Event.bump .dropNoRule ∉ es

theorem Stage.disposal {es : List Event} (lawful : Stage.held.run es = some t)
    (settled : t.Consumed ∨ t = .ended) : Disposal es := by
  have credit := consumptions_eq lawful
  refine ⟨credit ▸ credit_le t,untouched lawful,fun port slot => ?_,fun ret member => ?_,fun none => ?_⟩
  · have released := run_releases port slot lawful
    have bound := releases_le t port slot
    omega
  · rw [credit]
    exact run_rules lawful member
  · rcases settled with consumed | ended
    · have := consumed.credit
      omega
    · obtain ⟨_,returned,calls,bumped⟩ := run_kept lawful (.inr ended)
      exact ⟨returned rfl ended,calls,bumped⟩

theorem Node.outsIn_true (node : Node) : node.OutsIn fun _ => True := by
  induction node with
  | null | noop => trivial
  | action function => cases function <;> trivial
  | seq _ _ left right | ifElse _ _ left right | cond _ _ left right | and _ _ left right
  | or _ _ left right => exact ⟨left,right⟩

/-- Every configuration a load finds has rules whose paths all end in `out` or `drop`. -/
def breakingAnswer : (op : Op) → Ans op → Prop
  | .appConfig, p => Node.EndsInOutOrDrop p.config.rules
  | _, _ => True

theorem dispatchPacket_ownership :
    (∀ dev port config node w, Ensures anyAnswer (processRules dev port config node) w fun ret w' =>
      ∃ es, w'.log = w.log ++ es ∧ consumptions es ≤ 1 ∧ Untouched es ∧
        (ret < 0 ↔ consumptions es = 1)) ∧
    (∀ dev port w, Ensures anyAnswer (dispatchPacket dev port) w fun _ w' =>
      ∃ es, w'.log = w.log ++ es ∧ Disposal es) ∧
    (∀ dev port w, Ensures breakingAnswer (dispatchPacket dev port) w fun _ w' =>
      ∃ es, w'.log = w.log ++ es ∧ Disposal es ∧ consumptions es = 1) := by
  refine ⟨fun dev port config node w => ?_,fun dev port w => ?_,fun dev port w => ?_⟩
  · refine (processRules_fate dev port config node node.outsIn_true (Since.refl w)).mono ?_
    intro ret w' fate
    by_cases negative : ret < 0
    · obtain ⟨t,consumed,es,books,lawful⟩ := fate.gone negative
      have credit : consumptions es = 1 := (Stage.consumptions_eq lawful).trans consumed.credit
      exact ⟨es,books.log,by omega,Stage.untouched lawful,by omega⟩
    · obtain ⟨es,books,lawful⟩ := fate.held (Int.not_lt.mp negative)
      have credit : consumptions es = 0 := Stage.consumptions_eq lawful
      exact ⟨es,books.log,by omega,Stage.untouched lawful,by omega⟩
  · have admits : Admits anyAnswer (fun _ => True) True :=
      fun p _ => ⟨p.config.rules.outsIn_true,fun _ => trivial⟩
    apply (dispatchPacket_fate dev port w trivial admits).mono
    intro _ w' settled
    obtain ⟨t,settled,es,books,lawful⟩ := settled
    exact ⟨es,books.log,Stage.disposal lawful (settled.imp_right And.left)⟩
  · have admits : Admits breakingAnswer (fun _ => True) False :=
      fun p ends => ⟨p.config.rules.outsIn_true,fun any => ends any⟩
    apply (dispatchPacket_fate dev port w trivial admits).mono
    intro _ w' settled
    obtain ⟨t,settled,es,books,lawful⟩ := settled
    have consumed : t.Consumed := settled.resolve_right fun h => h.2
    exact ⟨es,books.log,Stage.disposal lawful (.inl consumed),
      (Stage.consumptions_eq lawful).trans consumed.credit⟩

end Natasha
