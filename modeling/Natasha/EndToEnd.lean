import Natasha.Layout
import Natasha.OutPorts
import Natasha.RulesMeaning
import Natasha.Verdict

/-! From the text of a configuration to the frames that are sent. The statements of the rules act
on a frame in the order of the text, with the last address written for another in the place of the
table; no tree, no trie and no value of a node is left in what the worker is shown to compute. -/
namespace Natasha

open Interaction

/-! ## What the text says about a frame -/

section Meaning

variable (dev : Devices) (settings : Settings) (port : Nat) (m : Mbuf)

/-- Zero is not reported: it is what an empty slot of the table holds. -/
def Settings.translates (ip : U32) : Option U32 := reported (settings.nat ip)

/-- An error quotes a packet of the other direction. -/
def Settings.translatesInner (field : AddrField) : Option U32 :=
  if m.IsError then settings.translates (rteBeToCpu32 (m.data.load32 field.opposite.innerAddress)) else some 0

def Settings.rewrite (field : AddrField) : Option Mbuf := do
  let new ← settings.translates (rteBeToCpu32 (m.addr field))
  let inner ← settings.translatesInner m field
  return m.translated field new inner

/-- A statement is done with the frame, or leaves it to the statements behind. -/
def RuleAction.treat : RuleAction → Except Verdict Mbuf
  | .natRewrite field =>
    match settings.rewrite m field with
    | some m' => .ok m'
    | none => .error (.dropped .dropNoRule)
  | .out number mac vlan =>
    .error (.sent (BitVec.ofInt 8 number).toNat (m.outgoing (dev.macaddr port) ⟨.ofInt 8 number,vlan.getD 0,mac⟩))
  | .print => .ok m
  | .drop => .error (.dropped .dropNatCondition)

def Rules.treat (rules : Rules) (m : Mbuf) : Except Verdict Mbuf :=
  match rules with
  | .empty => .ok m
  | .semicolon prev => prev.treat m
  | .action prev stmt => do stmt.treat dev settings port (← prev.treat m)
  | .ifThen prev what body => do
    let m ← prev.treat m
    if what.holds m none then body.treat m else return m
  | .ifElse prev what body other => do
    let m ← prev.treat m
    if what.holds m none then body.treat m else other.treat m

/-- No statement but `;`. -/
def Rules.blank : Rules → Bool
  | .empty => true
  | .semicolon prev => prev.blank
  | .action _ _ | .ifThen _ _ _ | .ifElse _ _ _ _ => false

/-- The address belongs to some port, with this VLAN. -/
def Settings.Owns (ip : U32) (vlan : U16) : Prop :=
  ∃ number < dev.count.toNat, (ip,vlan) ∈ (settings.ports number).ipAddresses

/-- Addresses with their VLAN are compared member by member. -/
instance lawfulBEqAddress : LawfulBEq (U32 × U16) := Prod.instLawfulBEq

instance (ip : U32) (vlan : U16) : Decidable (settings.Owns dev ip vlan) := Nat.decidableExistsLT _

def Settings.ruled : Verdict :=
  if settings.rules.blank then .dropped .dropUnhandledEthertype
  else match settings.rules.treat dev settings port m with
    | .error verdict => verdict
    | .ok _ => .leaked

def Settings.ipv4 : Verdict :=
  if m.data (ipv4Header + Ipv4.nextProtoId) = ipprotoIcmp ∧
      settings.Owns dev (rteBeToCpu32 (m.data.load32 (ipv4Header + Ipv4.dstAddr))) m.vlanId then
    if m.data (l4Header + Icmp.icmpType) = ipIcmpEchoRequest then .sent port m.echoed.prepared
    else .dropped .dropUnknownIcmp
  else settings.ruled dev port m

def Settings.arp : Verdict :=
  if m.arpOp = arpOpRequest ∧ (m.arpTarget,m.vlanId) ∈ (settings.ports port).ipAddresses then
    .sent port (Mbuf.prepared { m with data := m.data.arpReply (dev.macaddr port) })
  else .dropped .dropUnhandledEthertype

def Settings.verdict : Verdict :=
  if m.BadL3 then .dropped .dropBadL3Cksum
  else if m.data.load16 Eth.etherType = rteBeToCpu16 etherTypeIpv4 then settings.ipv4 dev port m.unpadded
  else if m.data.load16 Eth.etherType = rteBeToCpu16 etherTypeArp then settings.arp dev port m
  else .dropped .dropUnhandledEthertype

def Settings.counted : List Stat :=
  (if ¬m.BadL3 ∧ m.BadL4 then [.rxBadL4Cksum] else []) ++ (settings.verdict dev port m).stats

end Meaning

/-! ## The tree computes it -/

section Trees

variable {dev : Devices} {table : NatLookup} {config : AppConfig} {settings : Settings} {port : Nat} {m : Mbuf}

def Walked.result : Walked → Except Verdict Mbuf
  | .stopped verdict => .error verdict
  | .going _ m => .ok m

/-- What stands to the left of an operand in the tree and in the text. -/
inductive Joins (dev : Devices) (table : NatLookup) (port : Nat) (m : Mbuf) : Pending → Option (Bool × Connective) → Prop
  | none : Joins dev table port m none none
  | some (value : node.eval dev table port m = .going lhs m) (op : Connective) :
      Joins dev table port m (some (node,op)) (some (lhs,op))

theorem Joins.eval {pending : Pending} {left : Option (Bool × Connective)} (joins : Joins dev table port m pending left)
    (value : node.eval dev table port m = .going rhs m) :
    (pending.node node).eval dev table port m = .going (joinLeft left rhs) m := by
  cases joins with
  | none => exact value
  | @some _ lhs before op =>
    cases op
    · cases lhs <;> simp [Pending.node,Connective.node,Node.eval,before,value,Walked.andThen,joinLeft,Connective.apply]
    · cases lhs <;> simp [Pending.node,Connective.node,Node.eval,before,value,Walked.andThen,joinLeft,Connective.apply]

theorem Cond.eval_node (cond : Cond) {pending : Pending} {left : Option (Bool × Connective)}
    (joins : Joins dev table port m pending left) :
    (cond.node pending).eval dev table port m = .going (cond.holds m left) m := by
  induction cond generalizing pending left with
  | inNetwork field network => cases field <;> exact joins.eval rfl
  | vlan value => exact joins.eval rfl
  | paren cond ih => exact joins.eval (ih .none)
  | op connective lhs rhs ihLhs ihRhs => exact ihRhs (.some (ihLhs joins) connective)

theorem eval_seqNode (prev new : Node) (m : Mbuf) : ((seqNode prev new).eval dev table port m).result =
    (prev.eval dev table port m).result >>= fun m => (new.eval dev table port m).result := by
  unfold seqNode
  split
  case isTrue null => rw [null]; rfl
  case isFalse =>
    split
    case isTrue null =>
      rw [null]
      cases prev.eval dev table port m <;> rfl
    case isFalse =>
      have last (walked : Walked) : (walked.andThen fun _ m => .going false m).result = walked.result := by
        cases walked <;> rfl
      rw [Node.eval]
      cases prev.eval dev table port m with
      | stopped verdict => rfl
      | going value m => exact last _

/-- The node of `if`, with a condition that has a value. -/
theorem eval_ifElse {test body other : Node} (value : test.eval dev table port m = .going holds m) :
    ((Node.ifElse (.cond test body) other).eval dev table port m).result =
      if holds then (body.eval dev table port m).result else (other.eval dev table port m).result := by
  rw [Node.eval,Node.eval,value]
  cases holds with
  | false => cases h : other.eval dev table port m <;> simp [Walked.andThen,Walked.result,h]
  | true => cases h : body.eval dev table port m <;> simp [Walked.andThen,Walked.result,h]

theorem natRewritten_eq (realizes : Realizes config settings) (m : Mbuf) (field : AddrField) :
    m.natRewritten config.natLookup field = settings.rewrite m field := by
  have lookup (ip : U32) : natLookupIp config.natLookup ip = settings.translates ip :=
    natLookupIp_refines _ _ realizes.nat ip
  simp only [Mbuf.natRewritten,Mbuf.innerLookup,Settings.rewrite,Settings.translatesInner,lookup]

theorem RuleAction.eval_action (realizes : Realizes config settings) (stmt : RuleAction) (m : Mbuf) :
    ((Node.action stmt.action).eval dev config.natLookup port m).result = stmt.treat dev settings port m := by
  cases stmt with
  | natRewrite field =>
    simp only [RuleAction.action,Node.eval,Action.eval,natRewritten_eq realizes,RuleAction.treat]
    cases settings.rewrite m field <;> rfl
  | out number mac vlan | print | drop => rfl

theorem Rules.eval_node (realizes : Realizes config settings) (dev : Devices) (port : Nat) (rules : Rules) (m : Mbuf) :
    (rules.node.eval dev config.natLookup port m).result = rules.treat dev settings port m := by
  induction rules generalizing m with
  | empty => rfl
  | semicolon prev ih =>
    rw [Rules.node,eval_seqNode,ih]
    exact bind_pure _
  | action prev stmt ih => simp only [Rules.node,eval_seqNode,ih,RuleAction.eval_action realizes,Rules.treat]
  | ifThen prev what body ih ihBody =>
    simp only [Rules.node,eval_seqNode,ih,eval_ifElse (what.eval_node .none),ihBody,Rules.treat]
    rfl
  | ifElse prev what body other ih ihBody ihOther =>
    simp only [Rules.node,eval_seqNode,ih,eval_ifElse (what.eval_node .none),ihBody,ihOther,Rules.treat]

theorem seqNode_eq_null {prev new : Node} : seqNode prev new = .null ↔ prev = .null ∧ new = .null := by
  unfold seqNode
  split_ifs with first second
  · simp [first]
  · simp [first]
  · simp [first]

theorem Rules.node_null (rules : Rules) : rules.node = .null ↔ rules.blank = true := by
  induction rules with
  | empty => simp [Rules.node,Rules.blank]
  | semicolon prev ih => simp [Rules.node,Rules.blank,seqNode_eq_null,ih]
  | action prev stmt | ifThen prev what body | ifElse prev what body other => simp [Rules.node,Rules.blank,seqNode_eq_null]

theorem isNatashaIp_iff (realizes : Realizes config settings) (ip : U32) (vlan : U16) :
    config.isNatashaIp dev ip vlan = true ↔ settings.Owns dev ip vlan := by
  simp only [AppConfig.isNatashaIp,List.any_eq_true (l := List.range _),List.mem_range,any_address_iff,realizes.ports]
  rfl

/-- The function that the worker computes from the loaded configuration is the one of the text. -/
theorem Realizes.verdict (realizes : Realizes config settings) (dev : Devices) (port : Nat) (m : Mbuf) :
    Natasha.verdict dev config port m = settings.verdict dev port m := by
  have ruled (m : Mbuf) : m.ruled dev config port = settings.ruled dev port m := by
    have walks := Rules.eval_node realizes dev port settings.rules m
    simp only [Mbuf.ruled,Settings.ruled,realizes.rules,Rules.node_null,← walks]
    cases settings.rules.node.eval dev config.natLookup port m <;> rfl
  have ipv4 (m : Mbuf) : m.ipv4Verdict dev config port = settings.ipv4 dev port m := by
    simp only [Mbuf.ipv4Verdict,Settings.ipv4,isNatashaIp_iff realizes,ruled]
  have arp : m.arpVerdict dev config port = settings.arp dev port m := by
    simp only [Mbuf.arpVerdict,Settings.arp,realizes.ports]
  simp only [Natasha.verdict,Settings.verdict,ipv4,arp]

end Trees

/-! ## From the text to the frames -/

section Worker

variable {files : List Char → Option (List Char)} {argv : List String} {name : String} {text : List Char}
  {tokens : List Token} {file : List SectionText}

/-- The worker of two ports at most, under a text whose numbers are indices of the arrays, sends and
counts what the text says, frame by frame. -/
theorem appConfigLoad_serves (named : configFile "/etc/natasha.conf" argv = some name) (found : files name.toList = some text)
    (renders : Renders files tokens text) (derives : Derives file tokens) (inArray : ∀ text ∈ file, text.InArray)
    (outs : ∀ n ∈ outNumbers tokens, outQueue n < natashaMaxQueues) :
    ∃ config rounds, (∀ fuel ≥ rounds, ((appConfigLoad files fuel argv).run.run allSucceed).1 = some config) ∧
      config.Contained ∧
      ∀ (ok : (op : Op) → Ans op → Prop), (∀ p, ok .appConfig p → p.config = config) →
        ∀ (dev : Devices), dev.count.toNat ≤ natashaMaxEthports →
          ∀ (n : Nat) (pkt : Mbuf) (rx : Nat → RxBurst) (tx : Nat → Nat),
            Ensures ok (mainLoop dev n) (.start pkt rx tx) fun _ w =>
              (∀ q, w.stream q =
                framesFor q ((polled rx (polls dev n)).flatMap fun r => ((meaning file).verdict dev r.1 r.2).frames)) ∧
              (∀ q, natashaMaxQueues ≤ q → w.stream q = []) ∧
              (∀ q < dev.count.toNat, (w.txQueues q).pkts = []) ∧
              ∀ s ≠ .dropTxNotsent, w.stats s =
                .ofNat 64 (((polled rx (polls dev n)).flatMap fun r => (meaning file).counted dev r.1 r.2).count s) := by
  obtain ⟨rounds,reads⟩ := configTokens_renders named found renders
  obtain ⟨config,parsed,contained,realizes⟩ := yyparse_contained derives inArray
  refine ⟨config,rounds,fun fuel enough => ?_,contained,fun ok loads dev few n pkt rx tx => ?_⟩
  · rw [appConfigLoad_run allSucceed fuel (reads fuel enough)]
    exact congrArg Prod.fst parsed
  · have queues : config.rules.OutsIn (· < natashaMaxQueues) := yyparse_outsIn outs allSucceed config allSucceed parsed
    have within : WithinArrays dev config := ⟨few,queues⟩
    have frames (received : List (Nat × Mbuf)) : answers dev config received =
        received.flatMap fun r => ((meaning file).verdict dev r.1 r.2).frames := by
      simp only [answers,realizes.verdict]
    have counts (received : List (Nat × Mbuf)) : counters dev config received =
        received.flatMap fun r => (meaning file).counted dev r.1 r.2 := by
      simp only [counters,countedFor,Settings.counted,realizes.verdict]
    refine (mainLoop_yields loads n _ fun _ _ => rfl).mono fun _ w h => ?_
    rw [← frames,← counts]
    refine ⟨h.1.start_stream,fun q behind => ?_,h.2,fun s other => h.1.start_stats other⟩
    exact (h.1.start_stream q).trans (within.behind rx n behind)

end Worker

/-- The segment leaves on the port of `out`, for the address of the `nat rule`. -/
theorem appConfigLoad_serves_routed :
    ∃ config rounds,
      (∀ fuel ≥ rounds, ((appConfigLoad (fun _ => some routedText) fuel []).run.run allSucceed).1 = some config) ∧
      ∃ frame, (exec (steadyAnswer config) (mainLoop twoPorts 1)
          (.start receivedSegment (oneArrival receivedSegment) fun _ => 0)).2.stream 1 = [frame] ∧
        rteBeToCpu32 (frame.addr .dst) = 0xd4303132 ∧ frame.data.loadMac Eth.dAddr = fun _ => 0xee := by
  have named : configFile "/etc/natasha.conf" [] = some "/etc/natasha.conf" := rfl
  have found : (fun _ => some routedText : List Char → Option (List Char)) "/etc/natasha.conf".toList = some routedText := rfl
  have renders : Renders (fun _ => some routedText) (routedSections.flatMap SectionText.tokens) routedText :=
    printTokens_renders _ _ routedSections_printable
  have derives := derives_of_inArray routedSections_inArray
  obtain ⟨config,rounds,loaded,_,serves⟩ := appConfigLoad_serves named found renders derives routedSections_inArray
    (by decide)
  refine ⟨config,rounds,loaded,?_⟩
  have loads : ∀ p, steadyOnly config .appConfig p → p.config = config := fun _ loaded => congrArg ConfigPtr.config loaded
  have served := serves _ loads twoPorts (by decide) 1 receivedSegment (oneArrival receivedSegment) fun _ => 0
  obtain ⟨stream,_⟩ := Ensures.exec served (steadyAnswer config) fun _ => rfl
  rw [stream 1]
  exact ⟨_,rfl,by decide +kernel,by decide +kernel⟩

end Natasha
