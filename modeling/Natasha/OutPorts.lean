import Natasha.Accounting
import Natasha.PortIndices
import Natasha.SourceMac

/-! The ports of `out` actions. The number in the text is stored in a `uint8_t` and indexes
`core->tx_queues`, unchecked; a queue is flushed at the end of an iteration if there is a
device with its number. -/
namespace Natasha

open Interaction

variable {ok : (op : Op) → Ans op → Prop} {ports : Nat → Prop}

/-! ## The parser -/

/-- The numbers of the `out` statements of a configuration. -/
def outNumbers : List Token → List Int
  | .tokOut :: .tokPort :: .number port :: tokens => port :: outNumbers tokens
  | _ :: tokens => outNumbers tokens
  | [] => []

/-- The queue that a number of the text becomes. -/
def outQueue (port : Int) : Nat := (BitVec.ofInt 8 port).toNat

def Pending.nodes : Pending → List Node
  | none => []
  | some (lhs,_) => [lhs]

def Open.nodes : Open → List Node
  | .ifBody prev what => [prev,what]
  | .elseBody prev what body => [prev,what,body]

/-- The nodes on the stack. -/
def StmtMode.nodes : StmtMode → List Node
  | .cond frames pending | .condField frames pending _ | .condIn frames pending _ | .condVlan frames pending =>
    frames.flatMap Pending.nodes ++ pending.nodes
  | .operand frames value => frames.flatMap Pending.nodes ++ [value]
  | .condEnd what => [what]
  | .afterIf what body | .tokElse what body => [what,body]
  | _ => []

def Mode.nodes : Mode → List Node
  | .rules opens content mode => opens.flatMap Open.nodes ++ content :: mode.nodes
  | _ => []

/-- The number of the `out` statement that is being read. -/
def Mode.outNumber : Mode → List Int
  | .rules _ _ (.outNumber n) | .rules _ _ (.outMac n) | .rules _ _ (.outMacAddress n _)
  | .rules _ _ (.outVlan n _) | .rules _ _ (.outVlanNumber n _ _) => [n]
  | _ => []

/-- The last tokens, where the meaning of a number depends on them. -/
def Mode.outTokens : Mode → List Token
  | .rules _ _ .out => [.tokOut]
  | .rules _ _ .outPort => [.tokOut,.tokPort]
  | _ => []

/-- Every `out` read so far goes to a queue of `ports`, and so do those that follow. -/
structure Parser.Fits (ports : Nat → Prop) (p : Parser) (tokens : List Token) : Prop where
  rules : p.config.rules.OutsIn ports
  nodes : ∀ node ∈ p.mode.nodes, node.OutsIn ports
  numbers : ∀ n ∈ p.mode.outNumber ++ outNumbers (p.mode.outTokens ++ tokens), ports (outQueue n)

section Statements

variable {prev new what body other : Node}

theorem rulesContent_outsIn (first : prev.OutsIn ports) (second : new.OutsIn ports) :
    Returns (rulesContent prev new) (Node.OutsIn ports) := by
  unfold rulesContent
  split
  · exact .pure second
  split
  · exact .pure first
  · exact .after fun _ => .pure ⟨first,second⟩

theorem rulesIf_outsIn (cond : what.OutsIn ports) (yes : body.OutsIn ports) (no : other.OutsIn ports) :
    Returns (rulesIf what body other) (Node.OutsIn ports) :=
  .after fun _ => .after fun _ => .pure ⟨⟨cond,yes⟩,no⟩

theorem newNode_outsIn (outs : new.OutsIn ports) : Returns (newNode new) (Node.OutsIn ports) :=
  .after fun _ => .pure outs

theorem newNodeWithData_outsIn (outs : new.OutsIn ports) : Returns (newNodeWithData new) (Node.OutsIn ports) :=
  .after fun _ => .after fun _ => .pure outs

theorem reduceCond_outsIn {pending : Pending} (waiting : ∀ node ∈ pending.nodes, node.OutsIn ports)
    (outs : new.OutsIn ports) : Returns (reduceCond pending new) (Node.OutsIn ports) := by
  rcases pending with _ | ⟨lhs,op⟩
  · exact .pure outs
  · have left : lhs.OutsIn ports := waiting lhs List.mem_cons_self
    cases op with
    | and => exact newNode_outsIn ⟨left,outs⟩
    | or => exact newNode_outsIn ⟨left,outs⟩

end Statements

section Rules

variable {config : AppConfig} {opens : List Open} {content prev new : Node} {tokens : List Token}
  (rules : config.rules.OutsIn ports) (around : ∀ node ∈ opens.flatMap Open.nodes, node.OutsIn ports)

include rules around

/-- A statement ends: its node joins the content. -/
theorem endStmt_fits (first : prev.OutsIn ports) (second : new.OutsIn ports)
    (numbers : ∀ n ∈ outNumbers tokens, ports (outQueue n)) :
    Returns (endStmt config opens prev new) (Parser.Fits ports · tokens) := by
  refine (rulesContent_outsIn first second).bind fun content outs => .pure ⟨rules,?_,numbers⟩
  intro node member
  rcases List.mem_append.mp member with outside | inside
  · exact around node outside
  · obtain rfl := List.mem_singleton.mp inside
    exact outs

theorem feedStmt_fits (token : Token) (inside : content.OutsIn ports)
    (numbers : ∀ n ∈ outNumbers (token :: tokens), ports (outQueue n)) :
    Returns (feedStmt config opens content token) (Parser.Fits ports · tokens) := by
  unfold feedStmt
  split
  case h_1 => exact endStmt_fits rules around inside trivial numbers
  case h_2 | h_3 | h_4 =>
    refine .pure ⟨rules,?_,numbers⟩
    intro node member
    rcases List.mem_append.mp member with outside | last
    · exact around node outside
    · obtain rfl := List.mem_singleton.mp last
      exact inside
  case h_5 =>
    have made : Returns (newNode (.action .print)) (Node.OutsIn ports) := newNode_outsIn trivial
    exact made.bind fun _ outs => endStmt_fits rules around inside outs numbers
  case h_6 =>
    have made : Returns (newNode (.action .drop)) (Node.OutsIn ports) := newNode_outsIn trivial
    exact made.bind fun _ outs => endStmt_fits rules around inside outs numbers
  case h_7 =>
    split
    case h_1 => exact .pure ⟨inside,by simp [Mode.nodes],numbers⟩
    case h_2 prev what opens =>
      simp only [List.flatMap_cons,Open.nodes,List.mem_append,List.mem_cons,List.not_mem_nil,or_false] at around
      refine .pure ⟨rules,?_,numbers⟩
      simp only [Mode.nodes,StmtMode.nodes,List.mem_append,List.mem_cons,List.not_mem_nil,or_false]
      rintro node (outside | rfl | rfl | rfl)
      · exact around node (.inr outside)
      · exact around node (.inl (.inl rfl))
      · exact around node (.inl (.inr rfl))
      · exact inside
    case h_3 prev what body opens =>
      simp only [List.flatMap_cons,Open.nodes,List.mem_append,List.mem_cons,List.not_mem_nil,or_false] at around
      refine (rulesIf_outsIn ?_ ?_ inside).bind fun _ outs =>
        endStmt_fits rules (fun node outside => around node (.inr outside)) ?_ outs numbers
      · exact around what (.inl (.inr (.inl rfl)))
      · exact around body (.inl (.inr (.inr rfl)))
      · exact around prev (.inl (.inl rfl))
  case h_8 => exact .fail

end Rules

theorem feedRules_fits {config : AppConfig} {opens : List Open} {content : Node} {mode : StmtMode}
    {token : Token} {tokens : List Token}
    (fits : Parser.Fits ports ⟨config,.rules opens content mode⟩ (token :: tokens)) :
    Returns (feedRules config opens content mode token) (Parser.Fits ports · tokens) := by
  obtain ⟨rules,nodes,numbers⟩ := fits
  have around : ∀ node ∈ opens.flatMap Open.nodes, node.OutsIn ports :=
    fun node member => nodes node (List.mem_append_left _ member)
  have inside : content.OutsIn ports := nodes content (List.mem_append_right _ List.mem_cons_self)
  have stack : ∀ node ∈ mode.nodes, node.OutsIn ports :=
    fun node member => nodes node (List.mem_append_right _ (List.mem_cons_of_mem _ member))
  -- the next mode of the same body
  have goto : ∀ next : StmtMode, (∀ node ∈ next.nodes, node.OutsIn ports) →
      (∀ n ∈ (Mode.rules opens content next).outNumber ++
        outNumbers ((Mode.rules opens content next).outTokens ++ tokens), ports (outQueue n)) →
      Returns (pure ⟨config,.rules opens content next⟩) (Parser.Fits ports · tokens) := by
    intro next above numbers
    refine .pure ⟨rules,?_,numbers⟩
    intro node member
    rcases List.mem_append.mp member with outside | member
    · exact around node outside
    rcases List.mem_cons.mp member with rfl | own
    · exact inside
    · exact above node own
  -- an operand is complete: what waits for it is reduced
  have operand : ∀ (frames : List Pending) (pending : Pending) (value : Node),
      (∀ node ∈ frames.flatMap Pending.nodes ++ pending.nodes, node.OutsIn ports) → value.OutsIn ports →
      (∀ n ∈ outNumbers tokens, ports (outQueue n)) →
      Returns (do return ⟨config,.rules opens content (.operand frames (← reduceCond pending value))⟩)
        (Parser.Fits ports · tokens) := by
    intro frames pending value waiting outs numbers
    refine (reduceCond_outsIn (fun node member => waiting node (List.mem_append_right _ member)) outs).bind
      fun reduced outs => goto (.operand frames reduced) ?_ numbers
    intro node member
    rcases List.mem_append.mp member with frame | last
    · exact waiting node (List.mem_append_left _ frame)
    · obtain rfl := List.mem_singleton.mp last
      exact outs
  unfold feedRules
  split
  case h_1 => exact feedStmt_fits rules around token inside numbers
  case h_3 field =>
    have made : Returns (newNodeWithData (.action (.natRewrite field))) (Node.OutsIn ports) :=
      newNodeWithData_outsIn trivial
    exact made.bind fun _ outs => endStmt_fits rules around inside outs numbers
  case h_8 port mac =>
    have made : Returns (newNodeWithData (.action (.out ⟨.ofInt 8 port,0,mac⟩))) (Node.OutsIn ports) :=
      newNodeWithData_outsIn (numbers port List.mem_cons_self)
    exact made.bind fun _ outs => endStmt_fits rules around inside outs
      fun n later => numbers n (List.mem_cons_of_mem _ later)
  case h_11 port mac vlan =>
    have made : Returns (newNodeWithData (.action (.out ⟨.ofInt 8 port,vlan,mac⟩))) (Node.OutsIn ports) :=
      newNodeWithData_outsIn (numbers port List.mem_cons_self)
    exact made.bind fun _ outs => endStmt_fits rules around inside outs
      fun n later => numbers n (List.mem_cons_of_mem _ later)
  case h_13 frames pending =>
    refine goto (.cond (pending :: frames) none) ?_ numbers
    intro node member
    simp only [StmtMode.nodes,Pending.nodes,List.append_nil,List.flatMap_cons,List.mem_append] at member stack
    exact stack node member.symm
  case h_17 frames pending field network =>
    have made : Returns (newNodeWithData (inNetworkNode field network)) (Node.OutsIn ports) := by
      apply newNodeWithData_outsIn
      unfold inNetworkNode
      split <;> trivial
    exact made.bind fun node outs => operand frames pending node stack outs numbers
  case h_18 frames pending vlan =>
    have made : Returns (newNodeWithData (.action (.condVlan vlan))) (Node.OutsIn ports) :=
      newNodeWithData_outsIn trivial
    exact made.bind fun node outs => operand frames pending node stack outs numbers
  case h_22 pending frames value =>
    simp only [StmtMode.nodes,List.flatMap_cons,List.mem_append,List.mem_singleton] at stack
    refine operand frames pending value ?_ (stack value (.inr rfl)) numbers
    intro node member
    exact stack node (.inl (List.mem_append.mp member).symm)
  case h_23 what =>
    refine .pure ⟨rules,?_,numbers⟩
    simp only [Mode.nodes,StmtMode.nodes,List.flatMap_cons,Open.nodes,List.mem_append,List.mem_cons,
      List.not_mem_nil,or_false]
    rintro node (((rfl | rfl) | outside) | rfl)
    · exact inside
    · exact stack _ List.mem_cons_self
    · exact around node outside
    · trivial
  case h_25 what body _ =>
    have cond : what.OutsIn ports := stack what List.mem_cons_self
    have yes : body.OutsIn ports := stack body (List.mem_cons_of_mem _ List.mem_cons_self)
    have no : Node.null.OutsIn ports := trivial
    refine (rulesIf_outsIn cond yes no).bind fun _ outs => ?_
    exact (rulesContent_outsIn inside outs).bind fun _ outs => feedStmt_fits rules around token outs numbers
  case h_26 what body =>
    refine .pure ⟨rules,?_,numbers⟩
    simp only [Mode.nodes,StmtMode.nodes,List.flatMap_cons,Open.nodes,List.mem_append,List.mem_cons,
      List.not_mem_nil,or_false]
    rintro node (((rfl | rfl | rfl) | outside) | rfl)
    · exact inside
    · exact stack _ List.mem_cons_self
    · exact stack _ (List.mem_cons_of_mem _ List.mem_cons_self)
    · exact around node outside
    · trivial
  case h_27 => exact .fail
  all_goals exact goto _ stack numbers

theorem feed_fits {p : Parser} {token : Token} {tokens : List Token} (fits : p.Fits ports (token :: tokens)) :
    Returns (feed p token) (Parser.Fits ports · tokens) := by
  obtain ⟨config,mode⟩ := p
  unfold feed
  dsimp only
  split
  case h_21 port mtu first extra =>
    refine (configPort_returns config port mtu first extra).bind ?_
    rintro config' ⟨cell,_,rfl⟩
    exact .pure ⟨fits.rules,fits.nodes,fits.numbers⟩
  case h_24 fromIp toIp =>
    refine (configNatRule_returns config fromIp toIp).bind ?_
    rintro config' ⟨natLookup,rfl⟩
    exact .pure ⟨fits.rules,fits.nodes,fits.numbers⟩
  case h_25 => exact .pure ⟨fits.rules,by simp [Mode.nodes,StmtMode.nodes,Node.OutsIn],fits.numbers⟩
  case h_26 opens content mode => exact feedRules_fits fits
  case h_27 => exact .fail
  all_goals exact .pure ⟨fits.rules,fits.nodes,fits.numbers⟩

theorem feedAll_fits {p : Parser} {tokens : List Token} (fits : p.Fits ports tokens) :
    Returns (feedAll p tokens) (Parser.Fits ports · []) := by
  induction tokens generalizing p with
  | nil => exact .pure fits
  | cons token tokens ih => exact (feed_fits fits).bind fun p' fits => ih fits

theorem yyparse_outsIn {tokens : List Token} (numbers : ∀ n ∈ outNumbers tokens, ports (outQueue n)) :
    Returns (yyparse .zeroed tokens) fun config => config.rules.OutsIn ports := by
  have start : Parser.Fits ports ⟨.zeroed,.file⟩ tokens := ⟨trivial,fun _ none => absurd none List.not_mem_nil,numbers⟩
  refine (feedAll_fits start).bind fun p fits => ?_
  obtain ⟨config,mode⟩ := p
  dsimp only
  split
  · exact .pure fits.rules
  · exact .fail

/-- The numbers of the `out` statements of the configuration that the options name. -/
def textOuts (files : List Char → Option (List Char)) (fuel : Nat) (argv : List String) : List Int :=
  outNumbers ((configTokens files fuel argv).getD [])

theorem appConfigLoad_outsIn (files : List Char → Option (List Char)) (fuel : Nat) (argv : List String)
    (numbers : ∀ n ∈ textOuts files fuel argv, ports (outQueue n)) :
    Returns (appConfigLoad files fuel argv) fun config => config.rules.OutsIn ports := by
  refine .after fun _ => ?_
  unfold textOuts at numbers
  cases found : configTokens files fuel argv with
  | none => exact .fail
  | some tokens =>
    rw [found] at numbers
    exact yyparse_outsIn numbers

/-! ## Runs -/

/-- The calls of `out` since `w₀` went to queues of `ports`. -/
def CallsIn (ports : Nat → Prop) (w₀ w : Worker) : Prop :=
  ∃ es, w.log = w₀.log ++ es ∧ ∀ out, .call (.out out) ∈ es → ports out.port.toNat

theorem CallsIn.append {w₀ w w' : Worker} (calls : CallsIn ports w₀ w) (es : List Event)
    (log : w'.log = w.log ++ es) (more : ∀ out, .call (.out out) ∈ es → ports out.port.toNat) : CallsIn ports w₀ w' := by
  obtain ⟨before,past,each⟩ := calls
  refine ⟨before ++ es,by rw [log,past,List.append_assoc],fun out member => ?_⟩
  rcases List.mem_append.mp member with earlier | later
  · exact each out earlier
  · exact more out later

/-- Every configuration found during the dispatch sends to `ports` only. -/
def SendsTo (ports : Nat → Prop) (ok : (op : Op) → Ans op → Prop) (_ : Nat) (_ : Mbuf) : Prop :=
  ∀ p, ok .appConfig p → p.config.rules.OutsIn ports

theorem reaches_callsIn {dev : Devices} {w₀ w : Worker} (reached : Reaches dev (SendsTo ports) w₀ w) :
    CallsIn ports w₀ w := by
  induction reached with
  | start => exact ⟨[],(List.append_nil _).symm,fun _ none => absurd none List.not_mem_nil⟩
  | poll reached rx ih => exact ih
  | @dispatch w reached ok port device pkt met r ends ih =>
    have sending : Sending ok dev port ports False (w.dispatching port pkt) (dispatchPacket dev port) :=
      Sending.dispatchPacket (fun none => none.elim) fun _ q _ found _ =>
        (met q found).routes _ fun _ _ => trivial
    obtain ⟨es,sends⟩ := (ensures_iff_ends _ _ _).mp sending _ ends
    have begun : CallsIn ports w₀ (w.dispatching port pkt) := ih.append [.receive port] rfl (by simp)
    exact begun.append es sends.log sends.outs
  | @flush w reached q ih =>
    refine ih.append _ rfl fun out member => ?_
    rcases List.mem_cons.mp member with burst | released
    · cases burst
    · exact absurd released (quiet_call (quiet_notSent _ _ _) out)

/-- `app_config_load` accepted a text for this configuration, with port lines for the cells of
`ports` and `out` numbers that fit. -/
def AppConfig.LoadedWith (config : AppConfig) (fits : Int → Prop) : Prop :=
  ∃ files fuel argv oracle oracle', (appConfigLoad files fuel argv).run.run oracle = (some config,oracle') ∧
    (∀ n ∈ textPorts files fuel argv, InRange n) ∧ ∀ n ∈ textOuts files fuel argv, fits n

/-- The number becomes the port of a device. -/
def OutFits (dev : Devices) (n : Int) : Prop := outQueue n < dev.count.toNat

/-- No packet is stranded by the events `es` of an iteration that ends in `w'`. -/
structure StrandsNone (dev : Devices) (w w' : Worker) (es : List Event) : Prop where
  log : w'.log = w.log ++ es
  outs : ∀ out, .call (.out out) ∈ es → out.port.toNat < natashaMaxQueues ∧ out.port.toNat < dev.count.toNat
  empty : ∀ q, (w'.txQueues q).pkts = []
  offered : ∀ q, enqueuedOn q es = offeredOn q es

section Iterations

variable {dev : Devices} {w : Worker} (few : dev.count.toNat ≤ natashaMaxEthports)
  (loads : ∀ p, ok .appConfig p → p.config.LoadedWith (OutFits dev))

include few loads

theorem loads_outsIn (p : ConfigPtr) (loaded : ok .appConfig p) :
    p.config.rules.OutsIn fun q => q < natashaMaxQueues ∧ q < dev.count.toNat := by
  obtain ⟨files,fuel,argv,oracle,oracle',accepted,_,fits⟩ := loads p loaded
  have outs : Returns (appConfigLoad files fuel argv) fun config => config.rules.OutsIn (· < dev.count.toNat) :=
    appConfigLoad_outsIn files fuel argv fits
  have cells : natashaMaxEthports < natashaMaxQueues := by decide
  exact (outs oracle p.config oracle' accepted).mono fun q below => ⟨by omega,below⟩

theorem iteration_strandsNone (empty : ∀ q, (w.txQueues q).pkts = []) :
    Ensures ok (iteration dev) w fun _ w' => ∃ es, StrandsNone dev w w' es := by
  have outs := loads_outsIn few loads
  have admits : Admits ok (· < dev.count.toNat) True :=
    fun p loaded => ⟨(outs p loaded).mono fun q fits => fits.2,fun _ => trivial⟩
  have atRest : AtRest dev (· < dev.count.toNat) w w := ⟨Audited.refl w,fun q _ => empty q⟩
  have reached : Ensures ok (iteration dev) w fun _ w' =>
      Reaches dev (SendsTo fun q => q < natashaMaxQueues ∧ q < dev.count.toNat) w w' :=
    iteration_reaches (fun _ _ => outs) .start
  apply ((iteration_atRest dev atRest (fun _ below => below) admits).and reached).mono
  rintro _ w' ⟨⟨⟨es,books,_⟩,flushed⟩,reaches⟩
  obtain ⟨es',log,calls⟩ := reaches_callsIn reaches
  have same : es' = es := List.append_cancel_left (log.symm.trans books.log)
  have balance : ∀ q, (w'.txQueues q).pkts.length + offeredOn q es = enqueuedOn q es := by
    intro q
    rw [books.queues q,empty q]
    simp
  have gone : ∀ q, (w'.txQueues q).pkts = [] := by
    intro q
    by_cases device : q < dev.count.toNat
    · exact flushed q device
    · have unused : enqueuedOn q es = 0 := enqueuedOn_outside books.allowed device
      have total := balance q
      exact List.length_eq_zero_iff.mp (by omega)
  refine ⟨es,books.log,same ▸ calls,gone,fun q => ?_⟩
  have total := balance q
  rw [gone q] at total
  simpa using total.symm

/-- No iteration of `main_loop` strands a packet, if the numbers of the texts fit and the arrays
have a cell for every device. -/
theorem mainLoop_strandsNone (n : Nat) (pkt : Mbuf) (rx : Nat → RxBurst) (tx : Nat → Nat) :
    Ensures ok (mainLoop dev n) (.start pkt rx tx) fun _ w =>
      Ensures ok (iteration dev) w fun _ w' => ∃ es, StrandsNone dev w w' es := by
  have rested : ∀ {w : Worker}, (∀ q, (w.txQueues q).pkts = []) →
      Ensures ok (mainLoop dev n) w fun _ w' => ∀ q, (w'.txQueues q).pkts = [] := by
    induction n with
    | zero => exact fun empty => empty
    | succ n ih =>
      intro w empty
      rw [mainLoop,ensures_bind]
      apply (iteration_strandsNone few loads empty).mono
      rintro _ w' ⟨es,done⟩
      exact ih done.empty
  apply (rested fun _ => rfl).mono
  intro _ w empty
  exact iteration_strandsNone few loads empty

end Iterations

/-- A configuration of one port with `out` on the port given, in the file of the default path. -/
def routerFile (port : Char) (name : List Char) : Option (List Char) :=
  if name = "/etc/natasha.conf".toList then
    some ("config\x7bport 0 ip 1.0.0.0;\x7drules\x7bout port ".toList ++
      port :: " mac 02:00:00:00:00:01;\x7d".toList)
  else none

def onePort : Devices := ⟨1,fun _ _ => 2⟩

/-- One packet comes in first, and nothing after it. -/
def oneArrival (pkt : Mbuf) (i : Nat) : RxBurst := if i = 0 then ⟨[pkt],Nat.le_of_ble_eq_true rfl⟩ else idle i

/-- One iteration on the segment, under a configuration that stays. -/
def routed (config : AppConfig) : Worker :=
  (exec (steadyAnswer config) (iteration onePort) (.start receivedSegment (oneArrival receivedSegment) fun _ => 1)).2

theorem routerFile_queues (port : Char) (q : Nat) (counts : Nat × Nat)
    (runs : ((appConfigLoad (routerFile port) 80 []).run.run allSucceed).1.map (fun config =>
      ((oneDevice.setup config).1,enqueuedOn q (routed config).log,((routed config).txQueues q).pkts.length)) =
        some (0,counts)) :
    ∃ config oracle', (appConfigLoad (routerFile port) 80 []).run.run allSucceed = (some config,oracle') ∧
      (oneDevice.setup config).1 = 0 ∧ enqueuedOn q (routed config).log = counts.1 ∧
      ((routed config).txQueues q).pkts.length = counts.2 := by
  generalize (appConfigLoad (routerFile port) 80 []).run.run allSucceed = result at runs ⊢
  obtain ⟨loaded,oracle'⟩ := result
  obtain ⟨config,rfl,facts⟩ := Option.map_eq_some_iff.1 runs
  obtain ⟨success,rfl⟩ := Prod.mk.inj facts
  exact ⟨config,oracle',rfl,success,rfl,rfl⟩

/-- With `out port 0` and one device the segment is queued once and offered. -/
theorem mainLoop_strandsNone_routed :
    ∃ config oracle' es, (appConfigLoad (routerFile '0') 80 []).run.run allSucceed = (some config,oracle') ∧
      (oneDevice.setup config).1 = 0 ∧
      StrandsNone onePort (.start receivedSegment (oneArrival receivedSegment) fun _ => 1) (routed config) es ∧
      enqueuedOn 0 es = 1 := by
  obtain ⟨config,oracle',accepted,success,queued,_⟩ := routerFile_queues '0' 0 (1,0) (by decide +kernel)
  have numbers : textOuts (routerFile '0') 80 [] = [0] := by decide +kernel
  have lines : textPorts (routerFile '0') 80 [] = [0] := by decide +kernel
  have loads : ∀ p, steadyOnly config .appConfig p → p.config.LoadedWith (OutFits onePort) := by
    rintro p rfl
    refine ⟨routerFile '0',80,[],allSucceed,oracle',accepted,fun n member => ?_,fun n member => ?_⟩
    · rw [lines,List.mem_singleton] at member
      rw [member]
      exact ⟨by decide,by decide⟩
    · rw [numbers,List.mem_singleton] at member
      have device : outQueue 0 < onePort.count.toNat := by decide
      exact member ▸ device
  have rested := (mainLoop_strandsNone (by decide) loads 0 receivedSegment (oneArrival receivedSegment) fun _ => 1).exec
    (steadyAnswer config) fun _ => rfl
  obtain ⟨es,strands⟩ := rested.exec (steadyAnswer config) fun _ => rfl
  have same : (routed config).log = es := strands.log
  exact ⟨config,oracle',es,accepted,success,strands,same ▸ queued⟩

/-- With `out port 5` it stays in a queue that no device flushes. -/
theorem routerFile_strands :
    ¬∀ (files : List Char → Option (List Char)) (fuel : Nat) (argv : List String) (oracle oracle' : Nat → Bool)
      (config : AppConfig), (appConfigLoad files fuel argv).run.run oracle = (some config,oracle') →
      ∀ host : Host, (host.setup config).1 = 0 → ∀ dev : Devices, dev.count = host.ethDevCount →
      ∀ (n : Nat) (pkt : Mbuf) (rx : Nat → RxBurst) (tx : Nat → Nat),
        Ensures (steadyOnly config) (mainLoop dev n) (.start pkt rx tx) fun _ w =>
          Ensures (steadyOnly config) (iteration dev) w fun _ w' => ∃ es, StrandsNone dev w w' es := by
  intro claim
  obtain ⟨config,oracle',accepted,success,_,stranded⟩ := routerFile_queues '5' 5 (1,1) (by decide +kernel)
  have rested := (claim (routerFile '5') 80 [] allSucceed oracle' config accepted oneDevice success onePort rfl 0
    receivedSegment (oneArrival receivedSegment) fun _ => 1).exec (steadyAnswer config) fun _ => rfl
  obtain ⟨es,strands⟩ := rested.exec (steadyAnswer config) fun _ => rfl
  have empty : ((routed config).txQueues 5).pkts = [] := strands.empty 5
  rw [empty] at stranded
  exact Nat.zero_ne_one stranded

end Natasha
