import Natasha.Lexer
import Natasha.ParseTree
import Natasha.Scope
import Natasha.Setup

/-! The indices into `app_config->ports`: those the parser writes are the numbers of the port
lines, those read are the numbers of the devices. The array has `NATASHA_MAX_ETHPORTS`
cells, and neither number is compared with that. -/
namespace Natasha

open Interaction

/-- The declared bounds of `ports`. -/
def InRange (i : Int) : Prop := 0 ≤ i ∧ i < natashaMaxEthports

/-- The numbers of the port lines of a configuration; `out port` is no port line. -/
def portNumbers : List Token → List Int
  | .tokOut :: .tokPort :: tokens => portNumbers tokens
  | .tokPort :: .number port :: tokens => port :: portNumbers tokens
  | _ :: tokens => portNumbers tokens
  | [] => []

/-- `config_port` stored into the cell: what it stores has an address, and nothing takes the
address out again. -/
def AppConfig.Written (config : AppConfig) (i : Int) : Prop := (config.ports i).ipAddresses ≠ []

/-- Only cells of the array were stored into. -/
def AppConfig.Contained (config : AppConfig) : Prop := ∀ i, config.Written i → InRange i

/-! ## The parser -/

/-- The number of the port line that is being read. -/
def Mode.pending : Mode → List Int
  | .portNumber n | .portMtu n | .portMtuNumber n _ | .portVlan n _ _ | .portVlanNumber n _ _ _
  | .portIp n _ _ _ | .portAddress n _ _ _ => [n]
  | _ => []

/-- The last token, where the meaning of a number depends on it. -/
def Mode.last : Mode → List Token
  | .port => [.tokPort]
  | .rules _ _ .out => [.tokOut]
  | _ => []

/-- The index is written, or it will be if the tokens are accepted. -/
def Parser.Covers (p : Parser) (tokens : List Token) (i : Int) : Prop :=
  p.config.Written i ∨ i ∈ p.mode.pending ∨ i ∈ portNumbers (p.mode.last ++ tokens)

/-- A token changes nothing about that. -/
def Steady (p : Parser) (token : Token) (p' : Parser) : Prop :=
  ∀ tokens i, p'.Covers tokens i ↔ p.Covers (token :: tokens) i

theorem Steady.of {p p' : Parser} (ports : p'.config.ports = p.config.ports)
    (numbers : ∀ tokens, p'.mode.pending ++ portNumbers (p'.mode.last ++ tokens) =
      p.mode.pending ++ portNumbers (p.mode.last ++ token :: tokens)) : Steady p token p' := by
  intro tokens i
  unfold Parser.Covers AppConfig.Written
  rw [ports,← List.mem_append,numbers,List.mem_append]

/-- A reading of the tokens that looks for port lines only. -/
structure Skims (f : List Token → β) : Prop where
  outPort : ∀ tokens, f (.tokOut :: .tokPort :: tokens) = f tokens
  other : ∀ token tokens, token ≠ .tokOut → token ≠ .tokPort → f (token :: tokens) = f tokens

theorem portNumbers_skims : Skims portNumbers where
  outPort _ := rfl
  other token tokens out port := by cases token <;> first | rfl | contradiction

/-- A token of the rules: the ports stay as they are, and a skimming reader passes over it. -/
structure PassedOver (f : List Token → β) (p : Parser) (token : Token) (p' : Parser) : Prop where
  ports : p'.config.ports = p.config.ports
  pending : p'.mode.pending = []
  tokens : ∀ tokens, f (p'.mode.last ++ tokens) = f (p.mode.last ++ token :: tokens)
  outside : p'.mode = .file ∨ ∃ opens content mode, p'.mode = .rules opens content mode

section Rules

variable {config : AppConfig} {opens : List Open} {content prev : Node} {mode : StmtMode} {f : List Token → β}

theorem PassedOver.rules {content' : Node} {mode' : StmtMode} {opens' : List Open}
    (tokens : ∀ tokens, f ((Mode.rules opens' content' mode').last ++ tokens) = f (p.mode.last ++ token :: tokens))
    (ports : config.ports = p.config.ports) : PassedOver f p token ⟨config,.rules opens' content' mode'⟩ :=
  ⟨ports,rfl,tokens,.inr ⟨_,_,_,rfl⟩⟩

theorem Returns.endStmt {new : Node} {p : Parser} (ports : config.ports = p.config.ports)
    (tokens : ∀ tokens, f tokens = f (p.mode.last ++ token :: tokens)) :
    Returns (Natasha.endStmt config opens prev new) (PassedOver f p token) :=
  .after fun _ => .pure (.rules tokens ports)

theorem feedStmt_skims (skims : Skims f) (other : mode ≠ .out) (token : Token) :
    Returns (feedStmt config opens prev token) (PassedOver f ⟨config,.rules opens content mode⟩ token) := by
  have last : (Mode.rules opens content mode).last = [] := by
    cases mode <;> simp_all [Mode.last]
  have skip (passed : token ≠ .tokOut ∧ token ≠ .tokPort) :
      ∀ tokens, f tokens = f ((Mode.rules opens content mode).last ++ token :: tokens) := by
    intro tokens
    rw [last]
    exact (skims.other token tokens passed.1 passed.2).symm
  unfold feedStmt
  split
  case h_1 => exact .endStmt rfl (skip ⟨nofun,nofun⟩)
  case h_4 => exact .pure (.rules (fun tokens => by rw [last]; rfl) rfl)
  case h_5 | h_6 => exact .after fun _ => .endStmt rfl (skip ⟨nofun,nofun⟩)
  case h_7 =>
    split
    · exact .pure ⟨rfl,rfl,skip ⟨nofun,nofun⟩,.inl rfl⟩
    · exact .pure (.rules (skip ⟨nofun,nofun⟩) rfl)
    · exact .after fun _ => .endStmt rfl (skip ⟨nofun,nofun⟩)
  case h_8 => exact .fail
  all_goals exact .pure (.rules (skip ⟨nofun,nofun⟩) rfl)

theorem feedRules_skims (skims : Skims f) (token : Token) :
    Returns (feedRules config opens content mode token) (PassedOver f ⟨config,.rules opens content mode⟩ token) := by
  have skip (token : Token) (passed : token ≠ .tokOut ∧ token ≠ .tokPort) : ∀ tokens, f tokens = f (token :: tokens) :=
    fun tokens => (skims.other token tokens passed.1 passed.2).symm
  unfold feedRules
  split
  case h_1 => exact feedStmt_skims skims (by simp) token
  case h_4 => exact .pure (.rules (fun tokens => (skims.outPort tokens).symm) rfl)
  case h_25 => exact .after fun _ => .after fun _ => feedStmt_skims skims (by simp) token
  all_goals first
    | exact .fail
    | exact .pure (.rules (skip _ ⟨nofun,nofun⟩) rfl)
    | exact .after fun _ => .endStmt rfl (skip _ ⟨nofun,nofun⟩)
    | exact .after fun _ => .after fun _ => .pure (.rules (skip _ ⟨nofun,nofun⟩) rfl)
    | exact .after fun _ => .pure (.rules (skip _ ⟨nofun,nofun⟩) rfl)

end Rules

/-- A `port` line stores one cell, which has an address. -/
theorem configPort_returns (config : AppConfig) (port mtu : Int) (first : U32 × Int)
    (extra : List (U32 × Int)) :
    Returns (configPort config port mtu first extra) fun config' => ∃ cell : PortConfig, cell.ipAddresses ≠ [] ∧
      config' = { config with ports := Function.update config.ports port cell } := by
  refine .after fun nextIps => ?_
  split
  · exact .fail
  · exact .after fun _ => .pure ⟨_,List.cons_ne_nil _ _,rfl⟩

theorem AppConfig.written_update (config : AppConfig) (port : Int) {cell : PortConfig} (some : cell.ipAddresses ≠ [])
    (i : Int) : AppConfig.Written { config with ports := Function.update config.ports port cell } i ↔
      config.Written i ∨ i = port := by
  unfold AppConfig.Written
  by_cases same : i = port
  · simp [same,some]
  · simp [same,Function.update_of_ne]

theorem configNatRule_returns (config : AppConfig) (fromIp toIp : U32) :
    Returns (configNatRule config fromIp toIp) fun config' => ∃ natLookup, config' = { config with natLookup := natLookup } := by
  refine .after fun r => ?_
  obtain ⟨ret,natLookup⟩ := r
  by_cases failed : ret < 0
  · simp only [failed,if_true]
    exact .stop
  · simp only [failed,if_false]
    exact .pure ⟨natLookup,rfl⟩

theorem feed_steady (p : Parser) (token : Token) : Returns (feed p token) (Steady p token) := by
  obtain ⟨config,mode⟩ := p
  unfold feed
  dsimp only
  split
  case h_21 port mtu first extra =>
    refine (configPort_returns config port mtu first extra).bind ?_
    rintro config' ⟨cell,some,rfl⟩
    refine .pure fun tokens i => ?_
    simp only [Parser.Covers,Mode.pending,Mode.last,List.nil_append,portNumbers,List.mem_singleton,
      List.not_mem_nil,false_or,config.written_update port some,or_assoc]
  case h_24 fromIp toIp =>
    refine (configNatRule_returns config fromIp toIp).bind ?_
    rintro config' ⟨natLookup,rfl⟩
    exact .pure (.of rfl fun _ => rfl)
  case h_26 opens content mode =>
    refine (feedRules_skims portNumbers_skims token).mono fun p' passed => .of passed.ports fun tokens => ?_
    rw [passed.pending,passed.tokens]
    rfl
  all_goals first
    | exact .fail
    | exact .pure (.of rfl fun _ => rfl)

theorem feedAll_steady (p : Parser) (tokens : List Token) :
    Returns (feedAll p tokens) fun p' => ∀ i, p'.Covers [] i ↔ p.Covers tokens i := by
  induction tokens generalizing p with
  | nil => exact .pure fun _ => Iff.rfl
  | cons token tokens ih =>
    refine (feed_steady p token).bind fun middle step => ?_
    intro oracle p' oracle' result i
    exact (ih middle oracle p' oracle' result i).trans (step tokens i)

theorem yyparse_written (tokens : List Token) :
    Returns (yyparse .zeroed tokens) fun config => ∀ i, config.Written i ↔ i ∈ portNumbers tokens := by
  refine (feedAll_steady ⟨.zeroed,.file⟩ tokens).bind fun p covers => ?_
  obtain ⟨config,mode⟩ := p
  dsimp only
  split
  · refine .pure fun i => ?_
    have same := covers i
    simpa [Parser.Covers,Mode.pending,Mode.last,portNumbers,AppConfig.Written,AppConfig.zeroed] using same
  · exact .fail

/-- The numbers of the port lines of the configuration that the options name. -/
def textPorts (files : List Char → Option (List Char)) (fuel : Nat) (argv : List String) : List Int :=
  portNumbers ((configTokens files fuel argv).getD [])

theorem appConfigLoad_written (files : List Char → Option (List Char)) (fuel : Nat) (argv : List String) :
    Returns (appConfigLoad files fuel argv) fun config =>
      ∀ i, config.Written i ↔ i ∈ textPorts files fuel argv := by
  refine .after fun _ => ?_
  unfold textPorts
  cases configTokens files fuel argv with
  | none => exact .fail
  | some tokens => exact yyparse_written tokens

/-! ## Setup -/

/-- Code that reads the cell of one port, any number of times. -/
def Records (port : Nat) (code : Setup α) : Prop :=
  ∀ reads, ∃ times, (code.run reads).2 = reads ++ List.replicate times (port : Int)

namespace Records

variable {port : Nat} {code : Setup α} {next : α → Setup β}

theorem pure (a : α) : Records port (Pure.pure a : Setup α) := fun reads => ⟨0,(List.append_nil reads).symm⟩

theorem portConfig (config : AppConfig) : Records port (Natasha.portConfig config port) := fun _ => ⟨1,rfl⟩

theorem bind (first : Records port code) (second : ∀ a, Records port (next a)) :
    Records port (code >>= next) := by
  intro reads
  obtain ⟨times,before⟩ := first reads
  obtain ⟨more,after⟩ := second (code.run reads).1 (code.run reads).2
  refine ⟨times + more,?_⟩
  change ((next (code.run reads).1).run (code.run reads).2).2 = _
  rw [after,before,List.append_assoc,List.replicate_append_replicate]

theorem ite (c : Prop) [Decidable c] {other : Setup α} (yes : Records port code)
    (no : Records port other) : Records port (if c then code else other) := by
  split
  · exact yes
  · exact no

end Records

theorem setupPort_reads (dev : EthDevice) (config : AppConfig) (port : Nat) (reads : List Int) (i : Int) :
    i ∈ ((setupPort dev config port).run reads).2 ↔ i ∈ reads ∨ i = port := by
  have rest : ∃ rest : PortConfig → Setup Int,
      setupPort dev config port = portConfig config port >>= rest ∧ ∀ cell, Records port (rest cell) := by
    refine ⟨_,rfl,fun _ => (Records.portConfig config).bind fun _ => .ite _ (.pure _)
      ((Records.portConfig config).bind fun _ => .ite _ (.pure _) (.ite _ (.pure _)
        ((Records.portConfig config).bind fun _ => ?_)))⟩
    split
    · exact .pure _
    · exact .ite _ (.pure _) (.ite _ (.pure _) (.pure _))
  obtain ⟨rest,split,records⟩ := rest
  obtain ⟨times,result⟩ := records (config.ports port) (reads ++ [(port : Int)])
  have run : ((setupPort dev config port).run reads).2 =
      reads ++ [(port : Int)] ++ List.replicate times (port : Int) := by
    rw [split]
    exact result
  simp only [run,List.mem_append,List.mem_singleton,List.mem_replicate]
  tauto

/-- Setup that succeeds has read the cell of every device, and no other. -/
theorem setupPorts_reads (host : Host) (config : AppConfig) (ports : List Nat) (reads : List Int)
    (success : ¬((setupPorts host config ports).run reads).1 < 0) (i : Int) :
    i ∈ ((setupPorts host config ports).run reads).2 ↔ i ∈ reads ∨ ∃ port ∈ ports, i = (port : Int) := by
  induction ports generalizing reads with
  | nil =>
    change i ∈ reads ↔ _
    simp
  | cons port ports ih =>
    have unfolded : (setupPorts host config (port :: ports)).run reads =
        if ((setupPort (host.device port) config port).run reads).1 < 0 then
          (-1,((setupPort (host.device port) config port).run reads).2)
        else (setupPorts host config ports).run ((setupPort (host.device port) config port).run reads).2 := by
      change (if ((setupPort (host.device port) config port).run reads).1 < 0 then (Pure.pure (-1) : Setup Int)
        else setupPorts host config ports).run ((setupPort (host.device port) config port).run reads).2 = _
      split <;> rfl
    by_cases failed : ((setupPort (host.device port) config port).run reads).1 < 0
    · rw [unfolded,if_pos failed] at success
      exact absurd (by decide : (-1 : Int) < 0) success
    · rw [unfolded,if_neg failed] at success ⊢
      rw [ih _ success,setupPort_reads]
      simp only [List.mem_cons,exists_eq_or_imp,or_assoc]

theorem setup_succeeds (host : Host) (config : AppConfig) (success : (host.setup config).1 = 0) :
    ¬((setupPorts host config (List.range host.ethDevCount.toNat)).run []).1 < 0 ∧
      (host.setup config).2 = ((setupPorts host config (List.range host.ethDevCount.toNat)).run []).2 := by
  unfold Host.setup setupApp at success ⊢
  by_cases none : host.ethDevCount = 0
  · simp only [none,if_true] at success
    exact absurd success (by decide)
  by_cases alone : host.cores.slaves.length + 1 < 2
  · simp only [none,alone,if_true,if_false] at success
    exact absurd success (by decide)
  simp only [none,alone,if_false] at success ⊢
  by_cases failed : ((setupPorts host config (List.range host.ethDevCount.toNat)).run []).1 < 0
  · change ((if ((setupPorts host config (List.range host.ethDevCount.toNat)).run []).1 < 0 then
      (pure (-1) : Setup Int) else pure (setupWorkers host)).run _).1 = 0 at success
    rw [if_pos failed] at success
    have impossible : (-1 : Int) = 0 := success
    contradiction
  · refine ⟨failed,?_⟩
    change ((if ((setupPorts host config (List.range host.ethDevCount.toNat)).run []).1 < 0 then
      (pure (-1) : Setup Int) else pure (setupWorkers host)).run _).2 = _
    rw [if_neg failed]
    rfl

theorem setup_reads (host : Host) (config : AppConfig) (success : (host.setup config).1 = 0) (i : Int) :
    i ∈ (host.setup config).2 ↔ 0 ≤ i ∧ i < host.ethDevCount.toNat := by
  obtain ⟨done,reads⟩ := setup_succeeds host config success
  rw [reads,setupPorts_reads host config _ [] done]
  simp only [List.not_mem_nil,false_or,List.mem_range]
  constructor
  · rintro ⟨port,bound,rfl⟩
    omega
  · rintro ⟨nonneg,bound⟩
    exact ⟨i.toNat,by omega,by omega⟩

/-! ## Workers -/

def Op.Within (ports : Int → Prop) : Op → Prop
  | .read _ member => member.Within ports
  | _ => True

/-- Code that reads the cells of allowed ports only. -/
def Confined (ports : Int → Prop) (code : M α) : Prop := ∀ w, (code.run w).Requests (Op.Within ports)

section Confined

variable {ports : Int → Prop}

theorem Scoped.confined (inScope : Scoped ports ptrs code) : Confined ports code := by
  induction inScope with
  | pure a => exact fun _ => trivial
  | bind first second ih ih' => exact fun w => (ih w).bind fun r => ih' r.1 r.2
  | own f unlogged => exact fun _ => trivial
  | look f unlogged next each ih => exact fun w => ih _ w
  | load each ih => exact fun w => ⟨trivial,fun p => ih p w⟩
  | read known within => exact fun _ => ⟨within,fun _ => trivial⟩

theorem Confined.bind {code : M α} {next : α → M β} (first : Confined ports code)
    (second : ∀ a, Confined ports (next a)) : Confined ports (code >>= next) :=
  fun w => (first w).bind fun r => second r.1 r.2

variable {dev : Devices} (devices : ∀ i < dev.count.toNat, ports i)

include devices

theorem Confined.dispatchAll {port : Nat} (here : ports port) (pkts : List Mbuf) :
    Confined ports (Natasha.dispatchAll dev port pkts) := by
  induction pkts with
  | nil => exact fun _ => trivial
  | cons pkt pkts ih =>
    have begun : Confined ports (beginDispatch port pkt) := fun _ => ⟨trivial,fun _ => trivial⟩
    have dispatched : Scoped ports [] (dispatchPacket dev port) := Scoped.dispatchPacket devices here
    exact begun.bind fun _ => dispatched.confined.bind fun _ => ih

theorem Confined.handlePorts (list : List Nat) (existing : ∀ port ∈ list, ports port) :
    Confined ports (Natasha.handlePorts dev list) := by
  induction list with
  | nil => exact fun _ => trivial
  | cons port list ih =>
    have burst : Confined ports rteEthRxBurst := fun _ => trivial
    refine (burst.bind fun burst => dispatchAll devices (existing port List.mem_cons_self) burst.pkts).bind
      fun _ => ih fun other later => existing other (List.mem_cons_of_mem _ later)

omit devices in
theorem Confined.flushPorts (list : List Nat) : Confined ports (Natasha.flushPorts list) := by
  induction list with
  | nil => exact fun _ => trivial
  | cons port list ih =>
    have look : Confined ports (get : M Worker) := fun _ => trivial
    have flushed : ∀ pkts, Scoped ports [] (txFlush port pkts) := Scoped.txFlush port
    exact look.bind fun w => (flushed _).confined.bind fun _ => ih

theorem Confined.mainLoop (n : Nat) : Confined ports (Natasha.mainLoop dev n) := by
  induction n with
  | zero => exact fun _ => trivial
  | succ n ih =>
    have handled := handlePorts devices (List.range dev.count.toNat) fun port member =>
      devices port (List.mem_range.1 member)
    have body := handled.bind fun _ => flushPorts (List.range dev.count.toNat)
    have once : Confined ports (iteration dev) := fun w =>
      ⟨trivial,fun _ => ⟨trivial,fun _ => ⟨trivial,fun _ => body w⟩⟩⟩
    exact once.bind fun _ => ih

end Confined

/-- Every index of `ports` that the parser wrote, that setup has read or that a worker can
read, in whatever run, is within the declared bounds. -/
def PortIndicesInRange (host : Host) (config : AppConfig) : Prop :=
  (∀ i, config.Written i → InRange i) ∧
  (∀ i ∈ (host.setup config).2, InRange i) ∧
  ∀ dev : Devices, dev.count = host.ethDevCount → ∀ (iterations : Nat) (w : Worker),
    ((mainLoop dev iterations).run w).Requests (Op.Within InRange)

/-- For a text that is accepted and devices with which setup succeeds, the indices are in
range if and only if the text numbers its ports 0 and 1 and there are at most two devices. -/
theorem portIndices_inRange_iff (files : List Char → Option (List Char)) (fuel : Nat) (argv : List String)
    (oracle oracle' : Nat → Bool) (config : AppConfig)
    (accepted : (appConfigLoad files fuel argv).run.run oracle = (some config,oracle'))
    (host : Host) (success : (host.setup config).1 = 0) :
    PortIndicesInRange host config ↔
      (∀ i ∈ textPorts files fuel argv, InRange i) ∧ host.ethDevCount.toNat ≤ natashaMaxEthports := by
  have written := appConfigLoad_written files fuel argv oracle config oracle' accepted
  have reads := setup_reads host config success
  constructor
  · rintro ⟨writes,setup,-⟩
    refine ⟨fun i member => writes i ((written i).2 member),?_⟩
    by_contra many
    have third := setup natashaMaxEthports ((reads _).2 (by omega))
    exact absurd third.2 (lt_irrefl _)
  · rintro ⟨numbers,few⟩
    have existing : ∀ i : Int, 0 ≤ i ∧ i < host.ethDevCount.toNat → InRange i :=
      fun i bounds => ⟨bounds.1,by omega⟩
    refine ⟨fun i member => numbers i ((written i).1 member),fun i member => existing i ((reads i).1 member),?_⟩
    intro dev same iterations w
    refine Confined.mainLoop (fun i bound => existing i ?_) iterations w
    rw [same] at bound
    omega

/-- A configuration for ports 0 and 2, in the file of the default path. -/
def thirdPort (name : List Char) : Option (List Char) :=
  if name = "/etc/natasha.conf".toList then
    some "config{port 0 ip 1.0.0.0;port 2 ip 1.0.0.1;}".toList
  else none

def oneDevice : Host where
  ethDevCount := 1
  device _ := ⟨true,fun _ => 0,fun _ => 0,fun _ => 0,0⟩
  cores := oneLcore
  stats _ := true
  reload := 0

theorem thirdPort_accepted :
    ((appConfigLoad thirdPort 60 []).run.run allSucceed).1.map (fun config =>
      ((config.ports 2).ipAddresses.length,(oneDevice.setup config).1)) = some (1,0) := by decide +kernel

theorem thirdPort_loads :
    ∃ config oracle', (appConfigLoad thirdPort 60 []).run.run allSucceed = (some config,oracle') ∧
      (config.ports 2).ipAddresses.length = 1 ∧ (oneDevice.setup config).1 = 0 := by
  have accepted := thirdPort_accepted
  generalize (appConfigLoad thirdPort 60 []).run.run allSucceed = result at accepted ⊢
  obtain ⟨loaded,oracle'⟩ := result
  obtain ⟨config,rfl,facts⟩ := Option.map_eq_some_iff.1 accepted
  obtain ⟨stored,success⟩ := Prod.mk.inj facts
  exact ⟨config,oracle',rfl,stored,success⟩

theorem portIndices_inRange_iff_thirdPort :
    ∃ config oracle', (appConfigLoad thirdPort 60 []).run.run allSucceed = (some config,oracle') ∧
      (oneDevice.setup config).1 = 0 ∧
      (PortIndicesInRange oneDevice config ↔
        (∀ i ∈ textPorts thirdPort 60 [], InRange i) ∧ oneDevice.ethDevCount.toNat ≤ natashaMaxEthports) := by
  obtain ⟨config,oracle',accepted,_,success⟩ := thirdPort_loads
  exact ⟨config,oracle',accepted,success,
    portIndices_inRange_iff thirdPort 60 [] allSucceed oracle' config accepted oneDevice success⟩

/-- The text is accepted, and the address of port 2 is stored behind the array. -/
theorem thirdPort_outOfRange :
    ∃ config oracle', (appConfigLoad thirdPort 60 []).run.run allSucceed = (some config,oracle') ∧
      (oneDevice.setup config).1 = 0 ∧ ¬PortIndicesInRange oneDevice config := by
  obtain ⟨config,oracle',accepted,stored,success⟩ := thirdPort_loads
  refine ⟨config,oracle',accepted,success,fun ⟨writes,_,_⟩ => ?_⟩
  have third : config.Written 2 := by
    intro empty
    simp [empty] at stored
  exact absurd (writes 2 third).2 (by decide)

end Natasha
