import Mathlib.Algebra.Order.BigOperators.Group.List
import Natasha.Lib.Protocol
import Natasha.Queues

/-! The start of the program, from `main` to the administration server: ports are configured and
started one after the other, then every worker gets its statistics and a configuration and is
launched. What DPDK asks of the order of these calls is a protocol, which the program keeps to
whatever the calls return. -/
namespace Natasha

open Interaction

namespace Boot

/-! ## Calls -/

/-- The members of `struct rte_eth_conf` that depend on the configuration. -/
structure RteEthConf where
  jumboFrame : Bool
  maxRxPktLen : U32

inductive BootOp (R T : Type) where
  | fcntlGetFl
  | fcntlSetFl (flags : U32)
  | signal
  | rteEalInit
  | rteEthDevCount
  | devInfoGet (port : Byte)
  | devConfigure (port : Byte) (nbRxQueue nbTxQueue : U16) (ethConf : RteEthConf)
  | vlanFilter (port : Byte) (vlan : U16)
  | queue (op : QueueOp R T)
  | devStart (port : Byte)
  | linkGetNowait (portid : U16)
  | delayMs (ms : Nat)
  | master (op : MasterOp)
  | initNatashaAppStats (core : Nat)
  | remoteLaunch (core : Nat)
  | admServer

/-- `link_status` is one bit; statistics that cannot be allocated are `false`. -/
def BootAns {R T : Type} : BootOp R T → Type
  | .fcntlGetFl => U32
  | .rteEthDevCount => Byte
  | .devInfoGet _ => RteEthDevInfo R T
  | .queue op => QueueAns op
  | .linkGetNowait _ | .initNatashaAppStats _ => Bool
  | .master op => MasterAns op
  | .signal | .delayMs _ => Unit
  | .fcntlSetFl _ | .rteEalInit | .devConfigure .. | .vlanFilter .. | .devStart _ | .remoteLaunch _ | .admServer => Int

/-- The private state is `rx_queues[port].id` and `tx_queues[port].id` of the cores: each entry is
a port, a core and the queue that both of them get. -/
abbrev BootM (R T : Type) := Code (List (Byte × Nat × U16)) (BootOp R T) BootAns

section Calls

variable {R T : Type}

def call (op : BootOp R T) : BootM R T (BootAns op) := perform op

/-- The queues of a port, by code of their own. -/
def queues (port : Byte) (code : QueueM R T Int) : BootM R T Int := do
  let (ret,ids) ← (StateT.lift ((code.run []).embed BootOp.queue) : BootM R T (Int × List (Nat × U16)))
  modify (· ++ ids.map fun id => (port,id))
  return ret

def master (program : Master α) : BootM R T α := StateT.lift (program.embed BootOp.master)

/-! ## Ports -/

def devTxOffloadIpv4Cksum : U64 := 0x2
def devTxOffloadUdpCksum : U64 := 0x4
def devTxOffloadTcpCksum : U64 := 0x8

def etherMaxLen : Int := 1518

/-- Accept traffic for VLANs: `none` if a filter cannot be set. -/
def acceptVlans (port : Byte) (enableVlanOffload : Bool) : List (U32 × U16) → BootM R T (Option Bool)
  | [] => return some enableVlanOffload
  | (_,vlan) :: rest => do
    if vlan = 0 then
      acceptVlans port enableVlanOffload rest
    else
      let ret : Int ← call (.vlanFilter port vlan)
      if ret < 0 then
        return none
      acceptVlans port true rest

/-- The members of `struct rte_eth_txconf` and `struct rte_eth_rxconf` that the stack holds when
`setup_queues` is called for a port. -/
abbrev Stack (R T : Type) := Byte → RteEthTxconf T × RteEthRxconf R

variable (stack : Stack R T) (cores : Lcores)

/-- `setup_port`. The master core has no queues. -/
def setupPort (port : Byte) (appConfig : AppConfig) : BootM R T Int := do
  let portConfig := appConfig.ports port.toNat
  let ethConf : RteEthConf := ⟨portConfig.mtu > etherMaxLen,.ofInt 32 portConfig.mtu⟩
  let devInfo : RteEthDevInfo R T ← call (.devInfoGet port)
  if devInfo.txOffloadCapa &&& devTxOffloadIpv4Cksum = 0 ∨ devInfo.txOffloadCapa &&& devTxOffloadTcpCksum = 0 ∨
      devInfo.txOffloadCapa &&& devTxOffloadUdpCksum = 0 then
    return -1
  if portConfig.ipAddresses = [] then
    return -1
  let ncores := cores.slaves.length + 1
  let nqueues : U16 := .ofNat 16 (ncores - 1)
  let ret : Int ← call (.devConfigure port nqueues nqueues ethConf)
  if ret < 0 then
    return ret
  match ← acceptVlans port false portConfig.ipAddresses with
  | none => return -1
  | some enableVlanOffload =>
    let devInfo : RteEthDevInfo R T ← call (.devInfoGet port)
    let ret ← queues port
      (setupQueues port devInfo cores.slaves enableVlanOffload (stack port).1 (stack port).2)
    if ret < 0 then
      return ret
    let ret : Int ← call (.devStart port)
    if ret < 0 then
      return ret
    return 0

def setupPorts (appConfig : AppConfig) : List Byte → BootM R T Int
  | [] => return 0
  | port :: ports => do
    let ret ← setupPort stack cores port appConfig
    if ret < 0 then
      return -1
    setupPorts appConfig ports

/-- A round over the links, up to the first that is down. -/
def allPortsUp : List U16 → BootM R T Bool
  | [] => return true
  | portid :: portids => do
    let linkStatus : Bool ← call (.linkGetNowait portid)
    if linkStatus then allPortsUp portids else return false

def maxCheckTime : Nat := 90
def checkInterval : Nat := 100

/-- The loop of `check_ports_link_status` over `count`. -/
def checkRounds (portMax : U16) : List Nat → BootM R T Unit
  | [] => return ()
  | count :: counts => do
    let up ← allPortsUp ((List.range portMax.toNat).map (.ofNat 16))
    if !up then
      let _ : Unit ← call (.delayMs checkInterval)
    if up ∨ count = maxCheckTime - 1 then
      return ()
    checkRounds portMax counts

def checkPortsLinkStatus (portMax : U16) : BootM R T Unit := checkRounds portMax (List.range (maxCheckTime + 1))

/-! ## Workers -/

/-- The statistics of the workers. Their `app_config` is NULL from the start. -/
def initWorkers : List Nat → BootM R T Int
  | [] => return 0
  | core :: rest => do
    let stats : Bool ← call (.initNatashaAppStats core)
    if !stats then
      return -1
    initWorkers rest

def setupApp : BootM R T Int := do
  match ← master Master.appConfigLoad with
  | none => return -1
  | some appConfig =>
    let ethDevCount : Byte ← call .rteEthDevCount
    if ethDevCount = 0 then
      return -1
    if cores.slaves.length + 1 < 2 then
      return -1
    let ret ← setupPorts stack cores appConfig.config ((List.range ethDevCount.toNat).map (.ofNat 8))
    if ret < 0 then
      return -1
    checkPortsLinkStatus (.ofNat 16 ethDevCount.toNat)
    master (Master.appConfigFree appConfig)
    let ret ← initWorkers cores.slaves
    if ret < 0 then
      return -1
    let ret ← master (appConfigReloadAll cores)
    if ret < 0 then
      return -1
    return 0

/-- The loop of `run_workers`. -/
def launchWorkers : List Nat → BootM R T Int
  | [] => return 0
  | core :: rest => do
    let ret : Int ← call (.remoteLaunch core)
    if ret < 0 then
      return -1
    launchWorkers rest

def runWorkers : BootM R T Int := launchWorkers cores.slaves

/-- How `main` ends: by `rte_exit` or with the value of `adm_server`. -/
inductive Ended where
  | rteExit (message : String)
  | returned (ret : Int)
  deriving DecidableEq

def oNonblock : U32 := 0x800

def main : BootM R T Ended := do
  let flags : U32 ← call .fcntlGetFl
  if flags.toInt < 0 then
    return .rteExit "Unable to set stderr as non-blocking\n"
  let ret : Int ← call (.fcntlSetFl (flags ||| oNonblock))
  if ret < 0 then
    return .rteExit "Unable to set stderr as non-blocking\n"
  let _ : Unit ← call .signal
  let ret : Int ← call .rteEalInit
  if ret < 0 then
    return .rteExit "Error with EAL initialization\n"
  let ret ← setupApp stack cores
  if ret < 0 then
    return .rteExit "Unable to setup app\n"
  let ret ← runWorkers cores
  if ret < 0 then
    return .rteExit "Unable to run workers\n"
  let ret : Int ← call .admServer
  return .returned ret

/-! ## The order of the calls -/

/-- A port, as its driver sees it: the queues that were set up and the counters that they have. -/
inductive Phase where
  | closed
  | configured (nbRxQueue nbTxQueue : Nat) (rx tx : List U16) (counters : List Nat)
  | started
  | failed

/-- The port of a call that its driver serves. -/
def queuePort : QueueOp R T → Option Byte
  | .getVlanOffload port | .rxQueueSetup port _ _ _ _ _ | .rxStatsMapping port _ _ | .txQueueSetup port _ _ _ _
  | .txStatsMapping port _ _ => some port
  | .lcoreToSocketId _ | .pktmbufPoolCreate .. => none

/-- A configured port has every queue set up at most once, and a counter of its own for each. -/
def Phase.AllowsQueue : Phase → QueueOp R T → Prop
  | .configured _ _ _ _ _, .getVlanOffload _ => True
  | .configured nb _ rx _ _, .rxQueueSetup _ queueId _ _ _ _ => queueId.toNat < nb ∧ queueId ∉ rx
  | .configured _ nb _ tx _, .txQueueSetup _ queueId _ _ _ => queueId.toNat < nb ∧ queueId ∉ tx
  | .configured _ _ rx _ counters, .rxStatsMapping _ queueId statsIdx => queueId ∈ rx ∧ statsIdx ∉ counters
  | .configured _ _ _ tx counters, .txStatsMapping _ queueId statsIdx => queueId ∈ tx ∧ statsIdx ∉ counters
  | _, _ => False

/-- All queues of a port are set up before it is started. -/
def Phase.AllowsStart : Phase → Prop
  | .configured nbRx nbTx rx tx _ => (∀ q : U16, q.toNat < nbRx → q ∈ rx) ∧ ∀ q : U16, q.toNat < nbTx → q ∈ tx
  | _ => False

/-- What the driver returns for a queue; a call that returns something else does not fail. -/
def queueRet : (op : QueueOp R T) → QueueAns op → Int
  | .rxQueueSetup .., ret | .rxStatsMapping .., ret | .txQueueSetup .., ret | .txStatsMapping .., ret => ret
  | .getVlanOffload _, _ | .lcoreToSocketId _, _ | .pktmbufPoolCreate .., _ => 0

def Phase.afterQueue (phase : Phase) (op : QueueOp R T) (ret : Int) : Phase :=
  if ret < 0 then .failed
  else match phase, op with
    | .configured nbRx nbTx rx tx counters, .rxQueueSetup _ queueId _ _ _ _ =>
      .configured nbRx nbTx (queueId :: rx) tx counters
    | .configured nbRx nbTx rx tx counters, .txQueueSetup _ queueId _ _ _ =>
      .configured nbRx nbTx rx (queueId :: tx) counters
    | .configured nbRx nbTx rx tx counters, .rxStatsMapping _ _ statsIdx
    | .configured nbRx nbTx rx tx counters, .txStatsMapping _ _ statsIdx =>
      .configured nbRx nbTx rx tx (statsIdx :: counters)
    | phase, _ => phase

/-- What was done so far. -/
structure Lifecycle where
  count : Byte
  ports : Byte → Phase
  mempools : List String
  /-- How often the links were waited for. -/
  delays : Nat
  /-- The addresses of the configurations that are not freed. -/
  live : List Nat
  appConfig : Nat → Option ConfigPtr
  stats : List Nat
  launched : List Nat

namespace Lifecycle

def boot : Lifecycle := ⟨0,fun _ => .closed,[],0,[],fun _ => none,[],[]⟩

def setPort (s : Lifecycle) (port : Byte) (phase : Phase) : Lifecycle :=
  { s with ports := Function.update s.ports port phase }

/-- All devices are started. -/
def Running (s : Lifecycle) : Prop := ∀ port : Byte, port.toNat < s.count.toNat → s.ports port = .started

/-- A worker has a configuration that is not freed, and statistics. -/
def Equipped (s : Lifecycle) (core : Nat) : Prop :=
  (∃ p, s.appConfig core = some p ∧ p.addr ∈ s.live) ∧ core ∈ s.stats

def Allows (s : Lifecycle) : BootOp R T → Prop
  | .devConfigure port _ _ _ => s.ports port = .closed
  | .vlanFilter port _ => ∃ nbRx nbTx, s.ports port = .configured nbRx nbTx [] [] []
  | .queue (.pktmbufPoolCreate name ..) => name ∉ s.mempools
  | .queue op => ∀ port ∈ queuePort op, (s.ports port).AllowsQueue op
  | .devStart port => (s.ports port).AllowsStart
  | .linkGetNowait portid => s.Running ∧ portid.toNat < s.count.toNat
  | .delayMs ms => ms = 100 ∧ s.delays < 90
  | .master (.appConfigFree p) => p.addr ∈ s.live ∧ ∀ core q, s.appConfig core = some q → q.addr ≠ p.addr
  | .master (.awaitUsed _) => False
  | .remoteLaunch core => core ∈ cores.slaves ∧ core ∉ s.launched ∧ s.Equipped core ∧ s.Running
  | .admServer => s.Running ∧ ∀ core ∈ cores.slaves, core ∈ s.launched
  | _ => True

/-- An object that is loaded is at no address that is in use, and memory is not changed by others. -/
def Admits (s : Lifecycle) : (op : BootOp R T) → BootAns op → Prop
  | .master .appConfigLoad, loaded => ∀ p : ConfigPtr, loaded = some p → p.addr ∉ s.live
  | .master (.appConfig core), found => found = s.appConfig core
  | _, _ => True

def advance (s : Lifecycle) : (op : BootOp R T) → BootAns op → Lifecycle
  | .rteEthDevCount, (count : Byte) => { s with count := count }
  | .devConfigure port nbRx nbTx _, (ret : Int) =>
    s.setPort port (if ret < 0 then .failed else .configured nbRx.toNat nbTx.toNat [] [] [])
  | .vlanFilter port _, (ret : Int) => if ret < 0 then s.setPort port .failed else s
  | .queue (.pktmbufPoolCreate name ..), (mempool : Option Nat) =>
    if mempool.isSome then { s with mempools := name :: s.mempools } else s
  | .queue op, answer =>
    match queuePort op with
    | none => s
    | some port => s.setPort port ((s.ports port).afterQueue op (queueRet op answer))
  | .devStart port, (ret : Int) => s.setPort port (if ret < 0 then .failed else .started)
  | .delayMs _, _ => { s with delays := s.delays + 1 }
  | .master .appConfigLoad, (loaded : Option ConfigPtr) => { s with live := (loaded.map ConfigPtr.addr).toList ++ s.live }
  | .master (.appConfigFree p), _ => { s with live := s.live.erase p.addr }
  | .master (.setAppConfig core p), _ => { s with appConfig := Function.update s.appConfig core (some p) }
  | .initNatashaAppStats core, (ok : Bool) => if ok then { s with stats := core :: s.stats } else s
  | .remoteLaunch core, (ret : Int) => if ret < 0 then s else { s with launched := core :: s.launched }
  | _, _ => s

end Lifecycle

def lifecycle : Protocol (BootOp R T) BootAns Lifecycle := ⟨Lifecycle.Allows cores,Lifecycle.Admits,Lifecycle.advance⟩

end Calls

/-- The part of the protocol that is about queues. -/
def queueCalls (R T : Type) (cores : Lcores) : Protocol (QueueOp R T) QueueAns Lifecycle :=
  (lifecycle cores).embedded BootOp.queue

/-! ## Mempools -/

def mempoolName (port : Byte) (queueId : Nat) : String := toString port.toNat ++ ":" ++ toString queueId

theorem mempoolName_inj {port port' : Byte} {queueId queueId' : Nat}
    (same : mempoolName port queueId = mempoolName port' queueId') : port = port' ∧ queueId = queueId' := by
  have spelt (port : Byte) (queueId : Nat) : (mempoolName port queueId).toList =
      Nat.toDigits 10 port.toNat ++ ':' :: Nat.toDigits 10 queueId := by
    simp [mempoolName,Nat.toList_repr]
  have cut (n : Nat) (rest : List Char) : (Nat.toDigits 10 n ++ ':' :: rest).takeWhile Char.isDigit = Nat.toDigits 10 n := by
    rw [List.takeWhile_append_of_pos fun c member => Nat.isDigit_of_mem_toDigits (by decide) (by decide) member]
    simp
  have read {n m : Nat} (digits : Nat.toDigits 10 n = Nat.toDigits 10 m) : n = m := by
    rw [← Nat.ofDigitChars_ten_toDigits (n := n),digits,Nat.ofDigitChars_ten_toDigits]
  have texts := congrArg String.toList same
  rw [spelt,spelt] at texts
  have first := congrArg (List.takeWhile Char.isDigit) texts
  rw [cut,cut] at first
  rw [first] at texts
  have second := (List.cons.inj ((List.append_right_inj _).mp texts)).2
  exact ⟨BitVec.eq_of_toNat_eq (read first),read second⟩

namespace Lifecycle

/-- The state when a port is in another phase and has the mempools that it needs. -/
def onPort (s : Lifecycle) (port : Byte) (phase : Phase) (names : List String) : Lifecycle :=
  { s with ports := Function.update s.ports port phase, mempools := names ++ s.mempools }

variable {s : Lifecycle} {port : Byte} {phase phase' : Phase} {names : List String}

@[simp] theorem onPort_port : (s.onPort port phase names).ports port = phase := Function.update_self ..

@[simp] theorem onPort_setPort : (s.onPort port phase names).setPort port phase' = s.onPort port phase' names := by
  simp [onPort,setPort]

theorem onPort_start : s.onPort port (s.ports port) [] = s := by simp [onPort]

end Lifecycle

/-! ## Queues -/

section Conforming

open Protocol

variable {R T : Type} {cores : Lcores} {s : Lifecycle} {port : Byte} {names : List String}

section Queues

variable {u : List (Nat × U16)} {phase : Phase}

/-- A call for a queue changes the phase of its port. -/
theorem conforms_queue {op : QueueOp R T} (routed : queuePort op = some port) (allowed : phase.AllowsQueue op) :
    (queueCalls R T cores).Conforms (perform op : QueueM R T (QueueAns op)) u (s.onPort port phase names)
      fun answer v t => v = u ∧ t = s.onPort port (phase.afterQueue op (queueRet op answer)) names := by
  have here : (s.onPort port phase names).Allows cores (.queue op) := by
    cases op with
    | pktmbufPoolCreate => cases routed
    | lcoreToSocketId => cases routed
    | _ =>
      cases routed
      rintro _ ⟨⟩
      rw [Lifecycle.onPort_port]
      exact allowed
  refine .perform here fun answer _ => ⟨rfl,?_⟩
  cases op with
  | pktmbufPoolCreate => cases routed
  | lcoreToSocketId => cases routed
  | _ =>
    cases routed
    change (s.onPort port phase names).setPort port _ = _
    rw [Lifecycle.onPort_port,Lifecycle.onPort_setPort]

/-- The queues below `k` of `n` are set up. -/
structure Progress (n k : Nat) (rx tx : List U16) (counters : List Nat) : Prop where
  rx : ∀ q : U16, q ∈ rx ↔ q.toNat < k
  tx : ∀ q : U16, q ∈ tx ↔ q.toNat < k
  counters : ∀ c ∈ counters, c < k ∨ n ≤ c ∧ c < n + k

section Ready

variable {n : Nat} {rx tx : List U16} {counters : List Nat} {q : U16}

theorem conforms_rxQueueSetup (ring : Nat) (socket : Int) (conf : RteEthRxconf R) (mempool : Nat) (inside : q.toNat < n)
    (fresh : q ∉ rx) :
    (queueCalls R T cores).Conforms (rxQueueSetup port q ring socket conf mempool) u
      (s.onPort port (.configured n n rx tx counters) names) fun ret v t => v = u ∧
        ∃ phase, t = s.onPort port phase names ∧ (¬ret < 0 → phase = .configured n n (q :: rx) tx counters) := by
  have allowed : (Phase.configured n n rx tx counters).AllowsQueue
      (.rxQueueSetup (T := T) port q ring socket conf mempool) := ⟨inside,fresh⟩
  refine (conforms_queue rfl allowed).mono ?_
  rintro (ret : Int) _ _ ⟨rfl,rfl⟩
  exact ⟨rfl,_,rfl,fun success => if_neg success⟩

theorem conforms_txQueueSetup (ring : Nat) (socket : Int) (conf : RteEthTxconf T) (inside : q.toNat < n) (fresh : q ∉ tx) :
    (queueCalls R T cores).Conforms (txQueueSetup port q ring socket conf) u
      (s.onPort port (.configured n n rx tx counters) names) fun ret v t => v = u ∧
        ∃ phase, t = s.onPort port phase names ∧ (¬ret < 0 → phase = .configured n n rx (q :: tx) counters) := by
  have allowed : (Phase.configured n n rx tx counters).AllowsQueue (.txQueueSetup (R := R) port q ring socket conf) :=
    ⟨inside,fresh⟩
  refine (conforms_queue rfl allowed).mono ?_
  rintro (ret : Int) _ _ ⟨rfl,rfl⟩
  exact ⟨rfl,_,rfl,fun success => if_neg success⟩

/-- A mapping is made, or is not asked for. -/
theorem conforms_mapping {code : QueueM R T Int} {idx : Nat} (enabled : Bool)
    (asked : (queueCalls R T cores).Conforms code u (s.onPort port (.configured n n rx tx counters) names) fun ret v t =>
      v = u ∧ t = s.onPort port (if ret < 0 then .failed else .configured n n rx tx (idx :: counters)) names) :
    (queueCalls R T cores).Conforms (if enabled then code else return 0) u
      (s.onPort port (.configured n n rx tx counters) names) fun ret v t => v = u ∧
        ∃ phase, t = s.onPort port phase names ∧ (¬ret < 0 → ∃ more, phase = .configured n n rx tx more ∧
          ∀ c ∈ more, c = idx ∨ c ∈ counters) := by
  refine .ite (fun _ => asked.mono ?_) fun _ => .pure ⟨rfl,_,rfl,fun _ => ⟨counters,rfl,fun c member => .inr member⟩⟩
  rintro ret _ _ ⟨rfl,rfl⟩
  exact ⟨rfl,_,rfl,fun success => ⟨idx :: counters,if_neg success,fun c member => List.mem_cons.mp member⟩⟩

theorem conforms_rxStatsMapping {idx : Nat} (enabled : Bool) (setUp : q ∈ rx) (fresh : idx ∉ counters) :
    (queueCalls R T cores).Conforms (rxStatsMapping enabled port q idx) u
      (s.onPort port (.configured n n rx tx counters) names) fun ret v t => v = u ∧
        ∃ phase, t = s.onPort port phase names ∧ (¬ret < 0 → ∃ more, phase = .configured n n rx tx more ∧
          ∀ c ∈ more, c = idx ∨ c ∈ counters) := by
  have allowed : (Phase.configured n n rx tx counters).AllowsQueue (.rxStatsMapping (R := R) (T := T) port q idx) :=
    ⟨setUp,fresh⟩
  exact conforms_mapping enabled (conforms_queue rfl allowed)

theorem conforms_txStatsMapping {idx : Nat} (enabled : Bool) (setUp : q ∈ tx) (fresh : idx ∉ counters) :
    (queueCalls R T cores).Conforms (txStatsMapping enabled port q idx) u
      (s.onPort port (.configured n n rx tx counters) names) fun ret v t => v = u ∧
        ∃ phase, t = s.onPort port phase names ∧ (¬ret < 0 → ∃ more, phase = .configured n n rx tx more ∧
          ∀ c ∈ more, c = idx ∨ c ∈ counters) := by
  have allowed : (Phase.configured n n rx tx counters).AllowsQueue (.txStatsMapping (R := R) (T := T) port q idx) :=
    ⟨setUp,fresh⟩
  exact conforms_mapping enabled (conforms_queue rfl allowed)

end Ready

theorem setupQueue_conforms {n : Nat} (few : n < 65536) (statsEnabled : Bool) (txqConf : RteEthTxconf T)
    (rxqConf : RteEthRxconf R) {slaves : List Nat} {k : Nat} {rx tx : List U16} {counters : List Nat}
    (rest : k + slaves.length = n) (progress : Progress n k rx tx counters)
    (free : ∀ j, k ≤ j → mempoolName port j ∉ names ++ s.mempools) :
    (queueCalls R T cores).Conforms (setupQueue port (n+1) statsEnabled txqConf rxqConf (.ofNat 16 k) slaves) u
      (s.onPort port (.configured n n rx tx counters) names) fun ret v t => ∃ phase names',
        t = s.onPort port phase names' ∧ (∀ name ∈ names', name ∈ names ∨ ∃ j, name = mempoolName port j) ∧
        (¬ret < 0 → phase.AllowsStart ∧ v = u ++ (slaves.zipIdx k).map fun slave => (slave.1,.ofNat 16 slave.2)) := by
  induction slaves generalizing k u names rx tx counters with
  | nil =>
    obtain rfl : k = n := by simpa using rest
    refine .pure ⟨_,names,rfl,fun name member => .inl member,fun _ => ⟨⟨fun q => ?_,fun q => ?_⟩,by simp⟩⟩
    · exact (progress.rx q).mpr
    · exact (progress.tx q).mpr
  | cons core slaves ih =>
    simp only [List.length_cons] at rest
    have id : (BitVec.ofNat 16 k : U16).toNat = k := by
      rw [BitVec.toNat_ofNat]
      omega
    have stopped {ret : Int} {phase : Phase} {names' : List String} (failed : ret < 0)
        (known : ∀ name ∈ names', name ∈ names ∨ ∃ j, name = mempoolName port j) :
        (queueCalls R T cores).Conforms (pure ret : QueueM R T Int) u (s.onPort port phase names') fun ret v t =>
          ∃ phase names', t = s.onPort port phase names' ∧
            (∀ name ∈ names', name ∈ names ∨ ∃ j, name = mempoolName port j) ∧ (¬ret < 0 → phase.AllowsStart ∧
              v = u ++ ((core :: slaves).zipIdx k).map fun slave => (slave.1,.ofNat 16 slave.2)) :=
      .pure ⟨phase,names',rfl,known,fun success => absurd failed success⟩
    have socketOf : (queueCalls R T cores).Conforms (lcoreToSocketId core) u
        (s.onPort port (.configured n n rx tx counters) names)
        fun _ v t => v = u ∧ t = s.onPort port (.configured n n rx tx counters) names :=
      .perform nofun fun _ _ => ⟨rfl,rfl⟩
    have pool (socket : Int) : (queueCalls R T cores).Conforms
        (pktmbufPoolCreate (mempoolName port k) 8192 512 0 (9216 + 128) socket) u
        (s.onPort port (.configured n n rx tx counters) names) fun (mempool : Option Nat) v t => v = u ∧
          t = s.onPort port (.configured n n rx tx counters) (if mempool.isSome then mempoolName port k :: names else names) := by
      refine .perform (free k le_rfl) fun mempool _ => ⟨rfl,?_⟩
      cases mempool <;> rfl
    unfold setupQueue
    refine socketOf.bind ?_
    rintro socket _ _ ⟨rfl,rfl⟩
    dsimp only
    rw [id]
    refine (pool socket).bind ?_
    rintro (_ | mempool) _ _ ⟨rfl,rfl⟩
    · exact stopped (by decide) fun name member => .inl member
    have known : ∀ name ∈ mempoolName port k :: names, name ∈ names ∨ ∃ j, name = mempoolName port j := by
      rintro name (_ | ⟨_,member⟩)
      · exact .inr ⟨k,rfl⟩
      · exact .inl member
    have fresh {queues : List U16} (below : ∀ q : U16, q ∈ queues ↔ q.toNat < k) : BitVec.ofNat 16 k ∉ queues := by
      rw [below,id]
      exact lt_irrefl k
    have added {queues : List U16} (below : ∀ q : U16, q ∈ queues ↔ q.toNat < k) (q : U16) :
        q ∈ BitVec.ofNat 16 k :: queues ↔ q.toNat < k+1 := by
      rw [List.mem_cons,below,← BitVec.toNat_inj,id]
      omega
    refine (conforms_rxQueueSetup 256 socket rxqConf mempool (id.trans_lt (by omega)) (fresh progress.rx)).bind ?_
    rintro ret _ _ ⟨rfl,phase,rfl,ready⟩
    refine .ite (fun failed => stopped failed known) fun success => ?_
    rw [ready success]
    have noRx : k ∉ counters := fun member => by
      have := progress.counters k member
      omega
    refine (conforms_rxStatsMapping statsEnabled List.mem_cons_self noRx).bind ?_
    rintro ret _ _ ⟨rfl,phase,rfl,ready⟩
    refine .ite (fun failed => stopped failed known) fun success => ?_
    obtain ⟨rxCounters,rfl,rxMore⟩ := ready success
    refine (conforms_txQueueSetup 512 socket txqConf (id.trans_lt (by omega)) (fresh progress.tx)).bind ?_
    rintro ret _ _ ⟨rfl,phase,rfl,ready⟩
    refine .ite (fun failed => stopped failed known) fun success => ?_
    rw [ready success]
    have noTx : k + (n+1) - 1 ∉ rxCounters := fun member => by
      rcases rxMore _ member with same | before
      · omega
      · have := progress.counters _ before
        omega
    refine (conforms_txStatsMapping statsEnabled List.mem_cons_self noTx).bind ?_
    rintro ret _ _ ⟨rfl,phase,rfl,ready⟩
    refine .ite (fun failed => stopped failed known) fun success => ?_
    obtain ⟨txCounters,rfl,txMore⟩ := ready success
    have next : (BitVec.ofNat 16 k : U16) + 1 = .ofNat 16 (k+1) := by
      apply BitVec.eq_of_toNat_eq
      simp
    rw [next]
    have progress : Progress n (k+1) (.ofNat 16 k :: rx) (.ofNat 16 k :: tx) txCounters := by
      refine ⟨added progress.rx,added progress.tx,fun c member => ?_⟩
      rcases txMore c member with rfl | member
      · omega
      · rcases rxMore c member with rfl | member
        · omega
        · have := progress.counters c member
          omega
    have stillFree : ∀ j, k+1 ≤ j → mempoolName port j ∉ (mempoolName port k :: names) ++ s.mempools := by
      intro j later member
      rcases List.mem_cons.mp member with same | member
      · have := (mempoolName_inj same).2
        omega
      · exact free j (by omega) member
    have stored (w : List (Nat × U16)) (t : Lifecycle) : (queueCalls R T cores).Conforms
        (modify fun queues => queues ++ [(core,BitVec.ofNat 16 k)]) w t
        fun _ w' t' => w' = w ++ [(core,BitVec.ofNat 16 k)] ∧ t' = t := .modify _ ⟨rfl,rfl⟩
    refine (stored _ _).bind ?_
    rintro _ _ _ ⟨rfl,rfl⟩
    refine Conforms.mono (ih (by omega) progress stillFree) ?_
    rintro ret v t ⟨phase,names',rfl,known',done⟩
    refine ⟨phase,names',rfl,fun name member => ?_,fun success => ⟨(done success).1,?_⟩⟩
    · exact (known' name member).elim (known name) .inr
    · rw [(done success).2]
      simp

theorem setVlanOffload_conforms (devInfo : RteEthDevInfo R T) {n : Nat} {rx tx : List U16} {counters : List Nat} :
    (queueCalls R T cores).Conforms (setVlanOffload port devInfo) u (s.onPort port (.configured n n rx tx counters) names)
      fun _ v t => v = u ∧ t = s.onPort port (.configured n n rx tx counters) names := by
  have allowed : (Phase.configured n n rx tx counters).AllowsQueue (.getVlanOffload (R := R) (T := T) port) := trivial
  have asked : (queueCalls R T cores).Conforms (getVlanOffload port) u (s.onPort port (.configured n n rx tx counters) names)
      fun (_ : U32) v t => v = u ∧ t = s.onPort port (.configured n n rx tx counters) names := by
    refine (conforms_queue rfl allowed).mono ?_
    rintro _ _ _ ⟨rfl,rfl⟩
    exact ⟨rfl,rfl⟩
  refine asked.bind ?_
  rintro vlanOffloads _ _ ⟨rfl,rfl⟩
  exact .ite (fun _ => .pure ⟨rfl,rfl⟩) fun _ => .ite (fun _ => .pure ⟨rfl,rfl⟩) fun _ => .pure ⟨rfl,rfl⟩

/-- All workers have a queue, in their order. -/
def queueIds (slaves : List Nat) : List (Nat × U16) := slaves.zipIdx.map fun slave => (slave.1,.ofNat 16 slave.2)

theorem setupQueues_conforms (few : cores.slaves.length < 65536) (devInfo : RteEthDevInfo R T) (enableVlanOffload : Bool)
    (txqConf : RteEthTxconf T) (rxqConf : RteEthRxconf R) (free : ∀ j, mempoolName port j ∉ s.mempools) :
    (queueCalls R T cores).Conforms (setupQueues port devInfo cores.slaves enableVlanOffload txqConf rxqConf) []
      (s.onPort port (.configured cores.slaves.length cores.slaves.length [] [] []) []) fun ret v t => ∃ phase names',
        t = s.onPort port phase names' ∧ (∀ name ∈ names', ∃ j, name = mempoolName port j) ∧
        (¬ret < 0 → phase.AllowsStart ∧ v = queueIds cores.slaves) := by
  have start : Progress cores.slaves.length 0 [] [] [] := ⟨by simp,by simp,nofun⟩
  have finish (ret : Int) (txqConf : RteEthTxconf T) (rxqConf : RteEthRxconf R) : (queueCalls R T cores).Conforms
      (if ret ≠ 0 then pure (-1)
        else setupQueue port (cores.slaves.length + 1) (supportPerQueueStatistics devInfo) txqConf
          (setRxChksumOffload devInfo rxqConf).2 0 cores.slaves) []
      (s.onPort port (.configured cores.slaves.length cores.slaves.length [] [] []) []) fun ret v t => ∃ phase names',
        t = s.onPort port phase names' ∧ (∀ name ∈ names', ∃ j, name = mempoolName port j) ∧
        (¬ret < 0 → phase.AllowsStart ∧ v = queueIds cores.slaves) := by
    refine .ite (fun _ => .pure ⟨_,[],rfl,nofun,fun success => absurd (by decide) success⟩) fun _ => ?_
    refine (setupQueue_conforms few _ txqConf _ (Nat.zero_add _) start fun j _ => free j).mono ?_
    rintro ret v t ⟨phase,names',rfl,known,done⟩
    exact ⟨phase,names',rfl,fun name member => (known name member).resolve_left List.not_mem_nil,done⟩
  cases enableVlanOffload with
  | false => exact finish 0 txqConf rxqConf
  | true =>
    refine (setVlanOffload_conforms devInfo).bind ?_
    rintro ⟨ret,txqConf,rxqConf⟩ _ _ ⟨rfl,rfl⟩
    exact finish ret txqConf rxqConf

/-- The queues of a port are set up within the whole program. -/
theorem conforms_queues {code : QueueM R T Int} {post : Int → List (Nat × U16) → Lifecycle → Prop}
    (conforms : (queueCalls R T cores).Conforms code [] s post) (u : List (Byte × Nat × U16)) :
    (lifecycle cores).Conforms (queues port code) u s fun ret v t => ∃ ids, post ret ids t ∧
      v = u ++ ids.map fun id => (port,id) := by
  refine (Conforms.lift (keeps_embed conforms)).bind ?_
  rintro ⟨ret,ids⟩ _ t ⟨rfl,holds⟩
  change ∃ ids', post ret ids' t ∧ _ = _
  exact ⟨ids,holds,rfl⟩

end Queues

/-! ## Ports -/

section Ports

variable {u : List (Byte × Nat × U16)}

theorem conforms_call {op : BootOp R T} {next : BootAns op → Lifecycle} (allowed : s.Allows cores op)
    (moves : ∀ answer, s.advance op answer = next answer) :
    (lifecycle cores).Conforms (call op) u s fun answer v t => v = u ∧ t = next answer :=
  .perform allowed fun answer _ => ⟨rfl,moves answer⟩

theorem conforms_devInfoGet (port : Byte) :
    (lifecycle cores).Conforms (call (.devInfoGet port) : BootM R T (RteEthDevInfo R T)) u s fun _ v t => v = u ∧ t = s :=
  conforms_call trivial fun _ => rfl

theorem acceptVlans_conforms {nbRx nbTx : Nat} (enableVlanOffload : Bool) (ipAddresses : List (U32 × U16)) :
    (lifecycle cores).Conforms (acceptVlans port enableVlanOffload ipAddresses : BootM R T (Option Bool)) u
      (s.onPort port (.configured nbRx nbTx [] [] []) []) fun flag v t => v = u ∧
        ∃ phase, t = s.onPort port phase [] ∧ (flag.isSome → phase = .configured nbRx nbTx [] [] []) := by
  induction ipAddresses generalizing enableVlanOffload with
  | nil => exact .pure ⟨rfl,_,rfl,fun _ => rfl⟩
  | cons address rest ih =>
    obtain ⟨ip,vlan⟩ := address
    refine .ite (fun _ => ih enableVlanOffload) fun _ => ?_
    have moves (ret : Int) : (s.onPort port (.configured nbRx nbTx [] [] []) []).advance
        (.vlanFilter (R := R) (T := T) port vlan) ret =
          s.onPort port (if ret < 0 then .failed else .configured nbRx nbTx [] [] []) [] := by
      by_cases failed : ret < 0
      · rw [if_pos failed]
        exact (if_pos failed).trans Lifecycle.onPort_setPort
      · rw [if_neg failed]
        exact if_neg failed
    have filtered : (lifecycle cores).Conforms (call (.vlanFilter port vlan) : BootM R T Int) u
        (s.onPort port (.configured nbRx nbTx [] [] []) []) fun (ret : Int) v t => v = u ∧
          t = s.onPort port (if ret < 0 then .failed else .configured nbRx nbTx [] [] []) [] :=
      conforms_call ⟨nbRx,nbTx,Lifecycle.onPort_port⟩ moves
    refine filtered.bind ?_
    rintro (ret : Int) _ _ ⟨rfl,rfl⟩
    refine .ite (fun _ => .pure ⟨rfl,_,rfl,nofun⟩) fun success => ?_
    rw [if_neg success]
    exact ih true

/-- The entries of a port in the table of queues. -/
def portQueues (cores : Lcores) (port : Byte) : List (Byte × Nat × U16) := (queueIds cores.slaves).map fun id => (port,id)

theorem setupPort_conforms (stack : Stack R T) (few : cores.slaves.length < 65536) (appConfig : AppConfig)
    (closed : s.ports port = .closed) (free : ∀ j, mempoolName port j ∉ s.mempools) :
    (lifecycle cores).Conforms (setupPort stack cores port appConfig) u s fun ret v t => ∃ phase names,
      t = s.onPort port phase names ∧ (∀ name ∈ names, ∃ j, name = mempoolName port j) ∧
      (¬ret < 0 → phase = .started ∧ v = u ++ portQueues cores port) := by
  have stopped {ret : Int} {v : List (Byte × Nat × U16)} {phase : Phase} {names : List String} (failed : ret < 0)
      (known : ∀ name ∈ names, ∃ j, name = mempoolName port j) :
      (lifecycle cores).Conforms (pure ret : BootM R T Int) v (s.onPort port phase names) fun ret v t => ∃ phase names,
        t = s.onPort port phase names ∧ (∀ name ∈ names, ∃ j, name = mempoolName port j) ∧
        (¬ret < 0 → phase = .started ∧ v = u ++ portQueues cores port) :=
    .pure ⟨phase,names,rfl,known,fun success => absurd failed success⟩
  have nqueues : (BitVec.ofNat 16 (cores.slaves.length + 1 - 1) : U16).toNat = cores.slaves.length := by
    rw [BitVec.toNat_ofNat]
    omega
  have configured (ethConf : RteEthConf) (nbQueues : U16) (same : nbQueues.toNat = cores.slaves.length) :
      (lifecycle cores).Conforms (call (.devConfigure port nbQueues nbQueues ethConf) : BootM R T Int) u s
        fun (ret : Int) v t => v = u ∧ t = s.onPort port (if ret < 0 then .failed
          else .configured cores.slaves.length cores.slaves.length [] [] []) [] := by
    rw [← same]
    exact conforms_call closed fun _ => rfl
  have started {v : List (Byte × Nat × U16)} {phase : Phase} {names : List String} (ready : phase.AllowsStart) :
      (lifecycle cores).Conforms (call (.devStart port) : BootM R T Int) v (s.onPort port phase names)
        fun (ret : Int) w t => w = v ∧ t = s.onPort port (if ret < 0 then .failed else .started) names := by
    refine conforms_call ?_ fun _ => Lifecycle.onPort_setPort
    change ((s.onPort port phase names).ports port).AllowsStart
    rwa [Lifecycle.onPort_port]
  have start : s = s.onPort port (s.ports port) [] := Lifecycle.onPort_start.symm
  have early (v : List (Byte × Nat × U16)) : (lifecycle cores).Conforms (pure (-1) : BootM R T Int) v s fun ret v t =>
      ∃ phase names, t = s.onPort port phase names ∧ (∀ name ∈ names, ∃ j, name = mempoolName port j) ∧
        (¬ret < 0 → phase = .started ∧ v = u ++ portQueues cores port) :=
    .pure ⟨_,[],start,nofun,fun success => absurd (by decide) success⟩
  unfold setupPort
  refine (conforms_devInfoGet port).bind ?_
  rintro devInfo _ _ ⟨rfl,rfl⟩
  refine .ite (fun _ => early _) fun _ => .ite (fun _ => early _) fun _ => ?_
  refine (configured _ _ nqueues).bind ?_
  rintro (ret : Int) _ _ ⟨rfl,rfl⟩
  refine .ite (fun failed => stopped failed nofun) fun success => ?_
  rw [if_neg success]
  refine (acceptVlans_conforms false _).bind ?_
  rintro (_ | enableVlanOffload) _ _ ⟨rfl,phase,rfl,ready⟩
  · exact stopped (by decide) nofun
  rw [ready rfl]
  refine (conforms_devInfoGet port).bind ?_
  rintro devInfo _ _ ⟨rfl,rfl⟩
  refine (conforms_queues (setupQueues_conforms few devInfo enableVlanOffload _ _ free) _).bind ?_
  rintro ret _ _ ⟨ids,⟨phase,names,rfl,known,done⟩,rfl⟩
  refine .ite (fun failed => stopped failed known) fun success => ?_
  obtain ⟨allowed,rfl⟩ := done success
  refine (started allowed).bind ?_
  rintro (ret : Int) _ _ ⟨rfl,rfl⟩
  refine .ite (fun failed => stopped failed known) fun success => ?_
  exact .pure ⟨.started,names,by rw [if_neg success],known,fun _ => ⟨rfl,rfl⟩⟩

/-- The ports of the list are started one after the other. -/
theorem setupPorts_conforms (stack : Stack R T) (few : cores.slaves.length < 65536) (appConfig : AppConfig)
    {ports : List Byte} (distinct : ports.Nodup) (closed : ∀ port ∈ ports, s.ports port = .closed)
    (free : ∀ port ∈ ports, ∀ j, mempoolName port j ∉ s.mempools) :
    (lifecycle cores).Conforms (setupPorts stack cores appConfig ports) u s fun ret v t => ∃ phases mempools,
      t = { s with ports := phases, mempools := mempools } ∧ (¬ret < 0 → (∀ port ∈ ports, phases port = .started) ∧
        (∀ port, port ∉ ports → phases port = s.ports port) ∧ v = u ++ ports.flatMap (portQueues cores)) := by
  induction ports generalizing s u with
  | nil => exact .pure ⟨s.ports,s.mempools,rfl,fun _ => ⟨nofun,fun _ _ => rfl,by simp⟩⟩
  | cons port ports ih =>
    obtain ⟨absent,distinct⟩ := List.nodup_cons.mp distinct
    refine (setupPort_conforms stack few appConfig (closed port List.mem_cons_self) (free port List.mem_cons_self)).bind ?_
    rintro ret v _ ⟨phase,names,rfl,known,done⟩
    refine .ite (fun _ => .pure ⟨_,_,rfl,fun success => absurd (by decide) success⟩) fun success => ?_
    obtain ⟨rfl,rfl⟩ := done success
    have still : ∀ other ∈ ports, (s.onPort port .started names).ports other = .closed := fun other member => by
      have different : other ≠ port := fun same => absent (same ▸ member)
      exact (Function.update_of_ne different _ _).trans (closed other (List.mem_cons_of_mem _ member))
    have unused : ∀ other ∈ ports, ∀ j, mempoolName other j ∉ (s.onPort port .started names).mempools := by
      intro other member j taken
      rcases List.mem_append.mp taken with new | old
      · obtain ⟨k,same⟩ := known _ new
        exact absent ((mempoolName_inj same).1 ▸ member)
      · exact free other (List.mem_cons_of_mem _ member) j old
    refine (ih distinct still unused).mono ?_
    rintro ret v _ ⟨phases,mempools,rfl,rest⟩
    refine ⟨phases,mempools,rfl,fun success => ?_⟩
    obtain ⟨started,frame,rfl⟩ := rest success
    refine ⟨List.forall_mem_cons.mpr ⟨?_,started⟩,fun other apart => ?_,by simp⟩
    · exact (frame port absent).trans Lifecycle.onPort_port
    · obtain ⟨different,apart⟩ := not_or.mp (mt List.mem_cons.mpr apart)
      exact (frame other apart).trans (Function.update_of_ne different _ _)

/-! ## Links -/

theorem allPortsUp_conforms (running : s.Running) {portids : List U16} (below : ∀ i ∈ portids, i.toNat < s.count.toNat) :
    (lifecycle cores).Conforms (allPortsUp portids : BootM R T Bool) u s fun _ v t => v = u ∧ t = s := by
  induction portids with
  | nil => exact .pure ⟨rfl,rfl⟩
  | cons portid portids ih =>
    obtain ⟨first,others⟩ := List.forall_mem_cons.mp below
    have polled : (lifecycle cores).Conforms (call (.linkGetNowait portid) : BootM R T Bool) u s fun _ v t => v = u ∧ t = s :=
      conforms_call ⟨running,first⟩ fun _ => rfl
    refine polled.bind ?_
    rintro (linkStatus : Bool) _ _ ⟨rfl,rfl⟩
    exact .ite (fun _ => ih others) fun _ => .pure ⟨rfl,rfl⟩

/-- Round `count` follows `count` waits, and no wait follows the round that is the last. -/
theorem checkRounds_conforms {portMax : U16} (running : s.Running) (all : portMax.toNat = s.count.toNat) {count rounds : Nat}
    (whole : count + rounds = maxCheckTime + 1) (few : count < maxCheckTime) (waited : s.delays = count) :
    (lifecycle cores).Conforms (checkRounds portMax (List.range' count rounds) : BootM R T Unit) u s fun _ v t => v = u ∧
      ∃ delays, t = { s with delays := delays } := by
  induction rounds generalizing s count with
  | zero => omega
  | succ rounds ih =>
    have below : ∀ i ∈ (List.range portMax.toNat).map (BitVec.ofNat 16), i.toNat < s.count.toNat := by
      intro i member
      obtain ⟨n,inside,rfl⟩ := List.mem_map.mp member
      rw [List.mem_range,all] at inside
      exact (Nat.mod_le _ _).trans_lt inside
    have delayed : (lifecycle cores).Conforms (call (.delayMs checkInterval) : BootM R T Unit) u s fun _ v t => v = u ∧
        t = { s with delays := s.delays + 1 } := conforms_call ⟨rfl,waited.trans_lt few⟩ fun _ => rfl
    rw [List.range'_succ]
    refine (allPortsUp_conforms running below).bind ?_
    rintro up v t ⟨rfl,rfl⟩
    cases up with
    | true =>
      exact .ite (fun down => absurd down (by decide)) fun _ => .ite (fun _ => .pure ⟨rfl,_,rfl⟩) fun other =>
        absurd (.inl rfl) other
    | false =>
      refine delayed.bind ?_
      rintro _ _ _ ⟨rfl,rfl⟩
      refine .ite (fun _ => .pure ⟨rfl,_,rfl⟩) fun more => ?_
      have notLast : count ≠ maxCheckTime - 1 := fun last => more (.inr last)
      have last : maxCheckTime = 90 := rfl
      have next : { t with delays := t.delays + 1 }.delays = count + 1 := congrArg (· + 1) waited
      refine (ih (s := { t with delays := t.delays + 1 }) running all (by omega) (by omega) next).mono ?_
      rintro _ _ _ ⟨rfl,delays,rfl⟩
      exact ⟨rfl,delays,rfl⟩

theorem checkPortsLinkStatus_conforms {portMax : U16} (running : s.Running) (all : portMax.toNat = s.count.toNat)
    (waited : s.delays = 0) :
    (lifecycle cores).Conforms (checkPortsLinkStatus portMax : BootM R T Unit) u s fun _ v t => v = u ∧
      ∃ delays, t = { s with delays := delays } := by
  rw [checkPortsLinkStatus,List.range_eq_range']
  exact checkRounds_conforms running all (Nat.zero_add _) (by decide) waited

/-! ## Workers -/

theorem initWorkers_conforms (slaves : List Nat) :
    (lifecycle cores).Conforms (initWorkers slaves : BootM R T Int) u s fun ret v t => v = u ∧ ∃ stats,
      t = { s with stats := stats } ∧ (∀ core ∈ s.stats, core ∈ stats) ∧ (¬ret < 0 → ∀ core ∈ slaves, core ∈ stats) := by
  induction slaves generalizing s with
  | nil => exact .pure ⟨rfl,s.stats,rfl,fun _ member => member,fun _ => nofun⟩
  | cons core slaves ih =>
    have called : (lifecycle cores).Conforms (call (.initNatashaAppStats core) : BootM R T Bool) u s fun (ok : Bool) v t =>
        v = u ∧ t = if ok then { s with stats := core :: s.stats } else s := conforms_call trivial fun _ => rfl
    refine called.bind ?_
    rintro (ok : Bool) v t ⟨rfl,same⟩
    cases ok with
    | false =>
      obtain rfl : t = s := same
      refine .ite (fun _ => .pure ?_) fun other => absurd rfl other
      exact ⟨rfl,t.stats,rfl,fun _ member => member,fun success => absurd (by decide) success⟩
    | true =>
      obtain rfl : t = { s with stats := core :: s.stats } := same
      refine .ite (fun failed => absurd failed (by decide)) fun _ => ih.mono ?_
      rintro ret _ _ ⟨rfl,stats,rfl,before,done⟩
      refine ⟨rfl,stats,rfl,fun other member => before other (List.mem_cons_of_mem _ member),fun success => ?_⟩
      exact List.forall_mem_cons.mpr ⟨before core List.mem_cons_self,done success⟩

/-- The part of the protocol that is about configurations. -/
def masterCalls (R T : Type) (cores : Lcores) : Protocol MasterOp MasterAns Lifecycle :=
  (lifecycle (R := R) (T := T) cores).embedded BootOp.master

/-- The configurations of the workers are in use, and the master's own is not one of them. -/
structure Owned (s : Lifecycle) (m : ConfigPtr) : Prop where
  live : m.addr ∈ s.live
  others : ∀ core q, s.appConfig core = some q → q.addr ≠ m.addr ∧ q.addr ∈ s.live

theorem reloadWorkers_keeps {m : ConfigPtr} {slaves : List Nat} (owned : Owned s m) (distinct : slaves.Nodup)
    (empty : ∀ core ∈ slaves, s.appConfig core = none) :
    (masterCalls R T cores).Keeps (fun ret t => ∃ live appConfig, t = { s with live := live, appConfig := appConfig } ∧
        (¬ret < 0 → ∀ core, (core ∈ slaves ∨ (s.appConfig core).isSome) → ∃ p, appConfig core = some p ∧ p.addr ∈ live))
      (reloadWorkers m slaves) s := by
  induction slaves generalizing s with
  | nil =>
    refine ⟨⟨owned.live,fun core q found => (owned.others core q found).1⟩,fun _ _ => ?_⟩
    refine ⟨s.live.erase m.addr,s.appConfig,rfl,fun _ core known => ?_⟩
    obtain ⟨q,found⟩ := Option.isSome_iff_exists.mp (known.resolve_left List.not_mem_nil)
    obtain ⟨different,live⟩ := owned.others core q found
    exact ⟨q,found,(List.mem_erase_of_ne different).mpr live⟩
  | cons core slaves ih =>
    obtain ⟨absent,distinct⟩ := List.nodup_cons.mp distinct
    refine ⟨trivial,fun (loaded : Option ConfigPtr) (fresh : ∀ p, loaded = some p → p.addr ∉ s.live) => ?_⟩
    cases loaded with
    | none =>
      refine ⟨⟨owned.live,fun core q found => (owned.others core q found).1⟩,fun _ _ => ?_⟩
      exact ⟨_,s.appConfig,rfl,fun success => absurd (by decide) success⟩
    | some newConfig =>
      have new := fresh newConfig rfl
      refine ⟨trivial,fun (oldConfig : Option ConfigPtr) (found : oldConfig = s.appConfig core) => ?_⟩
      refine ⟨trivial,fun _ _ => ?_⟩
      rw [empty core List.mem_cons_self] at found
      subst found
      let t : Lifecycle := { s with
        live := newConfig.addr :: s.live
        appConfig := Function.update s.appConfig core (some newConfig) }
      have owned' : Owned t m := by
        refine ⟨List.mem_cons_of_mem _ owned.live,fun other q found => ?_⟩
        by_cases same : other = core
        · subst same
          obtain rfl : newConfig = q := by simpa [t] using found
          exact ⟨fun same => new (same ▸ owned.live),List.mem_cons_self⟩
        · obtain ⟨different,live⟩ := owned.others other q (by simpa [t,same] using found)
          exact ⟨different,List.mem_cons_of_mem _ live⟩
      have empty' : ∀ other ∈ slaves, t.appConfig other = none := fun other member => by
        have different : other ≠ core := fun same => absent (same ▸ member)
        exact (Function.update_of_ne different _ _).trans (empty other (List.mem_cons_of_mem _ member))
      refine (ih owned' distinct empty').mono ?_
      rintro ret _ ⟨live,appConfig,rfl,done⟩
      refine ⟨live,appConfig,rfl,fun success other known => done success other ?_⟩
      by_cases same : other = core
      · exact .inr (by simp [t,same])
      · rcases known with member | before
        · exact .inl ((List.mem_cons.mp member).resolve_left same)
        · exact .inr (by simpa [t,same] using before)

theorem conforms_appConfigFree {p : ConfigPtr} (live : p.addr ∈ s.live)
    (unused : ∀ core q, s.appConfig core = some q → q.addr ≠ p.addr) :
    (lifecycle cores).Conforms (master (Master.appConfigFree p) : BootM R T Unit) u s fun _ v t => v = u ∧
      t = { s with live := s.live.erase p.addr } := .lift ⟨⟨live,unused⟩,fun _ _ => rfl⟩

theorem appConfigReloadAll_keeps (empty : ∀ core, s.appConfig core = none) :
    (masterCalls R T cores).Keeps (fun ret t => ∃ live appConfig, t = { s with live := live, appConfig := appConfig } ∧
      (¬ret < 0 → ∀ core ∈ cores.slaves, ∃ p, appConfig core = some p ∧ p.addr ∈ live)) (appConfigReloadAll cores) s := by
  refine ⟨trivial,fun (loaded : Option ConfigPtr) _ => ?_⟩
  cases loaded with
  | none => exact ⟨s.live,s.appConfig,rfl,fun success => absurd (by decide) success⟩
  | some m =>
    have owned : Owned { s with live := m.addr :: s.live } m :=
      ⟨List.mem_cons_self,fun core q found => by simp [empty core] at found⟩
    refine (reloadWorkers_keeps owned cores.distinct fun core _ => empty core).mono ?_
    rintro ret _ ⟨live,appConfig,rfl,done⟩
    exact ⟨live,appConfig,rfl,fun success core member => done success core (.inl member)⟩

theorem launchWorkers_conforms {slaves : List Nat} (distinct : slaves.Nodup) (running : s.Running)
    (ready : ∀ core ∈ slaves, core ∈ cores.slaves ∧ core ∉ s.launched ∧ s.Equipped core) :
    (lifecycle cores).Conforms (launchWorkers slaves : BootM R T Int) u s fun ret v t => v = u ∧ ∃ launched,
      t = { s with launched := launched } ∧ (∀ core ∈ s.launched, core ∈ launched) ∧
      (¬ret < 0 → ∀ core ∈ slaves, core ∈ launched) := by
  induction slaves generalizing s with
  | nil => exact .pure ⟨rfl,s.launched,rfl,fun _ member => member,fun _ => nofun⟩
  | cons core slaves ih =>
    obtain ⟨absent,distinct⟩ := List.nodup_cons.mp distinct
    obtain ⟨⟨worker,idle,equipped⟩,others⟩ := List.forall_mem_cons.mp ready
    have called : (lifecycle cores).Conforms (call (.remoteLaunch core) : BootM R T Int) u s fun (ret : Int) v t =>
        v = u ∧ t = if ret < 0 then s else { s with launched := core :: s.launched } :=
      conforms_call ⟨worker,idle,equipped,running⟩ fun _ => rfl
    refine called.bind ?_
    rintro (ret : Int) v _ ⟨rfl,rfl⟩
    refine .ite (fun failed => ?_) fun success => ?_
    · rw [if_pos failed]
      exact .pure ⟨rfl,s.launched,rfl,fun _ member => member,fun success => absurd (by decide) success⟩
    · rw [if_neg success]
      have still : ∀ other ∈ slaves, other ∈ cores.slaves ∧ other ∉ core :: s.launched ∧ s.Equipped other := by
        intro other member
        obtain ⟨worker,idle,equipped⟩ := others other member
        exact ⟨worker,List.not_mem_cons_of_ne_of_not_mem (fun same => absent (same ▸ member)) idle,equipped⟩
      refine (ih (s := { s with launched := core :: s.launched }) distinct running still).mono ?_
      rintro ret _ _ ⟨rfl,launched,rfl,before,done⟩
      refine ⟨rfl,launched,rfl,fun other member => before other (List.mem_cons_of_mem _ member),fun success => ?_⟩
      exact List.forall_mem_cons.mpr ⟨before core List.mem_cons_self,done success⟩

/-! ## The program -/

def devices (count : Byte) : List Byte := (List.range count.toNat).map (.ofNat 8)

theorem mem_devices {count : Byte} : port ∈ devices count ↔ port.toNat < count.toNat := by
  simp only [devices,List.mem_map,List.mem_range]
  constructor
  · rintro ⟨i,below,rfl⟩
    exact (Nat.mod_le _ _).trans_lt below
  · exact fun below => ⟨port.toNat,below,by simp⟩

theorem devices_nodup (count : Byte) : (devices count).Nodup := by
  refine (List.nodup_map_iff_inj_on List.nodup_range).mpr fun i first j second same => ?_
  rw [List.mem_range] at first second
  have wide := count.isLt
  have values := congrArg BitVec.toNat same
  simp only [BitVec.toNat_ofNat] at values
  omega

/-- The workers can be launched. -/
structure Prepared (cores : Lcores) (s : Lifecycle) (queues : List (Byte × Nat × U16)) : Prop where
  running : s.Running
  equipped : ∀ core ∈ cores.slaves, s.Equipped core
  queues : queues = (devices s.count).flatMap (portQueues cores)

theorem setupApp_conforms (stack : Stack R T) (few : cores.slaves.length < 65536) :
    (lifecycle cores).Conforms (setupApp stack cores) [] .boot fun ret v t =>
      ¬ret < 0 → Prepared cores t v ∧ t.launched = [] := by
  have failed (v : List (Byte × Nat × U16)) (t : Lifecycle) : (lifecycle cores).Conforms (pure (-1) : BootM R T Int) v t
      fun ret v t => ¬ret < 0 → Prepared cores t v ∧ t.launched = [] := .pure fun success => absurd (by decide) success
  have loaded : (lifecycle cores).Conforms (master Master.appConfigLoad : BootM R T (Option ConfigPtr)) [] .boot
      fun (loaded : Option ConfigPtr) v t => v = [] ∧
        t = { Lifecycle.boot with live := (loaded.map ConfigPtr.addr).toList } := by
    refine .lift ⟨trivial,fun (loaded : Option ConfigPtr) _ => ?_⟩
    cases loaded <;> rfl
  have counted {s : Lifecycle} : (lifecycle cores).Conforms (call .rteEthDevCount : BootM R T Byte) [] s
      fun (count : Byte) v t => v = [] ∧ t = { s with count := count } := conforms_call trivial fun _ => rfl
  unfold setupApp
  refine loaded.bind ?_
  rintro (_ | appConfig) _ _ ⟨rfl,rfl⟩
  · exact failed _ _
  refine counted.bind ?_
  rintro (count : Byte) _ _ ⟨rfl,rfl⟩
  refine .ite (fun _ => failed _ _) fun _ => .ite (fun _ => failed _ _) fun _ => ?_
  refine (setupPorts_conforms stack few appConfig.config (devices_nodup count) (fun _ _ => rfl) fun _ _ _ =>
    List.not_mem_nil).bind ?_
  rintro ret v _ ⟨phases,mempools,rfl,done⟩
  refine .ite (fun _ => failed _ _) fun success => ?_
  obtain ⟨started,_,rfl⟩ := done success
  have running : Lifecycle.Running ⟨count,phases,mempools,0,[appConfig.addr],fun _ => none,[],[]⟩ :=
    fun port below => started port (mem_devices.mpr below)
  have links : (BitVec.ofNat 16 count.toNat : U16).toNat = count.toNat := by
    rw [BitVec.toNat_ofNat]
    omega
  refine (checkPortsLinkStatus_conforms running links rfl).bind ?_
  rintro _ _ _ ⟨rfl,delays,rfl⟩
  refine (conforms_appConfigFree List.mem_cons_self fun core q (found : none = some q) => nomatch found).bind ?_
  rintro _ _ _ ⟨rfl,rfl⟩
  refine (initWorkers_conforms cores.slaves).bind ?_
  rintro ret _ _ ⟨rfl,stats,rfl,_,counting⟩
  refine .ite (fun _ => failed _ _) fun success => ?_
  have empty (core : Nat) : Lifecycle.appConfig ⟨count,phases,mempools,delays,[],fun _ => none,stats,[]⟩ core = none := rfl
  rw [List.erase_cons_head]
  refine (Conforms.lift (keeps_embed (appConfigReloadAll_keeps empty))).bind ?_
  rintro ret _ _ ⟨rfl,live,appConfigs,rfl,configured⟩
  refine .ite (fun _ => failed _ _) fun loaded => .pure fun _ => ?_
  exact ⟨⟨running,fun core member => ⟨configured loaded core member,counting success core member⟩,rfl⟩,rfl⟩

/-- Each worker has one queue of every port, and no two workers have the same. -/
structure Exclusive (cores : Lcores) (count : Byte) (queues : List (Byte × Nat × U16)) : Prop where
  one : ∀ port : Byte, port.toNat < count.toNat → ∀ core ∈ cores.slaves, ∃! q, (port,core,q) ∈ queues
  apart : ∀ port core core' q, (port,core,q) ∈ queues → (port,core',q) ∈ queues → core = core'

theorem mem_queueIds {slaves : List Nat} {core : Nat} {q : U16} :
    (core,q) ∈ queueIds slaves ↔ ∃ i, slaves[i]? = some core ∧ q = .ofNat 16 i := by
  simp only [queueIds,List.mem_map,Prod.exists,List.mk_mem_zipIdx_iff_getElem?,Prod.mk.injEq]
  constructor
  · rintro ⟨_,i,found,rfl,rfl⟩
    exact ⟨i,found,rfl⟩
  · rintro ⟨i,found,rfl⟩
    exact ⟨core,i,found,rfl,rfl⟩

theorem Prepared.exclusive {queues : List (Byte × Nat × U16)} (few : cores.slaves.length < 65536)
    (prepared : Prepared cores s queues) : Exclusive cores s.count queues := by
  have member (port : Byte) (core : Nat) (q : U16) : (port,core,q) ∈ queues ↔
      port.toNat < s.count.toNat ∧ ∃ i, cores.slaves[i]? = some core ∧ q = .ofNat 16 i := by
    simp only [prepared.queues,List.mem_flatMap,mem_devices,portQueues,List.mem_map,Prod.mk.injEq]
    constructor
    · rintro ⟨_,below,_,found,rfl,rfl⟩
      exact ⟨below,mem_queueIds.mp found⟩
    · exact fun found => ⟨port,found.1,_,mem_queueIds.mpr found.2,rfl,rfl⟩
  refine ⟨fun port below core worker => ?_,fun port core core' q first second => ?_⟩
  · obtain ⟨i,found⟩ := List.mem_iff_getElem?.mp worker
    refine ⟨.ofNat 16 i,(member port core _).mpr ⟨below,i,found,rfl⟩,fun q other => ?_⟩
    obtain ⟨_,j,again,rfl⟩ := (member port core q).mp other
    have inside : j < cores.slaves.length := (List.getElem?_eq_some_iff.mp again).1
    rw [(List.getElem?_inj inside cores.distinct).mp (again.trans found.symm)]
  · obtain ⟨_,i,found,rfl⟩ := (member port core q).mp first
    obtain ⟨_,j,found',same⟩ := (member port core' _).mp second
    have inside : i < cores.slaves.length := (List.getElem?_eq_some_iff.mp found).1
    have inside' : j < cores.slaves.length := (List.getElem?_eq_some_iff.mp found').1
    have index := congrArg BitVec.toNat same
    rw [BitVec.toNat_ofNat,BitVec.toNat_ofNat,Nat.mod_eq_of_lt (by omega),Nat.mod_eq_of_lt (by omega)] at index
    rw [index,found'] at found
    exact (Option.some.inj found).symm

/-- The administration server has returned. -/
structure Served (cores : Lcores) (s : Lifecycle) (queues : List (Byte × Nat × U16)) : Prop where
  running : s.Running
  equipped : ∀ core ∈ cores.slaves, s.Equipped core ∧ core ∈ s.launched
  exclusive : Exclusive cores s.count queues

theorem main_conforms (stack : Stack R T) (few : cores.slaves.length < 65536) :
    (lifecycle cores).Conforms (main stack cores) [] .boot fun ended v t =>
      (∃ ret, ended = .returned ret) → Served cores t v := by
  have stopped (message : String) (v : List (Byte × Nat × U16)) (t : Lifecycle) :
      (lifecycle cores).Conforms (pure (.rteExit message) : BootM R T Ended) v t fun ended v t =>
        (∃ ret, ended = .returned ret) → Served cores t v := .pure nofun
  have flags : (lifecycle cores).Conforms (call .fcntlGetFl : BootM R T U32) [] .boot fun (_ : U32) v t =>
      v = [] ∧ t = .boot := conforms_call trivial fun _ => rfl
  have nonblock (flags : U32) : (lifecycle cores).Conforms (call (.fcntlSetFl flags) : BootM R T Int) [] .boot
      fun (_ : Int) v t => v = [] ∧ t = .boot := conforms_call trivial fun _ => rfl
  have handled : (lifecycle cores).Conforms (call .signal : BootM R T Unit) [] .boot fun (_ : Unit) v t =>
      v = [] ∧ t = .boot := conforms_call trivial fun _ => rfl
  have eal : (lifecycle cores).Conforms (call .rteEalInit : BootM R T Int) [] .boot fun (_ : Int) v t =>
      v = [] ∧ t = .boot := conforms_call trivial fun _ => rfl
  unfold main
  refine flags.bind ?_
  rintro (flags : U32) _ _ ⟨rfl,rfl⟩
  refine .ite (fun _ => stopped _ _ _) fun _ => ?_
  refine (nonblock _).bind ?_
  rintro (ret : Int) _ _ ⟨rfl,rfl⟩
  refine .ite (fun _ => stopped _ _ _) fun _ => ?_
  refine handled.bind ?_
  rintro _ _ _ ⟨rfl,rfl⟩
  refine eal.bind ?_
  rintro (ret : Int) _ _ ⟨rfl,rfl⟩
  refine .ite (fun _ => stopped _ _ _) fun _ => ?_
  refine (setupApp_conforms stack few).bind ?_
  rintro ret v t ready
  refine .ite (fun _ => stopped _ _ _) fun success => ?_
  obtain ⟨prepared,idle⟩ := ready success
  have exclusive := prepared.exclusive few
  have workers : ∀ core ∈ cores.slaves, core ∈ cores.slaves ∧ core ∉ t.launched ∧ t.Equipped core := fun core worker =>
    ⟨worker,idle ▸ List.not_mem_nil,prepared.equipped core worker⟩
  refine (launchWorkers_conforms cores.distinct prepared.running workers).bind ?_
  rintro ret w _ ⟨same,launched,rfl,_,all⟩
  refine .ite (fun _ => stopped _ _ _) fun success => ?_
  have server : (lifecycle cores).Conforms (call .admServer : BootM R T Int) w { t with launched := launched }
      fun (_ : Int) w' t' => w' = w ∧ t' = { t with launched := launched } :=
    conforms_call ⟨prepared.running,all success⟩ fun _ => rfl
  refine server.bind ?_
  rintro (ret : Int) _ _ ⟨same',rfl⟩
  rw [same',same]
  have served : Served cores { t with launched := launched } v := ⟨prepared.running,
    fun core worker => ⟨prepared.equipped core worker,all success core worker⟩,exclusive⟩
  exact .pure fun _ => served

end Ports

end Conforming

/-- Whatever the calls return, each is made when it is allowed, and the server is left with all
ports started and with all workers launched, of which each has statistics, a configuration and
queues that are its own. -/
theorem main_lifecycle (stack : Stack R T) (cores : Lcores) (few : cores.slaves.length < 65536)
    (run : (lifecycle cores).Path ((main stack cores).run []) .boot p s) :
    (∀ op next, p = .request op next → s.Allows cores op) ∧
    ∀ ret queues, p = .done (.returned ret,queues) → Served cores s queues := by
  have keeps := (main_conforms stack few).path run
  refine ⟨?_,?_⟩
  · rintro op next rfl
    exact keeps.1
  · rintro ret queues rfl
    exact keeps ⟨ret,rfl⟩

/-- The answers of two devices on which nothing fails. -/
def smooth (s : Lifecycle) : (op : BootOp Unit Unit) → BootAns op
  | .fcntlGetFl => (2 : U32)
  | .rteEthDevCount => (2 : Byte)
  | .devInfoGet _ => (⟨"net_ixgbe",0x20e,0xf,⟨0,()⟩,⟨0,0,()⟩⟩ : RteEthDevInfo Unit Unit)
  | .queue (.getVlanOffload _) => (0 : U32)
  | .queue (.lcoreToSocketId _) => (0 : Int)
  | .queue (.pktmbufPoolCreate ..) => some s.mempools.length
  | .queue (.rxQueueSetup ..) | .queue (.rxStatsMapping ..) | .queue (.txQueueSetup ..) | .queue (.txStatsMapping ..) =>
    (0 : Int)
  | .linkGetNowait _ | .initNatashaAppStats _ => true
  | .master .appConfigLoad =>
    some ⟨s.live.sum + 1,⟨fun _ => ⟨[(0x0a000001,5)],1500⟩,none,.null⟩⟩
  | .master (.appConfig core) => s.appConfig core
  | .master (.setAppConfig ..) | .master (.awaitUsed _) | .master (.appConfigFree _) | .signal | .delayMs _ => ()
  | .fcntlSetFl _ | .rteEalInit | .devConfigure .. | .vlanFilter .. | .devStart _ | .remoteLaunch _ | .admServer => (0 : Int)

theorem smooth_admitted (cores : Lcores) (s : Lifecycle) (op : BootOp Unit Unit) :
    (lifecycle cores).admits s op (smooth s op) := by
  cases op with
  | master op =>
    cases op with
    | appConfigLoad =>
      rintro _ ⟨rfl⟩ used
      exact absurd (List.le_sum_of_mem used) (Nat.not_succ_le_self _)
    | appConfig core => rfl
    | _ => trivial
  | _ => trivial

theorem main_lifecycle_smooth : let cores : Lcores := ⟨[1,2],by decide⟩
    ∃ s, Served cores s [(0,1,0),(0,2,1),(1,1,0),(1,2,1)] := by
  intro cores
  have run := Protocol.follow_path (smooth_admitted cores) ((main (fun _ => (⟨0,0,()⟩,⟨0,()⟩)) cores).run []) .boot
  have served : ((lifecycle cores).follow smooth ((main (fun _ => (⟨0,0,()⟩,⟨0,()⟩)) cores).run []) .boot).1 =
      (.returned 0,[(0,1,0),(0,2,1),(1,1,0),(1,2,1)]) := by decide +kernel
  exact ⟨_,(main_lifecycle _ cores (by decide) run).2 0 _ (congrArg _ served)⟩

end Boot

end Natasha
