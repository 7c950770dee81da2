import Natasha.Reload
import Natasha.Worker

/-! The administration server of adm.c: one connection, the queries that arrive on it and the
bytes the command handlers send back. Everything a handler finds outside its own frame is
an answer of the environment, also how much of a buffer `send` takes. -/
namespace Natasha.Adm

open Interaction

/-- `enum natasha_cmd_type`. -/
inductive CmdType where
  | none
  | status
  | exit
  | reload
  | resetStats
  | dpdkStats
  | dpdkXstats
  | appStats
  | version
  deriving DecidableEq, Repr

def CmdType.code : CmdType → Byte
  | .none => 0
  | .status => 1
  | .exit => 2
  | .reload => 3
  | .resetStats => 4
  | .dpdkStats => 5
  | .dpdkXstats => 6
  | .appStats => 7
  | .version => 8

def natashaReplyOk : Byte := 0

/-- `struct natasha_cmd_reply`; `dataSize` is the member as it lies in memory. -/
structure NatashaCmdReply where
  type : Byte
  status : Byte
  dataSize : U16
  deriving DecidableEq

/-- The bytes of a member in memory, least significant first. -/
def bytes16 (x : U16) : List Byte := [x.setWidth 8,(x >>> 8).setWidth 8]

def bytes64 (x : U64) : List Byte := (List.range 8).map fun i => (x >>> (8*i)).setWidth 8

def NatashaCmdReply.bytes (reply : NatashaCmdReply) : List Byte :=
  reply.type :: reply.status :: bytes16 reply.dataSize

def sizeofNatashaCmdReply : Nat := 4

/-- `rte_cpu_to_be_64`. -/
def rteCpuToBe64 (x : U64) : U64 :=
  (List.range 8).foldl (fun acc i => acc ||| ((x >>> (8*i)) &&& 0xff) <<< (56 - 8*i)) 0

/-- `struct rte_eth_stats`: eight counters and five rows of `RTE_ETHDEV_QUEUE_STAT_CNTRS`
counters for queues. -/
structure RteEthStats where
  ipackets : U64
  opackets : U64
  ibytes : U64
  obytes : U64
  imissed : U64
  ierrors : U64
  oerrors : U64
  rxNombuf : U64
  queues : Fin 80 → U64

def cpuToBePortStats (s : RteEthStats) : RteEthStats where
  ipackets := rteCpuToBe64 s.ipackets
  opackets := rteCpuToBe64 s.opackets
  ibytes := rteCpuToBe64 s.ibytes
  obytes := rteCpuToBe64 s.obytes
  imissed := rteCpuToBe64 s.imissed
  ierrors := rteCpuToBe64 s.ierrors
  oerrors := rteCpuToBe64 s.oerrors
  rxNombuf := rteCpuToBe64 s.rxNombuf
  queues := s.queues

def RteEthStats.words (s : RteEthStats) : List U64 :=
  [s.ipackets,s.opackets,s.ibytes,s.obytes,s.imissed,s.ierrors,s.oerrors,s.rxNombuf] ++ List.ofFn s.queues

def RteEthStats.bytes (s : RteEthStats) : List Byte := s.words.flatMap bytes64

def sizeofRteEthStats : Nat := 704

def cpuToBeAppStats (stats : Stat → U64) : Stat → U64 := fun stat => rteCpuToBe64 (stats stat)

/-- The members of `struct natasha_app_stats` in order. -/
def appStatsBytes (stats : Stat → U64) : List Byte :=
  ([.dropNoRule,.dropNatCondition,.dropBadL3Cksum,.rxBadL4Cksum,.dropUnknownIcmp,.dropUnhandledEthertype,
    .dropTxNotsent].map stats).flatMap bytes64

def sizeofNatashaAppStats : Nat := 56

/-- What a handler asks the rest of the system. -/
inductive Op where
  /-- `app_config_reload_all`. -/
  | reloadAll
  | ethStatsReset (port : Nat)
  | ethStatsGet (port : Nat)
  /-- The statistics of a worker, copied while it runs. -/
  | appStats (core : Nat)
  /-- How many of `len` bytes `send` takes, or -1. -/
  | send (len : Nat)

def Ans : Op → Type
  | .reloadAll => Int
  | .ethStatsReset _ => Int
  | .ethStatsGet _ => Int × RteEthStats
  | .appStats _ => Stat → U64
  | .send _ => Int

/-- `send` takes no more than it is given. -/
def sockets : (op : Op) → Ans op → Prop
  | .send len, (nb : Int) => -1 ≤ nb ∧ nb ≤ len
  | .reloadAll, _ | .ethStatsReset _, _ | .ethStatsGet _, _ | .appStats _, _ => True

/-- The private state is what was sent on the connection so far. -/
abbrev M := Code (List Byte) Op Ans

def send (buf : List Byte) : M Int := do
  let nb : Int ← perform (Op.send buf.length)
  modify fun sent => sent ++ buf.take nb.toNat
  return nb

def appConfigReloadAll : M Int := perform Op.reloadAll
def rteEthStatsReset (port : Nat) : M Int := perform (Op.ethStatsReset port)
def rteEthStatsGet (port : Nat) : M (Int × RteEthStats) := perform (Op.ethStatsGet port)
def copyStats (core : Nat) : M (Stat → U64) := perform (Op.appStats core)

/-- The machine the server runs on: `GIT_VERSION`, the Ethernet devices and the cores. -/
structure Server where
  version : List Byte
  devCount : Byte
  cores : Lcores

/-- `rte_lcore_count`: the slaves and the master. -/
def Server.lcoreCount (s : Server) : Nat := s.cores.slaves.length + 1

/-! ## Handlers

The argument `reply` is the stack frame as the handler finds it. -/

/-- The reply goes out whole or the handler fails. -/
def sendReply (reply : NatashaCmdReply) : M Int := do
  if (← send reply.bytes) ≠ (sizeofNatashaCmdReply : Int) then
    return -1
  return 0

def handleCmdStatus (cmdType : Byte) (reply : NatashaCmdReply) : M Int :=
  sendReply { reply with type := cmdType, status := natashaReplyOk }

def handleCmdReload (cmdType : Byte) (reply : NatashaCmdReply) : M Int := do
  let ret ← appConfigReloadAll
  sendReply { reply with type := cmdType, status := .ofInt 8 ret }

/-- `raise(SIGTERM)` after the reply sends nothing. -/
def handleCmdExit (cmdType : Byte) (reply : NatashaCmdReply) : M Int :=
  sendReply { reply with type := cmdType, status := natashaReplyOk }

/-- The loop over the ports; the last error is the status. -/
def resetPorts : List Nat → NatashaCmdReply → M NatashaCmdReply
  | [], reply => return reply
  | port :: ports, reply => do
    let ret ← rteEthStatsReset port
    resetPorts ports (if ret ≠ 0 then { reply with status := .ofInt 8 ret } else reply)

def handleCmdResetStats (s : Server) (cmdType : Byte) (reply : NatashaCmdReply) : M Int := do
  let reply := { reply with type := cmdType, status := natashaReplyOk }
  let reply ← resetPorts (List.range s.devCount.toNat) reply
  sendReply reply

def handleCmdVersion (s : Server) (cmdType : Byte) (reply : NatashaCmdReply) : M Int := do
  let dataSize := s.version.length
  let reply : NatashaCmdReply :=
    { reply with type := cmdType, status := natashaReplyOk, dataSize := rteBeToCpu16 (.ofNat 16 dataSize) }
  if (← sendReply reply) < 0 then
    return -1
  if (← send s.version) ≠ (dataSize : Int) then
    return -1
  return 0

/-- The loop that fills `port_stats`, and the status it leaves. -/
def portStats : List Nat → NatashaCmdReply → M (List RteEthStats × NatashaCmdReply)
  | [], reply => return ([],reply)
  | port :: ports, reply => do
    let answer ← rteEthStatsGet port
    let rest ← portStats ports (if answer.1 ≠ 0 then { reply with status := .ofInt 8 (-1) } else reply)
    return (cpuToBePortStats answer.2 :: rest.1,rest.2)

def handleCmdDpdkStats (s : Server) (cmdType : Byte) (reply : NatashaCmdReply) : M Int := do
  let reply := { reply with status := natashaReplyOk }
  let filled ← portStats (List.range s.devCount.toNat) reply
  let dataSize := sizeofRteEthStats * s.devCount.toNat
  let reply : NatashaCmdReply :=
    { filled.2 with type := cmdType, dataSize := rteBeToCpu16 (.ofNat 16 dataSize) }
  if (← sendReply reply) < 0 then
    return -1
  if (← send (filled.1.flatMap RteEthStats.bytes)) ≠ (dataSize : Int) then
    return -1
  return 0

/-- The loop over the slave cores: two sends each. -/
def sendCoreStats : List Nat → M Int
  | [] => return 0
  | coreid :: cores => do
    let coreStats := cpuToBeAppStats (← copyStats coreid)
    if (← send [.ofNat 8 coreid]) ≠ 1 then
      return -1
    if (← send (appStatsBytes coreStats)) ≠ (sizeofNatashaAppStats : Int) then
      return -1
    sendCoreStats cores

def handleCmdAppStats (s : Server) (cmdType : Byte) (reply : NatashaCmdReply) : M Int := do
  let dataSize := (sizeofNatashaAppStats + 1) * (s.lcoreCount - 1)
  let reply : NatashaCmdReply :=
    { reply with type := cmdType, status := natashaReplyOk, dataSize := rteBeToCpu16 (.ofNat 16 dataSize) }
  if (← sendReply reply) < 0 then
    return -1
  sendCoreStats s.cores.slaves

/-- `natasha_commands`. -/
def natashaCommands (s : Server) : List (CmdType × (Byte → NatashaCmdReply → M Int)) :=
  [(.status,handleCmdStatus),(.exit,handleCmdExit),(.reload,handleCmdReload),(.resetStats,handleCmdResetStats s),
    (.version,handleCmdVersion s),(.dpdkStats,handleCmdDpdkStats s),(.appStats,handleCmdAppStats s)]

def handleClientQuery (s : Server) (type : Byte) (frame : NatashaCmdReply) : M Int :=
  match (natashaCommands s).find? fun command => command.1.code == type with
  | some command => command.2 type frame
  | none => return -1

/-! ## A connection -/

/-- What one `read` on the connection gives, with the contents of the stack that the handler
of a query will find. -/
structure Arrival where
  bytes : Option (List Byte)
  frame : NatashaCmdReply

/-- One query the server handled: what the handler returned and the bytes it sent. -/
structure Exchange where
  type : Byte
  frame : NatashaCmdReply
  ret : Int
  sent : List Byte

/-- The part of `adm_loop` for one client, until it is disconnected. -/
def serve (s : Server) : List Arrival → M (List Exchange)
  | [] => return []
  | arrival :: arrivals =>
    match arrival.bytes with
    | some [type] => do
      let before ← get
      let ret ← handleClientQuery s type arrival.frame
      let after ← get
      let exchange : Exchange := ⟨type,arrival.frame,ret,after.drop before.length⟩
      if ret < 0 then
        return [exchange]
      let rest ← serve s arrivals
      return exchange :: rest
    | _ => return []

end Natasha.Adm
