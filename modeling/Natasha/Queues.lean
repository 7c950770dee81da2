import Natasha.Lib.Interaction
import Natasha.Setup

/-! The queues of a port. `setup_queues` keeps the two structures that it passes to the driver on
its stack; they are filled by the helper for VLANs, which is called for some ports only. What the
stack held before is an argument here. -/
namespace Natasha

open Interaction

/-! ## Device information -/

/-- `struct rte_eth_rxconf`: the member that is changed and those that are only copied. -/
structure RteEthRxconf (R : Type) where
  offloads : U64
  other : R

/-- `struct rte_eth_txconf`. -/
structure RteEthTxconf (T : Type) where
  txqFlags : U32
  offloads : U64
  other : T

structure RteEthDevInfo (R T : Type) where
  driverName : String
  rxOffloadCapa : U64
  txOffloadCapa : U64
  defaultRxconf : RteEthRxconf R
  defaultTxconf : RteEthTxconf T

def devRxOffloadVlanStrip : U64 := 0x1
def devRxOffloadChecksum : U64 := 0xe
def devRxOffloadVlanFilter : U64 := 0x200
def devTxOffloadVlanInsert : U64 := 0x1
def ethTxqFlagsNooffloads : U32 := 0xf00
def ethVlanExtendOffload : U32 := 0x4

/-- `support_per_queue_statistics`. -/
def supportPerQueueStatistics (devInfo : RteEthDevInfo R T) : Bool :=
  devInfo.driverName ≠ "net_i40e" && devInfo.driverName ≠ "net_mlx5" && devInfo.driverName ≠ "net_e1000_igb"

/-! ## Calls of the driver -/

inductive QueueOp (R T : Type) where
  | getVlanOffload (port : Byte)
  | lcoreToSocketId (core : Nat)
  | pktmbufPoolCreate (name : String) (n cacheSize privSize dataRoomSize : Nat) (socket : Int)
  | rxQueueSetup (port : Byte) (queueId : U16) (ringSize : Nat) (socket : Int) (conf : RteEthRxconf R) (mempool : Nat)
  | rxStatsMapping (port : Byte) (queueId : U16) (statsIdx : Nat)
  | txQueueSetup (port : Byte) (queueId : U16) (ringSize : Nat) (socket : Int) (conf : RteEthTxconf T)
  | txStatsMapping (port : Byte) (queueId : U16) (statsIdx : Nat)

/-- A mempool that cannot be created is `none`. -/
def QueueAns : QueueOp R T → Type
  | .getVlanOffload _ => U32
  | .lcoreToSocketId _ => Int
  | .pktmbufPoolCreate .. => Option Nat
  | .rxQueueSetup .. | .rxStatsMapping .. | .txQueueSetup .. | .txStatsMapping .. => Int

/-- The private state is the queue of each core that was set up. -/
abbrev QueueM (R T : Type) := Code (List (Nat × U16)) (QueueOp R T) QueueAns

section Calls

variable {R T : Type}

def getVlanOffload (port : Byte) : QueueM R T U32 := perform (QueueOp.getVlanOffload port)
def lcoreToSocketId (core : Nat) : QueueM R T Int := perform (QueueOp.lcoreToSocketId core)

def pktmbufPoolCreate (name : String) (n cacheSize privSize dataRoomSize : Nat) (socket : Int) :
    QueueM R T (Option Nat) := perform (QueueOp.pktmbufPoolCreate name n cacheSize privSize dataRoomSize socket)

def rxQueueSetup (port : Byte) (queueId : U16) (ringSize : Nat) (socket : Int) (conf : RteEthRxconf R) (mempool : Nat) :
    QueueM R T Int := perform (QueueOp.rxQueueSetup port queueId ringSize socket conf mempool)

def txQueueSetup (port : Byte) (queueId : U16) (ringSize : Nat) (socket : Int) (conf : RteEthTxconf T) :
    QueueM R T Int := perform (QueueOp.txQueueSetup port queueId ringSize socket conf)

/-- A mapping is asked for when the device has statistics for each queue. -/
def rxStatsMapping (enabled : Bool) (port : Byte) (queueId : U16) (statsIdx : Nat) : QueueM R T Int :=
  if enabled then perform (QueueOp.rxStatsMapping port queueId statsIdx) else return 0

def txStatsMapping (enabled : Bool) (port : Byte) (queueId : U16) (statsIdx : Nat) : QueueM R T Int :=
  if enabled then perform (QueueOp.txStatsMapping port queueId statsIdx) else return 0

/-! ## Setup -/

def setVlanOffload (port : Byte) (devInfo : RteEthDevInfo R T) :
    QueueM R T (Int × RteEthTxconf T × RteEthRxconf R) := do
  let txqConf := devInfo.defaultTxconf
  let rxqConf := devInfo.defaultRxconf
  let vlanOffloads ← getVlanOffload port
  if vlanOffloads &&& ethVlanExtendOffload ≠ 0 then
    return (-1,txqConf,rxqConf)
  if devInfo.txOffloadCapa &&& devTxOffloadVlanInsert = 0 then
    return (-1,txqConf,rxqConf)
  return (0,
    { txqConf with
      txqFlags := txqConf.txqFlags &&& ~~~ethTxqFlagsNooffloads
      offloads := txqConf.offloads ||| devTxOffloadVlanInsert },
    { rxqConf with offloads := rxqConf.offloads ||| (devRxOffloadVlanFilter ||| devRxOffloadVlanStrip) })

def setRxChksumOffload (devInfo : RteEthDevInfo R T) (rxqConf : RteEthRxconf R) : Int × RteEthRxconf R :=
  if devInfo.rxOffloadCapa &&& devRxOffloadChecksum = 0 then (-1,rxqConf)
  else (0,{ rxqConf with offloads := rxqConf.offloads ||| devRxOffloadChecksum })

/-- The loop over the slaves, with one queue for each. -/
def setupQueue (port : Byte) (ncores : Nat) (statsEnabled : Bool) (txqConf : RteEthTxconf T) (rxqConf : RteEthRxconf R)
    (queueId : U16) : List Nat → QueueM R T Int
  | [] => return 0
  | core :: cores => do
    let rxStatsIdx := queueId.toNat
    let txStatsIdx := queueId.toNat + ncores - 1
    let socket ← lcoreToSocketId core
    let mempoolName := toString port.toNat ++ ":" ++ toString queueId.toNat
    match ← pktmbufPoolCreate mempoolName 8192 512 0 (9216 + 128) socket with
    | none => return -1
    | some mempool =>
      let ret ← rxQueueSetup port queueId 256 socket rxqConf mempool
      if ret < 0 then
        return ret
      let ret ← rxStatsMapping statsEnabled port queueId rxStatsIdx
      if ret < 0 then
        return ret
      let ret ← txQueueSetup port queueId 512 socket txqConf
      if ret < 0 then
        return ret
      let ret ← txStatsMapping statsEnabled port queueId txStatsIdx
      if ret < 0 then
        return ret
      modify fun queues => queues ++ [(core,queueId)]
      setupQueue port ncores statsEnabled txqConf rxqConf (queueId+1) cores

/-- `setup_queues`; `txqConf` and `rxqConf` are the stack as it finds it. -/
def setupQueues (port : Byte) (devInfo : RteEthDevInfo R T) (slaves : List Nat) (enableVlanOffload : Bool)
    (txqConf : RteEthTxconf T) (rxqConf : RteEthRxconf R) : QueueM R T Int := do
  let statsEnabled := supportPerQueueStatistics devInfo
  let (ret,txqConf,rxqConf) ← if enableVlanOffload then setVlanOffload port devInfo else pure (0,txqConf,rxqConf)
  if ret ≠ 0 then
    return -1
  let (_,rxqConf) := setRxChksumOffload devInfo rxqConf
  setupQueue port (slaves.length + 1) statsEnabled txqConf rxqConf 0 slaves

/-- The end of `setup_port`, from the loop over the addresses on. -/
def setupPortQueues (dev : EthDevice) (port : Byte) (devInfo : RteEthDevInfo R T) (slaves : List Nat)
    (ipAddresses : List (U32 × U16)) (txqConf : RteEthTxconf T) (rxqConf : RteEthRxconf R) : QueueM R T Int :=
  match acceptVlans dev false ipAddresses with
  | none => return -1
  | some enableVlanOffload => setupQueues port devInfo slaves enableVlanOffload txqConf rxqConf

end Calls

/-! ## What the driver is given -/

section Wanted

variable {R T : Type} {devInfo : RteEthDevInfo R T}

/-- Some address is on a VLAN. -/
def onVlan (ipAddresses : List (U32 × U16)) : Bool := ipAddresses.any fun address => address.2 ≠ 0

/-- The defaults of the device with the offloads of the port. -/
def wantedRxconf (devInfo : RteEthDevInfo R T) (vlan : Bool) : RteEthRxconf R :=
  { devInfo.defaultRxconf with
    offloads := devInfo.defaultRxconf.offloads |||
      (if vlan then devRxOffloadVlanFilter ||| devRxOffloadVlanStrip else 0) |||
      (if devInfo.rxOffloadCapa &&& devRxOffloadChecksum = 0 then 0 else devRxOffloadChecksum) }

def wantedTxconf (devInfo : RteEthDevInfo R T) (vlan : Bool) : RteEthTxconf T :=
  if vlan then
    { devInfo.defaultTxconf with
      txqFlags := devInfo.defaultTxconf.txqFlags &&& ~~~ethTxqFlagsNooffloads
      offloads := devInfo.defaultTxconf.offloads ||| devTxOffloadVlanInsert }
  else devInfo.defaultTxconf

/-- A queue is set up with the wanted structure. -/
def Wanted (devInfo : RteEthDevInfo R T) (vlan : Bool) : QueueOp R T → Prop
  | .rxQueueSetup _ _ _ _ conf _ => conf = wantedRxconf devInfo vlan
  | .txQueueSetup _ _ _ _ conf => conf = wantedTxconf devInfo vlan
  | _ => True

/-- The driver is given the wanted structures, whatever the stack held and the driver returns. -/
def Initialised (dev : EthDevice) (port : Byte) (devInfo : RteEthDevInfo R T) (slaves : List Nat)
    (ipAddresses : List (U32 × U16)) : Prop :=
  ∀ txqConf rxqConf, ((setupPortQueues dev port devInfo slaves ipAddresses txqConf rxqConf).run []).Requests
    (Wanted devInfo (onVlan ipAddresses))

theorem onVlan_cons (ip : U32) (vlan : U16) (rest : List (U32 × U16)) :
    onVlan ((ip,vlan) :: rest) = (decide (vlan ≠ 0) || onVlan rest) := rfl

theorem acceptVlans_flag (dev : EthDevice) (flag : Bool) (ipAddresses : List (U32 × U16)) :
    acceptVlans dev flag ipAddresses = none ∨ acceptVlans dev flag ipAddresses = some (flag || onVlan ipAddresses) := by
  induction ipAddresses generalizing flag with
  | nil => exact .inr (by simp [acceptVlans,onVlan])
  | cons address rest ih =>
    obtain ⟨ip,vlan⟩ := address
    rw [acceptVlans,onVlan_cons]
    by_cases zero : vlan = 0
    · rw [if_pos zero,decide_eq_false (not_not.mpr zero),Bool.false_or]
      exact ih flag
    · rw [if_neg zero,decide_eq_true zero,Bool.true_or,Bool.or_true]
      split
      · exact .inl rfl
      · have rest := ih true
        rwa [Bool.true_or] at rest

theorem acceptVlans_untagged (dev : EthDevice) {ipAddresses : List (U32 × U16)} (untagged : onVlan ipAddresses = false) :
    acceptVlans dev false ipAddresses = some false := by
  induction ipAddresses with
  | nil => rfl
  | cons address rest ih =>
    obtain ⟨ip,vlan⟩ := address
    rw [onVlan_cons,Bool.or_eq_false_iff,decide_eq_false_iff_not,not_not] at untagged
    rw [acceptVlans,if_pos untagged.1]
    exact ih untagged.2

/-- Code all of whose requests, from every state, are wanted. -/
def Asks (vlan : Bool) (devInfo : RteEthDevInfo R T) (code : QueueM R T α) : Prop :=
  ∀ queues, (code.run queues).Requests (Wanted devInfo vlan)

theorem Asks.bind {vlan : Bool} {code : QueueM R T α} {next : α → QueueM R T β} (first : Asks vlan devInfo code)
    (second : ∀ a, Asks vlan devInfo (next a)) : Asks vlan devInfo (code >>= next) :=
  fun queues => (first queues).bind fun r => second r.1 r.2

theorem Asks.ite {vlan : Bool} {c : Prop} [Decidable c] {code other : QueueM R T α} (first : Asks vlan devInfo code)
    (second : Asks vlan devInfo other) : Asks vlan devInfo (if c then code else other) := by
  split
  · exact first
  · exact second

theorem Asks.setupQueue {vlan : Bool} (port : Byte) (ncores : Nat) (statsEnabled : Bool) (queueId : U16)
    (slaves : List Nat) : Asks vlan devInfo
      (Natasha.setupQueue port ncores statsEnabled (wantedTxconf devInfo vlan) (wantedRxconf devInfo vlan) queueId slaves) := by
  induction slaves generalizing queueId with
  | nil => exact fun _ => trivial
  | cons core slaves ih =>
    have failed (ret : Int) : Asks vlan devInfo (pure ret : QueueM R T Int) := fun _ => trivial
    have mapping (code : QueueM R T Int) (asks : Asks vlan devInfo code) :
        Asks vlan devInfo (if statsEnabled then code else pure 0) := asks.ite (failed 0)
    have socket : Asks vlan devInfo (lcoreToSocketId core : QueueM R T Int) := fun _ => ⟨trivial,fun _ => trivial⟩
    have pool (name : String) (socket : Int) : Asks vlan devInfo
        (pktmbufPoolCreate name 8192 512 0 (9216 + 128) socket : QueueM R T (Option Nat)) :=
      fun _ => ⟨trivial,fun _ => trivial⟩
    have rx (socket : Int) (mempool : Nat) : Asks vlan devInfo
        (rxQueueSetup port queueId 256 socket (wantedRxconf devInfo vlan) mempool : QueueM R T Int) :=
      fun _ => ⟨rfl,fun _ => trivial⟩
    have tx (socket : Int) : Asks vlan devInfo
        (txQueueSetup port queueId 512 socket (wantedTxconf devInfo vlan) : QueueM R T Int) :=
      fun _ => ⟨rfl,fun _ => trivial⟩
    have rxStats (idx : Nat) : Asks vlan devInfo (rxStatsMapping statsEnabled port queueId idx : QueueM R T Int) :=
      mapping _ fun _ => ⟨trivial,fun _ => trivial⟩
    have txStats (idx : Nat) : Asks vlan devInfo (txStatsMapping statsEnabled port queueId idx : QueueM R T Int) :=
      mapping _ fun _ => ⟨trivial,fun _ => trivial⟩
    have done : Asks vlan devInfo (modify fun queues => queues ++ [(core,queueId)] : QueueM R T PUnit) := fun _ => trivial
    refine socket.bind fun socket => (pool _ socket).bind fun mempool => ?_
    cases mempool with
    | none => exact failed (-1)
    | some mempool =>
      refine (rx socket mempool).bind fun ret => (failed ret).ite ?_
      refine (rxStats _).bind fun ret => (failed ret).ite ?_
      refine (tx socket).bind fun ret => (failed ret).ite ?_
      exact (txStats _).bind fun ret => (failed ret).ite (done.bind fun _ => ih _)

theorem setRxChksumOffload_conf (rxqConf : RteEthRxconf R) : (setRxChksumOffload devInfo rxqConf).2 =
    { rxqConf with offloads := rxqConf.offloads |||
        (if devInfo.rxOffloadCapa &&& devRxOffloadChecksum = 0 then 0 else devRxOffloadChecksum) } := by
  rw [setRxChksumOffload]
  split
  · simp
  · rfl

/-- With the flag the stack is overwritten before it is read. -/
theorem setupQueues_vlan (port : Byte) (slaves : List Nat) (txqConf : RteEthTxconf T) (rxqConf : RteEthRxconf R) :
    setupQueues port devInfo slaves true txqConf rxqConf = (do
      let vlanOffloads ← getVlanOffload port
      if vlanOffloads &&& ethVlanExtendOffload ≠ 0 then
        return -1
      else if devInfo.txOffloadCapa &&& devTxOffloadVlanInsert = 0 then
        return -1
      else
        setupQueue port (slaves.length + 1) (supportPerQueueStatistics devInfo) (wantedTxconf devInfo true)
          (wantedRxconf devInfo true) 0 slaves) := by
  simp only [setupQueues,setVlanOffload,if_true,bind_assoc]
  congr
  funext vlanOffloads
  split
  · rw [pure_bind]
    rfl
  · split
    · rw [pure_bind]
      rfl
    · rw [pure_bind]
      simp only [setRxChksumOffload_conf]
      rfl

theorem Asks.setupQueues (port : Byte) (slaves : List Nat) (txqConf : RteEthTxconf T) (rxqConf : RteEthRxconf R) :
    Asks true devInfo (Natasha.setupQueues port devInfo slaves true txqConf rxqConf) := by
  have failed : Asks true devInfo (pure (-1) : QueueM R T Int) := fun _ => trivial
  have offloads : Asks true devInfo (getVlanOffload port : QueueM R T U32) := fun _ => ⟨trivial,fun _ => trivial⟩
  rw [setupQueues_vlan]
  exact offloads.bind fun _ => failed.ite (failed.ite (Asks.setupQueue port _ _ 0 slaves))

/-- Without the flag the first queue is set up with what the stack held, all but the checksum bits. -/
theorem setupQueues_untagged {port : Byte} {core : Nat} {slaves : List Nat} {txqConf : RteEthTxconf T}
    {rxqConf : RteEthRxconf R} {ok : QueueOp R T → Prop}
    (asks : ((setupQueues port devInfo (core :: slaves) false txqConf rxqConf).run []).Requests ok) :
    ok (.rxQueueSetup port 0 256 0 (setRxChksumOffload devInfo rxqConf).2 0) :=
  ((asks.2 (0 : Int)).2 (some 0 : Option Nat)).1

/-- A bit that the checksum offload does not set. -/
theorem setRxChksumOffload_bit (rxqConf : RteEthRxconf R) :
    (setRxChksumOffload devInfo rxqConf).2.offloads.getLsbD 63 = rxqConf.offloads.getLsbD 63 := by
  rw [setRxChksumOffload_conf]
  split <;> simp [devRxOffloadChecksum]

end Wanted

/-- The driver gets what it should if the flag is set, which is when the structures are
initialised, or if there is no queue to set up. -/
theorem initialised_iff {R T : Type} (dev : EthDevice) (port : Byte) (devInfo : RteEthDevInfo R T) (slaves : List Nat)
    (ipAddresses : List (U32 × U16)) :
    Initialised dev port devInfo slaves ipAddresses ↔ (∃ address ∈ ipAddresses, address.2 ≠ 0) ∨ slaves = [] := by
  have tagged : (∃ address ∈ ipAddresses, address.2 ≠ 0) ↔ onVlan ipAddresses = true := by
    simp only [onVlan,List.any_eq_true,decide_eq_true_eq]
  rw [tagged]
  constructor
  · intro initialised
    by_contra neither
    obtain ⟨untagged,some⟩ := not_or.mp neither
    rw [Bool.not_eq_true] at untagged
    obtain ⟨core,slaves,rfl⟩ := List.exists_cons_of_ne_nil some
    -- a stack that differs from the defaults in the topmost bit
    let stale : RteEthRxconf R := { devInfo.defaultRxconf with offloads := ~~~devInfo.defaultRxconf.offloads }
    have asks := initialised devInfo.defaultTxconf stale
    rw [setupPortQueues,acceptVlans_untagged dev untagged,untagged] at asks
    have given : Wanted devInfo false (.rxQueueSetup port 0 256 0 (setRxChksumOffload devInfo stale).2 0) :=
      setupQueues_untagged asks
    have conf := congrArg (fun conf : RteEthRxconf R => conf.offloads.getLsbD 63) given
    have wanted : wantedRxconf devInfo false = (setRxChksumOffload devInfo devInfo.defaultRxconf).2 := by
      rw [setRxChksumOffload_conf,wantedRxconf]
      simp
    simp only [wanted,setRxChksumOffload_bit] at conf
    simp [stale] at conf
  · intro condition txqConf rxqConf
    rw [setupPortQueues]
    rcases acceptVlans_flag dev false ipAddresses with failed | flag
    · rw [failed]
      trivial
    · rw [flag,Bool.false_or]
      cases vlan : onVlan ipAddresses with
      | true => exact Asks.setupQueues port slaves txqConf rxqConf []
      | false =>
        rw [vlan] at condition
        obtain rfl := condition.resolve_left Bool.false_ne_true
        trivial

/-- A port without VLAN on a stack with a bit set: the receive queue gets that bit for an offload. -/
theorem initialised_staleStack : ¬∀ (dev : EthDevice) (port : Byte) (devInfo : RteEthDevInfo Unit Unit) (slaves : List Nat)
    (ipAddresses : List (U32 × U16)), Initialised dev port devInfo slaves ipAddresses := by
  intro claim
  have asks := claim ⟨true,fun _ => 0,fun _ => 0,fun _ => 0,0⟩ 0 ⟨"net_ixgbe",0xe,0x1,⟨0,()⟩,⟨0,0,()⟩⟩ [1]
    [(0x0a000001,0)] ⟨0,0,()⟩ ⟨0x8000000000000000,()⟩
  have given := congrArg (fun conf : RteEthRxconf Unit => conf.offloads) (setupQueues_untagged asks)
  exact absurd given (by decide)

end Natasha
