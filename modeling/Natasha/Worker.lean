import Natasha.Lib.Interaction
import Natasha.Config

/-! A worker core: the mbuf it dispatches, its transmit queues, its statistics and what
the NIC will answer. The log is ghost state: it records every access to the mbuf under
dispatch and every event that ends its ownership, in order, and no code reads it. -/
namespace Natasha

open Interaction

/-- `MAX_TX_BURST` and the size of the receive array of `handle_port`. -/
def maxTxBurst : Nat := 32
def maxRxBurst : Nat := 32

/-- `NATASHA_MAX_QUEUES`: the declared length of `core.tx_queues`. -/
def natashaMaxQueues : Nat := 16

/-- The members of `struct natasha_app_stats`. -/
inductive Stat where
  | dropNoRule
  | dropNatCondition
  | dropBadL3Cksum
  | rxBadL4Cksum
  | dropUnknownIcmp
  | dropUnhandledEthertype
  | dropTxNotsent
  deriving DecidableEq, Repr

/-- `struct tx_queue` between two calls. A queue at rest has room for one more mbuf, so
the store into `pkts[len]` is in bounds by construction. -/
structure TxQueue where
  pkts : List Mbuf
  room : pkts.length < maxTxBurst

def TxQueue.empty : TxQueue := ⟨[],by decide⟩

structure RxBurst where
  pkts : List Mbuf
  bounded : pkts.length ≤ maxRxBurst

inductive Event where
  /-- A load from, or a store into, the mbuf under dispatch. -/
  | read
  | write
  /-- `rte_pktmbuf_free` of the mbuf under dispatch. -/
  | free
  /-- `tx_send` stores the mbuf under dispatch into `pkts[slot]` of a queue. -/
  | enqueue (port slot : Nat)
  | bump (stat : Stat)
  /-- `rte_eth_tx_burst` takes the first `sent` of the offered mbufs. -/
  | burst (port : Nat) (offered : List Mbuf) (sent : Nat)
  /-- `rte_pktmbuf_free` of `pkts[slot]` in `tx_flush`. -/
  | freeTx (port slot : Nat)
  /-- The call of a node's function pointer. -/
  | call (action : Action)
  /-- The value of `process_rules` that `ipv4_handle` discards. -/
  | rules (ret : Int)
  /-- An mbuf returned by `rte_eth_rx_burst` is passed to `dispatch_packet`. -/
  | receive (port : Nat)

/-- `struct core` and what reaches it from outside. Every index has a queue here; `tx_queues` has
`NATASHA_MAX_QUEUES`, and behind them the source stores over `stats`, `id` and the next core. -/
structure Worker where
  pkt : Mbuf
  txQueues : Nat → TxQueue
  stats : Stat → U64
  /-- The bursts still to be received. -/
  rx : Nat → RxBurst
  /-- How many mbufs the NIC is ready to take at each coming `rte_eth_tx_burst`. -/
  tx : Nat → Nat
  log : List Event

/-- The devices, as `rte_eth_dev_count` and `rte_eth_macaddr_get` report them. -/
structure Devices where
  count : Byte
  macaddr : Nat → Mac

abbrev M := Code Worker Op Ans

def Worker.start (pkt : Mbuf) (rx : Nat → RxBurst) (tx : Nat → Nat) : Worker where
  pkt := pkt
  txQueues _ := .empty
  stats _ := 0
  rx := rx
  tx := tx
  log := []

/-- Nothing is assumed about the configuration a load finds. -/
def anyAnswer (op : Op) (_ : Ans op) : Prop := True

/-- The answers of a master that never reloads. -/
def steadyAnswer (config : AppConfig) : (op : Op) → Ans op
  | .appConfig => ⟨0,config⟩
  | .flags _ => 0#32
  | .read _ _ | .setFlags _ _ | .dispatch => ()

/-- These answers and no others. -/
def steadyOnly (config : AppConfig) (op : Op) (answer : Ans op) : Prop := answer = steadyAnswer config op

namespace Worker

def logged (w : Worker) (e : Event) : Worker := { w with log := w.log ++ [e] }

@[simp] theorem logged_pkt (w : Worker) (e : Event) : (w.logged e).pkt = w.pkt := rfl
@[simp] theorem logged_txQueues (w : Worker) (e : Event) : (w.logged e).txQueues = w.txQueues := rfl
@[simp] theorem logged_stats (w : Worker) (e : Event) : (w.logged e).stats = w.stats := rfl
@[simp] theorem logged_rx (w : Worker) (e : Event) : (w.logged e).rx = w.rx := rfl
@[simp] theorem logged_tx (w : Worker) (e : Event) : (w.logged e).tx = w.tx := rfl
@[simp] theorem logged_log (w : Worker) (e : Event) : (w.logged e).log = w.log ++ [e] := rfl

def setQueue (w : Worker) (port : Nat) (queue : TxQueue) : Worker :=
  { w with txQueues := Function.update w.txQueues port queue }

@[simp] theorem setQueue_pkt (w : Worker) (port : Nat) (q : TxQueue) :
    (w.setQueue port q).pkt = w.pkt := rfl
@[simp] theorem setQueue_stats (w : Worker) (port : Nat) (q : TxQueue) :
    (w.setQueue port q).stats = w.stats := rfl
@[simp] theorem setQueue_log (w : Worker) (port : Nat) (q : TxQueue) :
    (w.setQueue port q).log = w.log := rfl
@[simp] theorem setQueue_txQueues (w : Worker) (port : Nat) (q : TxQueue) :
    (w.setQueue port q).txQueues = Function.update w.txQueues port q := rfl

end Worker

/-! ## Primitive operations -/

def event (e : Event) : M Unit := modify fun w => w.logged e

def readPkt (f : Mbuf → α) : M α := modifyGet fun w => (f w.pkt, w.logged .read)

def writePkt (f : Mbuf → Mbuf) : M Unit :=
  modify fun w => { w with pkt := f w.pkt, log := w.log ++ [.write] }

def load8 (off : Nat) : M Byte := readPkt fun m => m.data off
def load16 (off : Nat) : M U16 := readPkt fun m => m.data.load16 off
def load32 (off : Nat) : M U32 := readPkt fun m => m.data.load32 off
def loadMac (off : Nat) : M Mac := readPkt fun m => m.data.loadMac off

def store8 (off : Nat) (v : Byte) : M Unit :=
  writePkt fun m => { m with data := m.data.store8 off v }
def store16 (off : Nat) (v : U16) : M Unit :=
  writePkt fun m => { m with data := m.data.store16 off v }
def store32 (off : Nat) (v : U32) : M Unit :=
  writePkt fun m => { m with data := m.data.store32 off v }
def storeMac (off : Nat) (mac : Mac) : M Unit :=
  writePkt fun m => { m with data := m.data.storeMac off mac }

/-- `core->stats->stat++`, on a 64-bit counter. -/
def bump (stat : Stat) : M Unit :=
  modify fun w => { w with
    stats := Function.update w.stats stat (w.stats stat + 1), log := w.log ++ [.bump stat] }

def rtePktmbufFree : M Unit := event .free

def appConfig : M ConfigPtr := perform Op.appConfig

/-- A load through a configuration pointer. -/
def readConfig (p : ConfigPtr) (member : Member) : M Unit := perform (Op.read p member)

/-- The load and the store that make up an update of `config->flags`. -/
def loadFlags (p : ConfigPtr) : M U32 := perform (Op.flags p)
def storeFlags (p : ConfigPtr) (value : U32) : M Unit := perform (Op.setFlags p value)

/-- The call of `dispatch_packet` on the next mbuf. -/
def beginDispatch (port : Nat) (pkt : Mbuf) : M Unit := do
  modify fun w => { w with pkt := pkt, log := w.log ++ [.receive port] }
  perform Op.dispatch

/-! ## Transmit queues (pkt.c) -/

/-- The NIC takes between none and all of the mbufs offered. -/
def rteEthTxBurst (port : Nat) (pkts : List Mbuf) : M Nat :=
  modifyGet fun w =>
    let sent := min (w.tx 0) pkts.length
    (sent, { w with tx := fun i => w.tx (i+1), log := w.log ++ [.burst port pkts sent] })

/-- `while (n < queue->len)`: count and free the mbufs from `n` on, `remaining` of them. -/
def freeNotSent (port n : Nat) : (remaining : Nat) → M Unit
  | 0 => pure ()
  | remaining+1 => do
    bump .dropTxNotsent
    event (.freeTx port n)
    freeNotSent port (n+1) remaining

/-- `tx_flush` on the queue of `port`, which holds `pkts`. `rte_eth_tx_prepare` completes
the checksums of the mbufs for the NIC and is part of offering them. -/
def txFlush (port : Nat) (pkts : List Mbuf) : M Nat := do
  if pkts.length = 0 then
    return 0
  let sent ← rteEthTxBurst port pkts
  freeNotSent port sent (pkts.length - sent)
  modify fun w => w.setQueue port .empty
  return sent

def pktTxVlanPkt : U64 := 1 <<< 57

/-- `tx_send` of the mbuf under dispatch on the queue of `port`. -/
def txSend (port : Nat) : M Nat := do
  if (← readPkt Mbuf.vlanTci) ≠ 0#16 then
    writePkt fun m => { m with olFlags := m.olFlags ||| pktTxVlanPkt }
  writePkt fun m => { m with l2Len := sizeofEtherHdr, l3Len := sizeofIpv4Hdr }
  let w ← get
  let queue := w.txQueues port
  event (.enqueue port queue.pkts.length)
  let pkts := queue.pkts ++ [w.pkt]
  if h : pkts.length < maxTxBurst then
    modify fun w => w.setQueue port ⟨pkts,h⟩
    return 0
  else
    txFlush port pkts

/-! ## Own addresses (pkt.c) -/

def isNatashaPortIp (p : ConfigPtr) (ip : U32) (vlan : U16) (port : Nat) : M Bool := do
  readConfig p (.ports port)
  return (p.config.ports port).ipAddresses.any fun addr => addr.1 == ip && addr.2 == vlan

/-- The loop of `is_natasha_ip` over the ports still to be tried. -/
def isNatashaIpOn (p : ConfigPtr) (ip : U32) (vlan : U16) : List Nat → M Bool
  | [] => return false
  | port :: ports => do
    if (← isNatashaPortIp p ip vlan port) then
      return true
    isNatashaIpOn p ip vlan ports

def isNatashaIp (dev : Devices) (p : ConfigPtr) (ip : U32) (vlan : U16) : M Bool :=
  isNatashaIpOn p ip vlan (List.range dev.count.toNat)

end Natasha
