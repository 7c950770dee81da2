import Natasha.ActionNat

/-! Actions, conditions and the interpreter of the rules tree (action_*.c, cond_*.c and
`process_rules` of ipv4.c). -/
namespace Natasha

open Interaction

def pktTxIpv4 : U64 := 1 <<< 55

/-- `~0 << (32 - mask)` on a 32-bit `int`, with the shift count taken modulo 32 as x86 does. -/
def networkMask (mask : U32) : U32 := (~~~(0 : U32)) <<< ((32 - mask).toNat % 32)

def ipv4InNetwork (ip : U32) (network : Ipv4Network) : Bool :=
  ip &&& networkMask network.mask == network.ip &&& networkMask network.mask

/-- The address `cond_ipv4_*_in_network` tests. -/
def condInNetwork (field : AddrField) (network : Ipv4Network) : M Int := do
  let addr ← load32 (ipv4Header + field.offset)
  return (ipv4InNetwork (rteBeToCpu32 addr) network).toInt

def condVlan (vlan : Int) : M Int := do
  let id ← readPkt Mbuf.vlanId
  return (decide ((id.toNat : Int) = vlan)).toInt

def actionDrop : M Int := do
  bump .dropNatCondition
  rtePktmbufFree
  return -1

/-- `action_print` only formats header fields for the log: the addresses, and by protocol
the ports (and TCP flags), the ICMP type and code, or the protocol number. -/
def actionPrint : M Int := do
  let _ ← load32 (ipv4Header + Ipv4.srcAddr)
  let _ ← load32 (ipv4Header + Ipv4.dstAddr)
  let nextProtoId ← load8 (ipv4Header + Ipv4.nextProtoId)
  if nextProtoId = ipprotoTcp then
    let _ ← load32 l4Header
    let _ ← load8 (l4Header + Tcp.tcpFlags)
    return 0
  else if nextProtoId = ipprotoUdp then
    let _ ← load32 l4Header
    return 0
  else if nextProtoId = ipprotoIcmp then
    let _ ← load16 (l4Header + Icmp.icmpType)
    return 0
  else
    return 0

/-- `action_out`. The source address is that of the ingress `port`. -/
def actionOut (dev : Devices) (port : Nat) (out : OutPacket) : M Int := do
  storeMac Eth.sAddr (dev.macaddr port)
  storeMac Eth.dAddr out.nextHop
  writePkt fun m => { m with olFlags := m.olFlags ||| pktTxIpv4 }
  writePkt fun m => { m with vlanTci := .ofInt 16 out.vlan }
  let _ ← txSend out.port.toNat
  return -1

/-- `node->action(pkt, port, core, node->data)`. -/
def Action.invoke (dev : Devices) (port : Nat) (action : Action) : M Int := do
  event (.call action)
  match action with
  | .condIpv4SrcInNetwork network => condInNetwork .src network
  | .condIpv4DstInNetwork network => condInNetwork .dst network
  | .condVlan vlan => Natasha.condVlan vlan
  | .natRewrite field => actionNatRewrite field
  | .out packet => actionOut dev port packet
  | .print => actionPrint
  | .drop => actionDrop

/-- `process_rules` on a node of the tree that `config` points to; each visited node is a
load through that pointer. -/
def processRules (dev : Devices) (port : Nat) (config : ConfigPtr) : Node → M Int
  | .null => return 0
  | .noop => do
    readConfig config .rules
    return 0
  | .action action => do
    readConfig config .rules
    action.invoke dev port
  | .seq left right => do
    readConfig config .rules
    if (← processRules dev port config left) < 0 then return -1
    if (← processRules dev port config right) < 0 then return -1
    return 0
  | .ifElse left right => do
    readConfig config .rules
    let ret ← processRules dev port config left
    if ret < 0 then return -1
    if ret = 0 then
      if (← processRules dev port config right) < 0 then return -1
    return 0
  | .cond left right => do
    readConfig config .rules
    let ret ← processRules dev port config left
    if ret < 0 then return -1
    if ret = 0 then return 0
    if (← processRules dev port config right) < 0 then return -1
    return 1
  | .and left right => do
    readConfig config .rules
    let ret ← processRules dev port config left
    if ret < 0 then return -1
    if ret = 0 then return 0
    let ret ← processRules dev port config right
    if ret < 0 then return -1
    return ret
  | .or left right => do
    readConfig config .rules
    let ret ← processRules dev port config left
    if ret < 0 then return -1
    if ret ≠ 0 then return 1
    let ret ← processRules dev port config right
    if ret < 0 then return -1
    return ret

end Natasha
