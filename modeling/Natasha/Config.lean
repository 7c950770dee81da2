import Natasha.NatTable

/-! The configuration a worker runs: port addresses, NAT table and rules tree. A
configuration is written only while it is parsed; once a core can reach it, only its
`flags` word changes, so a pointer is modelled with the object it points to. -/
namespace Natasha

/-- `IPV4_SRC_ADDR` and `IPV4_DST_ADDR`. -/
inductive AddrField where
  | src
  | dst
  deriving DecidableEq, Repr

structure Ipv4Network where
  ip : U32
  mask : U32
  deriving DecidableEq

structure OutPacket where
  port : Byte
  vlan : Int
  nextHop : Mac
  deriving DecidableEq

/-- The functions an ACTION node can point to, each with its `data`. -/
inductive Action where
  | condIpv4SrcInNetwork (network : Ipv4Network)
  | condIpv4DstInNetwork (network : Ipv4Network)
  | condVlan (vlan : Int)
  | natRewrite (field : AddrField)
  | out (packet : OutPacket)
  | print
  | drop
  deriving DecidableEq

/-- Conditions return a boolean and leave the packet alone. -/
def Action.isCond : Action → Bool
  | .condIpv4SrcInNetwork _ | .condIpv4DstInNetwork _ | .condVlan _ => true
  | _ => false

/-- A `struct app_config_node *`; `null` is the NULL pointer. -/
inductive Node where
  | null
  | noop
  | action (action : Action)
  | seq (left right : Node)
  | ifElse (left right : Node)
  | cond (left right : Node)
  | and (left right : Node)
  | or (left right : Node)
  deriving DecidableEq

/-- `struct port_config`, with the `port_ip_addr` list as pairs of address and VLAN. -/
structure PortConfig where
  ipAddresses : List (U32 × U16)
  mtu : Int
  deriving DecidableEq

/-- `NATASHA_MAX_ETHPORTS`: the declared length of `app_config.ports`. -/
def natashaMaxEthports : Nat := 2

/-- `struct app_config` without `flags`. Every index has a cell here, also those outside of the C
array, where the source stores over `nat_lookup`, `rules` and `flags`: which indices are used is a
property of the code, and what is read back is that of the source where they are in range. -/
structure AppConfig where
  ports : Int → PortConfig
  natLookup : NatLookup
  rules : Node

/-- The object as `rte_zmalloc` returns it. -/
def AppConfig.zeroed : AppConfig := ⟨fun _ => ⟨[],0⟩,none,.null⟩

/-- A `struct app_config *` and the object at that address. -/
structure ConfigPtr where
  addr : Nat
  config : AppConfig

def natFlagUsed : U32 := 0x0001

/-- What is read through a configuration pointer. -/
inductive Member where
  | ports (index : Int)
  | natLookup
  | rules
  deriving DecidableEq

/-- Accesses of a worker to memory it shares with the master. `dispatch` is no access:
it marks the start of a packet. -/
inductive Op where
  | appConfig
  | read (p : ConfigPtr) (member : Member)
  | flags (p : ConfigPtr)
  | setFlags (p : ConfigPtr) (value : U32)
  | dispatch

def Ans : Op → Type
  | .appConfig => ConfigPtr
  | .flags _ => U32
  | .read _ _ | .setFlags _ _ | .dispatch => Unit

end Natasha
