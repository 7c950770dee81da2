import Natasha.Reload

/-! The setup of core.c: every device is configured with the addresses the configuration has
for its port. The indices at which `app_config->ports` is read are recorded. -/
namespace Natasha

/-- What the calls for one device return. `setup_queues` does not look at the configuration. -/
structure EthDevice where
  /-- `tx_offload_capa` has the IPv4, the TCP and the UDP checksum. -/
  txOffloads : Bool
  configure : (mtu : Int) → Int
  vlanFilter : U16 → Int
  setupQueues : (enableVlanOffload : Bool) → Int
  start : Int

/-- The devices and cores of a run. -/
structure Host where
  ethDevCount : Byte
  device : Nat → EthDevice
  cores : Lcores
  /-- Whether `init_natasha_app_stats` of a core succeeds. -/
  stats : Nat → Bool
  /-- The result of the first `app_config_reload_all`. -/
  reload : Int

/-- Code that records the indices it reads. -/
abbrev Setup := StateM (List Int)

def portConfig (config : AppConfig) (port : Nat) : Setup PortConfig :=
  modifyGet fun reads => (config.ports port,reads ++ [(port : Int)])

/-- Accept traffic for VLANs: `none` if a filter cannot be set, else whether there is one. -/
def acceptVlans (dev : EthDevice) (enableVlanOffload : Bool) : List (U32 × U16) → Option Bool
  | [] => some enableVlanOffload
  | (_,vlan) :: rest =>
    if vlan = 0 then acceptVlans dev enableVlanOffload rest
    else if dev.vlanFilter vlan < 0 then none
    else acceptVlans dev true rest

/-- `setup_port`. The MTU is read for `jumbo_frame` and for `max_rx_pkt_len`. -/
def setupPort (dev : EthDevice) (config : AppConfig) (port : Nat) : Setup Int := do
  let _ ← portConfig config port
  let mtu := (← portConfig config port).mtu
  if !dev.txOffloads then
    return -1
  if (← portConfig config port).ipAddresses = [] then
    return -1
  if dev.configure mtu < 0 then
    return dev.configure mtu
  match acceptVlans dev false (← portConfig config port).ipAddresses with
  | none => return -1
  | some enableVlanOffload =>
    if dev.setupQueues enableVlanOffload < 0 then
      return dev.setupQueues enableVlanOffload
    if dev.start < 0 then
      return dev.start
    return 0

def setupPorts (host : Host) (config : AppConfig) : List Nat → Setup Int
  | [] => return 0
  | port :: ports => do
    if (← setupPort (host.device port) config port) < 0 then
      return -1
    setupPorts host config ports

/-- The end of `setup_app`: the statistics and the configuration of each worker. -/
def setupWorkers (host : Host) : Int :=
  if !host.cores.slaves.all host.stats then -1
  else if host.reload < 0 then -1
  else 0

/-- `setup_app` with the result of its `app_config_load`. The master core is one more than the
slaves. -/
def setupApp (host : Host) (appConfig : Option AppConfig) : Setup Int :=
  match appConfig with
  | none => return -1
  | some config => do
    if host.ethDevCount = 0 then
      return -1
    if host.cores.slaves.length + 1 < 2 then
      return -1
    if (← setupPorts host config (List.range host.ethDevCount.toNat)) < 0 then
      return -1
    return setupWorkers host

/-- The value returned by `setup_app` and the indices read. -/
def Host.setup (host : Host) (config : AppConfig) : Int × List Int := (setupApp host (some config)).run []

end Natasha
