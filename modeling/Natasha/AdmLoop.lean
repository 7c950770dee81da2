import Mathlib.Data.Fintype.Card
import Natasha.Adm

/-! The loop of the administration server: the table of clients, the counter next to it and the
descriptors that are accepted and closed. What the sockets do is asked from the environment;
the history of the descriptors is ghost state that no step depends on. -/
namespace Natasha.Adm

open Interaction

def natashaMaxClients : Nat := 2

/-- `struct natasha_client`; a slot is free when `fd` is zero. -/
structure NatashaClient where
  fd : Int
  buf : Buffer

def NatashaClient.free : NatashaClient := ⟨0,fun _ => 0⟩

/-- What happens to descriptors, in order. -/
inductive SocketEvent where
  | accepted (fd : Int)
  | closed (fd : Int)
  | sent (fd : Int) (bytes : List Byte)
  deriving DecidableEq

/-- The locals of `adm_loop`, and the history. -/
structure Loop where
  clients : Fin natashaMaxClients → NatashaClient
  curClients : Int
  slavesAlive : Nat
  history : List SocketEvent

def Loop.start : Loop := ⟨fun _ => .free,0,0,[]⟩

/-! ## Descriptors -/

/-- Whether `fd` is open after an event; `none` when it was accepted while it was open or closed
while it was not. -/
def SocketEvent.track (fd : Int) (opened : Option Bool) (event : SocketEvent) : Option Bool :=
  match event with
  | .accepted cs => if cs = fd then (if opened = some false then some true else none) else opened
  | .closed cs => if cs = fd then (if opened = some true then some false else none) else opened
  | .sent _ _ => opened

/-- Whether `fd` is open after a history. -/
def isOpen (fd : Int) (history : List SocketEvent) : Option Bool := history.foldl (SocketEvent.track fd) (some false)

/-! ## The environment -/

inductive Selected where
  /-- The descriptors that are left in `readfds`. -/
  | ready (readfds : List Int)
  /-- `EINTR`: the set stays as it was. -/
  | interrupted
  | failed

inductive LoopOp where
  | select (nfds : Int) (readfds : List Int)
  /-- The number of slaves that are `RUNNING`. -/
  | slavesRunning
  /-- `accept`, which the kernel answers with a descriptor that is not open. -/
  | accept (inUse : Int → Bool)
  | fcntl (fd : Int)
  /-- `read` into `buf`, `none` for -1. -/
  | read (fd : Int)
  /-- The stack a handler finds for its reply. -/
  | stack
  | handler (op : Op)

def LoopAns : LoopOp → Type
  | .select _ _ => Selected
  | .slavesRunning => Nat
  | .accept _ => Int
  | .fcntl _ => Int
  | .read _ => Option (List Byte)
  | .stack => NatashaCmdReply
  | .handler op => Ans op

def sizeofBuf : Nat := 4096

/-- `select` leaves some of the descriptors, `accept` returns neither zero nor a descriptor that
is open, and `read` stays inside of `buf`. -/
def kernel : (op : LoopOp) → LoopAns op → Prop
  | .select _ readfds, (.ready left : Selected) => ∀ fd ∈ left, fd ∈ readfds
  | .accept inUse, (cs : Int) => cs < 0 ∨ (cs ≠ 0 ∧ inUse cs = false)
  | .read _, (some bytes : Option (List Byte)) => bytes.length ≤ sizeofBuf
  | _, _ => True

abbrev LoopM := Code Loop LoopOp LoopAns

def select (nfds : Int) (readfds : List Int) : LoopM Selected := perform (LoopOp.select nfds readfds)
def slavesRunning : LoopM Nat := perform LoopOp.slavesRunning
def accept (inUse : Int → Bool) : LoopM Int := perform (LoopOp.accept inUse)
def fcntl (fd : Int) : LoopM Int := perform (LoopOp.fcntl fd)
def read (fd : Int) : LoopM (Option (List Byte)) := perform (LoopOp.read fd)
def stack : LoopM NatashaCmdReply := perform LoopOp.stack
def handler (code : Program Op Ans α) : LoopM α := StateT.lift (code.embed LoopOp.handler)

/-! ## The loop -/

def log (event : SocketEvent) : LoopM PUnit := modify fun l => { l with history := l.history ++ [event] }

def close (fd : Int) : LoopM PUnit := log (.closed fd)

/-- `disconnect_client`. -/
def disconnectClient (i : Fin natashaMaxClients) : LoopM PUnit := do
  close ((← get).clients i).fd
  modify fun l => { l with clients := Function.update l.clients i .free }

/-- `disconnect_client(&clients[i]); --cur_clients;`. -/
def dropClient (i : Fin natashaMaxClients) : LoopM PUnit := do
  disconnectClient i
  modify fun l => { l with curClients := l.curClients - 1 }

/-- `check_slaves_alive`; `false` is the call of `rte_exit`. -/
def checkSlavesAlive : LoopM Bool := do
  let ok ← slavesRunning
  if ok = 0 then
    return false
  modify fun l => { l with slavesAlive := ok }
  return true

/-- The descriptors of the slots that are in use. -/
def Loop.fds (l : Loop) : List Int :=
  ((List.finRange natashaMaxClients).map fun i => (l.clients i).fd).filter (· ≠ 0)

/-- The last branch for a new client: the first slot that is free. -/
def appendClient (cs : Int) : LoopM PUnit := modify fun l =>
  match (List.finRange natashaMaxClients).find? fun i => (l.clients i).fd = 0 with
  | some i =>
    { l with clients := Function.update l.clients i { l.clients i with fd := cs }, curClients := l.curClients + 1 }
  | none => l

def acceptClient (s : Int) : LoopM PUnit := do
  let l ← get
  let cs ← accept fun fd => fd = s || isOpen fd l.history = some true
  if cs < 0 then
    return
  log (.accepted cs)
  if l.curClients ≥ natashaMaxClients then
    close cs
  else
    if (← fcntl cs) < 0 then
      close cs
    else
      appendClient cs

/-- `handle_client_query` on the query in `buf`, with what it sends to the client. -/
def handleQuery (server : Server) (i : Fin natashaMaxClients) : LoopM Int := do
  let client := (← get).clients i
  let frame ← stack
  let handled ← handler ((handleClientQuery server (client.buf 0) frame).run [])
  log (.sent client.fd handled.2)
  return handled.1

/-- The bytes of a `read` are stored in front of what was there. -/
def Buffer.fill (buf : Buffer) (bytes : List Byte) : Buffer := fun k => bytes.getD k (buf k)

def sizeofNatashaQuery : Nat := 1

/-- What follows a `read` on the descriptor of a slot. -/
def handleRead (server : Server) (i : Fin natashaMaxClients) (nbread : Option (List Byte)) : LoopM PUnit :=
  match nbread with
  | none => dropClient i
  | some bytes => do
    modify fun l => { l with
      clients := Function.update l.clients i { l.clients i with buf := Buffer.fill (l.clients i).buf bytes } }
    if bytes.length = 0 then
      dropClient i
    else if sizeofNatashaQuery ≠ bytes.length then
      dropClient i
    else if (← handleQuery server i) < 0 then
      dropClient i

/-- The last loop: one client is read in an iteration. -/
def readClients (server : Server) (readfds : List Int) : LoopM PUnit := do
  let l ← get
  match (List.finRange natashaMaxClients).find? fun i => (l.clients i).fd ∈ readfds with
  | none => return
  | some i => do
    let nbread ← read (l.clients i).fd
    handleRead server i nbread

/-- How an iteration ends. -/
inductive Control where
  | next
  | exitFailure
  | rteExit
  deriving DecidableEq

/-- One round of `adm_loop` on the listening socket `s`. -/
def iterate (server : Server) (s : Int) : LoopM Control := do
  let l ← get
  let maxfd := l.fds.foldl (fun maxfd fd => if fd ≥ maxfd then fd else maxfd) s
  match ← select (maxfd + 1) (s :: l.fds) with
  | .failed => return .exitFailure
  | .ready readfds => serveReady readfds
  | .interrupted => serveReady (s :: l.fds)
where
  serveReady (readfds : List Int) : LoopM Control := do
    if (← checkSlavesAlive) = false then
      return .rteExit
    if s ∈ readfds then
      acceptClient s
    readClients server readfds
    return .next

/-- The states in which the loop begins an iteration. -/
inductive Reaches (server : Server) (s : Int) : Loop → Prop
  | start : Reaches server s .start
  | next (reached : Reaches server s l) (ends : Ends kernel (iterate server s) l (.next,l')) : Reaches server s l'

end Natasha.Adm
