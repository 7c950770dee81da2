import Mathlib.Data.List.ModifyLast
import Natasha.AdmClients
import Natasha.AdmReplies

/-! The administration server from its first call on: `adm_server` opens the socket that `adm_loop`
listens on, and every client is sent the responses to its own queries. -/
namespace Natasha.Adm

open Interaction Wire

/-! ## The listening socket -/

inductive SocketOp where
  /-- `signal(SIGPIPE, SIG_IGN)`. -/
  | ignoreSigpipe
  | socket
  /-- `SO_REUSEADDR`. -/
  | setReuseaddr (s : Int)
  | setNonblock (s : Int)
  | bind (s : Int) (addr : U32) (port : U16)
  | listen (s : Int) (backlog : Nat)
  | close (s : Int)

def SocketAns : SocketOp → Type
  | .ignoreSigpipe | .close _ => Unit
  | .socket | .setReuseaddr _ | .setNonblock _ | .bind .. | .listen .. => Int

abbrev SocketM := Program SocketOp SocketAns

namespace SocketM

def ignoreSigpipe : SocketM Unit := Program.perform SocketOp.ignoreSigpipe
def socket : SocketM Int := Program.perform SocketOp.socket
def setReuseaddr (s : Int) : SocketM Int := Program.perform (SocketOp.setReuseaddr s)
def setNonblock (s : Int) : SocketM Int := Program.perform (SocketOp.setNonblock s)
def bind (s : Int) (addr : U32) (port : U16) : SocketM Int := Program.perform (SocketOp.bind s addr port)
def listen (s : Int) (backlog : Nat) : SocketM Int := Program.perform (SocketOp.listen s backlog)
def close (s : Int) : SocketM Unit := Program.perform (SocketOp.close s)

end SocketM

def natashaSocketPort : U16 := 4242

/-- `inet_addr("127.0.0.1")`. -/
def loopback : U32 := 0x7f000001

/-- `adm_server` up to `adm_loop`: the socket that it passes, or `EXIT_FAILURE`. -/
def admServer : SocketM (Option Int) := do
  SocketM.ignoreSigpipe
  let s ← SocketM.socket
  if s < 0 then
    return none
  if (← SocketM.setReuseaddr s) < 0 then
    SocketM.close s
    return none
  if (← SocketM.setNonblock s) < 0 then
    SocketM.close s
    return none
  if (← SocketM.bind s loopback natashaSocketPort) < 0 then
    SocketM.close s
    return none
  if (← SocketM.listen s natashaMaxClients) < 0 then
    SocketM.close s
    return none
  return some s

/-- A socket that is open. -/
structure Listener where
  fd : Int
  reuseaddr : Bool
  nonblock : Bool
  address : Option (U32 × U16)
  backlog : Option Nat

structure Sockets where
  sigpipeIgnored : Bool
  opened : Option Listener

def Sockets.boot : Sockets := ⟨false,none⟩

/-- An address is bound once, and reused only if that was asked for before. -/
def Sockets.Allows (t : Sockets) : SocketOp → Prop
  | .ignoreSigpipe => True
  | .socket => t.opened = none
  | .setReuseaddr s | .bind s _ _ => ∃ k, t.opened = some k ∧ k.fd = s ∧ k.address = none
  | .setNonblock s | .close s => ∃ k, t.opened = some k ∧ k.fd = s
  | .listen s _ => ∃ k, t.opened = some k ∧ k.fd = s ∧ k.address ≠ none

/-- Descriptor zero is in use. -/
def Sockets.Admits (_ : Sockets) : (op : SocketOp) → SocketAns op → Prop
  | .socket, (s : Int) => s ≠ 0
  | _, _ => True

def Sockets.advance (t : Sockets) : (op : SocketOp) → SocketAns op → Sockets
  | .ignoreSigpipe, _ => { t with sigpipeIgnored := true }
  | .socket, (s : Int) => if s < 0 then t else { t with opened := some ⟨s,false,false,none,none⟩ }
  | .setReuseaddr _, (ret : Int) =>
    if ret < 0 then t else { t with opened := t.opened.map fun k => { k with reuseaddr := true } }
  | .setNonblock _, (ret : Int) =>
    if ret < 0 then t else { t with opened := t.opened.map fun k => { k with nonblock := true } }
  | .bind _ addr port, (ret : Int) =>
    if ret < 0 then t else { t with opened := t.opened.map fun k => { k with address := some (addr,port) } }
  | .listen _ backlog, (ret : Int) =>
    if ret < 0 then t else { t with opened := t.opened.map fun k => { k with backlog := some backlog } }
  | .close _, _ => { t with opened := none }

def socketCalls : Protocol SocketOp SocketAns Sockets := ⟨Sockets.Allows,Sockets.Admits,Sockets.advance⟩

/-- The socket that `adm_loop` is to be given. -/
def listening (s : Int) : Sockets := ⟨true,some ⟨s,true,true,some (loopback,natashaSocketPort),some natashaMaxClients⟩⟩

/-- How `adm_server` ends before `adm_loop`. -/
def Opens (ret : Option Int) (t : Sockets) : Prop :=
  (ret = none ∧ t.opened = none) ∨ ∃ s, ret = some s ∧ s ≠ 0 ∧ t = listening s

theorem close_keeps {t : Sockets} {k : Listener} (opened : t.opened = some k) :
    socketCalls.Keeps Opens (do SocketM.close k.fd; return none) t :=
  ⟨⟨k,opened,rfl⟩,fun _ _ => .inl ⟨rfl,rfl⟩⟩

/-- One more call on the socket, which is closed when the call fails. -/
theorem orClose_keeps {call : SocketM Int} {rest : SocketM (Option Int)} (k k' : Listener)
    (called : socketCalls.Keeps (fun ret t => t = if ret < 0 then ⟨true,some k⟩ else ⟨true,some k'⟩) call ⟨true,some k⟩)
    (after : socketCalls.Keeps Opens rest ⟨true,some k'⟩) :
    socketCalls.Keeps Opens (do
      if (← call) < 0 then
        SocketM.close k.fd
        return none
      rest) ⟨true,some k⟩ := by
  refine called.bind fun ret t same => .ite (fun failed => ?_) fun success => ?_
  · rw [if_pos failed] at same
    exact same ▸ close_keeps rfl
  · rw [if_neg success] at same
    exact same ▸ after

/-- A socket is closed where a call fails, and set up whole where none does. -/
theorem admServer_keeps : socketCalls.Keeps Opens admServer .boot := by
  refine .call trivial fun _ _ => .call rfl fun (s : Int) nonzero => .ite (fun failed => ?_) fun success => ?_
  · exact .inl ⟨rfl,congrArg Sockets.opened (if_pos failed)⟩
  have opened : socketCalls.advance ⟨true,none⟩ .socket s = ⟨true,some ⟨s,false,false,none,none⟩⟩ := if_neg success
  change socketCalls.Keeps Opens _ (socketCalls.advance ⟨true,none⟩ .socket s)
  rw [opened]
  let address := some (loopback,natashaSocketPort)
  refine orClose_keeps ⟨s,false,false,none,none⟩ ⟨s,true,false,none,none⟩ ⟨⟨_,rfl,rfl,rfl⟩,fun _ _ => rfl⟩ ?_
  refine orClose_keeps ⟨s,true,false,none,none⟩ ⟨s,true,true,none,none⟩ ⟨⟨_,rfl,rfl⟩,fun _ _ => rfl⟩ ?_
  refine orClose_keeps ⟨s,true,true,none,none⟩ ⟨s,true,true,address,none⟩ ⟨⟨_,rfl,rfl,rfl⟩,fun _ _ => rfl⟩ ?_
  refine orClose_keeps ⟨s,true,true,address,none⟩ ⟨s,true,true,address,some natashaMaxClients⟩
    ⟨⟨_,rfl,rfl,nofun⟩,fun _ _ => rfl⟩ ?_
  exact .inr ⟨s,rfl,nonzero,rfl⟩

/-! ## Conversations -/

/-- A query that was read, and what its handler was answered. -/
structure Query where
  type : Byte
  seen : List Event

/-- The queries on every descriptor since it was accepted, and the one that was read last. -/
structure Journal where
  queries : Int → List Query
  current : Int

def Journal.empty : Journal := ⟨fun _ => [],0⟩

def Journal.write (j : Journal) (fd : Int) (queries : List Query) : Journal :=
  { j with queries := Function.update j.queries fd queries }

def Query.hear (q : Query) (op : Op) (answer : Ans op) : Query := { q with seen := record q.seen op answer }

/-- A conversation begins anew when its descriptor is accepted. -/
def Journal.advance (j : Journal) : (op : LoopOp) → LoopAns op → Journal
  | .accept _, (cs : Int) => if cs < 0 then j else j.write cs []
  | .read fd, (some [type] : Option (List Byte)) => { j.write fd (j.queries fd ++ [⟨type,[]⟩]) with current := fd }
  | .handler op, answer => j.write j.current ((j.queries j.current).modifyLast fun q => q.hear op answer)
  | _, _ => j

def journal : Protocol LoopOp LoopAns Journal := ⟨fun _ _ => True,fun _ => kernel,Journal.advance⟩

/-- The states in which `adm_loop` begins an iteration, with the queries until then. -/
inductive Attends (server : Server) (s : Int) : Loop → Journal → Prop
  | start : Attends server s .start .empty
  | next (attends : Attends server s l j) (path : journal.Path ((iterate server s).run l) j (.done (.next,l')) j') :
      Attends server s l' j'

/-- What an event adds to the bytes that a client was sent. -/
def SocketEvent.extend (fd : Int) (bytes : List Byte) : SocketEvent → List Byte
  | .accepted cs => if cs = fd then [] else bytes
  | .sent cs more => if cs = fd then bytes ++ more else bytes
  | .closed _ => bytes

/-- The bytes that were sent on a descriptor since it was accepted. -/
def stream (fd : Int) (history : List SocketEvent) : List Byte := history.foldl (SocketEvent.extend fd) []

theorem stream_append (fd : Int) (history : List SocketEvent) (event : SocketEvent) :
    stream fd (history ++ [event]) = event.extend fd (stream fd history) := by
  rw [stream,List.foldl_append,List.foldl_cons,List.foldl_nil,stream]

/-- Bytes that are one response after another, to one query after another. -/
def Answered (server : Server) (queries : List Query) (bytes : List Byte) : Prop :=
  ∃ answers : List (Query × List Byte × Response), answers.map (fun a => a.1) = queries ∧
    answers.flatMap (fun a => a.2.1) = bytes ∧
    ∀ a ∈ answers, Decodes readResponse a.2.1 a.2.2 ∧ a.2.2.type = a.1.type ∧ Reports server a.2.2 a.1.seen

namespace Answered

variable {server : Server} {queries : List Query} {bytes : List Byte}

theorem nil : Answered server [] [] := ⟨[],rfl,rfl,nofun⟩

theorem concat (answered : Answered server queries bytes) {word : List Byte} {response : Response} {seen : List Event}
    (reads : Decodes readResponse word response) (reports : Reports server response seen) :
    Answered server (queries ++ [⟨response.type,seen⟩]) (bytes ++ word) := by
  obtain ⟨answers,rfl,rfl,each⟩ := answered
  refine ⟨answers ++ [(⟨response.type,seen⟩,word,response)],by simp,by simp,fun a member => ?_⟩
  rcases List.mem_append.mp member with before | last
  · exact each a before
  · obtain rfl := List.mem_singleton.mp last
    exact ⟨reads,rfl,reports⟩

/-- The client reads as many responses as it has sent queries. -/
theorem responses (answered : Answered server queries bytes) : ∃ responses,
    (repeated readResponse queries.length).run bytes = some (responses,[]) ∧
      List.Forall₂ (fun q r => r.type = q.type ∧ Reports server r q.seen) queries responses := by
  obtain ⟨answers,rfl,rfl,each⟩ := answered
  refine ⟨answers.map fun a => a.2.2,?_,?_⟩
  · exact (Decodes.repeated answers (by simp) fun a member => (each a member).1).whole
  · rw [List.forall₂_map_left_iff,List.forall₂_map_right_iff,List.forall₂_same]
    exact fun a member => (each a member).2

end Answered

/-- Every client has the answers to its queries. -/
def Loop.Attended (server : Server) (l : Loop) (j : Journal) : Prop :=
  ∀ i, l.fd i ≠ 0 → Answered server (j.queries (l.fd i)) (stream (l.fd i) l.history)

section Attending

variable {server : Server} {s : Int} {l : Loop} {j : Journal} {i : Fin natashaMaxClients} {queries : List Query} {type : Byte}

/-- The other clients are not touched. -/
def Loop.OthersAttended (server : Server) (i : Fin natashaMaxClients) (l : Loop) (j : Journal) : Prop :=
  ∀ k ≠ i, l.fd k ≠ 0 → Answered server (j.queries (l.fd k)) (stream (l.fd k) l.history)

theorem Loop.OthersAttended.attended {l' : Loop} {fd : Int} (others : l.OthersAttended server i j)
    (fds : l'.fd = Function.update l.fd i fd) (streams : ∀ fd, stream fd l'.history = stream fd l.history)
    (here : fd ≠ 0 → Answered server (j.queries fd) (stream fd l.history)) : l'.Attended server j := by
  intro k used
  rw [fds] at used ⊢
  rw [streams]
  by_cases same : k = i
  · rw [same,Function.update_self] at used ⊢
    exact here used
  · rw [Function.update_of_ne same] at used ⊢
    exact others k same used

theorem dropClient_attends (others : l.OthersAttended server i j) :
    journal.Conforms (dropClient i) l j fun _ l' j' => l'.Attended server j' := by
  change Loop.Attended server _ j
  exact others.attended (fd_update l.clients i .free) (fun fd => stream_append fd l.history _) fun used => absurd rfl used

/-- What a handler is answered is written down with its query. -/
theorem write_advance {fd : Int} (current : j.current = fd) (op : Op) (answer : Ans op) (seen : List Event) :
    (j.write fd (queries ++ [⟨type,seen⟩])).advance (.handler op) answer =
      j.write fd (queries ++ [⟨type,record seen op answer⟩]) := by
  subst current
  simp [Journal.advance,Journal.write,Query.hear,List.modifyLast_concat]

theorem handleQuery_attends (sized : server.Sized) (current : j.current = l.fd i)
    (asked : j.queries (l.fd i) = queries ++ [⟨(l.clients i).buf 0,[]⟩])
    (before : Answered server queries (stream (l.fd i) l.history)) :
    journal.Conforms (handleQuery server i) l j fun ret l' j' => (ret = 0 ∨ ret = -1) ∧ l'.fd = l.fd ∧
      (∀ fd ≠ l.fd i, j'.queries fd = j.queries fd ∧ stream fd l'.history = stream fd l.history) ∧
      (ret = 0 → Answered server (j'.queries (l.fd i)) (stream (l.fd i) l'.history)) := by
  let writing (seen : List Event) : Journal := j.write (l.fd i) (queries ++ [⟨(l.clients i).buf 0,seen⟩])
  have start : writing [] = j := by simp [writing,Journal.write,← asked]
  have stacked : journal.Conforms stack l j fun _ l' j' => l = l' ∧ j = j' := .perform trivial fun _ _ => ⟨rfl,rfl⟩
  have handled (frame : NatashaCmdReply) :
      journal.Conforms (handler ((handleClientQuery server ((l.clients i).buf 0) frame).run [])) l j
        fun handled l' j' => l = l' ∧ ∃ seen, j' = writing seen ∧
          Replies server ((l.clients i).buf 0) [] handled.1 handled.2 seen := by
    have written (seen : List Event) (op : Op) (answer : Ans op) :
        (journal.embedded LoopOp.handler).advance (writing seen) op answer = writing (record seen op answer) :=
      write_advance current op answer seen
    have replied : recorder.Conforms (handleClientQuery server ((l.clients i).buf 0) frame) [] []
        (Replies server ((l.clients i).buf 0) []) := handleClientQuery_replies sized _ frame
    have moved := Protocol.Keeps.transport writing (fun _ _ _ => trivial) (fun _ _ _ _ => trivial) written replied
    rw [start] at moved
    exact (Protocol.Conforms.lift (Protocol.keeps_embed moved)).mono fun _ _ _ kept => ⟨kept.1.symm,kept.2⟩
  refine .get_bind (stacked.bind ?_)
  rintro frame _ _ ⟨rfl,rfl⟩
  refine (handled frame).bind ?_
  rintro ⟨ret,sent⟩ _ _ ⟨rfl,seen,rfl,ended,success⟩
  refine ⟨ended,rfl,fun fd other => ⟨Function.update_of_ne other ..,?_⟩,fun zero => ?_⟩
  · exact (stream_append fd l.history _).trans (if_neg other.symm)
  · obtain ⟨word,response,rfl,reads,typed,reports⟩ := success zero
    have answered := before.concat reads reports
    rw [typed] at answered
    change Answered server _ (stream (l.fd i) (l.history ++ [.sent (l.fd i) sent]))
    rw [stream_append,SocketEvent.extend,if_pos rfl]
    have last : (writing seen).queries (l.fd i) = queries ++ [⟨(l.clients i).buf 0,seen⟩] := Function.update_self ..
    rw [last]
    exact answered

theorem handleRead_attends (sized : server.Sized) (consistent : l.Consistent s) (attended : l.Attended server j)
    (used : l.fd i ≠ 0) (nbread : Option (List Byte)) :
    journal.Conforms (handleRead server i nbread) l (j.advance (.read (l.fd i)) nbread) fun _ l' j' =>
      l'.Attended server j' := by
  have apart (k : Fin natashaMaxClients) (different : k ≠ i) : l.fd k ≠ l.fd i :=
    fun same => different (consistent.distinct k i same (same ▸ used))
  cases nbread with
  | none => exact dropClient_attends fun k _ here => attended k here
  | some bytes =>
    refine .modify_bind ?_
    generalize filled : ({ l with clients := _ } : Loop) = l'
    have fds : l'.fd = l.fd := by
      subst l'
      exact (fd_update l.clients i _).trans (Function.update_eq_self i l.fd)
    have history : l'.history = l.history := by rw [← filled]
    have buf : (l'.clients i).buf = Buffer.fill (l.clients i).buf bytes := by
      subst l'
      change (Function.update l.clients i _ i).buf = _
      rw [Function.update_self]
    have others (j' : Journal) (same : ∀ fd ≠ l.fd i, j'.queries fd = j.queries fd) : l'.OthersAttended server i j' := by
      intro k different here
      rw [fds] at here ⊢
      rw [history,same _ (apart k different)]
      exact attended k here
    cases bytes with
    | nil => exact .ite (fun _ => dropClient_attends (others j fun _ _ => rfl)) fun some => absurd rfl some
    | cons type more =>
      cases more with
      | nil =>
        refine .ite (fun none => nomatch none) fun _ => .ite (fun long => absurd rfl long) fun _ => ?_
        have current : (j.advance (.read (l.fd i)) (some [type])).current = l'.fd i := by rw [fds]; rfl
        have asked : (j.advance (.read (l.fd i)) (some [type])).queries (l'.fd i) =
            j.queries (l.fd i) ++ [⟨(l'.clients i).buf 0,[]⟩] := by
          rw [fds,buf]
          exact Function.update_self ..
        have before : Answered server (j.queries (l.fd i)) (stream (l'.fd i) l'.history) := by
          rw [fds,history]
          exact attended i used
        refine (handleQuery_attends sized current asked before).bind ?_
        rintro ret l'' j'' ⟨ended,fds',same,success⟩
        have others' : l''.OthersAttended server i j'' := by
          intro k different here
          rw [fds'] at here ⊢
          have other : l'.fd k ≠ l'.fd i := by rw [fds]; exact apart k different
          rw [(same _ other).1,(same _ other).2]
          exact others _ (fun fd elsewhere => Function.update_of_ne elsewhere ..) k different here
        refine .ite (fun _ => dropClient_attends others') fun nonneg => .pure ?_
        have zero : ret = 0 := ended.resolve_right fun failed => nonneg (failed ▸ by decide)
        refine others'.attended (Function.update_eq_self i l''.fd).symm (fun _ => rfl) fun _ => ?_
        rw [fds']
        exact success zero
      | cons next more =>
        refine .ite (fun none => nomatch none) fun _ => .ite (fun _ => dropClient_attends (others j fun _ _ => rfl)) fun one => ?_
        exact absurd one (by simp [sizeofNatashaQuery])

theorem readClients_attends (sized : server.Sized) (consistent : l.Consistent s) (attended : l.Attended server j)
    {readfds : List Int} (zero : 0 ∉ readfds) :
    journal.Conforms (readClients server readfds) l j fun _ l' j' => l'.Attended server j' := by
  refine .get_bind ?_
  split
  · exact .pure attended
  · rename_i i found
    have ready : l.fd i ∈ readfds := by simpa [Loop.fd] using List.find?_some found
    have received : journal.Conforms (read (l.clients i).fd) l j fun nbread l' j' =>
        l = l' ∧ j' = j.advance (.read (l.fd i)) nbread := .perform trivial fun _ _ => ⟨rfl,rfl⟩
    refine received.bind ?_
    rintro nbread _ _ ⟨rfl,rfl⟩
    exact handleRead_attends sized consistent attended (fun free => zero (free ▸ ready)) nbread

/-- A new client has asked nothing yet. -/
theorem appendClient_attends {cs : Int} (attended : l.Attended server j) (silent : j.queries cs = [])
    (fresh : stream cs l.history = []) :
    journal.Conforms (appendClient cs) l j fun _ l' j' => l'.Attended server j' := by
  refine .modify _ ?_
  dsimp only
  split
  · rename_i i _
    exact Loop.OthersAttended.attended (fun k _ used => attended k used) (fd_update l.clients i _) (fun _ => rfl)
      fun _ => silent ▸ fresh ▸ .nil
  · exact attended

theorem acceptClient_attends (consistent : l.Consistent s) (attended : l.Attended server j) :
    journal.Conforms (acceptClient s) l j fun _ l' j' => l'.Attended server j' := by
  have accepted : journal.Conforms (accept fun fd => fd = s || isOpen fd l.history = some true) l j fun cs l' j' =>
      l = l' ∧ (cs < 0 ∨ cs ≠ 0 ∧ (cs = s || isOpen cs l.history = some true) = false) ∧
        j' = if cs < 0 then j else j.write cs [] := .perform trivial fun _ admitted => ⟨rfl,admitted,rfl⟩
  refine .get_bind (accepted.bind ?_)
  rintro cs _ _ ⟨rfl,admitted,rfl⟩
  refine .ite (fun failed => .pure ((if_pos failed).symm ▸ attended)) fun success => ?_
  rw [if_neg success]
  obtain ⟨nonzero,free⟩ := admitted.resolve_left success
  have closed : isOpen cs l.history ≠ some true := by
    intro opened
    simp [opened] at free
  have fresh : ∀ k, l.fd k ≠ cs := consistent.fresh nonzero closed
  refine .modify_bind ?_
  generalize logged : ({ l with history := l.history ++ [.accepted cs] } : Loop) = l'
  have history : l'.history = l.history ++ [.accepted cs] := by rw [← logged]
  have silent : (j.write cs []).queries cs = [] := Function.update_self ..
  have kept : l'.Attended server (j.write cs []) := by
    intro k used
    have same : l'.fd k = l.fd k := by rw [← logged]; rfl
    rw [same] at used ⊢
    have queries : (j.write cs []).queries (l.fd k) = j.queries (l.fd k) := Function.update_of_ne (fresh k) ..
    rw [queries,history,stream_append,SocketEvent.extend,if_neg (fresh k).symm]
    exact attended k used
  have rejected : journal.Conforms (close cs) l' (j.write cs []) fun _ l'' j' => l''.Attended server j' := by
    refine .modify _ fun k used => ?_
    rw [stream_append]
    exact kept k used
  refine .ite (fun _ => rejected) fun _ => ?_
  have flagged : journal.Conforms (fcntl cs) l' (j.write cs []) fun _ l'' j' => l' = l'' ∧ j.write cs [] = j' :=
    .perform trivial fun _ _ => ⟨rfl,rfl⟩
  refine flagged.bind ?_
  rintro _ _ _ ⟨rfl,rfl⟩
  refine .ite (fun _ => rejected) fun _ => appendClient_attends kept silent ?_
  rw [history,stream_append]
  exact if_pos rfl

theorem serveReady_attends (sized : server.Sized) (consistent : l.Consistent s) (attended : l.Attended server j)
    {readfds : List Int} (zero : 0 ∉ readfds) :
    journal.Conforms (iterate.serveReady server s readfds) l j fun _ l' j' => l'.Attended server j' := by
  have served (l : Loop) (j : Journal) (consistent : l.Consistent s) (attended : l.Attended server j) :
      journal.Conforms (do readClients server readfds; return Control.next) l j fun _ l' j' => l'.Attended server j' :=
    (readClients_attends sized consistent attended zero).bind fun _ _ _ attended => .pure attended
  have checked : journal.Conforms checkSlavesAlive l j fun _ l' j' => l'.Consistent s ∧ l'.Attended server j' := by
    have counted : journal.Conforms slavesRunning l j fun _ l' j' => l = l' ∧ j = j' :=
      .perform trivial fun _ _ => ⟨rfl,rfl⟩
    refine counted.bind ?_
    rintro ok _ _ ⟨rfl,rfl⟩
    exact .ite (fun _ => .pure ⟨consistent,attended⟩) fun _ => .modify_bind (.pure ⟨consistent,attended⟩)
  refine checked.bind ?_
  rintro alive l' j' ⟨consistent,attended⟩
  refine .ite (fun _ => .pure attended) fun _ => .ite (fun _ => ?_) fun _ => served l' j' consistent attended
  have accepted := (acceptClient_attends consistent attended).and_ensures (acceptClient_consistent consistent)
    fun _ _ _ admitted => admitted
  exact accepted.bind fun _ l' j' kept => served l' j' kept.2 kept.1

theorem iterate_attends (sized : server.Sized) (consistent : l.Consistent s) (attended : l.Attended server j) :
    journal.Conforms (iterate server s) l j fun _ l' j' => l'.Attended server j' := by
  have selected (nfds : Int) : journal.Conforms (select nfds (s :: l.fds)) l j fun selected l' j' =>
      kernel (.select nfds (s :: l.fds)) selected ∧ l = l' ∧ j = j' := .perform trivial fun _ admitted => ⟨admitted,rfl,rfl⟩
  have zero : 0 ∉ s :: l.fds := zero_not_registered consistent.listening
  refine .get_bind ((selected _).bind ?_)
  rintro selected _ _ ⟨admitted,rfl,rfl⟩
  cases selected with
  | failed => exact .pure attended
  | ready readfds => exact serveReady_attends sized consistent attended fun member => zero (admitted 0 member)
  | interrupted => exact serveReady_attends sized consistent attended zero

theorem attends_attended (sized : server.Sized) (nonzero : s ≠ 0) (attends : Attends server s l j) :
    l.Consistent s ∧ l.Attended server j := by
  induction attends with
  | start => exact ⟨consistent_start nonzero,fun i used => absurd rfl used⟩
  | next _ path ih =>
    have kept := (iterate_attends sized ih.1 ih.2).and_ensures (iterate_consistent ih.1) fun _ _ _ admitted => admitted
    exact (kept.path path).symm

/-- Every socket that is opened is closed again or is given to `adm_loop`, set up as that expects it.
From then on every client that is connected has been sent one response to each of its queries, in
their order, and no other bytes; each reports what its own handler was answered. -/
theorem admServer_answers (sized : server.Sized) {p : SocketM (Option Int)} {t : Sockets}
    (run : socketCalls.Path admServer .boot p t) :
    (∀ op next, p = .request op next → t.Allows op) ∧ (p = .done none → t.opened = none) ∧
    ∀ s, p = .done (some s) → t = listening s ∧ ∀ l j, Attends server s l j → ∀ i, l.fd i ≠ 0 → ∃ responses,
      (repeated readResponse (j.queries (l.fd i)).length).run (stream (l.fd i) l.history) = some (responses,[]) ∧
        List.Forall₂ (fun q r => r.type = q.type ∧ Reports server r q.seen) (j.queries (l.fd i)) responses := by
  have keeps := admServer_keeps.path run
  refine ⟨?_,?_,?_⟩
  · rintro op next rfl
    exact keeps.1
  · rintro rfl
    rcases keeps with ⟨_,closed⟩ | ⟨s,ret,_⟩
    · exact closed
    · cases ret
  · rintro s rfl
    obtain ⟨ret,_⟩ | ⟨s',ret,nonzero,opened⟩ := keeps
    · cases ret
    · obtain rfl := Option.some.inj ret
      exact ⟨opened,fun l j attends i used => ((attends_attended sized nonzero attends).2 i used).responses⟩

end Attending

/-- No call fails. -/
def permitting (_ : Sockets) : (op : SocketOp) → SocketAns op
  | .ignoreSigpipe | .close _ => ()
  | .socket => (3 : Int)
  | .setReuseaddr _ | .setNonblock _ | .bind .. | .listen .. => (0 : Int)

theorem permitting_admitted (t : Sockets) (op : SocketOp) : socketCalls.admits t op (permitting t op) := by
  cases op with
  | socket => exact show (3 : Int) ≠ 0 by decide
  | _ => trivial

/-- A client that asks for the statistics of the workers whenever it is read. -/
def conversing (_ : Journal) : (op : LoopOp) → LoopAns op
  | .select _ readfds => Selected.ready readfds
  | .read _ => some [CmdType.appStats.code]
  | .handler (.appStats _) => fun _ => (5 : U64)
  | op => connecting op

theorem conversing_admitted (j : Journal) (op : LoopOp) : journal.admits j op (conversing j op) := by
  cases op with
  | select _ readfds => exact fun _ member => member
  | accept inUse => exact connecting_kernel (.accept inUse)
  | read _ => exact show 1 ≤ sizeofBuf by decide
  | handler op => trivial
  | _ => trivial

def converse (before : Loop × Journal) : (Control × Loop) × Journal :=
  journal.follow conversing ((iterate bareServer 3).run before.1) before.2

def firstRound : (Control × Loop) × Journal := converse (.start,.empty)

def secondRound : (Control × Loop) × Journal := converse (firstRound.1.2,firstRound.2)

theorem converse_attends {before : Loop × Journal} (attends : Attends bareServer 3 before.1 before.2)
    (next : (converse before).1.1 = .next) : Attends bareServer 3 (converse before).1.2 (converse before).2 := by
  refine .next attends ?_
  have path := Protocol.follow_path conversing_admitted ((iterate bareServer 3).run before.1) before.2
  have same : (converse before).1 = (.next,(converse before).1.2) := Prod.ext next rfl
  exact same ▸ path

theorem admServer_answers_conversing :
    (secondRound.2.queries 4).length = 1 ∧ ∃ responses,
      (repeated readResponse 1).run (stream 4 secondRound.1.2.history) = some (responses,[]) ∧
        List.Forall₂ (fun q r => r.type = q.type ∧ Reports bareServer r q.seen) (secondRound.2.queries 4) responses := by
  have sized : bareServer.Sized := ⟨by decide,by decide,by decide⟩
  have run : socketCalls.Path admServer .boot (.done (some 3)) (listening 3) :=
    Protocol.follow_path permitting_admitted admServer .boot
  have attends : Attends bareServer 3 secondRound.1.2 secondRound.2 :=
    converse_attends (converse_attends .start rfl) rfl
  have length : (secondRound.2.queries 4).length = 1 := rfl
  exact ⟨length,length ▸ ((admServer_answers sized run).2.2 3 rfl).2 _ _ attends ⟨0,Nat.zero_lt_two⟩ (by decide)⟩

end Natasha.Adm
