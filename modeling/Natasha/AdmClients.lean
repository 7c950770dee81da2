import Natasha.AdmFraming
import Natasha.AdmLoop

/-! The table of clients. One counter follows the slots through one increment and four
decrements; a descriptor is open exactly as long as it is in a slot. -/
namespace Natasha.Adm

open Interaction

/-! ## Slots -/

section Slots

variable {n : Nat} {s : Int} {fds : Fin n → Int} {count : Int} {history : List SocketEvent}

def occupied (fds : Fin n → Int) : Finset (Fin n) := Finset.univ.filter fun i => fds i ≠ 0

theorem mem_occupied (fds : Fin n → Int) (i : Fin n) : i ∈ occupied fds ↔ fds i ≠ 0 := by simp [occupied]

theorem occupied_free (fds : Fin n → Int) (i : Fin n) : occupied (Function.update fds i 0) = (occupied fds).erase i := by
  ext j
  rw [Finset.mem_erase,mem_occupied,mem_occupied]
  by_cases here : j = i
  · subst j
    simp
  · simp [here]

theorem occupied_take (fds : Fin n → Int) (i : Fin n) (nonzero : cs ≠ 0) :
    occupied (Function.update fds i cs) = insert i (occupied fds) := by
  ext j
  rw [Finset.mem_insert,mem_occupied,mem_occupied]
  by_cases here : j = i
  · subst j
    simpa using nonzero
  · simp [here]

/-- The counter counts the slots in use, and the open descriptors are those of the slots. `s` is
the listening socket. -/
structure Table (s : Int) (fds : Fin n → Int) (count : Int) (history : List SocketEvent) : Prop where
  listening : s ≠ 0
  apart : ∀ i, fds i ≠ s
  count : count = (occupied fds).card
  distinct : ∀ i j, fds i = fds j → fds i ≠ 0 → i = j
  opened : ∀ fd, isOpen fd history = some (decide (fd ≠ 0 ∧ ∃ i, fds i = fd))

theorem isOpen_append (fd : Int) (history : List SocketEvent) (event : SocketEvent) :
    isOpen fd (history ++ [event]) = event.track fd (isOpen fd history) := by
  rw [isOpen,List.foldl_append,List.foldl_cons,List.foldl_nil,isOpen]

namespace Table

theorem empty (nonzero : s ≠ 0) : Table s (fun _ : Fin n => 0) 0 [] where
  listening := nonzero
  apart _ := nonzero.symm
  count := by simp [occupied]
  distinct i j _ used := absurd rfl used
  opened fd := by
    have free : ¬(fd ≠ 0 ∧ ∃ _ : Fin n, 0 = fd) := fun found => found.1 found.2.choose_spec.symm
    rw [decide_eq_false free]
    rfl

theorem sent (table : Table s fds count history) (fd : Int) (bytes : List Byte) :
    Table s fds count (history ++ [.sent fd bytes]) :=
  { table with opened := fun fd => by rw [isOpen_append,SocketEvent.track,table.opened] }

/-- A slot is freed and its descriptor closed. -/
theorem drop (table : Table s fds count history) {i : Fin n} (used : fds i ≠ 0) :
    Table s (Function.update fds i 0) (count - 1) (history ++ [.closed (fds i)]) where
  listening := table.listening
  apart j := by
    by_cases here : j = i
    · subst j
      rw [Function.update_self]
      exact table.listening.symm
    · rw [Function.update_of_ne here]
      exact table.apart j
  count := by
    have card := Finset.card_erase_add_one ((mem_occupied fds i).mpr used)
    rw [occupied_free,table.count]
    omega
  distinct j k same occupied := by
    by_cases first : j = i
    · subst j
      simp at occupied
    · by_cases second : k = i
      · subst k
        simp only [Function.update_of_ne first,Function.update_self] at same occupied
        exact absurd same occupied
      · simp only [Function.update_of_ne first,Function.update_of_ne second] at same occupied
        exact table.distinct j k same occupied
  opened fd := by
    rw [isOpen_append,table.opened,SocketEvent.track]
    by_cases here : fds i = fd
    · subst fd
      have before : fds i ≠ 0 ∧ ∃ j, fds j = fds i := ⟨used,i,rfl⟩
      have after : ¬∃ j, Function.update fds i 0 j = fds i := by
        rintro ⟨j,same⟩
        by_cases first : j = i
        · subst j
          rw [Function.update_self] at same
          exact used same.symm
        · rw [Function.update_of_ne first] at same
          exact first (table.distinct j i same (same ▸ used))
      simp [before,after]
    · rw [if_neg here,decide_eq_decide.mpr]
      refine and_congr_right fun nonzero => exists_congr fun j => ?_
      by_cases first : j = i
      · subst j
        rw [Function.update_self]
        exact ⟨fun same => absurd same here,fun zero => absurd zero.symm nonzero⟩
      · rw [Function.update_of_ne first]

/-- A descriptor that is not open is in no slot. -/
theorem fresh (table : Table s fds count history) {cs : Int} (nonzero : cs ≠ 0) (closed : isOpen cs history ≠ some true)
    (i : Fin n) : fds i ≠ cs := by
  intro same
  rw [table.opened,decide_eq_true ⟨nonzero,i,same⟩] at closed
  exact closed rfl

/-- A new descriptor is accepted into a free slot. -/
theorem append (table : Table s fds count history) {i : Fin n} (free : fds i = 0) {cs : Int} (other : cs ≠ s)
    (nonzero : cs ≠ 0) (closed : isOpen cs history ≠ some true) :
    Table s (Function.update fds i cs) (count + 1) (history ++ [.accepted cs]) where
  listening := table.listening
  apart j := by
    by_cases here : j = i
    · subst j
      rwa [Function.update_self]
    · rw [Function.update_of_ne here]
      exact table.apart j
  count := by
    have outside : i ∉ occupied fds := by simpa [mem_occupied] using free
    rw [occupied_take fds i nonzero,Finset.card_insert_of_notMem outside,table.count]
    rfl
  distinct j k same used := by
    have fresh := table.fresh nonzero closed
    by_cases first : j = i
    · by_cases second : k = i
      · rw [first,second]
      · subst j
        rw [Function.update_self,Function.update_of_ne second] at same
        exact absurd same.symm (fresh k)
    · by_cases second : k = i
      · subst k
        rw [Function.update_self,Function.update_of_ne first] at same
        exact absurd same (fresh j)
      · simp only [Function.update_of_ne first,Function.update_of_ne second] at same used
        exact table.distinct j k same used
  opened fd := by
    rw [isOpen_append,table.opened,SocketEvent.track]
    by_cases here : cs = fd
    · subst fd
      have before : ¬∃ j, fds j = cs := fun found => table.fresh nonzero closed _ found.choose_spec
      have after : ∃ j, Function.update fds i cs j = cs := ⟨i,Function.update_self ..⟩
      simp [nonzero,before,after]
    · rw [if_neg here,decide_eq_decide.mpr]
      refine and_congr_right fun nonzero => exists_congr fun j => ?_
      by_cases first : j = i
      · subst j
        rw [Function.update_self,free]
        exact ⟨fun zero => absurd zero.symm nonzero,fun same => absurd same here⟩
      · rw [Function.update_of_ne first]

/-- A client is turned away. -/
theorem reject (table : Table s fds count history) {cs : Int} (nonzero : cs ≠ 0) (closed : isOpen cs history ≠ some true) :
    Table s fds count (history ++ [.accepted cs] ++ [.closed cs]) where
  __ := table
  opened fd := by
    rw [isOpen_append,isOpen_append,table.opened]
    by_cases here : cs = fd
    · subst fd
      have before : ¬∃ j, fds j = cs := fun found => table.fresh nonzero closed _ found.choose_spec
      simp [SocketEvent.track,before]
    · simp [SocketEvent.track,here]

/-- A counter below the number of slots leaves a free one. -/
theorem exists_free (table : Table s fds count history) (room : count < n) : ∃ i, fds i = 0 := by
  by_contra none
  have full : occupied fds = Finset.univ := by
    ext i
    simpa [mem_occupied] using fun zero => none ⟨i,zero⟩
  have count := table.count
  rw [full,Finset.card_univ,Fintype.card_fin] at count
  omega

theorem count_le (table : Table s fds count history) : 0 ≤ count ∧ count ≤ n := by
  have bound : (occupied fds).card ≤ n := by simpa using Finset.card_le_univ (occupied fds)
  rw [table.count]
  omega

end Table

end Slots

/-! ## Iterations -/

def Loop.fd (l : Loop) (i : Fin natashaMaxClients) : Int := (l.clients i).fd

/-- The table of a loop that listens on `s`. -/
def Loop.Consistent (s : Int) (l : Loop) : Prop := Table s l.fd l.curClients l.history

theorem fd_update (clients : Fin natashaMaxClients → NatashaClient) (i : Fin natashaMaxClients) (client : NatashaClient) :
    (fun j => (Function.update clients i client j).fd) = Function.update (fun j => (clients j).fd) i client.fd := by
  funext j
  by_cases here : j = i
  · subst j
    simp
  · simp [here]

section Iterations

variable {server : Server} {s : Int} {l : Loop} {ok : (op : LoopOp) → LoopAns op → Prop}

@[simp] theorem ensures_select (nfds : Int) (readfds : List Int) (post : Selected → Loop → Prop) :
    Ensures ok (select nfds readfds) l post ↔
      ∀ selected : Selected, ok (.select nfds readfds) selected → post selected l := Iff.rfl

@[simp] theorem ensures_slavesRunning (post : Nat → Loop → Prop) :
    Ensures ok slavesRunning l post ↔ ∀ n : Nat, ok .slavesRunning n → post n l := Iff.rfl

@[simp] theorem ensures_accept (inUse : Int → Bool) (post : Int → Loop → Prop) :
    Ensures ok (accept inUse) l post ↔ ∀ cs : Int, ok (.accept inUse) cs → post cs l := Iff.rfl

@[simp] theorem ensures_fcntl (fd : Int) (post : Int → Loop → Prop) :
    Ensures ok (fcntl fd) l post ↔ ∀ ret : Int, ok (.fcntl fd) ret → post ret l := Iff.rfl

@[simp] theorem ensures_read (fd : Int) (post : Option (List Byte) → Loop → Prop) :
    Ensures ok (read fd) l post ↔ ∀ nbread : Option (List Byte), ok (.read fd) nbread → post nbread l := Iff.rfl

@[simp] theorem ensures_stack (post : NatashaCmdReply → Loop → Prop) :
    Ensures ok stack l post ↔ ∀ frame : NatashaCmdReply, ok .stack frame → post frame l := Iff.rfl

theorem ensures_handler_of_forall (code : Program Op Ans α) {post : α → Loop → Prop} (each : ∀ a, post a l) :
    Ensures ok (handler code) l post :=
  (ensures_lift _ l post).mpr (Program.always_of_forall _ each)

@[simp] theorem ensures_log (event : SocketEvent) (post : PUnit → Loop → Prop) :
    Ensures ok (log event) l post ↔ post ⟨⟩ { l with history := l.history ++ [event] } := Iff.rfl

@[simp] theorem ensures_close (fd : Int) (post : PUnit → Loop → Prop) :
    Ensures ok (close fd) l post ↔ post ⟨⟩ { l with history := l.history ++ [.closed fd] } := Iff.rfl

theorem consistent_start (nonzero : s ≠ 0) : Loop.start.Consistent s := Table.empty nonzero

theorem dropClient_consistent (consistent : l.Consistent s) {i : Fin natashaMaxClients} (used : l.fd i ≠ 0) :
    Ensures ok (dropClient i) l fun _ l' => l'.Consistent s := by
  have dropped := Table.drop consistent used
  show Table s (fun j => (Function.update l.clients i .free j).fd) _ _
  rw [fd_update]
  exact dropped

theorem appendClient_consistent (consistent : l.Consistent s) (room : l.curClients < natashaMaxClients) {cs : Int}
    (other : cs ≠ s) (nonzero : cs ≠ 0) (closed : isOpen cs l.history ≠ some true) :
    Ensures ok (appendClient cs) { l with history := l.history ++ [.accepted cs] } fun _ l' => l'.Consistent s := by
  rw [appendClient,ensures_modify]
  split
  · rename_i i found
    have free : l.fd i = 0 := by simpa [Loop.fd] using List.find?_some found
    have appended := Table.append consistent free other nonzero closed
    show Table s (fun j => (Function.update l.clients i _ j).fd) _ _
    rw [fd_update]
    exact appended
  · rename_i none
    obtain ⟨i,free⟩ := Table.exists_free consistent room
    have used := List.find?_eq_none.mp none i (List.mem_finRange i)
    exact absurd (decide_eq_true free) used

theorem acceptClient_consistent (consistent : l.Consistent s) :
    Ensures kernel (acceptClient s) l fun _ l' => l'.Consistent s := by
  simp only [acceptClient,ensures_bind,ensures_get,ensures_accept,ensures_log,ensures_close,ensures_fcntl,ensures_ite,
    ensures_pure]
  intro cs admitted
  refine ⟨fun _ => consistent,fun accepted => ?_⟩
  obtain ⟨nonzero,free⟩ : cs ≠ 0 ∧ _ := Or.resolve_left admitted accepted
  have closed : isOpen cs l.history ≠ some true := by
    intro opened
    simp [opened] at free
  have other : cs ≠ s := by
    intro same
    simp [same] at free
  have rejected := Table.reject consistent nonzero closed
  refine ⟨fun _ => rejected,fun room flags _ => ⟨fun _ => rejected,fun _ => ?_⟩⟩
  exact appendClient_consistent consistent (by omega) other nonzero closed

theorem handleQuery_consistent (consistent : l.Consistent s) (i : Fin natashaMaxClients) :
    Ensures ok (handleQuery server i) l fun _ l' => l'.Consistent s ∧ l'.fd = l.fd := by
  simp only [handleQuery,ensures_bind,ensures_get,ensures_stack]
  intro frame _
  exact ensures_handler_of_forall _ fun handled => ⟨Table.sent consistent _ _,rfl⟩

theorem handleRead_consistent (consistent : l.Consistent s) {i : Fin natashaMaxClients} (used : l.fd i ≠ 0)
    (nbread : Option (List Byte)) : Ensures ok (handleRead server i nbread) l fun _ l' => l'.Consistent s := by
  cases nbread with
  | none => exact dropClient_consistent consistent used
  | some bytes =>
    simp only [handleRead,ensures_bind,ensures_modify,ensures_ite]
    generalize filled : ({ l with clients := _ } : Loop) = l'
    have fds : l'.fd = l.fd := by
      subst l'
      show (fun j => (Function.update l.clients i _ j).fd) = l.fd
      rw [fd_update]
      exact Function.update_eq_self i l.fd
    have table : l'.Consistent s := by
      rw [Loop.Consistent,fds]
      subst l'
      exact consistent
    have dropped : Ensures ok (dropClient i) l' fun _ l'' => l''.Consistent s := dropClient_consistent table (fds ▸ used)
    refine ⟨fun _ => dropped,fun _ => ⟨fun _ => dropped,fun _ => ?_⟩⟩
    apply (handleQuery_consistent table i).mono
    rintro ret l'' ⟨table',fds'⟩
    exact ⟨fun _ => dropClient_consistent table' (by rwa [fds',fds]),fun _ => table'⟩

theorem readClients_consistent (consistent : l.Consistent s) {readfds : List Int} (zero : 0 ∉ readfds) :
    Ensures kernel (readClients server readfds) l fun _ l' => l'.Consistent s := by
  rw [readClients,ensures_bind,ensures_get]
  split
  · exact consistent
  · rename_i i found
    have ready : l.fd i ∈ readfds := by simpa [Loop.fd] using List.find?_some found
    simp only [ensures_bind,ensures_read]
    intro nbread _
    exact handleRead_consistent consistent (fun free => zero (free ▸ ready)) nbread

theorem serveReady_consistent (consistent : l.Consistent s) {readfds : List Int} (zero : 0 ∉ readfds) :
    Ensures kernel (iterate.serveReady server s readfds) l fun _ l' => l'.Consistent s := by
  simp only [iterate.serveReady,checkSlavesAlive,ensures_bind,ensures_slavesRunning,ensures_ite,ensures_pure,
    ensures_modify]
  intro n _
  refine ⟨fun _ => ⟨fun _ => consistent,fun alive => absurd trivial alive⟩,fun _ => ⟨fun dead => ?_,fun _ => ?_⟩⟩
  · cases dead
  · have table : Loop.Consistent s { l with slavesAlive := n } := consistent
    refine ⟨fun _ => ?_,fun _ => ?_⟩
    · apply (acceptClient_consistent table).mono
      intro _ l' table'
      exact readClients_consistent table' zero
    · exact readClients_consistent table zero

theorem zero_not_registered (nonzero : s ≠ 0) : 0 ∉ s :: l.fds := by
  simp [Loop.fds,nonzero.symm]

theorem iterate_consistent (consistent : l.Consistent s) :
    Ensures kernel (iterate server s) l fun _ l' => l'.Consistent s := by
  simp only [iterate,ensures_bind,ensures_get,ensures_select]
  intro selected admitted
  cases selected with
  | ready readfds =>
    exact serveReady_consistent consistent fun zero => zero_not_registered consistent.listening (admitted 0 zero)
  | interrupted => exact serveReady_consistent consistent (zero_not_registered consistent.listening)
  | failed => exact consistent

end Iterations

/-! ## Descriptors -/

section Lives

variable {fd : Int} {after : List SocketEvent} {now : Bool}

/-- The events of a descriptor from one acceptance to the next. -/
def life (fd : Int) (after : List SocketEvent) : List SocketEvent := after.takeWhile fun event => event ≠ .accepted fd

theorem track_none (history : List SocketEvent) : history.foldl (SocketEvent.track fd) none = none := by
  induction history with
  | nil => rfl
  | cons event history ih =>
    have stuck : event.track fd none = none := by
      cases event <;> simp [SocketEvent.track]
    rw [List.foldl_cons,stuck,ih]

/-- An event of another descriptor. -/
theorem track_other {event : SocketEvent} (accepted : event ≠ .accepted fd) (closed : event ≠ .closed fd)
    (opened : Option Bool) : event.track fd opened = opened := by
  cases event with
  | accepted cs => exact if_neg fun same => accepted (congrArg SocketEvent.accepted same)
  | closed cs => exact if_neg fun same => closed (congrArg SocketEvent.closed same)
  | sent cs bytes => rfl

theorem track_accepted (opened : Option Bool) :
    (SocketEvent.accepted fd).track fd opened = if opened = some false then some true else none := if_pos rfl

theorem track_closed (opened : Option Bool) :
    (SocketEvent.closed fd).track fd opened = if opened = some true then some false else none := if_pos rfl

/-- A descriptor that is closed is not closed again. -/
theorem life_closed (tracked : after.foldl (SocketEvent.track fd) (some false) = some now) :
    (life fd after).count (.closed fd) = 0 := by
  induction after with
  | nil => rfl
  | cons event after ih =>
    rw [List.foldl_cons] at tracked
    by_cases accepted : event = .accepted fd
    · simp [life,accepted]
    · by_cases closed : event = .closed fd
      · subst event
        rw [track_closed,if_neg (by decide),track_none] at tracked
        cases tracked
      · rw [track_other accepted closed] at tracked
        have rest := ih tracked
        rw [life] at rest ⊢
        rw [List.takeWhile_cons_of_pos (by simpa using accepted),List.count_cons_of_ne closed,rest]

/-- A descriptor that is open stays so, or is closed once. -/
theorem life_opened (tracked : after.foldl (SocketEvent.track fd) (some true) = some now) :
    (now = true ∧ .closed fd ∉ after ∧ .accepted fd ∉ after) ∨ (life fd after).count (.closed fd) = 1 := by
  induction after with
  | nil =>
    cases tracked
    exact .inl ⟨rfl,List.not_mem_nil,List.not_mem_nil⟩
  | cons event after ih =>
    rw [List.foldl_cons] at tracked
    by_cases accepted : event = .accepted fd
    · subst event
      rw [track_accepted,if_neg (by decide),track_none] at tracked
      cases tracked
    · have kept : life fd (event :: after) = event :: life fd after :=
        List.takeWhile_cons_of_pos (by simpa using accepted)
      by_cases closed : event = .closed fd
      · subst event
        rw [track_closed,if_pos rfl] at tracked
        rw [kept,List.count_cons_self,life_closed tracked]
        exact .inr rfl
      · rw [track_other accepted closed] at tracked
        rw [kept,List.count_cons_of_ne closed]
        refine (ih tracked).imp_left fun ⟨opened,notClosed,notAccepted⟩ => ⟨opened,?_,?_⟩
        · exact List.not_mem_cons_of_ne_of_not_mem (Ne.symm closed) notClosed
        · exact List.not_mem_cons_of_ne_of_not_mem (Ne.symm accepted) notAccepted

theorem isOpen_accepted {before : List SocketEvent} (opened : isOpen fd (before ++ .accepted fd :: after) = some now) :
    after.foldl (SocketEvent.track fd) (some true) = some now := by
  rw [isOpen,List.foldl_append,List.foldl_cons,track_accepted] at opened
  split at opened
  · exact opened
  · rw [track_none] at opened
    cases opened

/-- What is open was accepted and is not closed since. -/
theorem isOpen_true {history : List SocketEvent} (opened : isOpen fd history = some true) :
    ∃ before after, history = before ++ .accepted fd :: after ∧ .closed fd ∉ after := by
  induction history using List.reverseRecOn with
  | nil => cases opened
  | append_singleton history event ih =>
    rw [isOpen_append] at opened
    by_cases accepted : event = .accepted fd
    · exact ⟨history,[],by rw [accepted],List.not_mem_nil⟩
    · by_cases closed : event = .closed fd
      · subst event
        rw [track_closed] at opened
        split at opened <;> cases opened
      · rw [track_other accepted closed] at opened
        obtain ⟨before,after,rfl,notClosed⟩ := ih opened
        refine ⟨before,after ++ [event],by simp,?_⟩
        simpa [notClosed] using Ne.symm closed

end Lives

/-- The table is right, and each descriptor that was ever accepted is in one slot or was closed
once before it was accepted again. -/
structure Loop.Accounted (l : Loop) : Prop where
  count : l.curClients = (occupied l.fd).card
  range : 0 ≤ l.curClients ∧ l.curClients ≤ natashaMaxClients
  distinct : ∀ i j, l.fd i = l.fd j → l.fd i ≠ 0 → i = j
  accepted : ∀ before fd after, l.history = before ++ .accepted fd :: after →
    ((∃! i, l.fd i = fd) ∧ .closed fd ∉ after ∧ .accepted fd ∉ after) ∨ (life fd after).count (.closed fd) = 1
  held : ∀ i, l.fd i ≠ 0 → ∃ before after, l.history = before ++ .accepted (l.fd i) :: after ∧ .closed (l.fd i) ∉ after

theorem Loop.Consistent.accounted {s : Int} {l : Loop} (consistent : l.Consistent s) : l.Accounted where
  count := consistent.count
  range := consistent.count_le
  distinct := consistent.distinct
  accepted before fd after split := by
    have opened := consistent.opened fd
    rw [split] at opened
    refine (life_opened (isOpen_accepted opened)).imp_left fun ⟨now,untouched⟩ => ⟨?_,untouched⟩
    obtain ⟨nonzero,i,here⟩ := of_decide_eq_true now
    refine ⟨i,here,fun j same => ?_⟩
    exact consistent.distinct j i (same.trans here.symm) (same.symm ▸ nonzero)
  held i used := by
    have opened := consistent.opened (l.fd i)
    rw [decide_eq_true ⟨used,i,rfl⟩] at opened
    exact isOpen_true opened

theorem reaches_consistent {server : Server} {s : Int} {l : Loop} (nonzero : s ≠ 0) (reached : Reaches server s l) :
    l.Consistent s := by
  induction reached with
  | start => exact consistent_start nonzero
  | next _ ends ih => exact (ensures_iff_ends _ _ _).mp (iterate_consistent ih) _ ends

/-- After every iteration of every run. -/
theorem iterate_accounted (server : Server) (s : Int) (nonzero : s ≠ 0) (l : Loop) (reached : Reaches server s l)
    (r : Control × Loop) (ends : Ends kernel (iterate server s) l r) : r.2.Accounted :=
  ((ensures_iff_ends _ _ _).mp (iterate_consistent (reaches_consistent nonzero reached)) r ends).accounted

def bareServer : Server := ⟨[],1,oneLcore⟩

/-- A kernel with a connection to accept. -/
def connecting : (op : LoopOp) → LoopAns op
  | .select _ readfds => Selected.ready (readfds.take 1)
  | .slavesRunning => (1 : Nat)
  | .accept inUse => (if inUse 4 then -1 else 4 : Int)
  | .fcntl _ => (0 : Int)
  | .read _ => (none : Option (List Byte))
  | .stack => (⟨0,0,0⟩ : NatashaCmdReply)
  | .handler op => willing op

theorem connecting_kernel (op : LoopOp) : kernel op (connecting op) := by
  cases op with
  | select nfds readfds => exact fun fd member => List.mem_of_mem_take member
  | accept inUse =>
    show (if inUse 4 then -1 else 4 : Int) < 0 ∨ _
    by_cases busy : inUse 4 = true
    · exact .inl (by simp [busy])
    · exact .inr (by simp [connecting,busy])
  | slavesRunning | fcntl _ | read _ | stack | handler _ => trivial

theorem iterate_accounted_connecting : (exec connecting (iterate bareServer 3) .start).2.fd ⟨0,Nat.zero_lt_two⟩ = 4 ∧
    (exec connecting (iterate bareServer 3) .start).2.Accounted :=
  ⟨by decide,iterate_accounted _ 3 (by decide) .start .start _ (ends_exec _ _ connecting connecting_kernel)⟩

/-! ## An interrupted `select` -/

/-- `select` fails with `EINTR`, and `accept` and `read` with `EAGAIN`, since nothing is pending. -/
def interrupt : (op : LoopOp) → LoopAns op → Prop
  | .select _ _, (selected : Selected) => selected = .interrupted
  | .accept _, (cs : Int) => cs = -1
  | .read _, (nbread : Option (List Byte)) => nbread = none
  | _, _ => True

/-- An interrupted iteration changes nothing about the clients. -/
def Harmless (server : Server) (s : Int) (l : Loop) : Prop :=
  Ensures interrupt (iterate server s) l fun _ l' =>
    l'.clients = l.clients ∧ l'.curClients = l.curClients ∧ l'.history = l.history

theorem mem_fds (l : Loop) (fd : Int) : fd ∈ l.fds ↔ fd ≠ 0 ∧ ∃ i, l.fd i = fd := by
  simp [Loop.fds,Loop.fd,and_comm]

section Interrupt

variable {server : Server} {s : Int} {l : Loop}

/-- `FD_ISSET` holds of every descriptor that was registered, and the first client is read. -/
theorem ensures_interrupt (post : Control → Loop → Prop) : Ensures interrupt (iterate server s) l post ↔
    ∀ n : Nat, (n = 0 → post .rteExit l) ∧ (n ≠ 0 →
      Ensures interrupt (readClients server (s :: l.fds)) { l with slavesAlive := n } fun _ l' => post .next l') := by
  have select : Ensures interrupt (iterate server s) l post ↔
      Ensures interrupt (iterate.serveReady server s (s :: l.fds)) l post := by
    simp only [iterate,ensures_bind,ensures_get,ensures_select]
    constructor
    · intro each
      exact each .interrupted rfl
    · rintro ensures selected rfl
      exact ensures
  have none (l : Loop) (post : PUnit → Loop → Prop) : Ensures interrupt (acceptClient s) l post ↔ post ⟨⟩ l := by
    simp only [acceptClient,ensures_bind,ensures_get,ensures_accept,ensures_ite]
    constructor
    · intro each
      exact (each (-1) rfl).1 (by decide)
    · rintro ensures cs rfl
      exact ⟨fun _ => ensures,fun accepted => absurd (by decide) accepted⟩
  rw [select]
  simp only [iterate.serveReady,checkSlavesAlive,ensures_bind,ensures_slavesRunning,ensures_ite,ensures_pure,
    ensures_modify,none,List.mem_cons,true_or,true_implies,not_true_eq_false,false_implies,and_true,reduceCtorEq,
    not_false_eq_true,true_and]
  exact forall_congr' fun n => true_imp_iff

/-- The registered descriptors are read until the first one fails. -/
theorem readClients_interrupt (used : l.fd i ≠ 0) (post : PUnit → Loop → Prop)
    (ensures : Ensures interrupt (readClients server (s :: l.fds)) l post) :
    ∃ l', l'.curClients = l.curClients - 1 ∧ post ⟨⟩ l' := by
  rw [readClients,ensures_bind,ensures_get] at ensures
  split at ensures
  · rename_i none
    have ready := List.find?_eq_none.mp none i (List.mem_finRange i)
    have registered : l.fd i ∈ s :: l.fds := List.mem_cons_of_mem _ ((mem_fds l _).mpr ⟨used,i,rfl⟩)
    exact absurd (decide_eq_true registered) ready
  · simp only [ensures_bind,ensures_read] at ensures
    exact ⟨_,rfl,ensures none rfl⟩

theorem readClients_free (nonzero : s ≠ 0) (free : ∀ i, l.fd i = 0) (post : PUnit → Loop → Prop) (kept : post ⟨⟩ l) :
    Ensures interrupt (readClients server (s :: l.fds)) l post := by
  rw [readClients,ensures_bind,ensures_get]
  split
  · exact kept
  · rename_i i found
    have ready : l.fd i ∈ s :: l.fds := by simpa [Loop.fd] using List.find?_some found
    rw [free i] at ready
    exact absurd ready (zero_not_registered nonzero)

end Interrupt

/-- The interrupted iteration takes every client for readable and drops the first one. -/
theorem harmless_iff (server : Server) (s : Int) (nonzero : s ≠ 0) (l : Loop) (reached : Reaches server s l) :
    Harmless server s l ↔ l.curClients = 0 := by
  have consistent := reaches_consistent nonzero reached
  rw [Harmless,ensures_interrupt]
  constructor
  · intro harmless
    by_contra connected
    have some : (occupied l.fd).card ≠ 0 := fun zero => connected (by rw [consistent.count,zero]; rfl)
    obtain ⟨i,used⟩ := Finset.card_ne_zero.mp some
    have used : Loop.fd { l with slavesAlive := 1 } i ≠ 0 := (mem_occupied l.fd i).mp used
    obtain ⟨l',count,_,same,_⟩ := readClients_interrupt used _ ((harmless 1).2 (by decide))
    rw [same] at count
    dsimp only at count
    omega
  · intro zero n
    have none : occupied l.fd = ∅ := by
      have count := consistent.count
      rw [zero] at count
      exact Finset.card_eq_zero.mp (by omega)
    have free : ∀ i, l.fd i = 0 := by
      intro i
      by_contra used
      have member := (mem_occupied l.fd i).mpr used
      rw [none] at member
      exact absurd member (Finset.notMem_empty i)
    refine ⟨fun _ => ⟨rfl,rfl,rfl⟩,fun _ => ?_⟩
    have kept : l.clients = l.clients ∧ l.curClients = l.curClients ∧ l.history = l.history := ⟨rfl,rfl,rfl⟩
    exact readClients_free (l := { l with slavesAlive := n }) nonzero free _ kept

theorem harmless_iff_start : Harmless bareServer 3 .start :=
  (harmless_iff _ 3 (by decide) .start .start).mpr rfl

/-- A kernel with nothing to do that interrupts `select`. -/
def interrupting : (op : LoopOp) → LoopAns op
  | .select _ _ => Selected.interrupted
  | .slavesRunning => (1 : Nat)
  | .accept _ => (-1 : Int)
  | .fcntl _ => (0 : Int)
  | .read _ => (none : Option (List Byte))
  | .stack => (⟨0,0,0⟩ : NatashaCmdReply)
  | .handler op => willing op

/-- One client, which sends nothing and is disconnected by a signal. -/
theorem harmless_loses_client : ¬∀ (server : Server) (s : Int) (l : Loop), s ≠ 0 → Reaches server s l →
    Harmless server s l := by
  intro claim
  let l := (exec connecting (iterate bareServer 3) .start).2
  have reached : Reaches bareServer 3 l :=
    .next .start (ends_exec (iterate bareServer 3) .start connecting connecting_kernel)
  have admitted (op : LoopOp) : interrupt op (interrupting op) := by
    cases op <;> first | rfl | trivial
  have kept := (claim _ 3 l (by decide) reached).exec interrupting admitted
  exact absurd kept.2.1 (by decide)

end Natasha.Adm
