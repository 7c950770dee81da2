import Natasha.AdmClients

/-! Queries that arrive in chunks. The connection is a stream, and how it is cut into the results
of `read` is not up to the client; the loop takes a chunk of one byte for a query and any other
for an error. -/
namespace Natasha.Adm

open Interaction

/-- The sockets while `chunk` is what there is to be read from `fd` and nothing else happens. -/
def delivering (fd : Int) (chunk : List Byte) : (op : LoopOp) → Option (LoopAns op)
  | .select _ readfds => some (Selected.ready (readfds.filter (· = fd)))
  | .slavesRunning => some (1 : Nat)
  | .accept _ => some (-1 : Int)
  | .fcntl _ => some (0 : Int)
  | .read _ => some (some chunk : Option (List Byte))
  | .stack => none
  | .handler _ => none

/-- An iteration in which a client has sent `chunk`. -/
def deliver (server : Server) (s fd : Int) (chunk : List Byte) : LoopM Control := fun l =>
  ((iterate server s).run l).resolve (delivering fd chunk)

/-- The iterations in which the chunks of a client are read. A client that was disconnected is
not registered any more. -/
def session (server : Server) (s fd : Int) : List (List Byte) → LoopM PUnit
  | [] => return
  | chunk :: chunks => do
    let _ ← deliver server s fd chunk
    session server s fd chunks

section Deliver

variable {server : Server} {s fd : Int} {l : Loop} {chunk : List Byte}

theorem mem_ready (l : Loop) (other : fd ≠ s) (cs : Int) :
    cs ∈ (s :: l.fds).filter (· = fd) ↔ cs = fd ∧ cs ∈ l.fds := by
  simp only [List.mem_filter,List.mem_cons,decide_eq_true_eq]
  constructor
  · rintro ⟨rfl | member,rfl⟩
    · exact absurd rfl other
    · exact ⟨rfl,member⟩
  · rintro ⟨rfl,member⟩
    exact ⟨.inr member,rfl⟩

/-- Up to the last loop nothing happens. -/
theorem deliver_reads (other : fd ≠ s) :
    (deliver server s fd chunk).run l = ((readClients server ((s :: l.fds).filter (· = fd))).run
      { l with slavesAlive := 1 } >>= fun r => pure (.next,r.2)).resolve (delivering fd chunk) := by
  have silent : s ∉ (s :: l.fds).filter (· = fd) := by
    rw [mem_ready l other]
    exact fun member => other member.1.symm
  have alive : (checkSlavesAlive.run l).resolve (delivering fd chunk) = .done (true,{ l with slavesAlive := 1 }) := rfl
  show ((iterate.serveReady server s ((s :: l.fds).filter (· = fd))).run l).resolve (delivering fd chunk) = _
  simp only [iterate.serveReady,if_neg silent]
  rw [StateT.run_bind,Program.resolve_bind,alive]
  rfl

/-- The requests of a handler are not those of the sockets. -/
theorem handleQuery_requests (i : Fin natashaMaxClients) (l : Loop) :
    ((handleQuery server i).run l).Requests fun op => delivering fd chunk op = none := by
  refine ⟨rfl,fun frame => ?_⟩
  have handled : ((handler ((handleClientQuery server ((l.clients i).buf 0) frame).run [])).run l).Requests
      fun op => delivering fd chunk op = none :=
    Program.Requests.bind (Program.requests_embed _ fun op => rfl) fun _ => trivial
  show ((handler ((handleClientQuery server ((l.clients i).buf 0) frame).run []) >>= fun handled => do
    log (.sent (l.clients i).fd handled.2)
    return handled.1 : LoopM Int).run l).Requests _
  rw [StateT.run_bind]
  exact Program.Requests.bind handled fun _ => trivial

theorem handleRead_requests (i : Fin natashaMaxClients) (nbread : Option (List Byte)) (l : Loop) :
    ((handleRead server i nbread).run l).Requests fun op => delivering fd chunk op = none := by
  cases nbread with
  | none => trivial
  | some bytes =>
    simp only [handleRead,StateT.run_bind]
    refine Program.Requests.bind trivial fun r => ?_
    split
    · trivial
    · split
      · trivial
      · refine Program.Requests.bind (handleQuery_requests i r.2) fun r' => ?_
        show ((if r'.1 < 0 then dropClient i else pure ⟨⟩ : LoopM PUnit).run r'.2).Requests _
        split <;> trivial

/-- The chunk of a client that is connected. -/
theorem deliver_connected (consistent : l.Consistent s) {i : Fin natashaMaxClients} (used : l.fd i ≠ 0) :
    (deliver server s (l.fd i) chunk).run l =
      (handleRead server i (some chunk) >>= fun _ => pure .next).run { l with slavesAlive := 1 } := by
  have ready (j : Fin natashaMaxClients) : l.fd j ∈ (s :: l.fds).filter (· = l.fd i) ↔ j = i := by
    rw [mem_ready l (consistent.apart i),mem_fds]
    constructor
    · rintro ⟨same,_⟩
      exact consistent.distinct j i same (same ▸ used)
    · rintro rfl
      exact ⟨rfl,used,j,rfl⟩
  have found : (List.finRange natashaMaxClients).find? (fun j => (l.clients j).fd ∈ (s :: l.fds).filter (· = l.fd i)) =
      some i := by
    cases search : (List.finRange natashaMaxClients).find? (fun j => (l.clients j).fd ∈ (s :: l.fds).filter (· = l.fd i)) with
    | none => exact absurd (decide_eq_true ((ready i).mpr rfl)) (List.find?_eq_none.mp search i (List.mem_finRange i))
    | some j =>
      have here := List.find?_some search
      rw [(ready j).mp (of_decide_eq_true here)]
  have read : ((readClients server ((s :: l.fds).filter (· = l.fd i))).run { l with slavesAlive := 1 }).resolve
      (delivering (l.fd i) chunk) = (handleRead server i (some chunk)).run { l with slavesAlive := 1 } := by
    simp only [readClients,StateT.run_bind,StateT.run_get,pure_bind]
    rw [found]
    exact Program.resolve_of_requests (handleRead_requests i (some chunk) _)
  rw [deliver_reads (consistent.apart i),Program.resolve_bind,read]
  rfl

/-- Nothing is read of a client that is not connected. -/
theorem deliver_gone (other : fd ≠ s) (gone : ∀ i, l.fd i ≠ fd) :
    (deliver server s fd chunk).run l = pure (.next,{ l with slavesAlive := 1 }) := by
  have ready : ∀ i ∈ List.finRange natashaMaxClients, ¬(decide ((l.clients i).fd ∈ (s :: l.fds).filter (· = fd)) = true) := by
    intro i _
    rw [decide_eq_true_eq,mem_ready l other]
    exact fun member => gone i member.1
  rw [deliver_reads other]
  have silent : (readClients server ((s :: l.fds).filter (· = fd))).run { l with slavesAlive := 1 } =
      pure (⟨⟩,{ l with slavesAlive := 1 }) := by
    simp only [readClients,StateT.run_bind,StateT.run_get,pure_bind]
    rw [List.find?_eq_none.mpr ready]
    rfl
  rw [silent]
  rfl

theorem deliver_consistent {ok : (op : LoopOp) → LoopAns op → Prop} (consistent : l.Consistent s) (client : fd ≠ 0)
    (other : fd ≠ s) : Ensures ok (deliver server s fd chunk) l fun _ l' => l'.Consistent s := by
  by_cases connected : ∃ i, l.fd i = fd
  · obtain ⟨i,rfl⟩ := connected
    have table : Loop.Consistent s { l with slavesAlive := 1 } := consistent
    have read : Ensures ok (handleRead server i (some chunk) >>= fun _ => pure Control.next) { l with slavesAlive := 1 }
        fun _ l' => l'.Consistent s := by
      rw [ensures_bind]
      exact handleRead_consistent table client (some chunk)
    rw [Ensures,deliver_connected consistent client]
    exact read
  · rw [Ensures,deliver_gone other (not_exists.mp connected)]
    exact consistent

/-- The state after a client was dropped. -/
def Loop.dropped (l : Loop) (i : Fin natashaMaxClients) : Loop :=
  { l with
    clients := Function.update l.clients i .free
    curClients := l.curClients - 1
    history := l.history ++ [.closed (l.fd i)] }

/-- A chunk that is no query, whatever is in it. -/
theorem handleRead_long (i : Fin natashaMaxClients) (long : chunk.length ≠ 1) :
    (handleRead server i (some chunk)).run l = pure (⟨⟩,l.dropped i) := by
  have overwritten : (dropClient i).run { l with
      clients := Function.update l.clients i { l.clients i with buf := Buffer.fill (l.clients i).buf chunk } } =
      pure (⟨⟩,l.dropped i) := by
    simp only [dropClient,disconnectClient,close,log,StateT.run_bind,StateT.run_get,StateT.run_modify,pure_bind,
      Function.update_idem,Function.update_self]
    rfl
  simp only [handleRead,StateT.run_bind,StateT.run_modify,pure_bind]
  split
  · exact overwritten
  · rw [if_pos (show sizeofNatashaQuery ≠ chunk.length from Ne.symm long)]
    exact overwritten

theorem session_gone (other : fd ≠ s) (gone : ∀ i, l.fd i ≠ fd) (alive : l.slavesAlive = 1) (chunks : List (List Byte)) :
    (session server s fd chunks).run l = pure (⟨⟩,l) := by
  induction chunks with
  | nil => rfl
  | cons chunk chunks ih =>
    have same : { l with slavesAlive := 1 } = l := by rw [← alive]
    rw [session,StateT.run_bind,deliver_gone other gone,same,pure_bind]
    exact ih

/-- A chunk that is no query ends a session, the same way whatever is in it or follows it. -/
theorem session_long (consistent : l.Consistent s) (client : fd ≠ 0) (other : fd ≠ s) :
    ∃ l', ∀ chunk chunks, chunk.length ≠ 1 → (session server s fd (chunk :: chunks)).run l = pure (⟨⟩,l') := by
  by_cases connected : ∃ i, l.fd i = fd
  · obtain ⟨i,rfl⟩ := connected
    have gone (j : Fin natashaMaxClients) : (Loop.dropped { l with slavesAlive := 1 } i).fd j ≠ l.fd i := by
      show (Function.update l.clients i .free j).fd ≠ l.fd i
      by_cases here : j = i
      · subst j
        rw [Function.update_self]
        exact client.symm
      · rw [Function.update_of_ne here]
        intro same
        have used : l.fd j ≠ 0 := fun zero => client (same.symm.trans zero)
        exact here (consistent.distinct j i same used)
    refine ⟨Loop.dropped { l with slavesAlive := 1 } i,fun chunk chunks long => ?_⟩
    rw [session,StateT.run_bind,deliver_connected consistent client,StateT.run_bind,handleRead_long i long]
    exact session_gone other gone rfl chunks
  · have gone := not_exists.mp connected
    refine ⟨{ l with slavesAlive := 1 },fun chunk chunks _ => ?_⟩
    rw [session,StateT.run_bind,deliver_gone other gone]
    exact session_gone (l := { l with slavesAlive := 1 }) other gone rfl chunks

end Deliver

/-! ## Two ways to cut a stream -/

/-- The chunks before the first one that is no query. -/
def leading (chunks : List (List Byte)) : Nat := (chunks.takeWhile fun chunk => chunk.length = 1).length

theorem leading_cons (chunk : List Byte) (chunks : List (List Byte)) :
    leading (chunk :: chunks) = if chunk.length = 1 then leading chunks + 1 else 0 := by
  rw [leading,List.takeWhile_cons]
  split
  · rename_i one
    rw [if_pos (of_decide_eq_true one),List.length_cons,leading]
  · rename_i long
    rw [if_neg (by simpa using long),List.length_nil]

/-- Induction on the chunks: as long as they are queries they are the same, and a chunk that is
none ends both sessions. -/
theorem session_congr {server : Server} {s fd : Int} {l : Loop} (consistent : l.Consistent s) (client : fd ≠ 0)
    (other : fd ≠ s) {first second : List (List Byte)} (nonempty : ∀ chunk ∈ first, chunk ≠ [])
    (nonempty' : ∀ chunk ∈ second, chunk ≠ []) (stream : first.flatten = second.flatten)
    (same : leading first = leading second) :
    (session server s fd first).run l = (session server s fd second).run l := by
  induction first generalizing second l with
  | nil =>
    cases second with
    | nil => rfl
    | cons chunk second => exact absurd (List.append_eq_nil_iff.mp stream.symm).1 (nonempty' chunk List.mem_cons_self)
  | cons chunk first ih =>
    cases second with
    | nil => exact absurd (List.append_eq_nil_iff.mp stream).1 (nonempty chunk List.mem_cons_self)
    | cons chunk' second =>
      rw [leading_cons,leading_cons] at same
      by_cases one : chunk.length = 1
      · by_cases one' : chunk'.length = 1
        · obtain ⟨x,rfl⟩ := List.length_eq_one_iff.mp one
          obtain ⟨x',rfl⟩ := List.length_eq_one_iff.mp one'
          obtain ⟨rfl,rest⟩ := List.cons.inj stream
          rw [if_pos one,if_pos one,Nat.add_right_cancel_iff] at same
          rw [session,session]
          apply run_bind_congr
          apply (deliver_consistent consistent client other).mono
          intro _ l' consistent'
          exact ih consistent' (fun c member => nonempty c (List.mem_cons_of_mem _ member))
            (fun c member => nonempty' c (List.mem_cons_of_mem _ member)) rest same
        · rw [if_pos one,if_neg one'] at same
          cases same
      · by_cases one' : chunk'.length = 1
        · rw [if_neg one,if_pos one'] at same
          cases same
        · obtain ⟨l',ended⟩ := session_long consistent client other
          rw [ended chunk first one,ended chunk' second one']

/-- Both sessions send the same and leave the same descriptors in the slots, whatever the
handlers find. -/
def SameService (server : Server) (s fd : Int) (l : Loop) (first second : List (List Byte)) : Prop :=
  ∀ (σ : Type) (handle : (op : LoopOp) → σ → LoopAns op × σ) (env : σ),
    let after (chunks : List (List Byte)) : Loop := (((session server s fd chunks).run l).runState handle env).1.2
    (after first).history = (after second).history ∧ (after first).fd = (after second).fd

/-- Chunks that `read` can return. -/
def Chunks (chunks : List (List Byte)) : Prop := ∀ chunk ∈ chunks, 1 ≤ chunk.length ∧ chunk.length ≤ sizeofBuf

/-- The bytes are queries that have a handler. -/
def Known (server : Server) (stream : List Byte) : Prop :=
  ∀ type ∈ stream, ((natashaCommands server).find? fun command => command.1.code == type).isSome

theorem session_sameService (server : Server) (s : Int) (nonzero : s ≠ 0) (l : Loop) (reached : Reaches server s l)
    (i : Fin natashaMaxClients) (client : l.fd i ≠ 0) (first second : List (List Byte)) (chunks : Chunks first)
    (chunks' : Chunks second) (stream : first.flatten = second.flatten) (same : leading first = leading second) :
    SameService server s (l.fd i) l first second := by
  have consistent := reaches_consistent nonzero reached
  have nonempty {cut : List (List Byte)} (chunks : Chunks cut) : ∀ chunk ∈ cut, chunk ≠ [] := by
    rintro chunk member rfl
    exact absurd (chunks [] member).1 (by decide)
  intro σ handle env
  simp only [session_congr consistent client (consistent.apart i) (nonempty chunks) (nonempty chunks') stream same,
    and_self]

/-- The loop after the client of descriptor 4 has connected. -/
def connected : Loop := (exec connecting (iterate bareServer 3) .start).2

theorem reaches_connected : Reaches bareServer 3 connected :=
  .next .start (ends_exec (iterate bareServer 3) .start connecting connecting_kernel)

def firstSlot : Fin natashaMaxClients := ⟨0,Nat.zero_lt_two⟩

/-- A status query, then the same query twice in one chunk, or with a third one. -/
theorem session_sameService_pipelined :
    SameService bareServer 3 (connected.fd firstSlot) connected [[1],[1,1],[1]] [[1],[1,1,1]] :=
  session_sameService bareServer 3 (by decide) connected reaches_connected firstSlot (by decide) _ _
    (by unfold Chunks; decide) (by unfold Chunks; decide) rfl rfl

/-- Two status queries, read one by one or at once. -/
theorem session_coalesced :
    ¬∀ (server : Server) (s : Int) (l : Loop) (i : Fin natashaMaxClients) (first second : List (List Byte)), s ≠ 0 →
      Reaches server s l → l.fd i ≠ 0 → Chunks first → Chunks second → first.flatten = second.flatten →
      Known server first.flatten → SameService server s (l.fd i) l first second := by
  intro claim
  have same := claim bareServer 3 connected firstSlot [[1],[1]] [[1,1]] (by decide) reaches_connected (by decide)
    (by unfold Chunks; decide) (by unfold Chunks; decide) rfl (by unfold Known; decide)
  have slots := (same Unit (fun op env => (connecting op,env)) ()).2
  exact absurd (congrFun slots firstSlot) (by decide)

end Natasha.Adm
