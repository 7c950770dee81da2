import Natasha.Unbounded

/-! What fair schedules bring about: a reload comes to its end, since the worker that it waits for
begins one iteration after another, and after SIGTERM the process dies, since every worker
gets to the end of its iteration. -/
namespace Natasha

open Interaction
open Machine (LeadsTo Recurs)

/-! ## Marks -/

/-- A store to `flags` sets the flag that the master waits for. -/
def Op.Marks : Op → Prop
  | .setFlags _ value => value &&& natFlagUsed ≠ 0
  | .appConfig | .read _ _ | .flags _ | .dispatch => True

def Marking (code : M α) : Prop := ∀ w, (code.run w).Requests Op.Marks

namespace Marking

variable {code : M α} {next : α → M β}

theorem bind (first : Marking code) (second : ∀ a, Marking (next a)) : Marking (code >>= next) :=
  fun w => (first w).bind fun r => second r.1 r.2

theorem of_scoped {ports : Int → Prop} {ptrs : List ConfigPtr} (inScope : Scoped ports ptrs code) : Marking code := by
  induction inScope with
  | pure a => exact fun _ => trivial
  | bind first second ih ih' => exact ih.bind ih'
  | own f unlogged => exact fun _ => trivial
  | look f unlogged next each ih => exact fun w => ih (f w) w
  | load each ih => exact fun w => ⟨trivial,fun p => ih p w⟩
  | read known within => exact fun _ => ⟨trivial,fun _ => trivial⟩

theorem dispatchAll (dev : Devices) (port : Nat) (pkts : List Mbuf) : Marking (Natasha.dispatchAll dev port pkts) := by
  induction pkts with
  | nil => exact fun _ => trivial
  | cons pkt pkts ih =>
    have begun : Marking (beginDispatch port pkt) := fun _ => ⟨trivial,fun _ => trivial⟩
    have inScope : Scoped (fun _ => True) [] (dispatchPacket dev port) := Scoped.dispatchPacket (fun _ _ => trivial) trivial
    have dispatched : Marking (dispatchPacket dev port) := of_scoped inScope
    exact begun.bind fun _ => dispatched.bind fun _ => ih

theorem handlePorts (dev : Devices) (ports : List Nat) : Marking (Natasha.handlePorts dev ports) := by
  induction ports with
  | nil => exact fun _ => trivial
  | cons port ports ih =>
    have burst : Marking rteEthRxBurst := fun _ => trivial
    exact (burst.bind fun burst => dispatchAll dev port burst.pkts).bind fun _ => ih

theorem flushPorts (ports : List Nat) : Marking (Natasha.flushPorts ports) := by
  induction ports with
  | nil => exact fun _ => trivial
  | cons port ports ih =>
    have look : Marking (get : M Worker) := fun _ => trivial
    have inScope (pkts : List Mbuf) : Scoped (fun _ => True) [] (txFlush port pkts) := Scoped.txFlush port pkts
    have flushed (pkts : List Mbuf) : Marking (txFlush port pkts) := of_scoped (inScope pkts)
    exact look.bind fun _ => (flushed _).bind fun _ => ih

theorem used (flags : U32) : (flags ||| natFlagUsed) &&& natFlagUsed ≠ 0 := by
  intro none
  have bit := congrArg (·.getLsbD 0) none
  simp [natFlagUsed] at bit

theorem iteration (dev : Devices) : Marking (Natasha.iteration dev) := by
  intro w
  refine ⟨trivial,fun config => ⟨trivial,fun flags => ⟨used flags,fun _ => ?_⟩⟩⟩
  exact ((handlePorts dev _).bind fun _ => flushPorts _) w

end Marking

/-! ## Invariants -/

/-- The master installs configurations for workers only. -/
def MasterOp.ServesSlaves (slaves : List Nat) : MasterOp → Prop
  | .setAppConfig core _ => core ∈ slaves
  | .appConfigLoad | .appConfig _ | .awaitUsed _ | .appConfigFree _ => True

theorem reloadWorkers_serves (m : ConfigPtr) {slaves cores : List Nat} (known : cores ⊆ slaves) :
    (reloadWorkers m cores).Requests (MasterOp.ServesSlaves slaves) := by
  induction cores with
  | nil => exact ⟨trivial,fun _ => trivial⟩
  | cons core cores ih =>
    obtain ⟨here,later⟩ := List.cons_subset.mp known
    refine ⟨trivial,fun loaded => ?_⟩
    cases loaded with
    | none => exact ⟨trivial,fun _ => trivial⟩
    | some newConfig =>
      refine ⟨trivial,fun old => ⟨here,fun _ => ?_⟩⟩
      cases old with
      | none => exact ih later
      | some old => exact ⟨trivial,fun _ => ⟨trivial,fun _ => ih later⟩⟩

theorem appConfigReloadAll_serves (cores : Lcores) :
    (appConfigReloadAll cores).Requests (MasterOp.ServesSlaves cores.slaves) := by
  refine ⟨trivial,fun loaded => ?_⟩
  cases loaded with
  | none => trivial
  | some m => exact reloadWorkers_serves m (List.Subset.refl _)

section Invariants

variable {d : Deployment} {portids : List U16} {p p' : Process} {core : Nat}

/-- Everything an access of a worker can do. -/
theorem Thread.step_moves {t t' : Thread} (stepped : t.step core s = some (s',t')) :
    ∃ op next answer, t.code = .request op next ∧ t'.code = next answer ∧
      (s' = s ∨ ∃ (q : ConfigPtr) (value : U32), op = .setFlags q value ∧
        s' = { s with flags := Function.update s.flags q.addr value }) := by
  obtain ⟨code,packet⟩ := t
  cases code with
  | done a => simp [Thread.step] at stepped
  | request op next =>
    cases op with
    | appConfig =>
      obtain ⟨q,_,result⟩ := Option.map_eq_some_iff.mp stepped
      obtain ⟨rfl,rfl⟩ := Prod.mk.inj result
      exact ⟨_,_,q,rfl,rfl,.inl rfl⟩
    | read q member | flags q | dispatch =>
      obtain ⟨rfl,rfl⟩ := Prod.mk.inj (Option.some.inj stepped)
      exact ⟨_,_,_,rfl,rfl,.inl rfl⟩
    | setFlags q value =>
      obtain ⟨rfl,rfl⟩ := Prod.mk.inj (Option.some.inj stepped)
      exact ⟨_,_,_,rfl,rfl,.inr ⟨q,value,rfl,rfl⟩⟩

/-- A worker with a configuration is never stuck. -/
theorem Thread.step_some {t : Thread} {next : Ans op → Program Op Ans (Unit × Worker)} (code : t.code = .request op next)
    (configured : s.appConfig core ≠ none) : ∃ s' t', t.step core s = some (s',t') := by
  obtain ⟨_,packet⟩ := t
  cases code
  cases op with
  | appConfig =>
    obtain ⟨q,found⟩ := Option.ne_none_iff_exists'.mp configured
    exact ⟨_,_,Option.map_eq_some_iff.mpr ⟨q,found,rfl⟩⟩
  | read q member | flags q | setFlags q value | dispatch => exact ⟨_,_,rfl⟩

/-- Everything a turn of a worker can do. -/
inductive Loop.Moves (dev : Devices) (core : Nat) (quit : Bool) (s : Shared) : Loop → Shared → Loop → Prop
  | stay (loop : Loop) : Loop.Moves dev core quit s loop s loop
  | leave (set : quit = true) (code : t.code = .done a) : Loop.Moves dev core quit s (.running t) s (.left a.2)
  | restart (clear : quit = false) (code : t.code = .done a) :
      Loop.Moves dev core quit s (.running t) s (.running { t with code := (iteration dev).run a.2 })
  | access (stepped : t.step core s = some (s',t')) : Loop.Moves dev core quit s (.running t) s' (.running t')

theorem Loop.step_moves (dev : Devices) (core : Nat) (quit : Bool) (s : Shared) (loop : Loop) :
    Loop.Moves dev core quit s loop (loop.step dev core quit s).1 (loop.step dev core quit s).2 := by
  cases loop with
  | left w => exact .stay _
  | running t =>
    unfold Loop.step
    cases code : t.code with
    | done a =>
      simp only [code]
      cases quit with
      | true => exact .leave rfl code
      | false => exact .restart rfl code
    | request op next =>
      simp only [code]
      cases stepped : t.step core s with
      | none => exact .stay _
      | some r => exact .access stepped

/-- A turn of a worker stores to `flags` at most, and what it stores is a mark. -/
theorem Loop.Moves.shared {dev : Devices} {loop loop' : Loop} (moves : Loop.Moves dev core quit s loop s' loop')
    (marking : ∀ t, loop = .running t → t.code.Requests Op.Marks) :
    s' = s ∨ ∃ (q : ConfigPtr) (value : U32), value &&& natFlagUsed ≠ 0 ∧
      s' = { s with flags := Function.update s.flags q.addr value } := by
  cases moves with
  | stay | leave | restart => exact .inl rfl
  | access stepped =>
    obtain ⟨op,next,answer,code,_,effect⟩ := Thread.step_moves stepped
    have marks := marking _ rfl
    rw [code] at marks
    refine effect.imp_right fun ⟨q,value,store,after⟩ => ⟨q,value,?_,after⟩
    subst store
    exact marks.1

theorem Loop.Moves.marking {dev : Devices} {loop loop' : Loop} (moves : Loop.Moves dev core quit s loop s' loop')
    (marking : ∀ t, loop = .running t → t.code.Requests Op.Marks) : ∀ t, loop' = .running t → t.code.Requests Op.Marks := by
  cases moves with
  | stay => exact marking
  | leave => exact nofun
  | restart clear code =>
    rintro _ ⟨rfl⟩
    exact Marking.iteration dev _
  | access stepped =>
    rintro _ ⟨rfl⟩
    obtain ⟨op,next,answer,code,after,_⟩ := Thread.step_moves stepped
    have marks := marking _ rfl
    rw [code] at marks
    exact after ▸ marks.2 answer

/-- Configurations are for workers, and workers mark them. -/
structure Working (d : Deployment) (p : Process) : Prop where
  serves : p.master.Requests (MasterOp.ServesSlaves d.cores.slaves)
  workers : ∀ core q, p.shared.appConfig core = some q → core ∈ d.cores.slaves
  marking : ∀ loops, p.loops = some loops → ∀ core t, loops core = .running t → t.code.Requests Op.Marks

theorem working_boot : Working d d.bootProcess := ⟨appConfigReloadAll_serves d.cores,nofun,nofun⟩

theorem working_shift (working : Working d p) (shift : d.Shifts portids p t p') : Working d p' := by
  cases shift with
  | stutter _ => exact working
  | @handle op next _ alive interrupted ready =>
    have same : (p.exit op).shared = p.shared ∧ (p.exit op).master = p.master ∧ (p.exit op).loops = p.loops := by
      cases op <;> exact ⟨rfl,rfl,rfl⟩
    obtain ⟨shared,master,loops⟩ := same
    exact ⟨master ▸ working.serves,shared ▸ working.workers,fun own launched => working.marking own (loops ▸ launched)⟩
  | resume _ alive interrupted => exact ⟨working.serves,working.workers,working.marking⟩
  | sigterm alive free => exact ⟨working.serves,working.workers,working.marking⟩
  | @access op next loaded alive free program ready =>
    have serves := working.serves
    rw [program] at serves
    refine ⟨serves.2 _,?_,working.marking⟩
    cases op with
    | setAppConfig core q =>
      intro other found installed
      by_cases same : other = core
      · exact same ▸ serves.1
      · exact working.workers other found ((Function.update_of_ne same ..).symm.trans installed)
    | appConfigLoad => cases loaded <;> exact working.workers
    | appConfig | awaitUsed | appConfigFree => exact working.workers
  | launch alive free ended success before =>
    refine ⟨working.serves,working.workers,?_⟩
    rintro _ ⟨rfl⟩ core _ ⟨rfl⟩
    trivial
  | reload alive free ended launched => exact ⟨appConfigReloadAll_serves d.cores,working.workers,working.marking⟩
  | @work core loops alive launched slave =>
    have moves := Loop.step_moves d.dev core p.forceQuit p.shared (loops core)
    have marking := working.marking loops launched
    refine ⟨working.serves,?_,?_⟩
    · have same : ((loops core).step d.dev core p.forceQuit p.shared).1.appConfig = p.shared.appConfig := by
        rcases moves.shared (marking core) with same | ⟨_,_,_,same⟩ <;> rw [same]
      intro other q installed
      exact working.workers other q (same ▸ installed)
    · rintro _ ⟨rfl⟩ other t running
      by_cases same : other = core
      · subst same
        exact moves.marking (marking other) t ((Function.update_self ..).symm.trans running)
      · exact marking other t ((Function.update_of_ne same ..).symm.trans running)

theorem working_reachable (reachable : (d.machine portids).Reachable p) : Working d p :=
  reachable.invariant working_boot fun s t working => working_shift working (d.turn_shifts portids s t)

/-- In a process that runs, a worker has a configuration, and the master waits for the one of a
worker. -/
structure Served (d : Deployment) (p : Process) : Prop where
  configured : p.loops ≠ none → ∀ core ∈ d.cores.slaves, p.shared.appConfig core ≠ none
  waiting : ∀ new next, p.master = .request (.awaitUsed new) next → ∃ core, p.shared.appConfig core = some new

theorem served_reachable (reachable : (d.machine portids).Reachable p) : Served d p := by
  obtain ⟨turns,rfl⟩ := reachable
  obtain ⟨iterations,schedule,s,reached,mirrors⟩ := mirrored d portids turns
  obtain ⟨owner,known,served,phase,consistent,lawful,workers⟩ := safe_run { d with iterations := iterations } reached
  rw [mirrors.shared] at consistent
  rw [mirrors.master] at lawful
  refine ⟨fun launched core slave => ?_,fun new next program => ?_⟩
  · obtain ⟨loops,running⟩ := Option.ne_none_iff_exists'.mp launched
    have threads := mirrors.threads
    rw [show (turns.foldl (d.turn portids) d.bootProcess).loops = some loops from running] at threads
    obtain ⟨own,running,_⟩ := threads
    exact mirrors.shared ▸ (workers own running core slave).1
  · rw [show (turns.foldl (d.turn portids) d.bootProcess).master = _ from program] at lawful
    obtain ⟨core,old,rfl,_⟩ := lawful
    exact ⟨core,consistent.exchange.1⟩

end Invariants

/-! ## One worker -/

/-- The main thread and every worker take turns again and again. -/
structure Fair (cores : Lcores) (schedule : Nat → Turn) : Prop where
  main : Recurs schedule fun t => ∃ loaded, t = .main loaded
  worker : ∀ core ∈ cores.slaves, Recurs schedule (· = .worker core)

/-- The worker is in an iteration of which `code` is left. -/
def Process.At (p : Process) (core : Nat) (code : Program Op Ans (Unit × Worker)) : Prop :=
  ∃ loops packet, p.loops = some loops ∧ loops core = .running ⟨code,packet⟩

section Worker

variable {d : Deployment} {portids : List U16} {p p' : Process} {core : Nat} {schedule : Nat → Turn}
  {code : Program Op Ans (Unit × Worker)}

/-- Only a turn of its own takes a worker on. -/
theorem Process.At.other (located : p.At core code) (shift : d.Shifts portids p t p') (other : t ≠ .worker core) :
    p'.At core code := by
  obtain ⟨loops,packet,launched,here⟩ := located
  cases shift with
  | stutter | resume | sigterm | access | reload => exact ⟨loops,packet,launched,here⟩
  | @handle op next _ alive interrupted ready =>
    have same : (p.exit op).loops = p.loops := by cases op <;> rfl
    exact ⟨loops,packet,same.trans launched,here⟩
  | launch alive free ended success before =>
    rw [before] at launched
    cases launched
  | @work mine own alive launched' slave =>
    obtain rfl : own = loops := Option.some.inj (launched'.symm.trans launched)
    have different : core ≠ mine := fun same => other (same ▸ rfl)
    exact ⟨_,packet,rfl,(Function.update_of_ne different ..).trans here⟩

theorem Deployment.turn_worker (alive : p.killed = false) (slave : core ∈ d.cores.slaves) (launched : p.loops = some loops) :
    d.turn portids p (.worker core) = { p with
      shared := ((loops core).step d.dev core p.forceQuit p.shared).1
      loops := some (Function.update loops core ((loops core).step d.dev core p.forceQuit p.shared).2) } := by
  simp [turn,alive,slave,launched]

theorem Deployment.turn_access {t t' : Thread} {next : Ans op → Program Op Ans (Unit × Worker)} (alive : p.killed = false)
    (slave : core ∈ d.cores.slaves) (launched : p.loops = some loops) (here : loops core = .running t)
    (code : t.code = .request op next) (stepped : t.step core p.shared = some (s',t')) :
    d.turn portids p (.worker core) =
      { p with shared := s', loops := some (Function.update loops core (.running t')) } := by
  have step : (loops core).step d.dev core p.forceQuit p.shared = (s',.running t') := by
    rw [here]
    simp only [Loop.step,code,stepped]
  rw [turn_worker alive slave launched,step]

/-- The worker has made its request, which was answered. -/
theorem Process.At.turn {next : Ans op → Program Op Ans (Unit × Worker)} (located : p.At core (.request op next))
    (alive : p.killed = false) (slave : core ∈ d.cores.slaves) (configured : p.shared.appConfig core ≠ none) :
    ∃ answer, (d.turn portids p (.worker core)).At core (next answer) := by
  obtain ⟨loops,packet,launched,here⟩ := located
  obtain ⟨s',t',stepped⟩ := Thread.step_some (t := ⟨.request op next,packet⟩) rfl configured
  obtain ⟨op',next',answer,same,after,_⟩ := Thread.step_moves stepped
  cases same
  rw [Deployment.turn_access alive slave launched here rfl stepped]
  exact ⟨answer,_,t'.packet,rfl,by rw [Function.update_self,← after]⟩

/-- At the end of an iteration the worker reads the flag. -/
theorem Process.At.turn_done (located : p.At core (.done a)) (alive : p.killed = false) (slave : core ∈ d.cores.slaves) :
    (p.forceQuit = true → (d.turn portids p (.worker core)).Gone core) ∧
    (p.forceQuit = false → (d.turn portids p (.worker core)).At core ((iteration d.dev).run a.2)) := by
  obtain ⟨loops,packet,launched,here⟩ := located
  rw [Deployment.turn_worker alive slave launched,here]
  constructor
  · rintro quit _ ⟨rfl⟩
    exact ⟨a.2,by simp [Loop.step,quit]⟩
  · exact fun quit => ⟨_,packet,rfl,by simp [Loop.step,quit]⟩

/-! ## Chains -/

variable {holds ends next : Process → Prop}

theorem worker_step (fair : Fair d.cores schedule) (slave : core ∈ d.cores.slaves)
    (stable : ∀ p t, (d.machine portids).Reachable p → holds p → holds (d.turn portids p t) ∨ ends (d.turn portids p t))
    (moves : ∀ p, (d.machine portids).Reachable p → holds p → p.At core code → next (d.turn portids p (.worker core))) :
    (d.machine portids).LeadsTo schedule (fun p => holds p ∧ p.At core code) fun p => (holds p ∧ next p) ∨ ends p := by
  refine .of_turn (fair.worker core slave) ?_ ?_
  · intro p t reachable ⟨here,located⟩ other
    rcases stable p t reachable here with still | ended
    · exact .inl ⟨still,located.other (d.turn_shifts portids p t) other⟩
    · exact .inr (.inr ended)
  · rintro p _ reachable ⟨here,located⟩ rfl
    exact (stable p _ reachable here).imp_left fun still => ⟨still,moves p reachable here located⟩

/-- An iteration has an end, whatever is answered to its requests. -/
theorem worker_ends (fair : Fair d.cores schedule) (slave : core ∈ d.cores.slaves)
    (stable : ∀ p t, (d.machine portids).Reachable p → holds p → holds (d.turn portids p t) ∨ ends (d.turn portids p t))
    (alive : ∀ p, (d.machine portids).Reachable p → holds p → p.killed = false)
    (code : Program Op Ans (Unit × Worker)) :
    (d.machine portids).LeadsTo schedule (fun p => holds p ∧ p.At core code)
      fun p => (holds p ∧ ∃ a, p.At core (.done a)) ∨ ends p := by
  induction code with
  | done a => exact .of_imp fun p _ here => .inl ⟨here.1,a,here.2⟩
  | request op next ih =>
    have answered : (d.machine portids).LeadsTo schedule (fun p => holds p ∧ p.At core (.request op next))
        fun p => (holds p ∧ ∃ answer, p.At core (next answer)) ∨ ends p := by
      refine worker_step fair slave stable fun p reachable here located => ?_
      have launched : p.loops ≠ none := by
        obtain ⟨loops,packet,launched,_⟩ := located
        simp [launched]
      exact located.turn (alive p reachable here) slave ((served_reachable reachable).configured launched core slave)
    exact answered.chain fun n ⟨here,answer,located⟩ => ih answer n ⟨here,located⟩

end Worker

/-! ## SIGTERM -/

section Sigterm

variable {d : Deployment} {portids : List U16} {p p' : Process} {core : Nat} {schedule : Nat → Turn}

/-- The next call of the handler. -/
theorem handler_shift {next : ExitAns op → Exit Unit} (interrupted : p.handler = some (.request op next))
    (shift : d.Shifts portids p t p') :
    p'.handler = some (.request op next) ∧ p'.killed = p.killed ∨ p'.handler = some (next (Process.exitAnswer op)) := by
  cases shift with
  | stutter | work => exact .inl ⟨interrupted,rfl⟩
  | handle _ alive same ready =>
    obtain ⟨rfl,rfl⟩ : _ ∧ _ := by simpa using interrupted.symm.trans same
    exact .inr rfl
  | resume _ alive same => cases interrupted.symm.trans same
  | access loaded alive free | launch alive free | reload alive free | sigterm alive free => cases interrupted.symm.trans free

/-- A worker that is behind its loop stays there. -/
theorem Process.Gone.shift (gone : p.Gone core) (interrupted : p.handler ≠ none) (shift : d.Shifts portids p t p') :
    p'.Gone core := by
  cases shift with
  | stutter | resume => exact gone
  | @handle op next _ alive same ready =>
    have same : (p.exit op).loops = p.loops := by cases op <;> rfl
    exact fun loops launched => gone loops (same.symm.trans launched)
  | access loaded alive free | launch alive free | reload alive free | sigterm alive free => exact absurd free interrupted
  | @work other loops alive launched slave =>
    rintro _ ⟨rfl⟩
    obtain ⟨w,behind⟩ := gone loops launched
    by_cases same : core = other
    · subst same
      exact ⟨w,by rw [Function.update_self,behind]; rfl⟩
    · exact ⟨w,(Function.update_of_ne same ..).trans behind⟩

theorem Deployment.turn_handler (d : Deployment) (portids : List U16) {next : ExitAns op → Exit Unit}
    (interrupted : p.handler = some (.request op next))
    (alive : p.killed = false) (ready : p.exitReady op = true) (loaded : Option AppConfig) :
    d.turn portids p (.main loaded) = { p.exit op with handler := some (next (Process.exitAnswer op)) } := by
  simp [turn,alive,Process.main,interrupted,ready]

theorem Process.Gone.ready (gone : p.Gone core) : p.exitReady (.waitLcore core) = true := by
  unfold exitReady
  cases launched : p.loops with
  | none => rfl
  | some loops =>
    obtain ⟨w,behind⟩ := gone loops launched
    simp only [behind]

theorem gone_or_at (p : Process) (core : Nat) : p.Gone core ∨ ∃ code, p.At core code := by
  cases launched : p.loops with
  | none => exact .inl fun loops same => by simp [launched] at same
  | some loops =>
    cases here : loops core with
    | running t => exact .inr ⟨t.code,loops,t.packet,launched,here⟩
    | left w =>
      refine .inl fun own same => ?_
      obtain rfl : loops = own := Option.some.inj (launched.symm.trans same)
      exact ⟨w,here⟩

/-- The handler waits for `core`. -/
structure Process.Waits (p : Process) (core : Nat) (next : Int → Exit Unit) : Prop where
  interrupted : p.handler = some (.request (.waitLcore core) next)
  alive : p.killed = false

variable {next : Int → Exit Unit}

theorem Process.Waits.shift (waits : p.Waits core next) (shift : d.Shifts portids p t p') :
    p'.Waits core next ∨ p'.handler = some (next 0) :=
  (handler_shift waits.interrupted shift).imp_left fun same => ⟨same.1,same.2.trans waits.alive⟩

/-- The handler waits for a worker after it has set the flag. -/
theorem Process.Waits.quit (waits : p.Waits core next) (orderly : Orderly d portids p) :
    p.forceQuit = true ∧ core ∈ d.cores.slaves := by
  obtain ⟨e,keeps,describes⟩ := orderly.handling _ waits.interrupted
  exact ⟨describes.quit keeps.1.1,keeps.1.2⟩

/-- A wait ends: the worker gets to the end of its iteration and leaves its loop. -/
theorem waits_end (distinct : portids.Nodup) (fair : Fair d.cores schedule) (core : Nat) (next : Int → Exit Unit) :
    (d.machine portids).LeadsTo schedule (fun p => p.Waits core next) fun p => p.handler = some (next 0) := by
  have stable (p : Process) (t : Turn) (_ : (d.machine portids).Reachable p) (waits : p.Waits core next) :
      (d.turn portids p t).Waits core next ∨ (d.turn portids p t).handler = some (next 0) :=
    waits.shift (d.turn_shifts portids p t)
  have gone : (d.machine portids).LeadsTo schedule (fun p => p.Waits core next ∧ p.Gone core)
      fun p => p.handler = some (next 0) := by
    refine .of_turn fair.main ?_ ?_
    · intro p t reachable ⟨waits,gone⟩ _
      exact (stable p t reachable waits).imp_left fun still =>
        ⟨still,gone.shift (by simp [waits.interrupted]) (d.turn_shifts portids p t)⟩
    · rintro p _ _ ⟨waits,gone⟩ ⟨loaded,rfl⟩
      exact congrArg Process.handler (d.turn_handler portids waits.interrupted waits.alive gone.ready loaded)
  have leaves (code : Program Op Ans (Unit × Worker)) (slave : core ∈ d.cores.slaves) :
      (d.machine portids).LeadsTo schedule (fun p => p.Waits core next ∧ p.At core code)
        fun p => p.handler = some (next 0) := by
    have ended : (d.machine portids).LeadsTo schedule (fun p => p.Waits core next ∧ p.At core code)
        fun p => (p.Waits core next ∧ ∃ a, p.At core (.done a)) ∨ p.handler = some (next 0) :=
      worker_ends fair slave stable (fun _ _ waits => waits.alive) code
    have left : (d.machine portids).LeadsTo schedule (fun p => p.Waits core next ∧ ∃ a, p.At core (.done a))
        fun p => (p.Waits core next ∧ p.Gone core) ∨ p.handler = some (next 0) := by
      rintro n ⟨waits,a,located⟩
      have step : (d.machine portids).LeadsTo schedule (fun p => p.Waits core next ∧ p.At core (.done a))
          fun p => (p.Waits core next ∧ p.Gone core) ∨ p.handler = some (next 0) := by
        refine worker_step fair slave stable fun p reachable waits located => ?_
        exact (located.turn_done waits.alive slave).1 (waits.quit (orderly_reachable distinct reachable)).1
      exact step n ⟨waits,located⟩
    exact (ended.chain left).trans (gone.or_self)
  intro n waits
  rcases gone_or_at ((d.machine portids).after schedule n) core with behind | ⟨code,located⟩
  · exact gone n ⟨waits,behind⟩
  · have slave := (waits.quit (orderly_reachable distinct ((d.machine portids).after_reachable schedule n))).2
    exact leaves code slave n ⟨waits,located⟩

/-- The handler gets through, and with it the process. -/
theorem handler_ends (distinct : portids.Nodup) (fair : Fair d.cores schedule) (program : Exit Unit) :
    (d.machine portids).LeadsTo schedule (fun p => p.handler = some program) fun p => p.killed = true := by
  induction program with
  | done a =>
    refine .of_imp fun p reachable interrupted => ?_
    obtain ⟨e,killed,describes⟩ := (orderly_reachable distinct reachable).handling _ interrupted
    exact describes.killed.symm.trans killed
  | request op next ih =>
    have called : (d.machine portids).LeadsTo schedule (fun p => p.handler = some (.request op next))
        fun p => p.handler = some (next (Process.exitAnswer op)) ∨ p.killed = true := by
      intro n interrupted
      cases dead : ((d.machine portids).after schedule n).killed with
      | true => exact ⟨n,Nat.le_refl n,.inr dead⟩
      | false =>
        by_cases wait : ∃ core, op = .waitLcore core
        · obtain ⟨core,rfl⟩ := wait
          obtain ⟨m,later,ended⟩ := waits_end distinct fair core next n ⟨interrupted,dead⟩
          exact ⟨m,later,.inl ended⟩
        · have ready (p : Process) : p.exitReady op = true := by
            cases op with
            | waitLcore core => exact absurd ⟨core,rfl⟩ wait
            | forceQuit | devStop _ | devClose _ | signal _ | kill _ => rfl
          have directly : (d.machine portids).LeadsTo schedule
              (fun p => p.handler = some (.request op next) ∧ p.killed = false)
              fun p => p.handler = some (next (Process.exitAnswer op)) ∨ p.killed = true := by
            refine .of_turn fair.main ?_ ?_
            · intro p t _ ⟨interrupted,alive⟩ _
              rcases handler_shift interrupted (d.turn_shifts portids p t) with same | moved
              · exact .inl ⟨same.1,same.2.trans alive⟩
              · exact .inr (.inl moved)
            · rintro p _ _ ⟨interrupted,alive⟩ ⟨loaded,rfl⟩
              exact .inl (congrArg Process.handler (d.turn_handler portids interrupted alive (ready p) loaded))
          exact directly n ⟨interrupted,dead⟩
    exact called.trans (ih _).or_self

end Sigterm

/-! ## Reloads -/

section Reload

variable {d : Deployment} {portids : List U16} {p p' : Process} {core : Nat} {schedule : Nat → Turn} {new : ConfigPtr}
  {next : Unit → Master Int}

/-- The master waits for the worker of `core` to mark `new`, which is its configuration. -/
structure Process.Awaits (p : Process) (core : Nat) (new : ConfigPtr) (next : Unit → Master Int) : Prop where
  free : p.handler = none
  launched : p.loops ≠ none
  program : p.master = .request (.awaitUsed new) next
  installed : p.shared.appConfig core = some new

/-- The wait is over, or the handler interrupts it. -/
def Process.Resumes (p : Process) (program : Master Int) : Prop := (p.loops ≠ none ∧ p.master = program) ∨ p.handler ≠ none

/-- The flag of the configuration is set. -/
def Process.Marked (p : Process) (new : ConfigPtr) : Prop := p.shared.flags new.addr &&& natFlagUsed ≠ 0

theorem Process.Awaits.shift (awaits : p.Awaits core new next) (working : Working d p) (shift : d.Shifts portids p t p') :
    (p'.Awaits core new next ∧ (p.Marked new → p'.Marked new)) ∨ p'.Resumes (next ()) := by
  obtain ⟨free,launched,program,installed⟩ := awaits
  cases shift with
  | stutter => exact .inl ⟨⟨free,launched,program,installed⟩,id⟩
  | access loaded alive _ same ready =>
    cases program.symm.trans same
    exact .inr (.inl ⟨launched,rfl⟩)
  | handle _ alive interrupted | resume _ alive interrupted => cases free.symm.trans interrupted
  | launch alive _ ended success before => exact absurd before launched
  | reload alive _ ended => cases program.symm.trans ended
  | sigterm => exact .inr (.inr nofun)
  | @work other loops alive running slave =>
    have moves := Loop.step_moves d.dev other p.forceQuit p.shared (loops other)
    rcases moves.shared (working.marking loops running other) with same | ⟨q,value,mark,same⟩
    · exact .inl ⟨⟨free,nofun,program,by rw [same]; exact installed⟩,by rw [Marked,Marked,same]; exact id⟩
    · refine .inl ⟨⟨free,nofun,program,by rw [same]; exact installed⟩,fun marked => ?_⟩
      rw [Marked,same]
      by_cases here : new.addr = q.addr
      · simpa [here] using mark
      · simpa [Marked,here] using marked

/-- What the worker does to the flag that its iteration stores to. -/
theorem Process.At.turn_setFlags {rest : Unit → Program Op Ans (Unit × Worker)}
    (located : p.At core (.request (.setFlags new value) rest)) (alive : p.killed = false) (slave : core ∈ d.cores.slaves)
    (mark : value &&& natFlagUsed ≠ 0) : (d.turn portids p (.worker core)).Marked new := by
  obtain ⟨loops,packet,launched,here⟩ := located
  rw [Deployment.turn_access alive slave launched here rfl rfl,Marked]
  simpa using mark

theorem Process.At.turn_appConfig {rest : ConfigPtr → Program Op Ans (Unit × Worker)}
    (located : p.At core (.request .appConfig rest)) (alive : p.killed = false) (slave : core ∈ d.cores.slaves)
    (installed : p.shared.appConfig core = some new) : (d.turn portids p (.worker core)).At core (rest new) := by
  obtain ⟨loops,packet,launched,here⟩ := located
  have stepped : Thread.step ⟨.request .appConfig rest,packet⟩ core p.shared = some (p.shared,⟨rest new,packet⟩) :=
    Option.map_eq_some_iff.mpr ⟨new,installed,rfl⟩
  rw [Deployment.turn_access alive slave launched here rfl stepped]
  exact ⟨_,packet,rfl,Function.update_self ..⟩

theorem Deployment.turn_master (d : Deployment) (portids : List U16) {next : MasterAns op → Master Int} (free : p.handler = none)
    (alive : p.killed = false) (program : p.master = .request op next) (ready : p.shared.ready op = true)
    (loaded : Option AppConfig) : d.turn portids p (.main loaded) =
      { p with shared := (p.shared.serve loaded op).2, master := next (p.shared.serve loaded op).1 } := by
  simp [turn,alive,Process.main,free,program,ready]

/-- A wait ends: the worker gets to the end of its iteration and marks `new` in the next one. -/
theorem awaits_end (distinct : portids.Nodup) (fair : Fair d.cores schedule) (slave : core ∈ d.cores.slaves)
    (new : ConfigPtr) (next : Unit → Master Int) :
    (d.machine portids).LeadsTo schedule (fun p => p.Awaits core new next) fun p => p.Resumes (next ()) := by
  let M := d.machine portids
  have stable (p : Process) (t : Turn) (reachable : M.Reachable p) (awaits : p.Awaits core new next) :
      (d.turn portids p t).Awaits core new next ∨ (d.turn portids p t).Resumes (next ()) :=
    (awaits.shift (working_reachable reachable) (d.turn_shifts portids p t)).imp_left And.left
  have free (p : Process) (reachable : M.Reachable p) (awaits : p.Awaits core new next) :
      p.forceQuit = false ∧ p.killed = false := by
    obtain ⟨quit,alive,_⟩ := (orderly_reachable distinct reachable).free awaits.free
    exact ⟨quit,alive⟩
  -- the iteration that is under way may have begun with another configuration
  have ended (code : Program Op Ans (Unit × Worker)) : M.LeadsTo schedule (fun p => p.Awaits core new next ∧ p.At core code)
      fun p => (p.Awaits core new next ∧ ∃ a, p.At core (.done a)) ∨ p.Resumes (next ()) :=
    worker_ends fair slave stable (fun p reachable awaits => (free p reachable awaits).2) code
  have begun (a : Unit × Worker) : M.LeadsTo schedule (fun p => p.Awaits core new next ∧ p.At core (.done a))
      fun p => (p.Awaits core new next ∧ p.At core ((iteration d.dev).run a.2)) ∨ p.Resumes (next ()) :=
    worker_step fair slave stable fun p reachable awaits located =>
      (located.turn_done (free p reachable awaits).2 slave).2 (free p reachable awaits).1
  let store (w : Worker) (flags : U32) : Program Op Ans (Unit × Worker) :=
    .request (.setFlags new (flags ||| natFlagUsed)) fun _ => (iterationBody d.dev).run w
  have loaded (w : Worker) : M.LeadsTo schedule (fun p => p.Awaits core new next ∧ p.At core ((iteration d.dev).run w))
      fun p => (p.Awaits core new next ∧ p.At core (.request (.flags new) (store w))) ∨ p.Resumes (next ()) :=
    worker_step fair slave stable fun p reachable awaits located =>
      located.turn_appConfig (free p reachable awaits).2 slave awaits.installed
  have read (w : Worker) : M.LeadsTo schedule (fun p => p.Awaits core new next ∧ p.At core (.request (.flags new) (store w)))
      fun p => (p.Awaits core new next ∧ ∃ flags, p.At core (store w flags)) ∨ p.Resumes (next ()) :=
    worker_step fair slave stable fun p reachable awaits located =>
      located.turn (free p reachable awaits).2 slave (by simp [awaits.installed])
  have stored (w : Worker) (flags : U32) : M.LeadsTo schedule (fun p => p.Awaits core new next ∧ p.At core (store w flags))
      fun p => (p.Awaits core new next ∧ p.Marked new) ∨ p.Resumes (next ()) :=
    worker_step fair slave stable fun p reachable awaits located =>
      located.turn_setFlags (free p reachable awaits).2 slave (Marking.used flags)
  have marked : M.LeadsTo schedule (fun p => p.Awaits core new next ∧ p.Marked new) fun p => p.Resumes (next ()) := by
    refine .of_turn fair.main ?_ ?_
    · intro p t reachable ⟨awaits,marked⟩ _
      exact (awaits.shift (working_reachable reachable) (d.turn_shifts portids p t)).imp_left fun still =>
        ⟨still.1,still.2 marked⟩
    · rintro p _ reachable ⟨awaits,marked⟩ ⟨loaded,rfl⟩
      have ready : p.shared.ready (.awaitUsed new) = true := decide_eq_true marked
      have moved := d.turn_master portids awaits.free (free p reachable awaits).2 awaits.program ready loaded
      exact .inl ⟨fun none => awaits.launched ((congrArg Process.loops moved).symm.trans none),congrArg Process.master moved⟩
  have marks (a : Unit × Worker) : M.LeadsTo schedule (fun p => p.Awaits core new next ∧ p.At core (.done a))
      fun p => (p.Awaits core new next ∧ p.Marked new) ∨ p.Resumes (next ()) := by
    refine (begun a).chain ((loaded a.2).chain ((read a.2).chain ?_))
    exact fun n ⟨awaits,flags,located⟩ => stored a.2 flags n ⟨awaits,located⟩
  intro n awaits
  have reachable := M.after_reachable schedule n
  obtain ⟨code,located⟩ : ∃ code, (M.after schedule n).At core code := by
    refine (gone_or_at _ core).resolve_left fun gone => ?_
    obtain ⟨loops,running⟩ := Option.ne_none_iff_exists'.mp awaits.launched
    obtain ⟨w,behind⟩ := gone loops running
    have quit := (orderly_reachable distinct reachable).left loops running core w behind
    exact absurd ((free _ reachable awaits).1.symm.trans quit) Bool.false_ne_true
  have finished : M.LeadsTo schedule (fun p => p.Awaits core new next ∧ p.At core code)
      fun p => (p.Awaits core new next ∧ p.Marked new) ∨ p.Resumes (next ()) :=
    (ended code).chain fun n ⟨awaits,a,located⟩ => marks a n ⟨awaits,located⟩
  exact finished.trans marked.or_self n ⟨awaits,located⟩

/-- An access that is not a wait. -/
theorem master_step (distinct : portids.Nodup) (fair : Fair d.cores schedule) {next : MasterAns op → Master Int}
    (ready : ∀ s : Shared, s.ready op = true) : (d.machine portids).LeadsTo schedule
      (fun p => p.handler = none ∧ p.loops ≠ none ∧ p.master = .request op next)
      fun p => (∃ answer, p.loops ≠ none ∧ p.master = next answer) ∨ p.handler ≠ none := by
  refine .of_turn fair.main ?_ ?_
  · intro p t _ ⟨free,launched,program⟩ _
    generalize after : (d.machine portids).turn p t = p'
    have shift : d.Shifts portids p t p' := after ▸ d.turn_shifts portids p t
    cases shift with
    | stutter => exact .inl ⟨free,launched,program⟩
    | access loaded alive _ same =>
      cases program.symm.trans same
      exact .inr (.inl ⟨_,launched,rfl⟩)
    | handle _ alive interrupted | resume _ alive interrupted => cases free.symm.trans interrupted
    | launch alive _ ended success before => exact absurd before launched
    | reload alive _ ended => cases program.symm.trans ended
    | sigterm => exact .inr (.inr nofun)
    | work => exact .inl ⟨free,nofun,program⟩
  · rintro p _ reachable ⟨free,launched,program⟩ ⟨loaded,rfl⟩
    have alive := ((orderly_reachable distinct reachable).free free).2.1
    have moved := d.turn_master portids free alive program (ready _) loaded
    exact .inl ⟨_,fun none => launched ((congrArg Process.loops moved).symm.trans none),congrArg Process.master moved⟩

/-- The master gets through its reload, or is interrupted. -/
theorem master_ends (distinct : portids.Nodup) (fair : Fair d.cores schedule) (program : Master Int) :
    (d.machine portids).LeadsTo schedule (fun p => p.loops ≠ none ∧ p.master = program)
      fun p => (∃ ret, p.master = .done ret) ∨ p.handler ≠ none := by
  induction program with
  | done ret => exact .of_imp fun p _ here => .inl ⟨ret,here.2⟩
  | request op next ih =>
    have answered : (d.machine portids).LeadsTo schedule (fun p => p.loops ≠ none ∧ p.master = .request op next)
        fun p => (∃ answer, p.loops ≠ none ∧ p.master = next answer) ∨ p.handler ≠ none := by
      intro n ⟨launched,program⟩
      by_cases free : ((d.machine portids).after schedule n).handler = none
      · have reachable := (d.machine portids).after_reachable schedule n
        by_cases wait : ∃ new, op = .awaitUsed new
        · obtain ⟨new,rfl⟩ := wait
          obtain ⟨core,installed⟩ := (served_reachable reachable).waiting new next program
          have slave := (working_reachable reachable).workers core new installed
          obtain ⟨m,later,resumes⟩ := awaits_end distinct fair slave new next n ⟨free,launched,program,installed⟩
          exact ⟨m,later,resumes.imp_left fun here => ⟨(),here⟩⟩
        · have ready (s : Shared) : s.ready op = true := by
            cases op with
            | awaitUsed new => exact absurd ⟨new,rfl⟩ wait
            | appConfigLoad | appConfig _ | setAppConfig _ _ | appConfigFree _ => rfl
          exact master_step distinct fair ready n ⟨free,launched,program⟩
      · exact ⟨n,Nat.le_refl n,.inr free⟩
    exact answered.chain fun n ⟨answer,here⟩ => ih answer n here

end Reload

section Fair

variable {d : Deployment} {portids : List U16} {schedule : Nat → Turn}

/-- SIGTERM is the end of the process, wherever the workers and the master are. -/
theorem sigterm_kills (distinct : portids.Nodup) (fair : Fair d.cores schedule) :
    (d.machine portids).LeadsTo schedule (fun p => p.handler ≠ none) fun p => p.killed = true := by
  intro n interrupted
  obtain ⟨program,same⟩ := Option.ne_none_iff_exists'.mp interrupted
  exact handler_ends distinct fair program n same

/-- With the workers launched a reload comes to its end, unless SIGTERM ends the process. -/
theorem reload_ends (distinct : portids.Nodup) (fair : Fair d.cores schedule) :
    (d.machine portids).LeadsTo schedule (fun p => p.loops ≠ none)
      fun p => (∃ ret, p.master = .done ret) ∨ p.killed = true := by
  intro n launched
  obtain ⟨m,later,ended | interrupted⟩ := master_ends distinct fair _ n ⟨launched,rfl⟩
  · exact ⟨m,later,.inl ended⟩
  · obtain ⟨program,same⟩ := Option.ne_none_iff_exists'.mp interrupted
    obtain ⟨k,still,killed⟩ := handler_ends distinct fair program m same
    exact ⟨k,Nat.le_trans later still,.inr killed⟩

end Fair

/-- The worker and the main thread take turns, with one turn of another kind once they run. -/
def alternating (other : Turn) (n : Nat) : Turn :=
  if n < 5 then .main (some rewriteConfig)
  else if n = 5 then .launch
  else if n = 12 then other
  else if n % 2 = 0 then .worker 1
  else .main (some rewriteConfig)

theorem alternating_fair (other : Turn) : Fair oneWorker.cores (alternating other) := by
  refine ⟨fun n => ⟨2*n+15,by omega,some rewriteConfig,?_⟩,fun core slave n => ⟨2*n+14,by omega,?_⟩⟩
  · have odd : (2*n+15) % 2 = 1 := by omega
    simp [alternating,odd]
  · obtain rfl : core = 1 := List.mem_singleton.mp slave
    have even : (2*n+14) % 2 = 0 := by omega
    simp [alternating,even]

theorem sigterm_kills_alternating :
    ∃ m ≥ 13, ((oneWorker.machine [0]).after (alternating .sigterm) m).killed = true := by
  have interrupted : ((oneWorker.machine [0]).after (alternating .sigterm) 13).handler.isSome = true := by decide +kernel
  refine sigterm_kills (List.nodup_singleton 0) (alternating_fair .sigterm) 13 ?_
  exact Option.isSome_iff_ne_none.mp interrupted

theorem reload_ends_alternating : ∃ m ≥ 13, (∃ ret, ((oneWorker.machine [0]).after (alternating .reload) m).master = .done ret) ∨
    ((oneWorker.machine [0]).after (alternating .reload) m).killed = true := by
  have launched : ((oneWorker.machine [0]).after (alternating .reload) 13).loops.isSome = true := by decide +kernel
  exact reload_ends (List.nodup_singleton 0) (alternating_fair .reload) 13 (Option.isSome_iff_ne_none.mp launched)

end Natasha
