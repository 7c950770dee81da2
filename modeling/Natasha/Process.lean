import Natasha.Lib.Fairness
import Natasha.Lib.Protocol
import Natasha.Accounting
import Natasha.ReloadSafety

/-! The whole process, with workers that loop until `force_quit` is set and a master that SIGTERM
may interrupt at any time. The handler sets the flag, waits for every worker, stops the ports
and kills the process; the master does not go on before it. -/
namespace Natasha

open Interaction

/-! ## The handler -/

inductive ExitOp where
  | forceQuit
  /-- `rte_eal_wait_lcore`, which waits for the end of `main_loop`. -/
  | waitLcore (core : Nat)
  | devStop (portid : U16)
  | devClose (portid : U16)
  /-- `signal(signum, SIG_DFL)`. -/
  | signal (signum : Int)
  | kill (signum : Int)

def ExitAns : ExitOp → Type
  | .waitLcore _ => Int
  | .forceQuit | .devStop _ | .devClose _ | .signal _ | .kill _ => Unit

abbrev Exit := Program ExitOp ExitAns

namespace Exit

def waitLcores : List Nat → Exit Unit
  | [] => return ()
  | core :: cores => do
    let _ ← Program.perform (ExitOp.waitLcore core)
    waitLcores cores

def stopPorts : List U16 → Exit Unit
  | [] => return ()
  | portid :: portids => do
    let _ ← Program.perform (ExitOp.devStop portid)
    let _ ← Program.perform (ExitOp.devClose portid)
    stopPorts portids

end Exit

def sigterm : Int := 15

section Handler

-- `portids` are the valid ports, in the order of `RTE_ETH_FOREACH_DEV`
variable (cores : Lcores) (portids : List U16)

def natashaExit : Exit Unit := do
  let _ ← Program.perform ExitOp.forceQuit
  Exit.waitLcores cores.slaves
  Exit.stopPorts portids

def sigtermHandler (signum : Int) : Exit Unit := do
  if signum ≠ sigterm then
    return ()
  natashaExit cores portids
  let _ ← Program.perform (ExitOp.signal signum)
  let _ ← Program.perform (ExitOp.kill signum)
  return ()

end Handler

/-! ## The process -/

/-- Where a core is in `main_loop`: in an iteration, of which `code` is left, or behind it. -/
inductive Loop where
  | running (t : Thread)
  | left (w : Worker)

/-- At the end of an iteration `force_quit` is read. A worker without configuration is stuck. -/
def Loop.step (dev : Devices) (core : Nat) (quit : Bool) (shared : Shared) : Loop → Shared × Loop
  | .left w => (shared,.left w)
  | .running t =>
    match t.code with
    | .done (_,w) => (shared,if quit then .left w else .running { t with code := (iteration dev).run w })
    | .request _ _ =>
      match t.step core shared with
      | some (shared',t') => (shared',.running t')
      | none => (shared,.running t)

inductive Device where
  | started
  | stopped
  | closed

structure Process where
  shared : Shared
  master : Master Int
  /-- The workers, once they are launched. -/
  loops : Option (Nat → Loop)
  devices : U16 → Device
  forceQuit : Bool
  /-- What the handler that interrupts the master has yet to do. -/
  handler : Option (Exit Unit)
  killed : Bool

inductive Turn where
  /-- The next access of the master, or of its handler. -/
  | main (loaded : Option AppConfig)
  | launch
  | reload
  | sigterm
  | worker (core : Nat)

namespace Process

/-- `core` does not run `main_loop`. -/
def Gone (p : Process) (core : Nat) : Prop := ∀ loops, p.loops = some loops → ∃ w, loops core = .left w

def exitReady (p : Process) : ExitOp → Bool
  | .waitLcore core =>
    match p.loops with
    | none => true
    | some loops =>
      match loops core with
      | .left _ => true
      | .running _ => false
  | _ => true

/-- `main_loop` returns zero. -/
def exitAnswer : (op : ExitOp) → ExitAns op
  | .waitLcore _ => (0 : Int)
  | .forceQuit | .devStop _ | .devClose _ | .signal _ | .kill _ => ()

def exit (p : Process) : ExitOp → Process
  | .forceQuit => { p with forceQuit := true }
  | .devStop portid => { p with devices := Function.update p.devices portid .stopped }
  | .devClose portid => { p with devices := Function.update p.devices portid .closed }
  | .kill _ => { p with killed := true }
  | .waitLcore _ | .signal _ => p

/-- A turn of the master's thread. -/
def main (p : Process) (loaded : Option AppConfig) : Process :=
  match p.handler with
  | some (.done _) => { p with handler := none }
  | some (.request op next) => if p.exitReady op then { p.exit op with handler := some (next (exitAnswer op)) } else p
  | none =>
    match p.master with
    | .done _ => p
    | .request op next =>
      if p.shared.ready op then
        { p with shared := (p.shared.serve loaded op).2, master := next (p.shared.serve loaded op).1 }
      else
        p

end Process

namespace Deployment

-- `d.iterations` plays no part here
variable (d : Deployment) (portids : List U16)

def bootProcess : Process := ⟨d.boot.shared,d.boot.master,none,fun _ => .started,false,none,false⟩

/-- The first thing a worker does is to read `force_quit`. -/
def launchedLoop (core : Nat) : Loop := .running ⟨.done ((),d.worker core),none⟩

def turn (p : Process) (t : Turn) : Process :=
  if p.killed then p
  else match t, p.handler, p.master, p.loops with
  | .main loaded, _, _, _ => p.main loaded
  | .launch, none, .done ret, none => if ret < 0 then p else { p with loops := some d.launchedLoop }
  | .reload, none, .done _, some _ => { p with master := appConfigReloadAll d.cores }
  | .sigterm, none, _, _ => { p with handler := some (sigtermHandler d.cores portids sigterm) }
  | .worker core, _, _, some loops =>
    if core ∈ d.cores.slaves then
      { p with
        shared := ((loops core).step d.dev core p.forceQuit p.shared).1
        loops := some (Function.update loops core ((loops core).step d.dev core p.forceQuit p.shared).2) }
    else
      p
  | _, _, _, _ => p

/-- Everything a turn can do. -/
inductive Shifts (p : Process) : Turn → Process → Prop
  | stutter (t : Turn) : Shifts p t p
  | access (loaded : Option AppConfig) (alive : p.killed = false) (free : p.handler = none)
      (program : p.master = .request op next) (ready : p.shared.ready op) :
      Shifts p (.main loaded) { p with shared := (p.shared.serve loaded op).2, master := next (p.shared.serve loaded op).1 }
  | handle (loaded : Option AppConfig) (alive : p.killed = false)
      (interrupted : p.handler = some (.request op next)) (ready : p.exitReady op) :
      Shifts p (.main loaded) { p.exit op with handler := some (next (Process.exitAnswer op)) }
  | resume (loaded : Option AppConfig) (alive : p.killed = false) (interrupted : p.handler = some (.done a)) :
      Shifts p (.main loaded) { p with handler := none }
  | launch (alive : p.killed = false) (free : p.handler = none) (ended : p.master = .done ret) (success : 0 ≤ ret)
      (before : p.loops = none) : Shifts p .launch { p with loops := some d.launchedLoop }
  | reload (alive : p.killed = false) (free : p.handler = none) (ended : p.master = .done ret)
      (launched : p.loops = some loops) : Shifts p .reload { p with master := appConfigReloadAll d.cores }
  | sigterm (alive : p.killed = false) (free : p.handler = none) :
      Shifts p .sigterm { p with handler := some (sigtermHandler d.cores portids sigterm) }
  | work {loops : Nat → Loop} (alive : p.killed = false) (launched : p.loops = some loops)
      (slave : core ∈ d.cores.slaves) :
      Shifts p (.worker core) { p with
        shared := ((loops core).step d.dev core p.forceQuit p.shared).1
        loops := some (Function.update loops core ((loops core).step d.dev core p.forceQuit p.shared).2) }

theorem turn_shifts (p : Process) (t : Turn) : d.Shifts portids p t (d.turn portids p t) := by
  unfold turn
  split
  case isTrue => exact .stutter _
  case isFalse living =>
    have alive : p.killed = false := Bool.eq_false_iff.mpr living
    split
    case h_1 loaded =>
      unfold Process.main
      split
      case h_1 interrupted => exact .resume loaded alive interrupted
      case h_2 op next interrupted =>
        split
        case isTrue ready => exact .handle loaded alive interrupted ready
        case isFalse => exact .stutter _
      case h_3 free =>
        split
        case h_1 => exact .stutter _
        case h_2 op next program =>
          split
          case isTrue ready => exact .access loaded alive free program ready
          case isFalse => exact .stutter _
    case h_2 ret free ended before =>
      split
      case isTrue => exact .stutter _
      case isFalse success => exact .launch alive free ended (not_lt.mp success) before
    case h_3 free ended launched => exact .reload alive free ended launched
    case h_4 free => exact .sigterm alive free
    case h_5 core loops launched =>
      split
      case isTrue slave => exact .work alive launched slave
      case isFalse => exact .stutter _
    case h_6 => exact .stutter _

def machine : Machine Process Turn := ⟨d.bootProcess,d.turn portids⟩

end Deployment

/-! ## The order of the exit -/

/-- What the handler has done. -/
structure ExitState where
  quit : Bool
  waited : List Nat
  stopped : List U16
  closed : List U16
  killed : Bool

def ExitState.start : ExitState := ⟨false,[],[],[],false⟩

section Handler

variable (cores : Lcores) (portids : List U16)

/-- Nothing happens to a port before all workers were waited for, and the process is killed when
all ports are closed. -/
def ExitState.Allows (e : ExitState) : ExitOp → Prop
  | .forceQuit | .signal _ => True
  | .waitLcore core => e.quit = true ∧ core ∈ cores.slaves
  | .devStop portid => cores.slaves ⊆ e.waited ∧ portid ∉ e.closed
  | .devClose portid => cores.slaves ⊆ e.waited ∧ portid ∈ e.stopped
  | .kill _ => cores.slaves ⊆ e.waited ∧ portids ⊆ e.closed

def ExitState.advance (e : ExitState) : ExitOp → ExitState
  | .forceQuit => { e with quit := true }
  | .waitLcore core => { e with waited := core :: e.waited }
  | .devStop portid => { e with stopped := portid :: e.stopped }
  | .devClose portid => { e with closed := portid :: e.closed }
  | .signal _ => e
  | .kill _ => { e with killed := true }

def exitCalls : Protocol ExitOp ExitAns ExitState :=
  ⟨ExitState.Allows cores portids,fun _ _ _ => True,fun e op _ => e.advance op⟩

variable {cores portids} {e : ExitState}

theorem waitLcores_keeps (quit : e.quit = true) {slaves : List Nat} (known : slaves ⊆ cores.slaves) :
    (exitCalls cores portids).Keeps (fun _ t => ∃ waited, t = { e with waited := waited } ∧ e.waited ⊆ waited ∧ slaves ⊆ waited)
      (Exit.waitLcores slaves) e := by
  induction slaves generalizing e with
  | nil => exact ⟨e.waited,rfl,List.Subset.refl _,List.nil_subset _⟩
  | cons core slaves ih =>
    obtain ⟨here,later⟩ := List.cons_subset.mp known
    refine ⟨⟨quit,here⟩,fun _ _ => (ih (e := e.advance (.waitLcore core)) quit later).mono ?_⟩
    rintro _ _ ⟨waited,rfl,before,after⟩
    obtain ⟨first,before⟩ := List.cons_subset.mp before
    exact ⟨waited,rfl,before,List.cons_subset.mpr ⟨first,after⟩⟩

theorem stopPorts_keeps (waited : cores.slaves ⊆ e.waited) {ports : List U16} (distinct : ports.Nodup)
    (opened : ∀ portid ∈ ports, portid ∉ e.closed) :
    (exitCalls cores portids).Keeps (fun _ t => ∃ stopped closed, t = { e with stopped := stopped, closed := closed } ∧
      e.closed ⊆ closed ∧ ports ⊆ closed) (Exit.stopPorts ports) e := by
  induction ports generalizing e with
  | nil => exact ⟨e.stopped,e.closed,rfl,List.Subset.refl _,List.nil_subset _⟩
  | cons portid ports ih =>
    obtain ⟨absent,distinct⟩ := List.nodup_cons.mp distinct
    obtain ⟨here,others⟩ := List.forall_mem_cons.mp opened
    refine ⟨⟨waited,here⟩,fun _ _ => ⟨⟨waited,List.mem_cons_self⟩,fun _ _ => ?_⟩⟩
    have still : ∀ other ∈ ports, other ∉ portid :: e.closed := fun other member =>
      List.not_mem_cons_of_ne_of_not_mem (fun same => absent (same ▸ member)) (others other member)
    refine (ih (e := (e.advance (.devStop portid)).advance (.devClose portid)) waited distinct still).mono ?_
    rintro _ _ ⟨stopped,closed,rfl,before,after⟩
    obtain ⟨first,before⟩ := List.cons_subset.mp before
    exact ⟨stopped,closed,rfl,before,List.cons_subset.mpr ⟨first,after⟩⟩

theorem sigtermHandler_keeps (distinct : portids.Nodup) : (exitCalls cores portids).Keeps (fun _ t => t.killed = true)
    (sigtermHandler cores portids sigterm) .start := by
  have stopped : (exitCalls cores portids).Keeps (fun _ t => cores.slaves ⊆ t.waited ∧ portids ⊆ t.closed)
      (Exit.waitLcores cores.slaves >>= fun _ => Exit.stopPorts portids) ⟨true,[],[],[],false⟩ := by
    refine (waitLcores_keeps rfl (List.Subset.refl _)).bind ?_
    rintro _ _ ⟨waited,rfl,_,all⟩
    refine (stopPorts_keeps all distinct fun _ _ => List.not_mem_nil).mono ?_
    rintro _ _ ⟨stopped,closed,rfl,_,done⟩
    exact ⟨all,done⟩
  refine ⟨trivial,fun _ _ => stopped.bind fun _ t ready => ?_⟩
  exact ⟨trivial,fun _ _ => ⟨ready,fun _ _ => rfl⟩⟩

end Handler

/-! ## Workers -/

section Workers

variable {d : Deployment} {portids : List U16} {p : Process} {core : Nat}

/-- Any answer to any request. -/
def AnyOutcome (code : Program Op Ans α) (a : α) : Prop := code.Outcome (fun _ _ => True) a

theorem mainLoop_succ (dev : Devices) (n : Nat) : mainLoop dev (n+1) = mainLoop dev n >>= fun _ => iteration dev := by
  induction n with
  | zero =>
    rw [mainLoop,mainLoop,pure_bind]
    exact bind_pure_unit
  | succ n ih =>
    calc mainLoop dev (n+2) = iteration dev >>= fun _ => mainLoop dev (n+1) := rfl
      _ = iteration dev >>= fun _ => mainLoop dev n >>= fun _ => iteration dev := by rw [ih]
      _ = mainLoop dev (n+1) >>= fun _ => iteration dev := (bind_assoc ..).symm

/-- The loop is the one of a worker that finds the flag set after some number of iterations. -/
def Loop.Ran (d : Deployment) (core : Nat) : Loop → Prop
  | .running t => ∃ n, ∀ r, AnyOutcome t.code r → AnyOutcome ((mainLoop d.dev n).run (d.worker core)) r
  | .left w => ∃ n, AnyOutcome ((mainLoop d.dev n).run (d.worker core)) ((),w)

theorem Thread.step_outcome {t t' : Thread} {s s' : Shared} (stepped : t.step core s = some (s',t'))
    (outcome : AnyOutcome t'.code r) : AnyOutcome t.code r := by
  obtain ⟨code,packet⟩ := t
  cases code with
  | done a => simp [Thread.step] at stepped
  | request op next =>
    cases op with
    | appConfig =>
      obtain ⟨p,_,result⟩ := Option.map_eq_some_iff.mp stepped
      obtain ⟨rfl,rfl⟩ := Prod.mk.inj result
      exact .request trivial outcome
    | read p member | flags p | setFlags p value | dispatch =>
      obtain ⟨rfl,rfl⟩ := Prod.mk.inj (Option.some.inj stepped)
      exact .request trivial outcome

theorem Loop.Ran.step {loop : Loop} (ran : loop.Ran d core) (quit : Bool) (s : Shared) :
    ((loop.step d.dev core quit s).2).Ran d core := by
  cases loop with
  | left w => exact ran
  | running t =>
    obtain ⟨n,ran⟩ := ran
    unfold Loop.step
    cases code : t.code with
    | done a =>
      obtain ⟨_,w⟩ := a
      simp only [code]
      have ended : AnyOutcome ((mainLoop d.dev n).run (d.worker core)) ((),w) := ran _ (code ▸ .done _)
      cases quit with
      | true => exact ⟨n,ended⟩
      | false =>
        refine ⟨n+1,fun r outcome => ?_⟩
        rw [mainLoop_succ]
        exact ended.bind outcome
    | request op next =>
      simp only [code]
      cases stepped : t.step core s with
      | none => exact ⟨n,ran⟩
      | some r => exact ⟨n,fun result outcome => ran result (Thread.step_outcome stepped outcome)⟩

theorem Loop.left_of_step {loop : Loop} {dev : Devices} (behind : (loop.step dev core quit s).2 = .left w) :
    quit = true ∨ loop = .left w := by
  cases loop with
  | left w' => exact .inr behind
  | running t =>
    unfold Loop.step at behind
    cases code : t.code with
    | done a =>
      simp only [code] at behind
      cases quit with
      | true => exact .inl rfl
      | false => cases behind
    | request op next =>
      simp only [code] at behind
      split at behind <;> cases behind

/-! ## The invariant -/

/-- What the handler has done is done. -/
structure ExitState.Describes (e : ExitState) (slaves : List Nat) (p : Process) : Prop where
  quit : e.quit = true → p.forceQuit = true
  waited : ∀ core ∈ e.waited, p.Gone core
  devices : ∀ portid, p.devices portid ≠ .started → slaves ⊆ e.waited
  closed : ∀ portid ∈ e.closed, p.devices portid = .closed
  killed : e.killed = p.killed

/-- The handler keeps its order, and only the death of the process ends it. Without it nothing is
stopped. -/
structure Orderly (d : Deployment) (portids : List U16) (p : Process) : Prop where
  handling : ∀ program, p.handler = some program → ∃ e : ExitState,
    (exitCalls d.cores portids).Keeps (fun _ e => e.killed = true) program e ∧ e.Describes d.cores.slaves p
  free : p.handler = none → p.forceQuit = false ∧ p.killed = false ∧ ∀ portid, p.devices portid = .started
  dead : p.killed = true → (∀ core ∈ d.cores.slaves, p.Gone core) ∧ ∀ portid ∈ portids, p.devices portid = .closed
  left : ∀ loops, p.loops = some loops → ∀ core w, loops core = .left w → p.forceQuit = true
  ran : ∀ loops, p.loops = some loops → ∀ core, (loops core).Ran d core

theorem orderly_boot : Orderly d portids d.bootProcess := ⟨nofun,fun _ => ⟨rfl,rfl,fun _ => rfl⟩,nofun,nofun,nofun⟩

/-- What a turn keeps that is not one of the handler. -/
theorem Orderly.frame {p' : Process} (orderly : Orderly d portids p) (handler : p'.handler = p.handler)
    (quit : p'.forceQuit = p.forceQuit) (killed : p'.killed = p.killed) (devices : p'.devices = p.devices)
    (gone : ∀ core, p.Gone core → p'.Gone core)
    (left : ∀ loops, p'.loops = some loops → ∀ core w, loops core = .left w → p.forceQuit = true)
    (ran : ∀ loops, p'.loops = some loops → ∀ core, (loops core).Ran d core) : Orderly d portids p' where
  handling program interrupted := by
    obtain ⟨e,keeps,describes⟩ := orderly.handling program (handler ▸ interrupted)
    refine ⟨e,keeps,fun set => quit ▸ describes.quit set,fun core member => gone core (describes.waited core member),?_,?_,?_⟩
    · exact fun portid ended => describes.devices portid (devices ▸ ended)
    · exact fun portid member => devices ▸ describes.closed portid member
    · exact describes.killed.trans killed.symm
  free none := by
    rw [quit,killed,devices]
    exact orderly.free (handler.symm.trans none)
  dead dies := by
    obtain ⟨finished,closed⟩ := orderly.dead (killed ▸ dies)
    exact ⟨fun core slave => gone core (finished core slave),devices ▸ closed⟩
  left loops launched core w behind := quit ▸ left loops launched core w behind
  ran := ran

theorem Process.gone_of_ready (ready : p.exitReady (.waitLcore core)) : p.Gone core := by
  intro loops launched
  unfold Process.exitReady at ready
  rw [launched] at ready
  dsimp only at ready
  split at ready
  case h_1 w behind => exact ⟨w,behind⟩
  case h_2 => contradiction

theorem ExitState.Describes.exit {e : ExitState} {slaves : List Nat} (describes : e.Describes slaves p)
    (allowed : e.Allows cores portids op) (all : cores.slaves = slaves) (ready : p.exitReady op) (handler : Option (Exit Unit)) :
    (e.advance op).Describes slaves { p.exit op with handler := handler } := by
  obtain ⟨quit,waited,devices,closed,killed⟩ := describes
  subst all
  cases op with
  | forceQuit => exact ⟨fun _ => rfl,waited,devices,closed,killed⟩
  | waitLcore core =>
    refine ⟨quit,List.forall_mem_cons.mpr ⟨Process.gone_of_ready ready,waited⟩,fun portid ended => ?_,closed,killed⟩
    exact List.Subset.trans (devices portid ended) (List.subset_cons_self _ _)
  | devStop portid =>
    refine ⟨quit,waited,fun _ _ => allowed.1,fun other member => ?_,killed⟩
    have different : other ≠ portid := fun same => allowed.2 (same ▸ member)
    exact (Function.update_of_ne different _ _).trans (closed other member)
  | devClose portid =>
    refine ⟨quit,waited,fun _ _ => allowed.1,fun other member => ?_,killed⟩
    by_cases same : other = portid
    · exact same ▸ Function.update_self _ _ _
    · exact (Function.update_of_ne same _ _).trans (closed other ((List.mem_cons.mp member).resolve_left same))
  | signal signum => exact ⟨quit,waited,devices,closed,killed⟩
  | kill signum => exact ⟨quit,waited,devices,closed,rfl⟩

theorem orderly_handle (orderly : Orderly d portids p) (alive : p.killed = false)
    (interrupted : p.handler = some (.request op next)) (ready : p.exitReady op) :
    Orderly d portids { p.exit op with handler := some (next (Process.exitAnswer op)) } := by
  obtain ⟨e,⟨allowed,keeps⟩,describes⟩ := orderly.handling _ interrupted
  have later := describes.exit allowed rfl ready (some (next (Process.exitAnswer op)))
  have unloops : (p.exit op).loops = p.loops := by cases op <;> rfl
  refine ⟨?_,nofun,fun dies => ?_,?_,fun loops launched => orderly.ran loops (unloops ▸ launched)⟩
  · rintro program ⟨rfl⟩
    exact ⟨_,keeps (Process.exitAnswer op) trivial,later⟩
  · cases op with
    | kill signum =>
      exact ⟨fun core slave => later.waited core (allowed.1 slave),fun portid member => later.closed portid (allowed.2 member)⟩
    | forceQuit | waitLcore _ | devStop _ | devClose _ | signal _ => exact absurd (alive.symm.trans dies) Bool.false_ne_true
  · intro loops launched core w behind
    have quit := orderly.left loops (unloops ▸ launched) core w behind
    cases op with
    | forceQuit => rfl
    | waitLcore _ | devStop _ | devClose _ | signal _ | kill _ => exact quit

theorem orderly_shift (distinct : portids.Nodup) (orderly : Orderly d portids p) (shift : d.Shifts portids p t p') :
    Orderly d portids p' := by
  cases shift with
  | stutter _ => exact orderly
  | access loaded alive free program ready =>
    exact orderly.frame rfl rfl rfl rfl (fun _ gone => gone) orderly.left orderly.ran
  | handle _ alive interrupted ready => exact orderly_handle orderly alive interrupted ready
  | resume _ alive interrupted =>
    obtain ⟨e,killed,describes⟩ := orderly.handling _ interrupted
    exact absurd (alive.symm.trans (describes.killed.symm.trans killed)) Bool.false_ne_true
  | launch alive free ended success before =>
    refine ⟨fun program interrupted => ?_,orderly.free,fun dies => absurd (alive.symm.trans dies) Bool.false_ne_true,?_,?_⟩
    · rw [free] at interrupted
      cases interrupted
    · rintro loops ⟨rfl⟩ core w behind
      cases behind
    · rintro loops ⟨rfl⟩ core
      exact ⟨0,fun r outcome => outcome⟩
  | reload alive free ended launched =>
    exact orderly.frame rfl rfl rfl rfl (fun _ gone => gone) orderly.left orderly.ran
  | sigterm alive free =>
    obtain ⟨unset,_,started⟩ := orderly.free free
    refine ⟨?_,nofun,fun dies => absurd (alive.symm.trans dies) Bool.false_ne_true,orderly.left,orderly.ran⟩
    rintro program ⟨rfl⟩
    refine ⟨_,sigtermHandler_keeps distinct,nofun,nofun,fun portid ended => ?_,nofun,alive.symm⟩
    exact absurd (started portid) ended
  | @work core loops alive launched slave =>
    refine orderly.frame rfl rfl rfl rfl ?_ ?_ ?_
    · rintro other gone _ ⟨rfl⟩
      obtain ⟨w,behind⟩ := gone _ launched
      by_cases same : other = core
      · subst same
        exact ⟨w,by rw [Function.update_self,behind]; rfl⟩
      · exact ⟨w,by rw [Function.update_of_ne same,behind]⟩
    · rintro _ ⟨rfl⟩ other w behind
      by_cases same : other = core
      · subst same
        rw [Function.update_self] at behind
        exact (Loop.left_of_step behind).elim id (orderly.left _ launched other w)
      · rw [Function.update_of_ne same] at behind
        exact orderly.left _ launched other w behind
    · rintro _ ⟨rfl⟩ other
      by_cases same : other = core
      · subst same
        rw [Function.update_self]
        exact (orderly.ran _ launched other).step _ _
      · rw [Function.update_of_ne same]
        exact orderly.ran _ launched other

/-- The worker left `main_loop` between two iterations. The queues of the devices are empty, and
the log tells where each packet went. -/
def Process.Finished (d : Deployment) (p : Process) (core : Nat) : Prop :=
  ∀ loops, p.loops = some loops → ∃ w n, loops core = .left w ∧
    AnyOutcome ((mainLoop d.dev n).run (d.worker core)) ((),w) ∧
    (∀ q < d.dev.count.toNat, (w.txQueues q).pkts = []) ∧ Balanced w.log

theorem Orderly.finished (orderly : Orderly d portids p) (fresh : ∃ pkt rx tx, d.worker core = .start pkt rx tx)
    (gone : p.Gone core) : p.Finished d core := by
  intro loops launched
  obtain ⟨w,behind⟩ := gone loops launched
  have ran := orderly.ran loops launched core
  rw [behind] at ran
  obtain ⟨n,outcome⟩ := ran
  obtain ⟨pkt,rx,tx,start⟩ := fresh
  have rested : AtRest d.dev (fun _ => True) (d.worker core) (d.worker core) := by
    rw [start]
    exact ⟨Audited.refl _,fun _ _ => rfl⟩
  have admits : Admits anyAnswer (fun _ => True) True := fun _ _ => ⟨Node.outsIn_true _,fun _ => trivial⟩
  have always := mainLoop_atRest d.dev n rested (fun _ _ => trivial) admits
  obtain ⟨⟨es,books,balanced⟩,empty⟩ := (Program.always_iff_outcome _ _ _).mp always _ outcome
  refine ⟨w,n,behind,outcome,empty,?_⟩
  have log := books.log
  rw [start] at log
  exact (log.trans (List.nil_append es)) ▸ balanced

theorem orderly_reachable (distinct : portids.Nodup) (reachable : (d.machine portids).Reachable p) : Orderly d portids p :=
  reachable.invariant orderly_boot fun s t orderly => orderly_shift distinct orderly (d.turn_shifts portids s t)

/-- Where SIGTERM has stopped a port, every worker that was launched has finished. When it kills the
process all ports are closed. -/
theorem sigterm_finishes (distinct : portids.Nodup)
    (fresh : ∀ core ∈ d.cores.slaves, ∃ pkt rx tx, d.worker core = .start pkt rx tx)
    (reachable : (d.machine portids).Reachable p) :
    (∀ portid, p.devices portid ≠ .started → ∀ core ∈ d.cores.slaves, p.Finished d core) ∧
    (p.killed = true → (∀ core ∈ d.cores.slaves, p.Finished d core) ∧ ∀ portid ∈ portids, p.devices portid = .closed) := by
  have orderly := orderly_reachable distinct reachable
  refine ⟨fun portid ended core slave => orderly.finished (fresh core slave) ?_,fun killed => ⟨fun core slave => ?_,?_⟩⟩
  · cases interrupted : p.handler with
    | none => exact absurd ((orderly.free interrupted).2.2 portid) ended
    | some program =>
      obtain ⟨e,_,describes⟩ := orderly.handling program interrupted
      exact describes.waited core (describes.devices portid ended slave)
  · exact orderly.finished (fresh core slave) ((orderly.dead killed).1 core slave)
  · exact (orderly.dead killed).2

end Workers

/-- SIGTERM while the worker has a frame under dispatch. -/
def terminated : List Turn :=
  List.replicate 5 (.main (some rewriteConfig)) ++ [.launch] ++ List.replicate 8 (.worker 1) ++ [.sigterm,.main none] ++
    List.replicate 8 (.worker 1) ++ List.replicate 5 (.main none)

theorem sigterm_finishes_terminated :
    let p := terminated.foldl (oneWorker.machine [0]).turn oneWorker.bootProcess
    p.Finished oneWorker 1 ∧ p.devices 0 = .closed := by
  intro p
  have killed : p.killed = true := by decide +kernel
  have fresh : ∀ core ∈ oneWorker.cores.slaves, ∃ pkt rx tx, oneWorker.worker core = .start pkt rx tx := fun _ _ => ⟨_,_,_,rfl⟩
  obtain ⟨finished,closed⟩ := (sigterm_finishes (List.nodup_singleton 0) fresh ⟨terminated,rfl⟩).2 killed
  exact ⟨finished 1 (by decide),closed 0 (by decide)⟩

end Natasha
