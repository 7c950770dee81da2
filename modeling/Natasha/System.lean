import Natasha.Reload
import Natasha.Scope

/-! The master and the workers, one access to shared memory at a time. A schedule says whose
turn it is; what a worker does between two accesses is private to it. The history of the
packet under dispatch is ghost state that no step depends on. -/
namespace Natasha

open Interaction

/-- The cores, with the private state of each worker at its launch and the number of
iterations after which it finds `force_quit` set. -/
structure Deployment where
  cores : Lcores
  dev : Devices
  worker : Nat → Worker
  iterations : Nat → Nat

/-- The packet under dispatch: `app_config` when it was begun, and the configurations that
were read since. -/
structure Packet where
  begun : ConfigPtr
  used : List ConfigPtr

structure Thread where
  code : Program Op Ans (Unit × Worker)
  packet : Option Packet

structure System where
  shared : Shared
  master : Master Int
  threads : Option (Nat → Thread)

inductive Choice where
  /-- The master's next access; `loaded` is what `app_config_load` finds. -/
  | master (loaded : Option AppConfig)
  | launch
  /-- The command handler calls `app_config_reload_all` again. -/
  | reload
  | worker (core : Nat)

/-- The access a worker makes next. The packets of an iteration are over when the next one
marks its configuration. -/
def Thread.step (t : Thread) (core : Nat) (s : Shared) : Option (Shared × Thread) :=
  match t.code with
  | .done _ => none
  | .request .appConfig next => (s.appConfig core).map fun p => (s,{ t with code := next p })
  | .request (.read p _) next =>
    some (s,⟨next (),t.packet.map fun packet => { packet with used := p :: packet.used }⟩)
  | .request (.flags p) next => some (s,{ t with code := next (s.flags p.addr) })
  | .request (.setFlags p value) next =>
    some ({ s with flags := Function.update s.flags p.addr value },⟨next (),none⟩)
  | .request .dispatch next => some (s,⟨next (),(s.appConfig core).map fun p => ⟨p,[]⟩⟩)

/-- Whether the master can go on: the wait loads the flag again and again. -/
def Shared.ready (s : Shared) : MasterOp → Bool
  | .awaitUsed p => s.flags p.addr &&& natFlagUsed ≠ 0
  | _ => true

namespace Deployment

variable (d : Deployment)

def launched (core : Nat) : Thread := ⟨(mainLoop d.dev (d.iterations core)).run (d.worker core),none⟩

/-- `setup_app` reaches the first reload with no configuration for any core. -/
def boot : System where
  shared := ⟨fun _ => none,fun _ => 0,0,[]⟩
  master := appConfigReloadAll d.cores
  threads := none

/-- `run_workers` follows when the first reload succeeds, and reloads happen after that. -/
def step (s : System) : Choice → Option System
  | .master loaded =>
    match s.master with
    | .done _ => none
    | .request op next =>
      if s.shared.ready op then
        some { s with shared := (s.shared.serve loaded op).2, master := next (s.shared.serve loaded op).1 }
      else
        some s
  | .launch =>
    match s.master, s.threads with
    | .done ret, none => if ret < 0 then none else some { s with threads := some d.launched }
    | _, _ => none
  | .reload =>
    match s.master, s.threads with
    | .done _, some _ => some { s with master := appConfigReloadAll d.cores }
    | _, _ => none
  | .worker core =>
    match s.threads with
    | none => none
    | some threads =>
      if core ∈ d.cores.slaves then
        ((threads core).step core s.shared).map fun r =>
          { s with shared := r.1, threads := some (Function.update threads core r.2) }
      else
        none

/-- Everything a step can do. -/
inductive Moves (s : System) : System → Prop
  | access (loaded : Option AppConfig) (program : s.master = .request op next) (ready : s.shared.ready op) :
      Moves s { s with shared := (s.shared.serve loaded op).2, master := next (s.shared.serve loaded op).1 }
  | spin : Moves s s
  | launch (ended : s.master = .done ret) (success : 0 ≤ ret) (before : s.threads = none) :
      Moves s { s with threads := some d.launched }
  | reload (ended : s.master = .done ret) (launched : s.threads = some threads) :
      Moves s { s with master := appConfigReloadAll d.cores }
  | work {threads : Nat → Thread} (launched : s.threads = some threads) (slave : core ∈ d.cores.slaves)
      (moved : (threads core).step core s.shared = some r) :
      Moves s { s with shared := r.1, threads := some (Function.update threads core r.2) }

theorem step_moves (stepped : d.step s choice = some s') : d.Moves s s' := by
  cases choice with
  | master loaded =>
    cases program : s.master with
    | done ret => simp [step,program] at stepped
    | request op next =>
      simp only [step,program] at stepped
      split at stepped
      case isTrue ready =>
        obtain rfl := Option.some.inj stepped
        exact .access loaded program ready
      case isFalse =>
        obtain rfl := Option.some.inj stepped
        exact .spin
  | launch =>
    simp only [step] at stepped
    split at stepped
    case h_1 ret ended before =>
      split at stepped
      case isTrue => contradiction
      case isFalse success =>
        obtain rfl := Option.some.inj stepped
        exact .launch ended (not_lt.1 success) before
    case h_2 => contradiction
  | reload =>
    simp only [step] at stepped
    split at stepped
    case h_1 ret threads ended launched =>
      obtain rfl := Option.some.inj stepped
      exact .reload ended launched
    case h_2 => contradiction
  | worker core =>
    simp only [step] at stepped
    split at stepped
    case h_1 => contradiction
    case h_2 threads launched =>
      split at stepped
      case isTrue slave =>
        obtain ⟨r,moved,rfl⟩ := Option.map_eq_some_iff.1 stepped
        exact .work launched slave moved
      case isFalse => contradiction

def run (s : System) (schedule : List Choice) : Option System := schedule.foldlM d.step s

/-- What holds at boot and is kept by every step holds after every schedule. -/
theorem run_invariant {holds : System → Prop}
    (keeps : ∀ s s', holds s → d.Moves s s' → holds s')
    (start : holds s) (reached : d.run s schedule = some s') : holds s' := by
  induction schedule generalizing s with
  | nil =>
    obtain rfl : s = s' := Option.some.inj reached
    exact start
  | cons choice schedule ih =>
    obtain ⟨middle,first,rest⟩ := Option.bind_eq_some_iff.1 reached
    exact ih (keeps s middle start (d.step_moves first)) rest

end Deployment

end Natasha
