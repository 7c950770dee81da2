import Natasha.Progress

/-! Configurations across reloads. Every configuration that was allocated is installed for one core,
is known to the master alone, or was freed once; between two reloads the master has none. -/
namespace Natasha

open Interaction

/-- The pointers of the cores, the heap and the addresses that only the master has. -/
structure Custody where
  appConfig : Nat → Option ConfigPtr
  next : Nat
  freed : List Nat
  held : List Nat

namespace Custody

variable (cores : Lcores)

/-- The addresses that are installed for the cores, in their order. -/
def installed (appConfig : Nat → Option ConfigPtr) : List Nat :=
  cores.slaves.flatMap fun core => ((appConfig core).map ConfigPtr.addr).toList

/-- What the master publishes or frees it has, and it never has more than two. -/
def Allows (c : Custody) (op : MasterOp) : Prop :=
  c.held.length ≤ 2 ∧
  match op with
  | .setAppConfig core p => core ∈ cores.slaves ∧ p.addr ∈ c.held
  | .appConfigFree p => p.addr ∈ c.held
  | .appConfigLoad | .appConfig _ | .awaitUsed _ => True

def Admits (c : Custody) : (op : MasterOp) → MasterAns op → Prop
  | .appConfigLoad, (loaded : Option ConfigPtr) => ∀ p, loaded = some p → p.addr = c.next
  | .appConfig core, (found : Option ConfigPtr) => found = c.appConfig core
  | _, _ => True

/-- A core's pointer that is overwritten is known to the master alone. -/
def advance (c : Custody) : (op : MasterOp) → MasterAns op → Custody
  | .appConfigLoad, (loaded : Option ConfigPtr) =>
    match loaded with
    | none => c
    | some p => { c with next := c.next + 1, held := p.addr :: c.held }
  | .setAppConfig core p, _ =>
    { c with
      appConfig := Function.update c.appConfig core (some p)
      held := ((c.appConfig core).map ConfigPtr.addr).toList ++ c.held.erase p.addr }
  | .appConfigFree p, _ => { c with freed := p.addr :: c.freed, held := c.held.erase p.addr }
  | .appConfig _, _ | .awaitUsed _, _ => c

def calls : Protocol MasterOp MasterAns Custody := ⟨Allows cores,Admits,advance⟩

/-- Every address that was allocated is in one place. -/
def Accounted (c : Custody) : Prop := (c.freed ++ installed cores c.appConfig ++ c.held).Perm (List.range c.next)

end Custody

section Master

variable {cores : Lcores} {c : Custody}

open Custody

theorem keeps_load {next : Option ConfigPtr → Master Int} {post : Int → Custody → Prop} (few : c.held.length ≤ 2)
    (fails : (calls cores).Keeps post (next none) c)
    (loads : ∀ p, (calls cores).Keeps post (next (some p)) { c with next := c.next + 1, held := p.addr :: c.held }) :
    (calls cores).Keeps post (Master.appConfigLoad >>= next) c := by
  refine .call ⟨few,trivial⟩ fun (loaded : Option ConfigPtr) _ => ?_
  cases loaded with
  | none => exact fails
  | some p => exact loads p

/-- What the master got last is freed first. -/
theorem keeps_free {p : ConfigPtr} {rest : List Nat} {next : Unit → Master Int} {post : Int → Custody → Prop}
    (held : c.held = p.addr :: rest) (few : rest.length ≤ 1)
    (after : (calls cores).Keeps post (next ()) { c with freed := p.addr :: c.freed, held := rest }) :
    (calls cores).Keeps post (Master.appConfigFree p >>= next) c := by
  have known : p.addr ∈ c.held := held ▸ List.mem_cons_self
  have erased : c.held.erase p.addr = rest := by rw [held,List.erase_cons_head]
  refine .call ⟨by rw [held,List.length_cons]; omega,known⟩ fun _ _ => ?_
  change (calls cores).Keeps post (next ()) { c with freed := p.addr :: c.freed, held := c.held.erase p.addr }
  rw [erased]
  exact after

theorem keeps_appConfig {core : Nat} {next : Option ConfigPtr → Master Int} {post : Int → Custody → Prop}
    (few : c.held.length ≤ 2) (after : (calls cores).Keeps post (next (c.appConfig core)) c) :
    (calls cores).Keeps post (Master.appConfig core >>= next) c := by
  refine .call ⟨few,trivial⟩ ?_
  rintro _ rfl
  exact after

/-- The new configuration is the core's, and the master has the old one if there was one. -/
theorem keeps_setAppConfig {core : Nat} {p : ConfigPtr} {rest : List Nat} {next : Unit → Master Int}
    {post : Int → Custody → Prop} (slave : core ∈ cores.slaves) (held : c.held = p.addr :: rest) (few : rest.length ≤ 1)
    (after : (calls cores).Keeps post (next ()) { c with
      appConfig := Function.update c.appConfig core (some p)
      held := ((c.appConfig core).map ConfigPtr.addr).toList ++ rest }) :
    (calls cores).Keeps post (Master.setAppConfig core p >>= next) c := by
  have known : p.addr ∈ c.held := held ▸ List.mem_cons_self
  have erased : c.held.erase p.addr = rest := by rw [held,List.erase_cons_head]
  refine .call ⟨by rw [held,List.length_cons]; omega,slave,known⟩ fun _ _ => ?_
  change (calls cores).Keeps post (next ()) { c with
    appConfig := Function.update c.appConfig core (some p)
    held := ((c.appConfig core).map ConfigPtr.addr).toList ++ c.held.erase p.addr }
  rw [erased]
  exact after

theorem reloadWorkers_returns (masterConfig : ConfigPtr) (slaves : List Nat) (known : slaves ⊆ cores.slaves)
    (held : c.held = [masterConfig.addr]) :
    (calls cores).Keeps (fun _ t => t.held = []) (reloadWorkers masterConfig slaves) c := by
  induction slaves generalizing c with
  | nil => exact keeps_free held (by simp) rfl
  | cons core slaves ih =>
    have slave : core ∈ cores.slaves := known List.mem_cons_self
    have others : slaves ⊆ cores.slaves := fun k member => known (List.mem_cons_of_mem core member)
    refine keeps_load (by simp [held]) (keeps_free held (by simp) rfl) fun newConfig => ?_
    refine keeps_appConfig (by simp [held]) (keeps_setAppConfig slave rfl (by simp [held]) ?_)
    dsimp only
    cases c.appConfig core with
    | none => exact ih others held
    | some oldConfig =>
      refine .call ⟨by simp [held],trivial⟩ fun _ _ => ?_
      exact keeps_free rfl (by simp [held]) (ih others held)

theorem appConfigReloadAll_returns (held : c.held = []) :
    (calls cores).Keeps (fun _ t => t.held = []) (appConfigReloadAll cores) c := by
  refine keeps_load (by simp [held]) held fun masterConfig => ?_
  exact reloadWorkers_returns masterConfig cores.slaves (List.Subset.refl _) (congrArg (masterConfig.addr :: ·) held)

end Master

section Accounts

variable {cores : Lcores} {c : Custody} {core : Nat}

open Custody

/-- A core's address takes the place of the one that it had. -/
theorem count_update (appConfig : Nat → Option ConfigPtr) {slaves : List Nat} (distinct : slaves.Nodup)
    (slave : core ∈ slaves) (p : ConfigPtr) (a : Nat) :
    (slaves.flatMap fun k => ((Function.update appConfig core (some p) k).map ConfigPtr.addr).toList).count a +
        ((appConfig core).map ConfigPtr.addr).toList.count a =
      (slaves.flatMap fun k => ((appConfig k).map ConfigPtr.addr).toList).count a + [p.addr].count a := by
  induction slaves with
  | nil => cases slave
  | cons head slaves ih =>
    obtain ⟨apart,others⟩ := List.nodup_cons.mp distinct
    rw [List.flatMap_cons,List.flatMap_cons,List.count_append,List.count_append]
    by_cases here : head = core
    · subst head
      have same : (slaves.flatMap fun k => ((Function.update appConfig core (some p) k).map ConfigPtr.addr).toList) =
          slaves.flatMap fun k => ((appConfig k).map ConfigPtr.addr).toList :=
        List.flatMap_congr fun k member => by rw [Function.update_of_ne fun same : k = core => apart (same ▸ member)]
      rw [same,Function.update_self,Option.map_some,Option.toList_some]
      omega
    · have rest := ih others ((List.mem_cons.mp slave).resolve_left fun same => here same.symm)
      rw [Function.update_of_ne here]
      omega

theorem Custody.Accounted.advance (accounted : Accounted cores c) {op : MasterOp} {answer : MasterAns op}
    (allowed : Allows cores c op) (admitted : Admits c op answer) : Accounted cores (c.advance op answer) := by
  rw [Accounted,List.perm_iff_count] at accounted ⊢
  simp only [List.count_append] at accounted ⊢
  intro a
  have before := accounted a
  cases op with
  | appConfigLoad =>
    cases answer with
    | none => exact before
    | some p =>
      have fresh : p.addr = c.next := admitted p rfl
      change _ + (p.addr :: c.held).count a = (List.range (c.next + 1)).count a
      rw [fresh,List.range_succ,List.count_append,← before,← List.singleton_append,List.count_append]
      change c.freed.count a + (installed cores c.appConfig).count a + _ = _
      omega
  | appConfig core => exact before
  | setAppConfig core p =>
    have moved := count_update c.appConfig cores.distinct allowed.2.1 p a
    have kept := (List.perm_cons_erase allowed.2.2).count_eq a
    rw [← List.singleton_append,List.count_append] at kept
    change c.freed.count a + (installed cores (Function.update c.appConfig core (some p))).count a +
      (((c.appConfig core).map ConfigPtr.addr).toList ++ c.held.erase p.addr).count a = (List.range c.next).count a
    rw [List.count_append]
    unfold installed at before ⊢
    omega
  | awaitUsed p => exact before
  | appConfigFree p =>
    have kept := (List.perm_cons_erase allowed.2).count_eq a
    rw [← List.singleton_append,List.count_append] at kept
    change (p.addr :: c.freed).count a + (installed cores c.appConfig).count a + (c.held.erase p.addr).count a =
      (List.range c.next).count a
    rw [← List.singleton_append,List.count_append]
    omega

end Accounts

section Process

variable {d : Deployment} {portids : List U16} {p p' : Process}

/-- The memory, without the flags, and what the master has. -/
def Shared.custody (s : Shared) (held : List Nat) : Custody := ⟨s.appConfig,s.next,s.freed,held⟩

/-- The master gives up what it has in the course of its reload. -/
def Custodial (d : Deployment) (p : Process) : Prop := ∃ held, (p.shared.custody held).Accounted d.cores ∧
  (Custody.calls d.cores).Keeps (fun _ c => c.held = []) p.master (p.shared.custody held)

/-- An access of the master, as custody sees it. -/
theorem Shared.serve_custody (s : Shared) (held : List Nat) (loaded : Option AppConfig) (op : MasterOp) :
    (s.custody held).Admits op (s.serve loaded op).1 ∧
      ∃ held', (s.serve loaded op).2.custody held' = (s.custody held).advance op (s.serve loaded op).1 := by
  cases op with
  | appConfigLoad =>
    cases loaded with
    | none => exact ⟨nofun,held,rfl⟩
    | some config =>
      refine ⟨?_,s.next :: held,rfl⟩
      rintro _ ⟨rfl⟩
      rfl
  | appConfig core => exact ⟨rfl,held,rfl⟩
  | setAppConfig core p => exact ⟨trivial,_,rfl⟩
  | awaitUsed p => exact ⟨trivial,held,rfl⟩
  | appConfigFree p => exact ⟨trivial,_,rfl⟩

/-- A worker writes nothing but flags. -/
theorem Loop.step_custody (dev : Devices) (core : Nat) (quit : Bool) (s : Shared) (loop : Loop) (held : List Nat) :
    (loop.step dev core quit s).1.custody held = s.custody held := by
  have moves := Loop.step_moves dev core quit s loop
  generalize (loop.step dev core quit s).1 = s' at moves ⊢
  generalize (loop.step dev core quit s).2 = loop' at moves
  cases moves with
  | stay | leave | restart => rfl
  | access stepped =>
    obtain ⟨_,_,_,_,_,effect⟩ := Thread.step_moves stepped
    rcases effect with rfl | ⟨_,_,_,rfl⟩ <;> rfl

theorem custodial_boot : Custodial d d.bootProcess := by
  refine ⟨[],?_,appConfigReloadAll_returns rfl⟩
  have empty : Custody.installed d.cores (fun _ => none) = [] := by simp [Custody.installed]
  change ([] ++ Custody.installed d.cores (fun _ => none) ++ []).Perm (List.range 0)
  rw [empty]
  exact .refl _

theorem custodial_shift (custodial : Custodial d p) (shift : d.Shifts portids p t p') : Custodial d p' := by
  obtain ⟨held,accounted,keeps⟩ := custodial
  cases shift with
  | stutter _ => exact ⟨held,accounted,keeps⟩
  | @access op next loaded _ _ program ready =>
    rw [program] at keeps
    obtain ⟨admitted,held',same⟩ := p.shared.serve_custody held loaded op
    refine ⟨held',?_,?_⟩
    · exact same ▸ accounted.advance keeps.1 admitted
    · exact same ▸ keeps.2 _ admitted
  | @handle op next _ _ interrupted ready =>
    have same : (p.exit op).shared = p.shared ∧ (p.exit op).master = p.master := by cases op <;> exact ⟨rfl,rfl⟩
    exact ⟨held,same.1 ▸ accounted,same.1 ▸ same.2 ▸ keeps⟩
  | resume _ _ interrupted => exact ⟨held,accounted,keeps⟩
  | launch _ _ ended success before => exact ⟨held,accounted,keeps⟩
  | reload _ _ ended launched =>
    rw [ended] at keeps
    exact ⟨held,accounted,appConfigReloadAll_returns keeps⟩
  | sigterm => exact ⟨held,accounted,keeps⟩
  | @work core loops _ launched slave =>
    have same := Loop.step_custody d.dev core p.forceQuit p.shared (loops core) held
    exact ⟨held,same ▸ accounted,same ▸ keeps⟩

/-- Wherever the reloads and the workers are, every configuration that was allocated is installed for
one core, was freed once, or is one of at most two that the master still has; after a reload there
are none of these. -/
theorem reloads_account (reachable : (d.machine portids).Reachable p) : ∃ held, held.length ≤ 2 ∧
    (p.shared.freed ++ Custody.installed d.cores p.shared.appConfig ++ held).Perm (List.range p.shared.next) ∧
    ∀ ret, p.master = .done ret → held = [] := by
  have custodial : Custodial d p :=
    reachable.invariant custodial_boot fun s t custodial => custodial_shift custodial (d.turn_shifts portids s t)
  obtain ⟨held,accounted,keeps⟩ := custodial
  cases program : p.master with
  | done ret =>
    rw [program] at keeps
    obtain rfl : held = [] := keeps
    exact ⟨[],by simp,accounted,fun _ _ => rfl⟩
  | request op next =>
    rw [program] at keeps
    exact ⟨held,keeps.1.1,accounted,nofun⟩

end Process

/-- A reload that waits for the worker: its old configuration and the validated one are the master's. -/
def reloading : List Turn :=
  List.replicate 5 (.main (some rewriteConfig)) ++ [.launch,.reload] ++ List.replicate 4 (.main (some rewriteConfig))

theorem reloads_account_reloading :
    let p := reloading.foldl (oneWorker.machine [0]).turn oneWorker.bootProcess
    p.shared.next = 4 ∧ ∃ held, held.length ≤ 2 ∧
      (p.shared.freed ++ Custody.installed oneWorker.cores p.shared.appConfig ++ held).Perm (List.range p.shared.next) ∧
      ∀ ret, p.master = .done ret → held = [] := by
  intro p
  have reachable : (oneWorker.machine [0]).Reachable p := ⟨reloading,rfl⟩
  exact ⟨rfl,reloads_account reachable⟩

end Natasha
