import Natasha.Lib.Interaction
import Natasha.Config

/-! The reload of config.c as a program of the master: it loads a configuration to validate
it, then loads again for each worker, publishes and frees. Every load reads the file again,
so the results of the loads are given from outside. -/
namespace Natasha

open Interaction

/-- The slave cores, in the order of `RTE_LCORE_FOREACH_SLAVE`. -/
structure Lcores where
  slaves : List Nat
  distinct : slaves.Nodup

/-- Accesses of the master to memory it shares with the workers. -/
inductive MasterOp where
  | appConfigLoad
  | appConfig (core : Nat)
  | setAppConfig (core : Nat) (p : ConfigPtr)
  /-- `while (!(new_config->flags & NAT_FLAG_USED)) continue;`, of which only the last load
  counts. -/
  | awaitUsed (p : ConfigPtr)
  | appConfigFree (p : ConfigPtr)

def MasterAns : MasterOp → Type
  | .appConfigLoad | .appConfig _ => Option ConfigPtr
  | .setAppConfig _ _ | .awaitUsed _ | .appConfigFree _ => Unit

abbrev Master := Program MasterOp MasterAns

namespace Master

def appConfigLoad : Master (Option ConfigPtr) := Program.perform MasterOp.appConfigLoad
def appConfig (core : Nat) : Master (Option ConfigPtr) := Program.perform (MasterOp.appConfig core)
def setAppConfig (core : Nat) (p : ConfigPtr) : Master Unit :=
  Program.perform (MasterOp.setAppConfig core p)
def awaitUsed (p : ConfigPtr) : Master Unit := Program.perform (MasterOp.awaitUsed p)
def appConfigFree (p : ConfigPtr) : Master Unit := Program.perform (MasterOp.appConfigFree p)

end Master

/-- The loop of `app_config_reload_all` over the workers still to be reloaded, and its end.
There is no old configuration at startup. -/
def reloadWorkers (masterConfig : ConfigPtr) : List Nat → Master Int
  | [] => do
    Master.appConfigFree masterConfig
    return 0
  | core :: cores => do
    match ← Master.appConfigLoad with
    | none =>
      Master.appConfigFree masterConfig
      return -1
    | some newConfig =>
      let oldConfig ← Master.appConfig core
      Master.setAppConfig core newConfig
      match oldConfig with
      | none => reloadWorkers masterConfig cores
      | some oldConfig =>
        Master.awaitUsed newConfig
        Master.appConfigFree oldConfig
        reloadWorkers masterConfig cores

def appConfigReloadAll (cores : Lcores) : Master Int := do
  match ← Master.appConfigLoad with
  | none => return -1
  | some masterConfig => reloadWorkers masterConfig cores.slaves

/-! ## Shared memory -/

/-- `cores[core].app_config`, the `flags` of every configuration, and the heap. An address
stands for one object and is not used again, so the heap is what is yet to be allocated
and what was freed. -/
structure Shared where
  appConfig : Nat → Option ConfigPtr
  flags : Nat → U32
  next : Nat
  freed : List Nat

namespace Shared

/-- A fresh object: `rte_zmalloc` clears its `flags`. -/
def allocate (s : Shared) : Shared :=
  { s with flags := Function.update s.flags s.next 0, next := s.next + 1 }

/-- The effect of one access; `loaded` is what `app_config_load` finds in the file. -/
def serve (s : Shared) (loaded : Option AppConfig) : (op : MasterOp) → MasterAns op × Shared
  | .appConfigLoad =>
    match loaded with
    | none => (none,s)
    | some config => (some ⟨s.next,config⟩,s.allocate)
  | .appConfig core => (s.appConfig core,s)
  | .setAppConfig core p => ((),{ s with appConfig := Function.update s.appConfig core (some p) })
  | .awaitUsed _ => ((),s)
  | .appConfigFree p => ((),{ s with freed := p.addr :: s.freed })

/-- The pointers of the cores are to objects that were allocated, and so are freed ones. -/
structure Allocated (s : Shared) : Prop where
  appConfig : ∀ core p, s.appConfig core = some p → p.addr < s.next
  freed : ∀ a ∈ s.freed, a < s.next

end Shared

/-- The memory and the results of the loads still to come. -/
structure Loading where
  shared : Shared
  loads : Nat → Option AppConfig

/-- The master alone: a wait ends, and the workers only write to `flags`. -/
def Loading.handle (op : MasterOp) (s : Loading) : MasterAns op × Loading :=
  ((s.shared.serve (s.loads 0) op).1,
    ⟨(s.shared.serve (s.loads 0) op).2,
      match op with
      | .appConfigLoad => fun i => s.loads (i+1)
      | _ => s.loads⟩)

/-- The value returned by `app_config_reload_all` and the memory then. -/
def Loading.reload (s : Loading) (cores : Lcores) : Int × Shared :=
  (((appConfigReloadAll cores).runState handle s).1,((appConfigReloadAll cores).runState handle s).2.shared)

/-- A failed reload leaves every worker the object it had, and after a successful one every
worker runs what the master validated. -/
def AllOrNothing (cores : Lcores) (s : Loading) : Prop :=
  ((s.reload cores).1 = -1 → ∀ core ∈ cores.slaves,
    (s.reload cores).2.appConfig core = s.shared.appConfig core ∧
    ∀ p, s.shared.appConfig core = some p →
      (p.addr ∈ (s.reload cores).2.freed ↔ p.addr ∈ s.shared.freed)) ∧
  ((s.reload cores).1 = 0 → ∀ core ∈ cores.slaves, ∃ p,
    (s.reload cores).2.appConfig core = some p ∧ p.addr ∉ (s.reload cores).2.freed ∧
    s.loads 0 = some p.config)

/-! ## One worker after the other -/

namespace Loading

variable {s : Loading} {m : ConfigPtr} {core : Nat} {cores : List Nat} {config : AppConfig}

def workers (s : Loading) (m : ConfigPtr) (cores : List Nat) : Int × Loading :=
  (reloadWorkers m cores).runState handle s

def published (s : Loading) (core : Nat) (config : AppConfig) : Loading where
  shared := { s.shared.allocate with
    appConfig := Function.update s.shared.appConfig core (some ⟨s.shared.next,config⟩)
    freed := ((s.shared.appConfig core).map ConfigPtr.addr).toList ++ s.shared.freed }
  loads i := s.loads (i+1)

theorem run_load_fail (failed : s.loads 0 = none) :
    Master.appConfigLoad.runState handle s = (none,⟨s.shared,fun i => s.loads (i+1)⟩) := by
  change handle .appConfigLoad s = (none,_)
  rw [handle,failed]
  rfl

theorem run_load (found : s.loads 0 = some config) :
    Master.appConfigLoad.runState handle s =
      (some ⟨s.shared.next,config⟩,⟨s.shared.allocate,fun i => s.loads (i+1)⟩) := by
  change handle .appConfigLoad s = (some _,_)
  rw [handle,found]
  rfl

theorem workers_fail (failed : s.loads 0 = none) :
    s.workers m (core :: cores) =
      (-1,⟨{ s.shared with freed := m.addr :: s.shared.freed },fun i => s.loads (i+1)⟩) := by
  rw [workers,reloadWorkers,Program.runState_bind,run_load_fail failed]
  rfl

theorem workers_cons (found : s.loads 0 = some config) :
    s.workers m (core :: cores) = (s.published core config).workers m cores := by
  rw [workers,reloadWorkers,Program.runState_bind,run_load found]
  cases old : s.shared.appConfig core
  all_goals
    change Program.runState handle (match s.shared.appConfig core with
      | none => reloadWorkers m cores
      | some oldConfig => do
        Master.awaitUsed ⟨s.shared.next,config⟩
        Master.appConfigFree oldConfig
        reloadWorkers m cores) _ = Program.runState handle (reloadWorkers m cores) _
    simp only [published,old]
    rfl

theorem workers_ret (s : Loading) (m : ConfigPtr) (cores : List Nat) :
    (s.workers m cores).1 = 0 ∨ (s.workers m cores).1 = -1 := by
  induction cores generalizing s with
  | nil => exact .inl rfl
  | cons core cores ih =>
    cases found : s.loads 0 with
    | none => exact .inr (by rw [workers_fail found])
    | some config =>
      rw [workers_cons found]
      exact ih _

theorem workers_frame (other : core ∉ cores) :
    (s.workers m cores).2.shared.appConfig core = s.shared.appConfig core := by
  induction cores generalizing s with
  | nil => rfl
  | cons first cores ih =>
    obtain ⟨different,later⟩ : core ≠ first ∧ core ∉ cores := by simpa using other
    cases found : s.loads 0 with
    | none => rw [workers_fail found]
    | some config =>
      rw [workers_cons found,ih later]
      exact Function.update_of_ne different _ _

theorem workers_freed (distinct : cores.Nodup) (gone : a ∈ (s.workers m cores).2.shared.freed) :
    a ∈ s.shared.freed ∨ a = m.addr ∨
      ∃ core ∈ cores, ∃ p, s.shared.appConfig core = some p ∧ p.addr = a := by
  induction cores generalizing s with
  | nil =>
    rcases List.mem_cons.1 gone with here | before
    · exact .inr (.inl here)
    · exact .inl before
  | cons first cores ih =>
    obtain ⟨absent,distinct⟩ := List.nodup_cons.1 distinct
    cases found : s.loads 0 with
    | none =>
      rw [workers_fail found] at gone
      rcases List.mem_cons.1 gone with here | before
      · exact .inr (.inl here)
      · exact .inl before
    | some config =>
      rw [workers_cons found] at gone
      rcases ih distinct gone with before | here | ⟨core,later,p,pointer,same⟩
      · rcases List.mem_append.1 before with replaced | before
        · obtain ⟨p,pointer,same⟩ : ∃ p, s.shared.appConfig first = some p ∧ p.addr = a := by
            simpa using replaced
          exact .inr (.inr ⟨first,List.mem_cons_self,p,pointer,same⟩)
        · exact .inl before
      · exact .inr (.inl here)
      · have different : core ≠ first := fun equal => absent (equal ▸ later)
        refine .inr (.inr ⟨core,List.mem_cons_of_mem _ later,p,?_,same⟩)
        exact (Function.update_of_ne different _ _).symm.trans pointer

theorem published_allocated (allocated : s.shared.Allocated) (core : Nat) (config : AppConfig) :
    (s.published core config).shared.Allocated where
  appConfig other p pointer := by
    by_cases same : other = core
    · subst other
      obtain rfl : ⟨s.shared.next,config⟩ = p := by simpa [published] using pointer
      exact Nat.lt_succ_self _
    · have before : s.shared.appConfig other = some p := by
        simpa [published,Function.update_of_ne same] using pointer
      exact Nat.lt_succ_of_lt (allocated.appConfig other p before)
  freed a gone := by
    rcases List.mem_append.1 gone with replaced | before
    · obtain ⟨p,pointer,same⟩ : ∃ p, s.shared.appConfig core = some p ∧ p.addr = a := by
        simpa using replaced
      exact Nat.lt_succ_of_lt (same ▸ allocated.appConfig core p pointer)
    · exact Nat.lt_succ_of_lt (allocated.freed a before)

theorem workers_published (config : AppConfig) (distinct : (core :: cores).Nodup)
    (allocated : s.shared.Allocated) (older : m.addr < s.shared.next) :
    ((s.published core config).workers m cores).2.shared.appConfig core = some ⟨s.shared.next,config⟩ ∧
      s.shared.next ∉ ((s.published core config).workers m cores).2.shared.freed := by
  obtain ⟨absent,distinct⟩ := List.nodup_cons.1 distinct
  refine ⟨(workers_frame absent).trans (Function.update_self ..),fun gone => ?_⟩
  rcases workers_freed distinct gone with before | here | ⟨other,later,p,pointer,same⟩
  · rcases List.mem_append.1 before with replaced | before
    · obtain ⟨p,pointer,same⟩ : ∃ p, s.shared.appConfig core = some p ∧ p.addr = s.shared.next := by
        simpa using replaced
      exact absurd same (allocated.appConfig core p pointer).ne
    · exact absurd rfl (allocated.freed _ before).ne
  · exact older.ne here.symm
  · have different : other ≠ core := fun equal => absent (equal ▸ later)
    have before : s.shared.appConfig other = some p := (Function.update_of_ne different _ _).symm.trans pointer
    exact absurd same (allocated.appConfig other p before).ne

/-- The loop succeeds with every worker on `validated` if and only if it was loaded each time. -/
theorem workers_validated (distinct : cores.Nodup) (allocated : s.shared.Allocated)
    (older : m.addr < s.shared.next) (validated : AppConfig) :
    ((s.workers m cores).1 = 0 ∧ ∀ core ∈ cores, ∃ p,
      (s.workers m cores).2.shared.appConfig core = some p ∧
      p.addr ∉ (s.workers m cores).2.shared.freed ∧ p.config = validated) ↔
    ∀ i < cores.length, s.loads i = some validated := by
  induction cores generalizing s with
  | nil =>
    refine iff_of_true ⟨rfl,fun _ member => ?_⟩ fun _ bound => absurd bound (Nat.not_lt_zero _)
    exact absurd member List.not_mem_nil
  | cons core cores ih =>
    cases found : s.loads 0 with
    | none =>
      rw [workers_fail found]
      apply iff_of_false (fun impossible => by simp at impossible)
      intro all
      simpa [found] using all 0 (Nat.succ_pos _)
    | some config =>
      obtain ⟨pointer,live⟩ := workers_published config distinct allocated older
      have rest := ih (List.nodup_cons.1 distinct).2 (published_allocated allocated core config)
        (Nat.lt_succ_of_lt older)
      rw [workers_cons found]
      constructor
      · rintro ⟨success,all⟩ i bound
        have same : config = validated := by
          obtain ⟨p,running,_,equal⟩ := all core List.mem_cons_self
          obtain rfl : ⟨s.shared.next,config⟩ = p := Option.some.inj (pointer.symm.trans running)
          exact equal
        cases i with
        | zero => exact found.trans (congrArg some same)
        | succ i =>
          refine rest.1 ⟨success,fun other later => all other (List.mem_cons_of_mem _ later)⟩ i ?_
          exact Nat.lt_of_succ_lt_succ bound
      · intro all
        obtain ⟨success,others⟩ := rest.2 fun i bound => all (i+1) (Nat.succ_lt_succ bound)
        refine ⟨success,fun other member => ?_⟩
        rcases List.mem_cons.1 member with here | later
        · subst other
          refine ⟨_,pointer,live,?_⟩
          exact Option.some.inj (found.symm.trans (all 0 (Nat.succ_pos _)))
        · exact others other later

variable {lcores : Lcores}

theorem reload_fail (failed : s.loads 0 = none) : s.reload lcores = (-1,s.shared) := by
  rw [reload,appConfigReloadAll,Program.runState_bind,run_load_fail failed]
  rfl

def validated (s : Loading) : Loading := ⟨s.shared.allocate,fun i => s.loads (i+1)⟩

theorem reload_workers (found : s.loads 0 = some config) :
    s.reload lcores = ((s.validated.workers ⟨s.shared.next,config⟩ lcores.slaves).1,
      (s.validated.workers ⟨s.shared.next,config⟩ lcores.slaves).2.shared) := by
  rw [reload,appConfigReloadAll,Program.runState_bind,run_load found]
  rfl

theorem validated_allocated (allocated : s.shared.Allocated) : s.validated.shared.Allocated where
  appConfig core p pointer := Nat.lt_succ_of_lt (allocated.appConfig core p pointer)
  freed a gone := Nat.lt_succ_of_lt (allocated.freed a gone)

theorem allOrNothing_of_fail (allocated : s.shared.Allocated) (found : s.loads 0 = some config)
    (slaves : lcores.slaves = core :: cores) (failed : s.loads 1 = none) : AllOrNothing lcores s := by
  have outcome : s.reload lcores =
      (-1,{ s.shared.allocate with freed := s.shared.next :: s.shared.freed }) := by
    rw [reload_workers found,slaves,workers_fail failed]
    rfl
  rw [AllOrNothing,outcome]
  refine ⟨fun _ core _ => ⟨rfl,fun p pointer => ?_⟩,fun success => by simp at success⟩
  have different : p.addr ≠ s.shared.next := (allocated.appConfig core p pointer).ne
  simp [different]

/-- Once the first worker has a new configuration, only a success with every worker on the
validated one is all or nothing. -/
theorem allOrNothing_of_published (allocated : s.shared.Allocated) (found : s.loads 0 = some config)
    (slaves : lcores.slaves = core :: cores) (loaded : s.loads 1 = some config') :
    AllOrNothing lcores s ↔ ∀ i < lcores.slaves.length, s.loads (i+1) = some config := by
  have distinct := lcores.distinct
  rw [AllOrNothing,reload_workers found,found]
  have every := workers_validated distinct (validated_allocated allocated)
    (m := ⟨s.shared.next,config⟩) (Nat.lt_succ_self _) config
  have pointer : (s.validated.workers ⟨s.shared.next,config⟩ lcores.slaves).2.shared.appConfig core =
      some ⟨s.shared.next + 1,config'⟩ := by
    rw [slaves,workers_cons loaded]
    exact (workers_published config' (slaves ▸ distinct) (validated_allocated allocated) (Nat.lt_succ_self _)).1
  refine Iff.trans ⟨fun ⟨failure,success⟩ => ?_,fun ⟨success,all⟩ => ⟨fun failure => ?_,fun _ => ?_⟩⟩ every
  · rcases workers_ret s.validated ⟨s.shared.next,config⟩ lcores.slaves with zero | minus
    · refine ⟨zero,fun core member => ?_⟩
      obtain ⟨p,running,live,same⟩ := success zero core member
      exact ⟨p,running,live,(Option.some.inj same).symm⟩
    · have before := pointer.symm.trans (failure minus core (slaves ▸ List.mem_cons_self)).1
      exact absurd (allocated.appConfig core _ before.symm) (by simp)
  · exact absurd (success.symm.trans failure) (by decide)
  · intro core member
    obtain ⟨p,running,live,same⟩ := all core member
    exact ⟨p,running,live,congrArg some same.symm⟩

end Loading

/-- The reload is all or nothing if and only if a load fails before anything is published, or
every load gives what the master validated. -/
theorem allOrNothing_iff (cores : Lcores) (s : Loading) (allocated : s.shared.Allocated) :
    AllOrNothing cores s ↔
      s.loads 0 = none ∨ (cores.slaves ≠ [] ∧ s.loads 1 = none) ∨
        ∀ i < cores.slaves.length, s.loads (i+1) = s.loads 0 := by
  cases found : s.loads 0 with
  | none =>
    refine iff_of_true ?_ (.inl rfl)
    rw [AllOrNothing,Loading.reload_fail found]
    exact ⟨fun _ core _ => ⟨rfl,fun _ _ => Iff.rfl⟩,fun success => by simp at success⟩
  | some config =>
    cases slaves : cores.slaves with
    | nil =>
      refine iff_of_true ?_ (.inr (.inr fun i bound => absurd bound (Nat.not_lt_zero i)))
      rw [AllOrNothing,slaves]
      exact ⟨fun _ core member => absurd member List.not_mem_nil,
        fun _ core member => absurd member List.not_mem_nil⟩
    | cons core rest =>
      cases loaded : s.loads 1 with
      | none =>
        exact iff_of_true (Loading.allOrNothing_of_fail allocated found slaves loaded)
          (.inr (.inl ⟨List.cons_ne_nil _ _,rfl⟩))
      | some config' =>
        rw [Loading.allOrNothing_of_published allocated found slaves loaded,slaves]
        simp

def oneLcore : Lcores := ⟨[1],by decide⟩
def twoLcores : Lcores := ⟨[1,2],by decide⟩

/-- Two workers and an empty configuration, of which the load for the second one fails. -/
def secondFails : Loading where
  shared := ⟨fun core => if core = 1 ∨ core = 2 then some ⟨core,.zeroed⟩ else none,fun _ => natFlagUsed,3,[]⟩
  loads i := if i = 2 then none else some .zeroed

theorem secondFails_allocated : secondFails.shared.Allocated where
  appConfig core p pointer := by
    simp only [secondFails] at pointer ⊢
    split at pointer
    · obtain rfl := Option.some.inj pointer
      change core < 3
      omega
    · contradiction
  freed a gone := absurd gone List.not_mem_nil

theorem allOrNothing_iff_secondFails :
    secondFails.shared.Allocated ∧
      (AllOrNothing twoLcores secondFails ↔
        secondFails.loads 0 = none ∨ (twoLcores.slaves ≠ [] ∧ secondFails.loads 1 = none) ∨
          ∀ i < twoLcores.slaves.length, secondFails.loads (i+1) = secondFails.loads 0) :=
  ⟨secondFails_allocated,allOrNothing_iff twoLcores secondFails secondFails_allocated⟩

/-- The reload fails and the first worker has lost the configuration it had. -/
theorem secondFails_half : ¬AllOrNothing twoLcores secondFails := by
  rintro ⟨failure,_⟩
  have unchanged := (failure rfl 1 (by decide)).1
  have moved : (secondFails.reload twoLcores).2.appConfig 1 = some ⟨4,.zeroed⟩ := rfl
  have before : secondFails.shared.appConfig 1 = some ⟨1,.zeroed⟩ := rfl
  rw [moved,before] at unchanged
  simp at unchanged

end Natasha
