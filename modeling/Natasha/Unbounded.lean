import Natasha.Process

/-! Workers that loop until the flag is set do what workers with a number of iterations do, for
some number of them: how many is known when the run is over. What holds of the bounded workers
holds of the process. -/
namespace Natasha

open Interaction

section Mirrors

variable {d : Deployment} {portids : List U16} {p p' : Process} {s : System} {core : Nat}

/-- The thread is in the iteration of the loop and has `rest` more to go. -/
def Loop.Mirrors (dev : Devices) (rest : Nat) : Loop → Thread → Prop
  | .running t, thread => thread.code = (t.code >>= fun r => (mainLoop dev rest).run r.2) ∧ thread.packet = t.packet
  | .left w, thread => thread.code = .done ((),w)

def mirrorsThreads (d : Deployment) (rest : Nat → Nat) : Option (Nat → Loop) → Option (Nat → Thread) → Prop
  | none, threads => threads = none ∧ d.iterations = rest
  | some loops, threads => ∃ own, threads = some own ∧ ∀ core, (loops core).Mirrors d.dev (rest core) (own core)

/-- The system is the process, in which each worker has `rest` more iterations to go. -/
structure Mirrors (d : Deployment) (rest : Nat → Nat) (p : Process) (s : System) : Prop where
  shared : s.shared = p.shared
  master : s.master = p.master
  threads : mirrorsThreads d rest p.loops s.threads

/-- No worker that left has an iteration to go. -/
def Exhausted (rest : Nat → Nat) (p : Process) : Prop :=
  ∀ loops, p.loops = some loops → ∀ core w, loops core = .left w → rest core = 0

/-- An access in an iteration is one of the whole loop. -/
theorem Thread.step_bind {t : Thread} {s : Shared} (f : Unit × Worker → Program Op Ans (Unit × Worker)) {thread : Thread}
    (code : thread.code = t.code >>= f) (packet : thread.packet = t.packet) (stepped : t.step core s = some (s',t')) :
    ∃ thread', thread.step core s = some (s',thread') ∧ thread'.code = t'.code >>= f ∧ thread'.packet = t'.packet := by
  obtain ⟨program,under⟩ := t
  obtain ⟨_,_⟩ := thread
  dsimp only at code packet
  subst code packet
  cases program with
  | done a => simp [Thread.step] at stepped
  | request op next =>
    cases op with
    | appConfig =>
      obtain ⟨q,found,result⟩ := Option.map_eq_some_iff.mp stepped
      obtain ⟨rfl,rfl⟩ := Prod.mk.inj result
      exact ⟨_,Option.map_eq_some_iff.mpr ⟨q,found,rfl⟩,rfl,rfl⟩
    | read p member | flags p | setFlags p value | dispatch =>
      obtain ⟨rfl,rfl⟩ := Prod.mk.inj (Option.some.inj stepped)
      exact ⟨_,rfl,rfl,rfl⟩

/-- Where a turn of a worker leaves its loop, for a thread that has `rest` iterations to go then. -/
theorem Loop.step_mirrors {loop : Loop} {dev : Devices} {quit : Bool} {shared : Shared} (rest : Nat)
    (exhausted : ∀ w, (loop.step dev core quit shared).2 = .left w → rest = 0) :
    ∃ before, (∀ w, loop = .left w → before = 0) ∧ ∀ thread, loop.Mirrors dev before thread →
      ((loop.step dev core quit shared).1 = shared ∧ (loop.step dev core quit shared).2.Mirrors dev rest thread) ∨
      ∃ thread', thread.step core shared = some ((loop.step dev core quit shared).1,thread') ∧
        (loop.step dev core quit shared).2.Mirrors dev rest thread' := by
  cases loop with
  | left w => exact ⟨rest,fun _ _ => exhausted w rfl,fun thread mirrors => .inl ⟨rfl,mirrors⟩⟩
  | running t =>
    obtain ⟨program,packet⟩ := t
    cases program with
    | done a =>
      cases quit with
      | true =>
        have none : rest = 0 := exhausted a.2 rfl
        refine ⟨0,nofun,fun thread mirrors => .inl ⟨rfl,?_⟩⟩
        exact mirrors.1
      | false =>
        -- the iteration that begins now is one of those to go before
        refine ⟨rest+1,nofun,fun thread mirrors => .inl ⟨rfl,?_,mirrors.2⟩⟩
        exact mirrors.1
    | request op next =>
      refine ⟨rest,nofun,fun thread mirrors => ?_⟩
      unfold Loop.step
      dsimp only
      cases stepped : (Thread.mk (.request op next) packet).step core shared with
      | none => exact .inl ⟨rfl,mirrors⟩
      | some r =>
        obtain ⟨thread',moved,related⟩ := Thread.step_bind _ mirrors.1 mirrors.2 stepped
        exact .inr ⟨thread',moved,related⟩

/-- A turn of the process is none, one or two steps of the system. -/
theorem Mirrors.shift (shift : d.Shifts portids p t p') (rest : Nat → Nat) (exhausted : Exhausted rest p') :
    ∃ before, Exhausted before p ∧ ∀ iterations s, Mirrors { d with iterations := iterations } before p s →
      ∃ schedule s', Deployment.run { d with iterations := iterations } s schedule = some s' ∧
        Mirrors { d with iterations := iterations } rest p' s' := by
  cases shift with
  | stutter _ => exact ⟨rest,exhausted,fun _ s mirrors => ⟨[],s,rfl,mirrors⟩⟩
  | resume _ alive interrupted =>
    exact ⟨rest,exhausted,fun _ s mirrors => ⟨[],s,rfl,mirrors.shared,mirrors.master,mirrors.threads⟩⟩
  | sigterm alive free =>
    exact ⟨rest,exhausted,fun _ s mirrors => ⟨[],s,rfl,mirrors.shared,mirrors.master,mirrors.threads⟩⟩
  | @handle op next _ alive interrupted ready =>
    have same : (p.exit op).shared = p.shared ∧ (p.exit op).master = p.master ∧ (p.exit op).loops = p.loops := by
      cases op <;> exact ⟨rfl,rfl,rfl⟩
    obtain ⟨shared,master,loops⟩ := same
    refine ⟨rest,fun own launched => exhausted own (loops.trans launched),fun _ s mirrors => ⟨[],s,rfl,?_,?_,?_⟩⟩
    · exact mirrors.shared.trans shared.symm
    · exact mirrors.master.trans master.symm
    · exact loops ▸ mirrors.threads
  | @access op next loaded alive free program ready =>
    refine ⟨rest,exhausted,fun iterations s mirrors => ?_⟩
    have stepped : Deployment.step { d with iterations := iterations } s (.master loaded) =
        some { s with shared := (s.shared.serve loaded op).2, master := next (s.shared.serve loaded op).1 } := by
      simp only [Deployment.step,mirrors.master,program,mirrors.shared,ready,if_true]
    refine ⟨[.master loaded],_,Option.bind_eq_some_iff.mpr ⟨_,stepped,rfl⟩,?_,?_,mirrors.threads⟩
    · rw [mirrors.shared]
    · rw [mirrors.shared]
  | @launch ret alive free ended success before =>
    refine ⟨rest,fun own launched => ?_,fun iterations s mirrors => ?_⟩
    · rw [before] at launched
      cases launched
    · have threads := mirrors.threads
      rw [before] at threads
      obtain ⟨idle,rfl⟩ := threads
      have stepped : Deployment.step { d with iterations := iterations } s .launch =
          some { s with threads := some (Deployment.launched { d with iterations := iterations }) } := by
        simp only [Deployment.step,mirrors.master,ended,idle,if_neg (not_lt.mpr success)]
      refine ⟨[.launch],_,Option.bind_eq_some_iff.mpr ⟨_,stepped,rfl⟩,mirrors.shared,mirrors.master,_,rfl,fun core => ?_⟩
      exact ⟨rfl,rfl⟩
  | @reload ret loops alive free ended launched =>
    refine ⟨rest,exhausted,fun iterations s mirrors => ?_⟩
    have threads := mirrors.threads
    rw [launched] at threads
    obtain ⟨own,running,_⟩ := threads
    have stepped : Deployment.step { d with iterations := iterations } s .reload =
        some { s with master := appConfigReloadAll d.cores } := by
      simp only [Deployment.step,mirrors.master,ended,running]
    exact ⟨[.reload],_,Option.bind_eq_some_iff.mpr ⟨_,stepped,rfl⟩,mirrors.shared,rfl,mirrors.threads⟩
  | @work core loops alive launched slave =>
    have ends (w : Worker) (behind : ((loops core).step d.dev core p.forceQuit p.shared).2 = .left w) : rest core = 0 :=
      exhausted _ rfl core w ((Function.update_self ..).trans behind)
    obtain ⟨before,fewer,related⟩ := Loop.step_mirrors (rest core) ends
    refine ⟨Function.update rest core before,fun own same => ?_,fun iterations s mirrors => ?_⟩
    · obtain rfl : loops = own := Option.some.inj (launched.symm.trans same)
      intro other w behind
      by_cases here : other = core
      · subst here
        exact (Function.update_self ..).trans (fewer w behind)
      · rw [Function.update_of_ne here]
        exact exhausted _ rfl other w ((Function.update_of_ne here ..).trans behind)
    · have threads := mirrors.threads
      rw [launched] at threads
      obtain ⟨own,running,each⟩ := threads
      have mine := each core
      rw [Function.update_self] at mine
      have others (thread : Thread)
          (moved : ((loops core).step d.dev core p.forceQuit p.shared).2.Mirrors d.dev (rest core) thread) (other : Nat) :
          (Function.update loops core ((loops core).step d.dev core p.forceQuit p.shared).2 other).Mirrors d.dev
            (rest other) (Function.update own core thread other) := by
        by_cases here : other = core
        · subst here
          rwa [Function.update_self,Function.update_self]
        · have still := each other
          rw [Function.update_of_ne here] at still
          rwa [Function.update_of_ne here,Function.update_of_ne here]
      rcases related (own core) mine with ⟨same,moved⟩ | ⟨thread,stepped,moved⟩
      · refine ⟨[],s,rfl,mirrors.shared.trans same.symm,mirrors.master,own,running,fun other => ?_⟩
        have unmoved := others (own core) moved other
        rwa [Function.update_eq_self] at unmoved
      · have step : Deployment.step { d with iterations := iterations } s (.worker core) =
            some { s with
              shared := ((loops core).step d.dev core p.forceQuit p.shared).1
              threads := some (Function.update own core thread) } := by
          simp only [Deployment.step,running,slave,if_true,mirrors.shared,stepped,Option.map_some]
        exact ⟨[.worker core],_,Option.bind_eq_some_iff.mpr ⟨_,step,rfl⟩,rfl,mirrors.master,_,rfl,others thread moved⟩

/-- The end of the run decides how many iterations the workers have. -/
theorem Mirrors.run (turns : List Turn) (p : Process) (rest : Nat → Nat)
    (exhausted : Exhausted rest (turns.foldl (d.turn portids) p)) :
    ∃ before, Exhausted before p ∧ ∀ iterations s, Mirrors { d with iterations := iterations } before p s →
      ∃ schedule s', Deployment.run { d with iterations := iterations } s schedule = some s' ∧
        Mirrors { d with iterations := iterations } rest (turns.foldl (d.turn portids) p) s' := by
  induction turns generalizing p with
  | nil => exact ⟨rest,exhausted,fun _ s mirrors => ⟨[],s,rfl,mirrors⟩⟩
  | cons t turns ih =>
    obtain ⟨middle,spent,later⟩ := ih (d.turn portids p t) exhausted
    obtain ⟨before,start,first⟩ := Mirrors.shift (d.turn_shifts portids p t) middle spent
    refine ⟨before,start,fun iterations s mirrors => ?_⟩
    obtain ⟨schedule,s₁,reached,mirrors⟩ := first iterations s mirrors
    obtain ⟨schedule',s₂,reached',mirrors⟩ := later iterations s₁ mirrors
    refine ⟨schedule ++ schedule',s₂,?_,mirrors⟩
    rw [Deployment.run,List.foldlM_append]
    exact Option.bind_eq_some_iff.mpr ⟨s₁,reached,reached'⟩

theorem Mirrors.boot (d : Deployment) : Mirrors d d.iterations d.bootProcess d.boot := ⟨rfl,rfl,rfl,rfl⟩

/-- What the loop has in common with a thread without iterations to go. -/
def Loop.Agrees : Loop → Thread → Prop
  | .running t, thread => thread = t
  | .left w, thread => thread.code = .done ((),w)

theorem Loop.Mirrors.agrees {dev : Devices} {loop : Loop} {thread : Thread} (mirrors : loop.Mirrors dev 0 thread) :
    loop.Agrees thread := by
  cases loop with
  | left w => exact mirrors
  | running t =>
    have code : thread.code = t.code := mirrors.1.trans (bind_pure t.code)
    have packet : thread.packet = t.packet := mirrors.2
    cases thread
    cases t
    cases code
    cases packet
    rfl

/-- The process after some turns, and a system of bounded workers. -/
theorem mirrored (d : Deployment) (portids : List U16) (turns : List Turn) : ∃ iterations schedule s,
    Deployment.run { d with iterations := iterations } d.boot schedule = some s ∧
      Mirrors { d with iterations := iterations } (fun _ => 0) (turns.foldl (d.turn portids) d.bootProcess) s := by
  have exhausted : Exhausted (fun _ => 0) (turns.foldl (d.turn portids) d.bootProcess) := fun _ _ _ _ _ => rfl
  obtain ⟨before,_,runs⟩ := Mirrors.run turns d.bootProcess (fun _ => 0) exhausted
  obtain ⟨schedule,s,reached,mirrors⟩ := runs before d.boot (Mirrors.boot { d with iterations := before })
  exact ⟨before,schedule,s,reached,mirrors⟩

end Mirrors

/-- After any turns of the process, with SIGTERM among them or not, the memory, the master and the
workers are where a run leads that gives each worker a number of iterations from the start. -/
theorem process_refines (d : Deployment) (portids : List U16) (turns : List Turn) :
    let p := turns.foldl (d.machine portids).turn d.bootProcess
    ∃ iterations schedule s, Deployment.run { d with iterations := iterations } d.boot schedule = some s ∧
      s.shared = p.shared ∧ s.master = p.master ∧ ∀ loops, p.loops = some loops → ∃ threads, s.threads = some threads ∧
        ∀ core, (loops core).Agrees (threads core) := by
  intro p
  obtain ⟨iterations,schedule,s,reached,mirrors⟩ := mirrored d portids turns
  refine ⟨iterations,schedule,s,reached,mirrors.shared,mirrors.master,fun loops launched => ?_⟩
  have threads := mirrors.threads
  rw [show (turns.foldl (d.turn portids) d.bootProcess).loops = some loops from launched] at threads
  obtain ⟨own,running,each⟩ := threads
  exact ⟨own,running,fun core => (each core).agrees⟩

end Natasha
