import Natasha.Discipline

/-! No worker uses a freed configuration, and a packet sees at most two. Every object has one
owner: the master until it is published, then one core until it is freed. A worker holds
the configuration installed for its core; only while the master waits for the flag of the
new one may it still hold the old one. -/
namespace Natasha

open Interaction

inductive Owner where
  | nobody
  | master
  | core (core : Nat)
  | freed
  deriving DecidableEq

/-- What the phase says about memory. -/
def Phase.Describes (s : Shared) (owner : Nat → Owner) : Phase → Prop
  | .idle => True
  | .found core old => s.appConfig core = old
  | .waiting core old new | .seen core old new =>
    s.appConfig core = some new ∧ owner old.addr = .core core ∧ old.addr ≠ new.addr

/-- The owners of all objects. -/
structure Consistent (s : Shared) (owner : Nat → Owner) (known : List ConfigPtr) (served : List Nat)
    (phase : Phase) : Prop where
  unborn : ∀ a, s.next ≤ a → owner a = .nobody
  freed : ∀ a ∈ s.freed, owner a = .freed
  current : ∀ core p, s.appConfig core = some p → owner p.addr = .core core
  unpublished : ∀ p ∈ known, owner p.addr = .master ∧ s.flags p.addr &&& natFlagUsed = 0
  distinct : (known.map ConfigPtr.addr).Nodup
  configured : ∀ core ∈ served, s.appConfig core ≠ none
  exchange : phase.Describes s owner

namespace Consistent

variable {s : Shared} {owner : Nat → Owner} {known rest : List ConfigPtr} {served : List Nat}
  {phase : Phase} {core : Nat} {p : ConfigPtr} {old : Option ConfigPtr}

/-- Objects with different owners are different objects, so handing over one of them leaves
the other with its owner. -/
theorem addr_ne {a b : Nat} {first second : Owner} (one : owner a = first) (two : owner b = second)
    (different : first ≠ second) : a ≠ b := by
  rintro rfl
  exact different (one.symm.trans two)

theorem load (c : Consistent s owner known served .idle) (config : AppConfig) :
    Consistent s.allocate (Function.update owner s.next .master) (⟨s.next,config⟩ :: known) served .idle := by
  have fresh : owner s.next = .nobody := c.unborn s.next (le_refl _)
  have older (q : ConfigPtr) (member : q ∈ known) : q.addr ≠ s.next :=
    addr_ne (c.unpublished q member).1 fresh (by simp)
  refine ⟨fun a later => ?_,fun a gone => ?_,fun core p pointer => ?_,fun p member => ?_,?_,c.configured,trivial⟩
  · have beyond : s.next + 1 ≤ a := later
    rw [Function.update_of_ne (by omega)]
    exact c.unborn a (by omega)
  · have freed := c.freed a gone
    rw [Function.update_of_ne (addr_ne freed fresh (by simp)),freed]
  · have mine := c.current core p pointer
    rw [Function.update_of_ne (addr_ne mine fresh (by simp)),mine]
  · rcases List.mem_cons.1 member with rfl | member
    · simp [Shared.allocate]
    · simpa only [Shared.allocate,Function.update_of_ne (older p member)] using c.unpublished p member
  · refine List.nodup_cons.2 ⟨fun member => ?_,c.distinct⟩
    obtain ⟨q,known,same⟩ := List.mem_map.1 member
    exact older q known same

theorem found (c : Consistent s owner known served .idle) (core : Nat) :
    Consistent s owner known served (.found core (s.appConfig core)) :=
  { c with exchange := rfl }

theorem publish (c : Consistent s owner (p :: rest) served (.found core old)) :
    Consistent { s with appConfig := Function.update s.appConfig core (some p) }
      (Function.update owner p.addr (.core core)) rest (core :: served)
      (old.elim .idle fun old => .waiting core old p) := by
  have mine : owner p.addr = .master := (c.unpublished p List.mem_cons_self).1
  obtain ⟨fresh,distinct⟩ := List.nodup_cons.1 c.distinct
  refine ⟨fun a later => ?_,fun a gone => ?_,fun other q pointer => ?_,fun q member => ?_,distinct,
    fun other member => ?_,?_⟩
  · have unborn := c.unborn a later
    rw [Function.update_of_ne (addr_ne unborn mine (by simp)),unborn]
  · have freed := c.freed a gone
    rw [Function.update_of_ne (addr_ne freed mine (by simp)),freed]
  · by_cases here : other = core
    · subst other
      obtain rfl : p = q := by simpa using pointer
      exact Function.update_self ..
    · simp only [Function.update_of_ne here] at pointer
      have owned := c.current other q pointer
      rw [Function.update_of_ne (addr_ne owned mine (by simp)),owned]
  · have apart : q.addr ≠ p.addr := fun same => fresh (List.mem_map.2 ⟨q,member,same⟩)
    rw [Function.update_of_ne apart]
    exact c.unpublished q (List.mem_cons_of_mem p member)
  · by_cases here : other = core
    · simp [here]
    · simp only [Function.update_of_ne here]
      exact c.configured other ((List.mem_cons.1 member).resolve_left here)
  · have found : s.appConfig core = old := c.exchange
    cases old with
    | none => trivial
    | some old =>
      have owned := c.current core old found
      have apart : old.addr ≠ p.addr := addr_ne owned mine (by simp)
      exact ⟨Function.update_self ..,(Function.update_of_ne apart ..).trans owned,apart⟩

theorem seen {old new : ConfigPtr} (c : Consistent s owner known served (.waiting core old new)) :
    Consistent s owner known served (.seen core old new) :=
  { c with exchange := c.exchange }

theorem free (c : Consistent s owner known served phase) (born : owner a ≠ .nobody)
    (unused : ∀ core p, s.appConfig core = some p → p.addr ≠ a) (fewer : rest.Sublist known)
    (other : ∀ p ∈ rest, p.addr ≠ a) :
    Consistent { s with freed := a :: s.freed } (Function.update owner a .freed) rest served .idle where
  unborn b later := by
    have unborn := c.unborn b later
    rw [Function.update_of_ne (addr_ne unborn rfl born.symm),unborn]
  freed b gone := by
    by_cases same : b = a
    · rw [same,Function.update_self]
    · rw [Function.update_of_ne same]
      exact c.freed b ((List.mem_cons.1 gone).resolve_left same)
  current core p pointer := by
    rw [Function.update_of_ne (unused core p pointer)]
    exact c.current core p pointer
  unpublished p member := by
    rw [Function.update_of_ne (other p member)]
    exact c.unpublished p (fewer.subset member)
  distinct := c.distinct.sublist (fewer.map _)
  configured := c.configured
  exchange := trivial

theorem freeKnown (c : Consistent s owner (p :: rest) served .idle) :
    Consistent { s with freed := p.addr :: s.freed } (Function.update owner p.addr .freed) rest served .idle := by
  have mine := (c.unpublished p List.mem_cons_self).1
  refine c.free (by simp [mine]) (fun core q pointer => ?_) (List.sublist_cons_self p rest) ?_
  · exact addr_ne (c.current core q pointer) mine (by simp)
  · intro q member same
    exact (List.nodup_cons.1 c.distinct).1 (List.mem_map.2 ⟨q,member,same⟩)

theorem freeOld {old new : ConfigPtr} (c : Consistent s owner known served (.seen core old new)) :
    Consistent { s with freed := old.addr :: s.freed } (Function.update owner old.addr .freed) known
      served .idle := by
  obtain ⟨installed,mine,different⟩ := c.exchange
  refine c.free (by simp [mine]) (fun other q pointer same => ?_) (List.Sublist.refl known) ?_
  · have owned := c.current other q pointer
    obtain rfl : core = other := by simpa [same,mine] using owned
    obtain rfl : new = q := Option.some.inj (installed.symm.trans pointer)
    exact different same.symm
  · exact fun q member => addr_ne (c.unpublished q member).1 mine (by simp)

theorem setFlags (c : Consistent s owner known served phase) (mine : owner p.addr = .core core) (value : U32) :
    Consistent { s with flags := Function.update s.flags p.addr value } owner known served phase :=
  { c with
    unpublished := fun q member => by
      have masters := c.unpublished q member
      have apart : q.addr ≠ p.addr := addr_ne masters.1 mine (by simp)
      simpa only [Function.update_of_ne apart] using masters
    exchange := c.exchange }

end Consistent

/-! ## Workers -/

/-- The configuration of the core, or the one it replaced while the master still waits. -/
def Recent (s : Shared) (phase : Phase) (core : Nat) (p : ConfigPtr) : Prop :=
  s.appConfig core = some p ∨
    ∃ new, phase = .waiting core p new ∧ s.appConfig core = some new ∧ s.flags new.addr &&& natFlagUsed = 0

/-- A worker holds recent configurations. Those its packet has used and may still use are the
one it began with and the current one. -/
structure Tracked (s : Shared) (phase : Phase) (core : Nat) (t : Thread) (held : List ConfigPtr) : Prop where
  follows : Follows (fun _ _ => True) held t.code
  recent : ∀ p ∈ held, Recent s phase core p
  begun : ∀ packet, t.packet = some packet → Recent s phase core packet.begun
  two : ∀ packet, t.packet = some packet → ∀ p ∈ packet.used ++ held,
    p = packet.begun ∨ s.appConfig core = some p

section Tracked

variable {s s' : Shared} {phase phase' : Phase} {owner : Nat → Owner} {known : List ConfigPtr}
  {served : List Nat} {core : Nat} {p : ConfigPtr} {t : Thread} {held : List ConfigPtr}

theorem Recent.owned (c : Consistent s owner known served phase) (recent : Recent s phase core p) :
    owner p.addr = .core core := by
  rcases recent with installed | ⟨new,waits,_,_⟩
  · exact c.current core p installed
  · subst phase
    exact c.exchange.2.1

theorem Tracked.same (tracked : Tracked s phase core t held) (app : s'.appConfig core = s.appConfig core)
    (recent : ∀ p, Recent s phase core p → Recent s' phase' core p) : Tracked s' phase' core t held where
  follows := tracked.follows
  recent p member := recent p (tracked.recent p member)
  begun packet under := recent _ (tracked.begun packet under)
  two packet under p member := app ▸ tracked.two packet under p member

theorem Recent.current (recent : Recent s phase core p) (idle : ∀ old new, phase ≠ .waiting core old new) :
    s.appConfig core = some p := by
  rcases recent with installed | ⟨new,waits,_⟩
  · exact installed
  · exact absurd waits (idle p new)

theorem Tracked.settled (tracked : Tracked s phase core t held)
    (idle : ∀ old new, phase ≠ .waiting core old new) (app : s'.appConfig core = s.appConfig core) :
    Tracked s' phase' core t held :=
  tracked.same app fun _ recent => .inl (app.trans (recent.current idle))

/-- The master publishes: what the worker has is the old configuration. -/
theorem Tracked.publish {old : ConfigPtr} (tracked : Tracked s phase core t held)
    (idle : ∀ old new, phase ≠ .waiting core old new) (found : s.appConfig core = some old)
    (app : s'.appConfig core = some p) (clear : s'.flags p.addr &&& natFlagUsed = 0) :
    Tracked s' (.waiting core old p) core t held where
  follows := tracked.follows
  recent q member := by
    have here := (tracked.recent q member).current idle
    obtain rfl : old = q := Option.some.inj (found.symm.trans here)
    exact .inr ⟨p,rfl,app,clear⟩
  begun packet under := by
    have here := (tracked.begun packet under).current idle
    obtain rfl : old = packet.begun := Option.some.inj (found.symm.trans here)
    exact .inr ⟨p,rfl,app,clear⟩
  two packet under q member := by
    have here := (tracked.begun packet under).current idle
    rcases tracked.two packet under q member with begun | installed
    · exact .inl begun
    · exact .inl (Option.some.inj (installed.symm.trans here))

/-- The wait ends when the flag is set, and then the worker has dropped the old one. -/
theorem Tracked.seen {old new : ConfigPtr} (tracked : Tracked s (.waiting core' old new) core t held)
    (used : s.flags new.addr &&& natFlagUsed ≠ 0) : Tracked s (.seen core' old new) core t held := by
  apply tracked.same rfl
  intro p recent
  rcases recent with installed | ⟨new',waits,_,clear⟩
  · exact .inl installed
  · obtain ⟨-,-,rfl⟩ : core' = core ∧ old = p ∧ new = new' := by simpa using waits
    exact absurd clear used

theorem Tracked.setFlags {other : Nat} (c : Consistent s owner known served phase)
    (tracked : Tracked s phase core t held) (mine : owner p.addr = .core other) (different : core ≠ other)
    (value : U32) :
    Tracked { s with flags := Function.update s.flags p.addr value } phase core t held := by
  refine tracked.same rfl fun q recent => ?_
  rcases recent with installed | ⟨new,waits,installed,clear⟩
  · exact .inl installed
  · refine .inr ⟨new,waits,installed,?_⟩
    have owned := c.current core new installed
    have apart : new.addr ≠ p.addr := Consistent.addr_ne owned mine (by simpa using different)
    simpa [Function.update_of_ne apart] using clear

end Tracked

/-- An access of a worker: it stays tracked, and nothing changes but the flags of a
configuration of its core. -/
theorem Tracked.step {s s' : Shared} (c : Consistent s owner known served phase)
    (tracked : Tracked s phase core t held) (stepped : t.step core s = some (s',t')) :
    (∃ held', Tracked s' phase core t' held') ∧
      (s' = s ∨ ∃ (p : ConfigPtr) (value : U32), owner p.addr = .core core ∧
        s' = { s with flags := Function.update s.flags p.addr value }) := by
  obtain ⟨code,packet⟩ := t
  obtain ⟨follows,recent,begun,two⟩ := tracked
  cases code with
  | done result => simp [Thread.step] at stepped
  | request op next =>
    cases op with
    | appConfig =>
      obtain ⟨p,installed,result⟩ := Option.map_eq_some_iff.1 stepped
      obtain ⟨rfl,rfl⟩ := Prod.mk.inj result
      refine ⟨⟨p :: held,follows p,?_,begun,?_⟩,.inl rfl⟩
      · intro q member
        rcases List.mem_cons.1 member with rfl | before
        · exact .inl installed
        · exact recent q before
      · intro packet under q member
        rcases List.mem_append.1 member with used | here
        · exact two packet under q (List.mem_append_left _ used)
        · rcases List.mem_cons.1 here with rfl | before
          · exact .inr installed
          · exact two packet under q (List.mem_append_right _ before)
    | read p member =>
      obtain ⟨rfl,rfl⟩ := Prod.mk.inj (Option.some.inj stepped)
      refine ⟨⟨held,follows.2,recent,?_,?_⟩,.inl rfl⟩
      · intro after under
        obtain ⟨before,same,rfl⟩ := Option.map_eq_some_iff.1 under
        exact begun before same
      · intro after under q used
        obtain ⟨before,same,rfl⟩ := Option.map_eq_some_iff.1 under
        rcases List.mem_cons.1 used with rfl | used
        · exact two before same q (List.mem_append_right _ follows.1)
        · exact two before same q used
    | flags p =>
      obtain ⟨rfl,rfl⟩ := Prod.mk.inj (Option.some.inj stepped)
      exact ⟨⟨held,follows.2 _,recent,begun,two⟩,.inl rfl⟩
    | setFlags p value =>
      obtain ⟨rfl,rfl⟩ := Prod.mk.inj (Option.some.inj stepped)
      refine ⟨⟨[],follows.2,?_,?_,?_⟩,.inr ⟨p,value,(recent p follows.1).owned c,rfl⟩⟩
      · exact fun q member => absurd member List.not_mem_nil
      · exact fun packet under => absurd under (by simp)
      · exact fun packet under => absurd under (by simp)
    | dispatch =>
      obtain ⟨rfl,rfl⟩ := Prod.mk.inj (Option.some.inj stepped)
      refine ⟨⟨[],follows,?_,?_,?_⟩,.inl rfl⟩
      · exact fun q member => absurd member List.not_mem_nil
      · intro packet under
        obtain ⟨p,installed,rfl⟩ := Option.map_eq_some_iff.1 under
        exact .inl installed
      · intro packet under q member
        obtain ⟨p,installed,rfl⟩ := Option.map_eq_some_iff.1 under
        simp at member

/-! ## The invariant -/

/-- The system is consistent, the master lawful, and every worker has a configuration and is
tracked. -/
def Safe (d : Deployment) (s : System) : Prop :=
  ∃ owner known served phase, Consistent s.shared owner known served phase ∧
    Lawful d.cores.slaves known served phase s.master ∧
    ∀ threads, s.threads = some threads → ∀ core ∈ d.cores.slaves,
      s.shared.appConfig core ≠ none ∧ ∃ held, Tracked s.shared phase core (threads core) held

theorem safe_boot (d : Deployment) : Safe d d.boot := by
  refine ⟨fun _ => .nobody,[],[],.idle,?_,appConfigReloadAll_lawful d.cores,?_⟩
  · exact {
      unborn := fun _ _ => rfl
      freed := fun a gone => absurd gone List.not_mem_nil
      current := fun core p pointer => by simp [Deployment.boot] at pointer
      unpublished := fun p member => absurd member List.not_mem_nil
      distinct := List.nodup_nil
      configured := fun core member => absurd member List.not_mem_nil
      exchange := trivial }
  · exact fun threads launched => by simp [Deployment.boot] at launched

theorem safe_master (safe : Safe d s) (program : s.master = .request op next) (ready : s.shared.ready op)
    (loaded : Option AppConfig) :
    Safe d { s with
      shared := (s.shared.serve loaded op).2
      master := next (s.shared.serve loaded op).1 } := by
  obtain ⟨owner,known,served,phase,c,lawful,workers⟩ := safe
  rw [program] at lawful
  cases op with
  | appConfigLoad =>
    obtain ⟨rfl,failed,succeeded⟩ := lawful
    cases loaded with
    | none => exact ⟨owner,known,served,.idle,c,failed,workers⟩
    | some config =>
      refine ⟨_,_,served,.idle,c.load config,succeeded _,fun threads launched core slave => ?_⟩
      obtain ⟨configured,held,tracked⟩ := workers threads launched core slave
      exact ⟨configured,held,tracked.settled (by simp) rfl⟩
  | appConfig core =>
    obtain ⟨rfl,rest⟩ := lawful
    refine ⟨owner,known,served,_,c.found core,rest _,fun threads launched other slave => ?_⟩
    obtain ⟨configured,held,tracked⟩ := workers threads launched other slave
    exact ⟨configured,held,tracked.settled (by simp) rfl⟩
  | setAppConfig core p =>
    obtain ⟨rest,old,rfl,rfl,lawful⟩ := lawful
    refine ⟨_,rest,_,_,c.publish,lawful,fun threads launched other slave => ?_⟩
    obtain ⟨configured,held,tracked⟩ := workers threads launched other slave
    by_cases same : other = core
    · subst other
      have found : s.shared.appConfig core = old := c.exchange
      obtain ⟨old,rfl⟩ := Option.ne_none_iff_exists'.1 (found ▸ configured)
      have published : Function.update s.shared.appConfig core (some p) core = some p := Function.update_self ..
      refine ⟨by simp [Shared.serve],held,tracked.publish (by simp) found published ?_⟩
      exact (c.unpublished p List.mem_cons_self).2
    · have kept : Function.update s.shared.appConfig core (some p) other = s.shared.appConfig other :=
        Function.update_of_ne same ..
      exact ⟨fun missing => configured (kept.symm.trans missing),held,tracked.settled (by simp) kept⟩
  | awaitUsed p =>
    obtain ⟨core,old,rfl,lawful⟩ := lawful
    refine ⟨owner,known,served,_,c.seen,lawful,fun threads launched other slave => ?_⟩
    obtain ⟨configured,held,tracked⟩ := workers threads launched other slave
    exact ⟨configured,held,tracked.seen (by simpa [Shared.ready] using ready)⟩
  | appConfigFree p =>
    rcases lawful with ⟨rest,rfl,rfl,lawful⟩ | ⟨core,new,rfl,lawful⟩
    · refine ⟨_,rest,served,.idle,c.freeKnown,lawful,fun threads launched other slave => ?_⟩
      obtain ⟨configured,held,tracked⟩ := workers threads launched other slave
      exact ⟨configured,held,tracked.settled (by simp) rfl⟩
    · refine ⟨_,known,served,.idle,c.freeOld,lawful,fun threads launched other slave => ?_⟩
      obtain ⟨configured,held,tracked⟩ := workers threads launched other slave
      exact ⟨configured,held,tracked.settled (by simp) rfl⟩

theorem safe_worker {threads : Nat → Thread} (safe : Safe d s) (launched : s.threads = some threads)
    (slave : core ∈ d.cores.slaves) (stepped : (threads core).step core s.shared = some (shared,t)) :
    Safe d { s with shared := shared, threads := some (Function.update threads core t) } := by
  obtain ⟨owner,known,served,phase,c,lawful,workers⟩ := safe
  obtain ⟨_,held,tracked⟩ := workers threads launched core slave
  obtain ⟨⟨held',tracked'⟩,effect⟩ := tracked.step c stepped
  have app : shared.appConfig = s.shared.appConfig := by
    rcases effect with rfl | ⟨p,value,_,rfl⟩ <;> rfl
  refine ⟨owner,known,served,phase,?_,lawful,?_⟩
  · rcases effect with rfl | ⟨p,value,mine,rfl⟩
    · exact c
    · exact c.setFlags mine value
  · intro threads' launched' other slave'
    obtain rfl : Function.update threads core t = threads' := Option.some.inj launched'
    obtain ⟨configured,heldOther,trackedOther⟩ := workers threads launched other slave'
    refine ⟨by rwa [app],?_⟩
    by_cases same : other = core
    · subst other
      rw [Function.update_self]
      exact ⟨held',tracked'⟩
    · rw [Function.update_of_ne same]
      rcases effect with rfl | ⟨p,value,mine,rfl⟩
      · exact ⟨heldOther,trackedOther⟩
      · exact ⟨heldOther,trackedOther.setFlags c mine same value⟩

theorem safe_launch (safe : Safe d s) (ended : s.master = .done ret) (success : 0 ≤ ret) :
    Safe d { s with threads := some d.launched } := by
  obtain ⟨owner,known,served,phase,c,lawful,_⟩ := safe
  have finished := lawful
  rw [ended] at finished
  refine ⟨owner,known,served,phase,c,lawful,fun threads launched core slave => ?_⟩
  obtain rfl : d.launched = threads := Option.some.inj launched
  refine ⟨c.configured core (finished.2.2 success slave),[],Restarts.mainLoop _ _ _ _,?_,?_,?_⟩
  · exact fun p member => absurd member List.not_mem_nil
  · exact fun packet under => absurd under (by simp [Deployment.launched])
  · exact fun packet under => absurd under (by simp [Deployment.launched])

theorem safe_reload (safe : Safe d s) (ended : s.master = .done ret) :
    Safe d { s with master := appConfigReloadAll d.cores } := by
  obtain ⟨owner,known,served,phase,c,lawful,workers⟩ := safe
  rw [ended] at lawful
  obtain ⟨rfl,rfl,_⟩ := lawful
  refine ⟨owner,[],[],.idle,?_,appConfigReloadAll_lawful d.cores,workers⟩
  exact { c with configured := fun core member => absurd member List.not_mem_nil }

theorem safe_step (d : Deployment) (s s' : System) (safe : Safe d s) (moves : d.Moves s s') : Safe d s' := by
  cases moves with
  | access loaded program ready => exact safe_master safe program ready loaded
  | spin => exact safe
  | launch ended success _ => exact safe_launch safe ended success
  | reload ended _ => exact safe_reload safe ended
  | work launched slave moved => exact safe_worker safe launched slave moved

theorem safe_run (d : Deployment) (reached : d.run d.boot schedule = some s) : Safe d s :=
  d.run_invariant (safe_step d) (safe_boot d) reached

/-! ## What is never used -/

/-- The pointer that the next access goes through. -/
def accessed : Program Op Ans α → Option ConfigPtr
  | .request (.read p _) _ | .request (.flags p) _ | .request (.setFlags p _) _ => some p
  | _ => none

/-- The program has a pointer to the object at `a`: some continuation accesses it without
loading such a pointer first. -/
def Holds (a : Nat) : Program Op Ans α → Prop
  | .done _ => False
  | .request .appConfig next => ∃ p : ConfigPtr, p.addr ≠ a ∧ Holds a (next p)
  | .request (.read p _) next => p.addr = a ∨ Holds a (next ())
  | .request (.flags p) next => p.addr = a ∨ ∃ value, Holds a (next value)
  | .request (.setFlags p _) next => p.addr = a ∨ Holds a (next ())
  | .request .dispatch next => Holds a (next ())

theorem holds_accessed (program : Program Op Ans α) (access : accessed program = some p) :
    Holds p.addr program := by
  cases program with
  | done a => contradiction
  | request op next =>
    cases op with
    | appConfig | dispatch => contradiction
    | read q member | flags q | setFlags q value =>
      obtain rfl : q = p := Option.some.inj access
      exact .inl rfl

theorem Follows.not_holds {program : Program Op Ans α} (follows : Follows post held program)
    (elsewhere : ∀ p ∈ held, p.addr ≠ a) : ¬Holds a program := by
  induction program generalizing held with
  | done result => exact id
  | request op next ih =>
    cases op with
    | appConfig =>
      rintro ⟨p,different,later⟩
      refine ih p (follows p) (fun q member => ?_) later
      rcases List.mem_cons.1 member with rfl | before
      · exact different
      · exact elsewhere q before
    | read p member =>
      rintro (here | later)
      · exact elsewhere p follows.1 here
      · exact ih () follows.2 elsewhere later
    | flags p =>
      rintro (here | ⟨value,later⟩)
      · exact elsewhere p follows.1 here
      · exact ih value (follows.2 value) elsewhere later
    | setFlags p value =>
      rintro (here | later)
      · exact elsewhere p follows.1 here
      · exact ih () follows.2 (fun q member => absurd member List.not_mem_nil) later
    | dispatch => exact ih () follows fun q member => absurd member List.not_mem_nil

section Uses

variable {d : Deployment} {s : System} {threads : Nat → Thread} {core : Nat}

theorem safe_not_freed (safe : Safe d s) (launched : s.threads = some threads)
    (slave : core ∈ d.cores.slaves) (gone : a ∈ s.shared.freed) : ¬Holds a (threads core).code := by
  obtain ⟨owner,known,served,phase,c,_,workers⟩ := safe
  obtain ⟨_,held,tracked⟩ := workers threads launched core slave
  apply tracked.follows.not_holds
  intro p member same
  have mine := (tracked.recent p member).owned c
  simp [same,c.freed a gone] at mine

/-- What the master is about to free belongs to it, or was replaced and given up. -/
theorem safe_not_held (safe : Safe d s) (launched : s.threads = some threads)
    (slave : core ∈ d.cores.slaves) (frees : s.master = .request (.appConfigFree old) next) :
    ¬Holds old.addr (threads core).code := by
  obtain ⟨owner,known,served,phase,c,lawful,workers⟩ := safe
  obtain ⟨_,held,tracked⟩ := workers threads launched core slave
  apply tracked.follows.not_holds
  intro p member same
  have mine := (tracked.recent p member).owned c
  rw [frees] at lawful
  rcases lawful with ⟨rest,rfl,_⟩ | ⟨other,new,rfl,_⟩
  · have masters := (c.unpublished old List.mem_cons_self).1
    simp [same,masters] at mine
  · obtain ⟨installed,owned,different⟩ := c.exchange
    have here := (tracked.recent p member).current (by simp)
    have equal : other = core := by simpa [same,owned] using mine
    subst other
    obtain rfl : new = p := Option.some.inj (installed.symm.trans here)
    exact different same.symm

theorem serve_freed (s : Shared) (loaded : Option AppConfig) (op : MasterOp) :
    s.freed ⊆ (s.serve loaded op).2.freed := by
  cases op with
  | appConfigLoad => cases loaded <;> exact List.Subset.refl _
  | appConfigFree p => exact List.subset_cons_self ..
  | appConfig | setAppConfig | awaitUsed => exact List.Subset.refl _

theorem Thread.step_freed {t : Thread} {s : Shared} (stepped : t.step core s = some r) :
    r.1.freed = s.freed := by
  unfold Thread.step at stepped
  split at stepped
  case h_1 => contradiction
  case h_2 =>
    obtain ⟨p,_,rfl⟩ := Option.map_eq_some_iff.1 stepped
    rfl
  all_goals
    obtain rfl := Option.some.inj stepped
    rfl

theorem run_freed (reached : d.run s schedule = some s') (gone : a ∈ s.shared.freed) :
    a ∈ s'.shared.freed := by
  have keeps : ∀ s s' : System, a ∈ s.shared.freed → d.Moves s s' → a ∈ s'.shared.freed := by
    intro s s' gone moves
    cases moves with
    | access loaded program ready => exact serve_freed s.shared loaded _ gone
    | spin | launch | reload => exact gone
    | work launched slave moved => exact (Thread.step_freed moved).symm ▸ gone
  exact d.run_invariant keeps gone reached

end Uses

/-- However the accesses of the master and of the workers interleave, no worker's next access
is to a freed configuration. When the master is about to free one, no worker has a pointer
to it, and none accesses it at any time after that. -/
theorem reload_safe (d : Deployment) (schedule : List Choice) (s : System)
    (reached : d.run d.boot schedule = some s) (threads : Nat → Thread) (launched : s.threads = some threads)
    (core : Nat) (slave : core ∈ d.cores.slaves) :
    (∀ p, accessed (threads core).code = some p → p.addr ∉ s.shared.freed) ∧
    ∀ old next, s.master = .request (.appConfigFree old) next →
      ¬Holds old.addr (threads core).code ∧
      ∀ loaded later s', d.run s (.master loaded :: later) = some s' →
        ∀ threads', s'.threads = some threads' → ∀ p, accessed (threads' core).code = some p → p.addr ≠ old.addr := by
  have safe := safe_run d reached
  refine ⟨fun p access gone => ?_,fun old next frees => ⟨safe_not_held safe launched slave frees,?_⟩⟩
  · exact safe_not_freed safe launched slave gone (holds_accessed _ access)
  · intro loaded later s' continued threads' launched' p access same
    obtain ⟨middle,first,rest⟩ := Option.bind_eq_some_iff.1 continued
    have freed : old.addr ∈ middle.shared.freed := by
      simp only [Deployment.step,frees,Shared.ready,if_true] at first
      obtain rfl := Option.some.inj first
      exact List.mem_cons_self
    have safe' := d.run_invariant (safe_step d) safe continued
    exact safe_not_freed safe' launched' slave (run_freed rest freed) (same ▸ holds_accessed _ access)

/-! ## A run with one worker -/

/-- Rewrite every source address, with no NAT rule yet. -/
def rewriteConfig : AppConfig := ⟨fun _ => ⟨[],1500⟩,none,.action (.natRewrite .src)⟩

/-- A TCP header without options, and nothing else. -/
def tcpFrame : Mbuf where
  data i := if i = 12 then 8 else if i = 17 then 20 else if i = 23 then 6 else 0
  pktLen := 34
  olFlags := 0
  vlanTci := 0
  l2Len := 0
  l3Len := 0

/-- One worker that receives one frame in its first iteration. -/
def oneWorker : Deployment where
  cores := oneLcore
  dev := ⟨1,fun _ _ => 0⟩
  worker _ := .start tcpFrame (fun i => if i = 0 then ⟨[tcpFrame],by decide⟩ else ⟨[],by decide⟩) fun _ => 0
  iterations _ := 2

def startup : List Choice := List.replicate 5 (.master (some rewriteConfig)) ++ [.launch]

/-- A reload, up to the wait. -/
def publishing : List Choice := .reload :: List.replicate 4 (.master (some rewriteConfig))

/-- The worker runs its first iteration, and marks the new configuration in the second one. -/
def untilFree : List Choice :=
  startup ++ List.replicate 11 (.worker 1) ++ publishing ++ List.replicate 3 (.worker 1) ++ [.master none]

def freesNext (s : System) : Option ConfigPtr :=
  match s.master with
  | .request (.appConfigFree p) _ => some p
  | _ => none

theorem reload_safe_untilFree :
    ∃ s threads old next, oneWorker.run oneWorker.boot untilFree = some s ∧ s.threads = some threads ∧
      s.master = .request (.appConfigFree old) next ∧ old.addr = 1 ∧ ¬Holds old.addr (threads 1).code := by
  have frees : (oneWorker.run oneWorker.boot untilFree).bind
      (fun s => s.threads.bind fun _ => (freesNext s).map ConfigPtr.addr) = some 1 := by decide +kernel
  obtain ⟨s,reached,frees⟩ := Option.bind_eq_some_iff.1 frees
  obtain ⟨threads,launched,frees⟩ := Option.bind_eq_some_iff.1 frees
  obtain ⟨old,frees,addr⟩ := Option.map_eq_some_iff.1 frees
  obtain ⟨next,program⟩ : ∃ next, s.master = .request (.appConfigFree old) next := by
    unfold freesNext at frees
    split at frees
    case h_1 p next program => exact ⟨next,Option.some.inj frees ▸ program⟩
    case h_2 => contradiction
  refine ⟨s,threads,old,next,reached,launched,program,addr,?_⟩
  exact ((reload_safe oneWorker untilFree s reached threads launched 1 (by decide)).2 old next program).1

/-- All that a packet has used so far is the configuration installed when it was begun, and
the one installed now. -/
theorem packet_uses_two (d : Deployment) (schedule : List Choice) (s : System)
    (reached : d.run d.boot schedule = some s) (threads : Nat → Thread) (launched : s.threads = some threads)
    (core : Nat) (slave : core ∈ d.cores.slaves) (packet : Packet)
    (under : (threads core).packet = some packet) :
    ∀ p ∈ packet.used, p = packet.begun ∨ s.shared.appConfig core = some p := by
  obtain ⟨owner,known,served,phase,_,_,workers⟩ := safe_run d reached
  obtain ⟨_,held,tracked⟩ := workers threads launched core slave
  exact fun p used => tracked.two packet under p (List.mem_append_left _ used)

/-- The master publishes when the packet has reached its rewrite. -/
def betweenLoads : List Choice :=
  startup ++ List.replicate 9 (.worker 1) ++ publishing ++ List.replicate 2 (.worker 1)

/-- The addresses of what the packet of a core has used, latest first. -/
def usedBy (core : Nat) (s : System) : Option (List Nat) :=
  s.threads.bind fun threads => (threads core).packet.map fun packet => packet.used.map ConfigPtr.addr

theorem usedBy_betweenLoads :
    (oneWorker.run oneWorker.boot betweenLoads).bind (usedBy 1) = some [3,1,1,1] := by decide +kernel

/-- The rules are those of the old configuration and the NAT table is that of the new one. -/
theorem packet_uses_both :
    ∃ s threads packet p q, oneWorker.run oneWorker.boot betweenLoads = some s ∧ s.threads = some threads ∧
      (threads 1).packet = some packet ∧ p ∈ packet.used ∧ q ∈ packet.used ∧ p.addr ≠ q.addr := by
  obtain ⟨s,reached,used⟩ := Option.bind_eq_some_iff.1 usedBy_betweenLoads
  obtain ⟨threads,launched,used⟩ := Option.bind_eq_some_iff.1 used
  obtain ⟨packet,under,used⟩ := Option.map_eq_some_iff.1 used
  obtain ⟨p,newer,third⟩ := List.mem_map.1 (used ▸ List.mem_cons_self : 3 ∈ packet.used.map ConfigPtr.addr)
  obtain ⟨q,older,first⟩ := List.mem_map.1
    (used ▸ List.mem_cons_of_mem 3 List.mem_cons_self : 1 ∈ packet.used.map ConfigPtr.addr)
  exact ⟨s,threads,packet,p,q,reached,launched,under,newer,older,by simp [third,first]⟩

theorem packet_uses_two_betweenLoads :
    ∃ s threads packet, oneWorker.run oneWorker.boot betweenLoads = some s ∧ s.threads = some threads ∧
      (threads 1).packet = some packet ∧ packet.used.map ConfigPtr.addr = [3,1,1,1] ∧
      ∀ p ∈ packet.used, p = packet.begun ∨ s.shared.appConfig 1 = some p := by
  obtain ⟨s,reached,used⟩ := Option.bind_eq_some_iff.1 usedBy_betweenLoads
  obtain ⟨threads,launched,used⟩ := Option.bind_eq_some_iff.1 used
  obtain ⟨packet,under,used⟩ := Option.map_eq_some_iff.1 used
  refine ⟨s,threads,packet,reached,launched,under,used,?_⟩
  exact packet_uses_two oneWorker betweenLoads s reached threads launched 1 (by decide) packet under

end Natasha
