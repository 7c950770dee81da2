import Natasha.System

/-! What the two parties of a reload promise each other. A worker uses a configuration only
through pointers it loaded after it last marked one as used; the master publishes an
object that nobody knows, waits, and frees the one it replaced. Both promises are
predicates on programs, proved of the code once. -/
namespace Natasha

open Interaction

/-! ## Workers -/

/-- The program uses the pointers it holds and those it loads. It drops all of them when it
marks a configuration as used and when it begins a packet. -/
def Follows (post : α → List ConfigPtr → Prop) (held : List ConfigPtr) : Program Op Ans α → Prop
  | .done a => post a held
  | .request .appConfig next => ∀ p, Follows post (p :: held) (next p)
  | .request (.read p _) next => p ∈ held ∧ Follows post held (next ())
  | .request (.flags p) next => p ∈ held ∧ ∀ value, Follows post held (next value)
  | .request (.setFlags p _) next => p ∈ held ∧ Follows post [] (next ())
  | .request .dispatch next => Follows post [] (next ())

theorem follows_bind (post : β → List ConfigPtr → Prop) (held : List ConfigPtr) (program : Program Op Ans α)
    (f : α → Program Op Ans β) :
    Follows post held (program >>= f) ↔ Follows (fun a held => Follows post held (f a)) held program := by
  induction program generalizing held with
  | done a => rfl
  | request op next ih =>
    cases op with
    | appConfig => exact forall_congr' fun p => ih p _
    | read p member => exact and_congr_right fun _ => ih () _
    | flags p => exact and_congr_right fun _ => forall_congr' fun value => ih value _
    | setFlags p value => exact and_congr_right fun _ => ih () _
    | dispatch => exact ih () _

theorem Follows.mono {post post' : α → List ConfigPtr → Prop} {program : Program Op Ans α}
    (follows : Follows post held program) (weaker : ∀ a held, post a held → post' a held) :
    Follows post' held program := by
  induction program generalizing held with
  | done a => exact weaker a held follows
  | request op next ih =>
    cases op with
    | appConfig => exact fun p => ih p (follows p)
    | read p member => exact ⟨follows.1,ih () follows.2⟩
    | flags p => exact ⟨follows.1,fun value => ih value (follows.2 value)⟩
    | setFlags p value => exact ⟨follows.1,ih () follows.2⟩
    | dispatch => exact ih () follows

theorem Scoped.follows (inScope : Scoped ports ptrs code) (w : Worker) (known : ptrs ⊆ held) :
    Follows (fun _ held' => held ⊆ held') held (code.run w) := by
  induction inScope generalizing held w with
  | pure a => exact List.Subset.refl held
  | bind first second ih ih' =>
    refine (follows_bind _ _ _ _).2 ((ih w known).mono fun r held' more => ?_)
    exact (ih' r.1 r.2 (List.Subset.trans known more)).mono fun _ _ further => List.Subset.trans more further
  | own f unlogged => exact List.Subset.refl held
  | look f unlogged next each ih => exact ih _ w known
  | load each ih =>
    intro p
    exact (ih p w (List.cons_subset_cons p known)).mono fun _ _ more =>
      List.Subset.trans (List.subset_cons_self p held) more
  | read present within => exact ⟨known present,List.Subset.refl held⟩

/-- Code that needs none of the pointers held before. -/
def Restarts (code : M α) : Prop := ∀ w held, Follows (fun _ _ => True) held (code.run w)

namespace Restarts

theorem bind {code : M α} {next : α → M β} (first : Restarts code) (second : ∀ a, Restarts (next a)) :
    Restarts (code >>= next) :=
  fun w held => (follows_bind _ _ _ _).2 ((first w held).mono fun r held' _ => second r.1 r.2 held')

theorem of_scoped {code : M α} (inScope : Scoped (fun _ => True) [] code) : Restarts code :=
  fun w held => (inScope.follows w (List.nil_subset held)).mono fun _ _ _ => trivial

theorem beginDispatch (port : Nat) (pkt : Mbuf) : Restarts (Natasha.beginDispatch port pkt) :=
  fun _ _ => trivial

theorem dispatchAll (dev : Devices) (port : Nat) (pkts : List Mbuf) :
    Restarts (Natasha.dispatchAll dev port pkts) := by
  induction pkts with
  | nil => exact of_scoped (.pure ())
  | cons pkt pkts ih =>
    exact (beginDispatch port pkt).bind fun _ => (of_scoped (Scoped.dispatchPacket (fun _ _ => trivial) trivial)).bind
      fun _ => ih

theorem handlePorts (dev : Devices) (ports : List Nat) : Restarts (Natasha.handlePorts dev ports) := by
  induction ports with
  | nil => exact of_scoped (.pure ())
  | cons port ports ih =>
    have burst : Restarts rteEthRxBurst := fun _ _ => trivial
    exact (burst.bind fun burst => dispatchAll dev port burst.pkts).bind fun _ => ih

theorem flushPorts (ports : List Nat) : Restarts (Natasha.flushPorts ports) := by
  induction ports with
  | nil => exact of_scoped (.pure ())
  | cons port ports ih =>
    have look : Restarts (get : M Worker) := fun _ _ => trivial
    exact look.bind fun _ => (of_scoped (Scoped.txFlush port _)).bind fun _ => ih

/-- The pointer through which the flag is set is loaded by the iteration itself. -/
theorem iteration (dev : Devices) : Restarts (Natasha.iteration dev) := by
  intro w held p
  refine ⟨List.mem_cons_self,fun value => ⟨List.mem_cons_self,?_⟩⟩
  exact ((handlePorts dev _).bind fun _ => flushPorts _) w []

theorem mainLoop (dev : Devices) (n : Nat) : Restarts (Natasha.mainLoop dev n) := by
  induction n with
  | zero => exact of_scoped (.pure ())
  | succ n ih => exact (iteration dev).bind fun _ => ih

end Restarts

/-! ## The master -/

/-- How far the exchange of a configuration is. -/
inductive Phase where
  | idle
  /-- The pointer of `core` was loaded. -/
  | found (core : Nat) (old : Option ConfigPtr)
  | waiting (core : Nat) (old new : ConfigPtr)
  /-- The wait is over. -/
  | seen (core : Nat) (old new : ConfigPtr)

/-- The program publishes only what it loaded and nobody else knows (`known`, latest first),
and frees only that or what it has replaced and waited for. When it reports success, it
has published a configuration for every slave (`served`). -/
def Lawful (slaves : List Nat) (known : List ConfigPtr) (served : List Nat) (phase : Phase) :
    Master Int → Prop
  | .done ret => phase = .idle ∧ known = [] ∧ (0 ≤ ret → slaves ⊆ served)
  | .request .appConfigLoad next =>
    phase = .idle ∧ Lawful slaves known served .idle (next none) ∧
      ∀ p : ConfigPtr, Lawful slaves (p :: known) served .idle (next (some p))
  | .request (.appConfig core) next =>
    phase = .idle ∧ ∀ old : Option ConfigPtr, Lawful slaves known served (.found core old) (next old)
  | .request (.setAppConfig core p) next =>
    ∃ rest old, known = p :: rest ∧ phase = .found core old ∧
      Lawful slaves rest (core :: served) (old.elim .idle fun old => .waiting core old p) (next ())
  | .request (.awaitUsed p) next =>
    ∃ core old, phase = .waiting core old p ∧ Lawful slaves known served (.seen core old p) (next ())
  | .request (.appConfigFree p) next =>
    (∃ rest, known = p :: rest ∧ phase = .idle ∧ Lawful slaves rest served .idle (next ())) ∨
      ∃ core new, phase = .seen core p new ∧ Lawful slaves known served .idle (next ())

theorem reloadWorkers_lawful (m : ConfigPtr) (cores : List Nat)
    (covered : ∀ core ∈ slaves, core ∈ served ∨ core ∈ cores) :
    Lawful slaves [m] served .idle (reloadWorkers m cores) := by
  induction cores generalizing served with
  | nil =>
    refine .inl ⟨[],rfl,rfl,rfl,rfl,fun _ core member => ?_⟩
    simpa using covered core member
  | cons first cores ih =>
    refine ⟨rfl,.inl ⟨[],rfl,rfl,rfl,rfl,fun success => absurd success (by decide)⟩,fun new => ?_⟩
    have rest : Lawful slaves [m] (first :: served) .idle (reloadWorkers m cores) := by
      apply ih
      intro core member
      rcases covered core member with before | here
      · exact .inl (List.mem_cons_of_mem _ before)
      · rcases List.mem_cons.1 here with rfl | later
        · exact .inl List.mem_cons_self
        · exact .inr later
    refine ⟨rfl,fun old => ⟨[m],old,rfl,rfl,?_⟩⟩
    cases old with
    | none => exact rest
    | some old => exact ⟨first,old,rfl,.inr ⟨first,new,rfl,rest⟩⟩

theorem appConfigReloadAll_lawful (cores : Lcores) :
    Lawful cores.slaves [] [] .idle (appConfigReloadAll cores) := by
  refine ⟨rfl,⟨rfl,rfl,fun success => absurd success (by decide)⟩,fun p => ?_⟩
  exact reloadWorkers_lawful p cores.slaves fun core member => .inr member

end Natasha
