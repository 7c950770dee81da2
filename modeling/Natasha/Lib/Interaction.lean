import Mathlib.Control.Basic

/-! Programs that interact with an environment. A program is a tree of requests and
continuations, so that the points where another party can act are part of the
object; a continuation sees only the answer. `Always` quantifies over every answer
the environment may give, and `Ensures` lifts it to code with private state as a
calculus of postconditions. -/
namespace Interaction

inductive Program (Op : Type) (Ans : Op → Type) (α : Type) : Type where
  | done (value : α)
  | request (op : Op) (next : Ans op → Program Op Ans α)

namespace Program

variable {Op : Type} {Ans : Op → Type}

def bind : Program Op Ans α → (α → Program Op Ans β) → Program Op Ans β
  | .done value, f => f value
  | .request op next, f => .request op fun answer => (next answer).bind f

def perform (op : Op) : Program Op Ans (Ans op) := .request op .done

instance : Monad (Program Op Ans) where
  pure := .done
  bind := bind

theorem bind_done (p : Program Op Ans α) : p.bind .done = p := by
  induction p with
  | done value => rfl
  | request op next ih => exact congrArg (request op) (funext ih)

theorem bind_assoc (p : Program Op Ans α) (f : α → Program Op Ans β) (g : β → Program Op Ans γ) :
    (p.bind f).bind g = p.bind fun a => (f a).bind g := by
  induction p with
  | done value => rfl
  | request op next ih => exact congrArg (request op) (funext ih)

instance : LawfulMonad (Program Op Ans) :=
  LawfulMonad.mk' _ bind_done (fun _ _ => rfl) bind_assoc

/-- Run against an environment that answers a request always the same way. -/
def run (answer : (op : Op) → Ans op) : Program Op Ans α → α
  | .done value => value
  | .request op next => (next (answer op)).run answer

/-- Run against an environment with a state of its own. -/
def runState (handle : (op : Op) → σ → Ans op × σ) : Program Op Ans α → σ → α × σ
  | .done value, s => (value, s)
  | .request op next, s => (next (handle op s).1).runState handle (handle op s).2

@[simp] theorem runState_bind (handle : (op : Op) → σ → Ans op × σ) (p : Program Op Ans α)
    (f : α → Program Op Ans β) (s : σ) :
    (p >>= f).runState handle s =
      (f (p.runState handle s).1).runState handle (p.runState handle s).2 := by
  induction p generalizing s with
  | done value => rfl
  | request op next ih => exact ih _ _

/-- The requests of a run against an environment that answers a request always the same way. -/
def trace (answer : (op : Op) → Ans op) : Program Op Ans α → List Op
  | .done _ => []
  | .request op next => op :: (next (answer op)).trace answer

/-- Every result satisfies `post`, for every answer that `ok` admits. -/
def Always (ok : (op : Op) → Ans op → Prop) (post : α → Prop) : Program Op Ans α → Prop
  | .done value => post value
  | .request op next => ∀ answer, ok op answer → (next answer).Always ok post

theorem always_bind (ok : (op : Op) → Ans op → Prop) (post : β → Prop) (p : Program Op Ans α)
    (f : α → Program Op Ans β) :
    (p >>= f).Always ok post ↔ p.Always ok fun a => (f a).Always ok post := by
  induction p with
  | done value => rfl
  | request op next ih =>
    exact forall_congr' fun answer => imp_congr_right fun _ => ih answer

theorem Always.mono {ok ok' : (op : Op) → Ans op → Prop} {post post' : α → Prop}
    {p : Program Op Ans α} (always : p.Always ok post)
    (fewer : ∀ op answer, ok' op answer → ok op answer) (weaker : ∀ a, post a → post' a) :
    p.Always ok' post' := by
  induction p with
  | done value => exact weaker value always
  | request op next ih =>
    exact fun answer admitted => ih answer (always answer (fewer op answer admitted))

theorem Always.and {ok : (op : Op) → Ans op → Prop} {first second : α → Prop}
    {p : Program Op Ans α} (left : p.Always ok first) (right : p.Always ok second) :
    p.Always ok fun a => first a ∧ second a := by
  induction p with
  | done value => exact ⟨left,right⟩
  | request op next ih =>
    exact fun answer admitted => ih answer (left answer admitted) (right answer admitted)

theorem bind_congr {p : Program Op Ans α} {f g : α → Program Op Ans β}
    (agree : p.Always (fun _ _ => True) fun a => f a = g a) : p >>= f = p >>= g := by
  induction p with
  | done value => exact agree
  | request op next ih => exact congrArg (request op) (funext fun answer => ih answer (agree answer trivial))

theorem Always.run {ok : (op : Op) → Ans op → Prop} {post : α → Prop} {p : Program Op Ans α}
    (always : p.Always ok post) (answer : (op : Op) → Ans op)
    (admitted : ∀ op, ok op (answer op)) : post (p.run answer) := by
  induction p with
  | done value => exact always
  | request op next ih => exact ih _ (always _ (admitted op))

theorem always_of_forall {ok : (op : Op) → Ans op → Prop} {post : α → Prop} (p : Program Op Ans α)
    (each : ∀ a, post a) : p.Always ok post := by
  induction p with
  | done value => exact each value
  | request op next ih => exact fun answer _ => ih answer

/-- A program whose requests are some of those of a larger one. -/
def embed {Op' : Type} {Ans' : Op' → Type} (inject : Op → Op') :
    Program Op (fun op => Ans' (inject op)) α → Program Op' Ans' α
  | .done value => .done value
  | .request op next => .request (inject op) fun answer => (next answer).embed inject

/-- A result that some admitted answers lead to. -/
inductive Outcome {α : Type} (ok : (op : Op) → Ans op → Prop) : Program Op Ans α → α → Prop
  | done (value : α) : Outcome ok (.done value) value
  | request {next : Ans op → Program Op Ans α} (admitted : ok op answer) (rest : Outcome ok (next answer) a) :
      Outcome ok (.request op next) a

theorem Outcome.bind {ok : (op : Op) → Ans op → Prop} {p : Program Op Ans α} {f : α → Program Op Ans β}
    (first : Outcome ok p a) (second : Outcome ok (f a) b) : Outcome ok (p >>= f) b := by
  induction first with
  | done value => exact second
  | request admitted rest ih => exact .request admitted (ih second)

theorem always_iff_outcome (ok : (op : Op) → Ans op → Prop) (post : α → Prop) (p : Program Op Ans α) :
    p.Always ok post ↔ ∀ a, Outcome ok p a → post a := by
  constructor
  · intro always a outcome
    induction outcome with
    | done value => exact always
    | request admitted rest ih => exact ih (always _ admitted)
  · intro each
    induction p with
    | done value => exact each value (.done value)
    | request op next ih =>
      exact fun answer admitted => ih answer fun a outcome => each a (.request admitted outcome)

theorem outcome_run {ok : (op : Op) → Ans op → Prop} (p : Program Op Ans α) (answer : (op : Op) → Ans op)
    (admitted : ∀ op, ok op (answer op)) : Outcome ok p (p.run answer) := by
  induction p with
  | done value => exact .done value
  | request op next ih => exact .request (admitted op) (ih _)

/-- Every request satisfies `ok`, whatever was answered before. -/
def Requests (ok : Op → Prop) : Program Op Ans α → Prop
  | .done _ => True
  | .request op next => ok op ∧ ∀ answer, (next answer).Requests ok

theorem Requests.bind {ok : Op → Prop} {p : Program Op Ans α} {f : α → Program Op Ans β}
    (first : p.Requests ok) (second : ∀ a, (f a).Requests ok) : (p >>= f).Requests ok := by
  induction p with
  | done value => exact second value
  | request op next ih => exact ⟨first.1,fun answer => ih answer (first.2 answer)⟩

/-- The program with the answers to some of its requests given in advance. -/
def resolve (answer : (op : Op) → Option (Ans op)) : Program Op Ans α → Program Op Ans α
  | .done value => .done value
  | .request op next =>
    match answer op with
    | some given => (next given).resolve answer
    | none => .request op fun given => (next given).resolve answer

theorem resolve_bind (answer : (op : Op) → Option (Ans op)) (p : Program Op Ans α) (f : α → Program Op Ans β) :
    (p >>= f).resolve answer = p.resolve answer >>= fun a => (f a).resolve answer := by
  induction p with
  | done value => rfl
  | request op next ih =>
    show (request op fun given => (next given >>= f)).resolve answer = _
    cases given : answer op with
    | none =>
      simp only [resolve,given]
      exact congrArg (request op) (funext ih)
    | some given' =>
      simp only [resolve,given]
      exact ih given'

/-- Answers to requests that are not made. -/
theorem resolve_of_requests {answer : (op : Op) → Option (Ans op)} {p : Program Op Ans α}
    (others : p.Requests fun op => answer op = none) : p.resolve answer = p := by
  induction p with
  | done value => rfl
  | request op next ih =>
    simp only [resolve,others.1]
    exact congrArg (request op) (funext fun given => ih given (others.2 given))

theorem requests_embed {Op' : Type} {Ans' : Op' → Type} {inject : Op → Op'} {ok : Op' → Prop}
    (p : Program Op (fun op => Ans' (inject op)) α) (each : ∀ op, ok (inject op)) : (p.embed inject).Requests ok := by
  induction p with
  | done value => trivial
  | request op next ih => exact ⟨each op,fun answer => ih answer⟩

end Program

/-- Code over a private state that may make requests. -/
abbrev Code (S Op : Type) (Ans : Op → Type) := StateT S (Program Op Ans)

section Ensures

variable {S Op : Type} {Ans : Op → Type} {ok : (op : Op) → Ans op → Prop}

def perform (op : Op) : Code S Op Ans (Ans op) := StateT.lift (Program.perform op)

/-- From `s` the code ends, for every admitted answer, with `post` of its result and
final state. Trees are well founded, so ending is part of the statement. -/
def Ensures (ok : (op : Op) → Ans op → Prop) (code : Code S Op Ans α) (s : S)
    (post : α → S → Prop) : Prop :=
  (code.run s).Always ok fun r => post r.1 r.2

@[simp] theorem ensures_pure (a : α) (s : S) (post : α → S → Prop) :
    Ensures ok (pure a : Code S Op Ans α) s post ↔ post a s := Iff.rfl

@[simp] theorem ensures_bind (code : Code S Op Ans α) (next : α → Code S Op Ans β) (s : S)
    (post : β → S → Prop) :
    Ensures ok (code >>= next) s post ↔ Ensures ok code s fun a s' => Ensures ok (next a) s' post :=
  Program.always_bind ok _ _ _

@[simp] theorem ensures_map (f : α → β) (code : Code S Op Ans α) (s : S) (post : β → S → Prop) :
    Ensures ok (f <$> code) s post ↔ Ensures ok code s fun a s' => post (f a) s' := by
  rw [map_eq_pure_bind,ensures_bind]
  rfl

@[simp] theorem ensures_get (s : S) (post : S → S → Prop) :
    Ensures ok (get : Code S Op Ans S) s post ↔ post s s := Iff.rfl

@[simp] theorem ensures_modify (f : S → S) (s : S) (post : PUnit → S → Prop) :
    Ensures ok (modify f : Code S Op Ans PUnit) s post ↔ post ⟨⟩ (f s) := Iff.rfl

@[simp] theorem ensures_modifyGet (f : S → α × S) (s : S) (post : α → S → Prop) :
    Ensures ok (modifyGet f : Code S Op Ans α) s post ↔ post (f s).1 (f s).2 := Iff.rfl

theorem ensures_lift (p : Program Op Ans α) (s : S) (post : α → S → Prop) :
    Ensures ok (StateT.lift p : Code S Op Ans α) s post ↔ p.Always ok fun a => post a s :=
  Program.always_bind ok _ _ _

@[simp] theorem ensures_ite (c : Prop) [Decidable c] (a b : Code S Op Ans α) (s : S)
    (post : α → S → Prop) :
    Ensures ok (if c then a else b) s post ↔
      (c → Ensures ok a s post) ∧ (¬c → Ensures ok b s post) := by
  split <;> simp_all

@[simp] theorem ensures_dite (c : Prop) [Decidable c] (a : c → Code S Op Ans α)
    (b : ¬c → Code S Op Ans α) (s : S) (post : α → S → Prop) :
    Ensures ok (if h : c then a h else b h) s post ↔
      (∀ h : c, Ensures ok (a h) s post) ∧ (∀ h : ¬c, Ensures ok (b h) s post) := by
  split <;> simp_all

theorem Ensures.mono {code : Code S Op Ans α} {s : S} {post post' : α → S → Prop}
    (ensures : Ensures ok code s post) (weaker : ∀ a s', post a s' → post' a s') :
    Ensures ok code s post' :=
  Program.Always.mono ensures (fun _ _ h => h) fun r => weaker r.1 r.2

/-- An environment that answers in fewer ways. -/
theorem Ensures.fewer {ok' : (op : Op) → Ans op → Prop} {code : Code S Op Ans α} {s : S} {post : α → S → Prop}
    (ensures : Ensures ok code s post) (fewer : ∀ op answer, ok' op answer → ok op answer) : Ensures ok' code s post :=
  Program.Always.mono ensures fewer fun _ h => h

theorem Ensures.and {code : Code S Op Ans α} {s : S} {first second : α → S → Prop}
    (left : Ensures ok code s first) (right : Ensures ok code s second) :
    Ensures ok code s fun a s' => first a s' ∧ second a s' :=
  Program.Always.and left right

/-- Code that ends in `r` whatever is admitted, and satisfies nothing else, makes no request. -/
theorem run_eq_done {code : Code S Op Ans α} {s : S} {a : α} {s' : S}
    (precise : ∀ (ok : (op : Op) → Ans op → Prop) post, Ensures ok code s post ↔ post a s') :
    code.run s = .done (a,s') := by
  have never := precise (fun _ _ => False) fun _ _ => False
  have same := precise (fun _ _ => False) fun b t => (b,t) = (a,s')
  unfold Ensures at never same
  cases run : code.run s with
  | done value =>
    rw [run] at same
    exact congrArg Program.done (same.mpr rfl)
  | request op next =>
    rw [run] at never
    exact (never.mp fun _ denied => denied.elim).elim

/-- Continuations are interchangeable that agree in every state the code before them can reach. -/
theorem run_bind_congr {code : Code S Op Ans α} {f g : α → Code S Op Ans β} {s : S}
    (agree : Ensures (fun _ _ => True) code s fun a s' => (f a).run s' = (g a).run s') :
    (code >>= f).run s = (code >>= g).run s := by
  rw [StateT.run_bind,StateT.run_bind]
  exact Program.bind_congr agree

/-- The code can end from `s` in `r`. -/
def Ends (ok : (op : Op) → Ans op → Prop) (code : Code S Op Ans α) (s : S) (r : α × S) : Prop :=
  (code.run s).Outcome ok r

theorem ensures_iff_ends (code : Code S Op Ans α) (s : S) (post : α → S → Prop) :
    Ensures ok code s post ↔ ∀ r, Ends ok code s r → post r.1 r.2 :=
  Program.always_iff_outcome ok _ _

def exec (answer : (op : Op) → Ans op) (code : Code S Op Ans α) (s : S) : α × S :=
  (code.run s).run answer

theorem Ensures.exec {code : Code S Op Ans α} {s : S} {post : α → S → Prop}
    (ensures : Ensures ok code s post) (answer : (op : Op) → Ans op)
    (admitted : ∀ op, ok op (answer op)) :
    post (Interaction.exec answer code s).1 (Interaction.exec answer code s).2 :=
  Program.Always.run ensures answer admitted

theorem ends_exec (code : Code S Op Ans α) (s : S) (answer : (op : Op) → Ans op)
    (admitted : ∀ op, ok op (answer op)) : Ends ok code s (Interaction.exec answer code s) :=
  Program.outcome_run _ answer admitted

def asked (answer : (op : Op) → Ans op) (code : Code S Op Ans α) (s : S) : List Op := (code.run s).trace answer

/-- Code that makes no request, and what follows it. -/
theorem asked_done {answer : (op : Op) → Ans op} {code : Code S Op Ans α} {next : α → Code S Op Ans β} {s : S}
    {r : α × S} (done : code.run s = .done r) : asked answer (code >>= next) s = asked answer (next r.1) r.2 := by
  rw [asked,StateT.run_bind,done]
  rfl

end Ensures

end Interaction
