import Natasha.Lib.Interaction

/-! Weak simulation between programs that make the same requests up to hidden ones. The
implementation may make hidden requests on its own, whatever their answers; every other
request is made by both sides at once, so they get the same answer. -/
namespace Interaction

namespace Program

variable {Op : Type} {Ans : Op → Type} {hidden : Op → Prop}

inductive Sim (hidden : Op → Prop) (rel : α → β → Prop) : Program Op Ans α → Program Op Ans β → Prop
  | done (related : rel a b) : Sim hidden rel (.done a) (.done b)
  | skip {next : Ans op → Program Op Ans α} (silent : hidden op)
      (each : ∀ answer, Sim hidden rel (next answer) spec) : Sim hidden rel (.request op next) spec
  | both {next : Ans op → Program Op Ans α} {next' : Ans op → Program Op Ans β}
      (each : ∀ answer, Sim hidden rel (next answer) (next' answer)) :
      Sim hidden rel (.request op next) (.request op next')

theorem Sim.bind {rel : α → β → Prop} {rel' : γ → δ → Prop} {p : Program Op Ans α}
    {q : Program Op Ans β} {f : α → Program Op Ans γ} {g : β → Program Op Ans δ}
    (first : Sim hidden rel p q) (second : ∀ a b, rel a b → Sim hidden rel' (f a) (g b)) :
    Sim hidden rel' (p >>= f) (q >>= g) := by
  induction first with
  | done related => exact second _ _ related
  | skip silent each ih => exact .skip silent ih
  | both each ih => exact .both ih

theorem Sim.and_always {rel : α → β → Prop} {post : α → Prop} {p : Program Op Ans α}
    {q : Program Op Ans β} (sim : Sim hidden rel p q) (always : p.Always (fun _ _ => True) post) :
    Sim hidden (fun a b => rel a b ∧ post a) p q := by
  induction sim with
  | done related => exact .done ⟨related,always⟩
  | skip silent each ih => exact .skip silent fun answer => ih answer (always answer trivial)
  | both each ih => exact .both fun answer => ih answer (always answer trivial)

theorem Sim.mono {rel rel' : α → β → Prop} {p : Program Op Ans α} {q : Program Op Ans β}
    (sim : Sim hidden rel p q) (weaker : ∀ a b, rel a b → rel' a b) : Sim hidden rel' p q := by
  induction sim with
  | done related => exact .done (weaker _ _ related)
  | skip silent each ih => exact .skip silent ih
  | both each ih => exact .both ih

/-- With nothing hidden, the same answers lead to related results. -/
theorem Sim.run {rel : α → β → Prop} {p : Program Op Ans α} {q : Program Op Ans β}
    (sim : Sim (fun _ => False) rel p q) (answer : (op : Op) → Ans op) : rel (p.run answer) (q.run answer) := by
  induction sim with
  | done related => exact related
  | skip silent each ih => exact silent.elim
  | both each ih => exact ih _

end Program

section Matches

variable {S T Op : Type} {Ans : Op → Type} {hidden : Op → Prop} {R : S → T → Prop}

/-- From related states the code simulates `spec`, the results are related by `post` and the
final states again by `R`. -/
def Matches (hidden : Op → Prop) (R : S → T → Prop) (post : α → β → Prop) (code : Code S Op Ans α)
    (spec : Code T Op Ans β) : Prop :=
  ∀ ⦃s t⦄, R s t → Program.Sim hidden (fun r r' => post r.1 r'.1 ∧ R r.2 r'.2) (code.run s) (spec.run t)

namespace Matches

variable {code : Code S Op Ans α} {spec : Code T Op Ans β} {next : α → Code S Op Ans γ}
  {nextSpec : β → Code T Op Ans δ} {post : α → β → Prop} {post' : γ → δ → Prop}

theorem pure (related : post a b) :
    Matches hidden R post (Pure.pure a : Code S Op Ans α) (Pure.pure b : Code T Op Ans β) :=
  fun _ _ states => .done ⟨related,states⟩

theorem bind (first : Matches hidden R post code spec)
    (second : ∀ a b, post a b → Matches hidden R post' (next a) (nextSpec b)) :
    Matches hidden R post' (code >>= next) (spec >>= nextSpec) :=
  fun _ _ states => (first states).bind fun r r' related => second r.1 r'.1 related.1 related.2

theorem skip {next : Ans op → Code S Op Ans α} (silent : hidden op)
    (rest : ∀ answer, Matches hidden R post (next answer) spec) :
    Matches hidden R post (Interaction.perform op >>= next) spec :=
  fun _ _ states => .skip silent fun answer => rest answer states

theorem perform (op : Op) :
    Matches hidden R Eq (Interaction.perform op : Code S Op Ans _) (Interaction.perform op) :=
  fun _ _ states => .both fun _ => .done ⟨rfl,states⟩

theorem modifyGet {f : S → α × S} {g : T → β × T}
    (step : ∀ s t, R s t → post (f s).1 (g t).1 ∧ R (f s).2 (g t).2) :
    Matches hidden R post (modifyGet f : Code S Op Ans α) (modifyGet g : Code T Op Ans β) :=
  fun s t states => .done (step s t states)

theorem and_ensures {holds : α → Prop} (sim : Matches hidden R post code spec)
    (ensures : ∀ s, Ensures (fun _ _ => True) code s fun a _ => holds a) :
    Matches hidden R (fun a b => post a b ∧ holds a) code spec :=
  fun s _ states => ((sim states).and_always (ensures s)).mono fun _ _ related =>
    ⟨⟨related.1.1,related.2⟩,related.1.2⟩

end Matches

end Matches

section Twice

variable {S Op : Type} {Ans : Op → Type}

/-- The code run twice, from related states and with the same answers: both runs make the same
requests and return the same. -/
def Twice (pre : S → S → Prop) (code : Code S Op Ans α) (post : α → S → S → Prop) : Prop :=
  ∀ ⦃s t⦄, pre s t → Program.Sim (fun _ => False) (fun r r' => r.1 = r'.1 ∧ post r.1 r.2 r'.2) (code.run s) (code.run t)

namespace Twice

variable {code : Code S Op Ans α} {next : α → Code S Op Ans β} {pre pre' : S → S → Prop} {mid post : α → S → S → Prop}
  {last : β → S → S → Prop}

theorem pure (related : ∀ s t, pre s t → post a s t) : Twice pre (Pure.pure a : Code S Op Ans α) post :=
  fun _ _ states => .done ⟨rfl,related _ _ states⟩

theorem bind (first : Twice pre code mid) (second : ∀ a, Twice (mid a) (next a) last) : Twice pre (code >>= next) last := by
  intro s t states
  refine (first states).bind ?_
  rintro ⟨a,s⟩ ⟨b,t⟩ ⟨same,states⟩
  obtain rfl : a = b := same
  exact second a states

theorem mono (twice : Twice pre code mid) (stronger : ∀ s t, pre' s t → pre s t)
    (weaker : ∀ a s t, mid a s t → post a s t) : Twice pre' code post :=
  fun _ _ states => (twice (stronger _ _ states)).mono fun _ _ related => ⟨related.1,weaker _ _ _ related.2⟩

theorem ite (c : Prop) [Decidable c] {other : Code S Op Ans α} (yes : c → Twice pre code post)
    (no : ¬c → Twice pre other post) : Twice pre (if c then code else other) post := by
  split
  case isTrue holds => exact yes holds
  case isFalse fails => exact no fails

theorem perform (op : Op) : Twice pre (Interaction.perform op : Code S Op Ans _) fun _ => pre :=
  fun _ _ states => .both fun _ => .done ⟨rfl,states⟩

theorem modifyGet {f : S → α × S} (step : ∀ s t, pre s t → (f s).1 = (f t).1 ∧ post (f s).1 (f s).2 (f t).2) :
    Twice pre (modifyGet f : Code S Op Ans α) post :=
  fun s t states => .done (step s t states)

theorem exec (twice : Twice pre code post) {s t : S} (states : pre s t) (answer : (op : Op) → Ans op) :
    (Interaction.exec answer code s).1 = (Interaction.exec answer code t).1 ∧
      post (Interaction.exec answer code s).1 (Interaction.exec answer code s).2 (Interaction.exec answer code t).2 :=
  (twice states).run answer

end Twice

end Twice

end Interaction
