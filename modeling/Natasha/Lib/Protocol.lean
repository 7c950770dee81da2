import Natasha.Lib.Interaction

/-! Protocols of requests. A protocol has a state that requests advance by their answers; in each
state it allows some requests, and the environment keeps to some answers. A program keeps to it
when all that it asks for is allowed, whatever it is answered. -/
namespace Interaction

structure Protocol (Op : Type) (Ans : Op → Type) (σ : Type) where
  allowed : σ → Op → Prop
  admits : σ → (op : Op) → Ans op → Prop
  advance : σ → (op : Op) → Ans op → σ

namespace Protocol

variable {Op : Type} {Ans : Op → Type} {σ : Type} (protocol : Protocol Op Ans σ)

/-- From `s` the program asks for what is allowed and ends with `post` of its result. -/
def Keeps (post : α → σ → Prop) : Program Op Ans α → σ → Prop
  | .done a, s => post a s
  | .request op next, s => protocol.allowed s op ∧
    ∀ answer, protocol.admits s op answer → Keeps post (next answer) (protocol.advance s op answer)

/-- A program and its protocol, some answers later. -/
inductive Path : Program Op Ans α → σ → Program Op Ans α → σ → Prop where
  | refl : Path p s p s
  | step {next : Ans op → Program Op Ans α} (admitted : protocol.admits s op answer)
      (rest : Path (next answer) (protocol.advance s op answer) q t) : Path (.request op next) s q t

variable {protocol} {post post' : α → σ → Prop} {p q : Program Op Ans α} {s t : σ}

theorem Keeps.mono (keeps : protocol.Keeps post p s) (weaker : ∀ a t, post a t → post' a t) : protocol.Keeps post' p s := by
  induction p generalizing s with
  | done a => exact weaker a s keeps
  | request op next ih => exact ⟨keeps.1,fun answer admitted => ih answer (keeps.2 answer admitted)⟩

theorem Keeps.call {next : Ans op → Program Op Ans α} (allowed : protocol.allowed s op)
    (after : ∀ answer, protocol.admits s op answer → protocol.Keeps post (next answer) (protocol.advance s op answer)) :
    protocol.Keeps post (Program.perform op >>= next) s := ⟨allowed,after⟩

theorem Keeps.ite {c : Prop} [Decidable c] (yes : c → protocol.Keeps post p s) (no : ¬c → protocol.Keeps post q s) :
    protocol.Keeps post (if c then p else q) s := by
  split
  · exact yes ‹_›
  · exact no ‹_›

theorem Keeps.bind {next : α → Program Op Ans β} {last : β → σ → Prop} (first : protocol.Keeps post p s)
    (second : ∀ a t, post a t → protocol.Keeps last (next a) t) : protocol.Keeps last (p >>= next) s := by
  induction p generalizing s with
  | done a => exact second a s first
  | request op rest ih => exact ⟨first.1,fun answer admitted => ih answer (first.2 answer admitted)⟩

/-- A program makes no difference between protocols whose states correspond. -/
theorem Keeps.transport {σ' : Type} {other : Protocol Op Ans σ'} (f : σ → σ')
    (allowed : ∀ s op, protocol.allowed s op → other.allowed (f s) op)
    (admits : ∀ s op answer, other.admits (f s) op answer → protocol.admits s op answer)
    (advance : ∀ s op answer, other.advance (f s) op answer = f (protocol.advance s op answer))
    (keeps : protocol.Keeps post p s) : other.Keeps (fun a t' => ∃ t, t' = f t ∧ post a t) p (f s) := by
  induction p generalizing s with
  | done a => exact ⟨s,rfl,keeps⟩
  | request op next ih =>
    refine ⟨allowed s op keeps.1,fun answer admitted => ?_⟩
    rw [advance]
    exact ih answer (keeps.2 answer (admits s op answer admitted))

/-- What holds whatever the environment admits. -/
theorem Keeps.and_always {ok : (op : Op) → Ans op → Prop} {holds : α → Prop} (keeps : protocol.Keeps post p s)
    (always : p.Always ok holds) (admits : ∀ s op answer, protocol.admits s op answer → ok op answer) :
    protocol.Keeps (fun a t => post a t ∧ holds a) p s := by
  induction p generalizing s with
  | done a => exact ⟨keeps,always⟩
  | request op next ih =>
    exact ⟨keeps.1,fun answer admitted => ih answer (keeps.2 answer admitted) (always answer (admits s op answer admitted))⟩

/-- What is kept is kept later. -/
theorem Keeps.path (keeps : protocol.Keeps post p s) (path : protocol.Path p s q t) : protocol.Keeps post q t := by
  induction path with
  | refl => exact keeps
  | step admitted _ ih => exact ih (keeps.2 _ admitted)

/-- The run in which every request is answered by `answers`. -/
def follow (answers : σ → (op : Op) → Ans op) : Program Op Ans α → σ → α × σ
  | .done a, s => (a,s)
  | .request op next, s => follow answers (next (answers s op)) (protocol.advance s op (answers s op))

theorem follow_path {answers : σ → (op : Op) → Ans op} (admitted : ∀ s op, protocol.admits s op (answers s op))
    (p : Program Op Ans α) (s : σ) :
    protocol.Path p s (.done (protocol.follow answers p s).1) (protocol.follow answers p s).2 := by
  induction p generalizing s with
  | done a => exact .refl
  | request op next ih => exact .step (admitted s op) (ih (answers s op) _)

/-- The protocol for the requests of a part of the program. -/
def embedded {Op' : Type} (protocol : Protocol Op Ans σ) (inject : Op' → Op) : Protocol Op' (fun op => Ans (inject op)) σ where
  allowed s op := protocol.allowed s (inject op)
  admits s op := protocol.admits s (inject op)
  advance s op := protocol.advance s (inject op)

theorem keeps_embed {Op' : Type} {inject : Op' → Op} {p : Program Op' (fun op => Ans (inject op)) α}
    (keeps : (protocol.embedded inject).Keeps post p s) : protocol.Keeps post (p.embed inject) s := by
  induction p generalizing s with
  | done a => exact keeps
  | request op next ih => exact ⟨keeps.1,fun answer admitted => ih answer (keeps.2 answer admitted)⟩

/-! ## Code with a private state -/

/-- Code from the private state `u` that keeps to the protocol from `s`. -/
def Conforms {S : Type} (protocol : Protocol Op Ans σ) (code : Code S Op Ans α) (u : S) (s : σ)
    (post : α → S → σ → Prop) : Prop :=
  protocol.Keeps (fun r t => post r.1 r.2 t) (code.run u) s

namespace Conforms

variable {S : Type} {code : Code S Op Ans α} {u : S} {post post' : α → S → σ → Prop}

theorem pure (holds : post a u s) : protocol.Conforms (Pure.pure a : Code S Op Ans α) u s post := holds

theorem bind {next : α → Code S Op Ans β} {last : β → S → σ → Prop} (first : protocol.Conforms code u s post)
    (second : ∀ a v t, post a v t → protocol.Conforms (next a) v t last) :
    protocol.Conforms (code >>= next) u s last :=
  Keeps.bind first fun r t holds => second r.1 r.2 t holds

theorem mono (conforms : protocol.Conforms code u s post) (weaker : ∀ a v t, post a v t → post' a v t) :
    protocol.Conforms code u s post' :=
  Keeps.mono conforms fun r t holds => weaker r.1 r.2 t holds

theorem and_ensures {ok : (op : Op) → Ans op → Prop} {holds : α → S → Prop} (conforms : protocol.Conforms code u s post)
    (ensures : Ensures ok code u holds) (admits : ∀ s op answer, protocol.admits s op answer → ok op answer) :
    protocol.Conforms code u s fun a v t => post a v t ∧ holds a v :=
  Keeps.and_always conforms ensures admits

theorem perform {op : Op} {post : Ans op → S → σ → Prop} (allowed : protocol.allowed s op)
    (after : ∀ answer, protocol.admits s op answer → post answer u (protocol.advance s op answer)) :
    protocol.Conforms (Interaction.perform op : Code S Op Ans (Ans op)) u s post := ⟨allowed,after⟩

theorem lift {p : Program Op Ans α} {post : α → σ → Prop} (keeps : protocol.Keeps post p s) :
    protocol.Conforms (StateT.lift p : Code S Op Ans α) u s fun a v t => v = u ∧ post a t :=
  Keeps.bind keeps fun _ _ holds => ⟨rfl,holds⟩

theorem get_bind {next : S → Code S Op Ans α} (conforms : protocol.Conforms (next u) u s post) :
    protocol.Conforms (get >>= next) u s post := conforms

theorem modify_bind {f : S → S} {next : PUnit → Code S Op Ans α} (conforms : protocol.Conforms (next ⟨⟩) (f u) s post) :
    protocol.Conforms (MonadState.modifyGet (fun u => (⟨⟩,f u)) >>= next) u s post := conforms

theorem modify {post : PUnit → S → σ → Prop} (f : S → S) (holds : post ⟨⟩ (f u) s) :
    protocol.Conforms (modify f : Code S Op Ans PUnit) u s post := holds

theorem ite {c : Prop} [Decidable c] {other : Code S Op Ans α} (yes : c → protocol.Conforms code u s post)
    (no : ¬c → protocol.Conforms other u s post) : protocol.Conforms (if c then code else other) u s post := by
  split
  · exact yes ‹_›
  · exact no ‹_›

end Conforms

end Protocol

end Interaction
