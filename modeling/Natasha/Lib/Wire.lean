import Mathlib.Logic.Basic

/-! Readers of symbols. A reader takes what it reads from the front of a word and leaves the rest;
`Decodes` says that it takes just a word, whatever follows. -/
namespace Wire

variable {ε α β : Type}

abbrev Reader (ε α : Type) := StateT (List ε) Option α

def symbol : Reader ε ε
  | [] => none
  | e :: rest => some (e,rest)

/-- As many times as told. -/
def repeated (reader : Reader ε α) : Nat → Reader ε (List α)
  | 0 => return []
  | n+1 => do
    let first ← reader
    let others ← repeated reader n
    return first :: others

def Decodes (reader : Reader ε α) (word : List ε) (a : α) : Prop := ∀ rest, reader.run (word ++ rest) = some (a,rest)

namespace Decodes

variable {reader : Reader ε α} {word word' : List ε} {a : α}

theorem pure (a : α) : Decodes (Pure.pure a : Reader ε α) [] a := fun _ => rfl

theorem bind {next : α → Reader ε β} {b : β} (first : Decodes reader word a) (second : Decodes (next a) word' b) :
    Decodes (reader >>= next) (word ++ word') b := by
  intro rest
  rw [StateT.run_bind,List.append_assoc,first]
  exact second rest

theorem map (f : α → β) (decodes : Decodes reader word a) : Decodes (f <$> reader) word (f a) := by
  intro rest
  rw [StateT.run_map,decodes]
  rfl

theorem symbol (e : ε) : Decodes Wire.symbol [e] e := fun _ => rfl

theorem symbols (word : List ε) : Decodes (repeated Wire.symbol word.length) word word := by
  induction word with
  | nil => exact pure []
  | cons e word ih => exact bind (symbol e) (ih.map (e :: ·))

/-- A list is read member by member. -/
theorem repeated {f : β → List ε} {g : β → α} {n : Nat} (l : List β) (length : l.length = n)
    (each : ∀ b ∈ l, Decodes reader (f b) (g b)) : Decodes (Wire.repeated reader n) (l.flatMap f) (l.map g) := by
  subst length
  induction l with
  | nil => exact pure []
  | cons b l ih =>
    have others := ih fun c member => each c (List.mem_cons_of_mem b member)
    exact bind (each b List.mem_cons_self) (others.map (g b :: ·))

theorem whole (decodes : Decodes reader word a) : reader.run word = some (a,[]) := by simpa using decodes []

end Decodes

end Wire
