import Natasha.Lib.Simulation
import Natasha.ParseTree
import Natasha.Scope
import Natasha.Transmit

/-! The meaning of a rules section, given on its text, and the tree walk that computes it.
`process_rules` makes one `int` say that a condition holds, that a body was run and that the
packet is done with; the relations `Agrees` and `Stops` keep these readings apart. -/
namespace Natasha

open Interaction

/-! ## Meaning -/

def Connective.apply : Connective → Bool → Bool → Bool
  | .and => Bool.and
  | .or => Bool.or

/-- What stands to the left of an operand, applied to its value. -/
def joinLeft (left : Option (Bool × Connective)) (value : Bool) : Bool :=
  match left with
  | none => value
  | some (lhs,op) => op.apply lhs value

/-- The value of a condition on a packet. Operators have one precedence and group to the
left, so all that precedes an operator is its left operand, up to the parenthesis. -/
def Cond.holds (m : Mbuf) (left : Option (Bool × Connective)) : Cond → Bool
  | .inNetwork field network =>
    joinLeft left (ipv4InNetwork (rteBeToCpu32 (m.data.load32 (ipv4Header + field.offset))) network)
  | .vlan value => joinLeft left ((m.vlanId.toNat : Int) = value)
  | .paren cond => joinLeft left (cond.holds m none)
  | .op connective lhs rhs => rhs.holds m (some (lhs.holds m left,connective))

def evaluate (f : Mbuf → Bool) : M Bool := do
  let w ← get
  return f w.pkt

section Meaning

variable (dev : Devices) (port : Nat)

/-- An action, and whether it ends the processing. -/
def RuleAction.meaning (stmt : RuleAction) : M Bool := do
  let ret ← stmt.action.invoke dev port
  match stmt with
  | .out _ _ _ | .drop => return true
  | .natRewrite _ => return ret < 0
  | .print => return false

/-- The statements in the order of the text, up to the first that ends the processing. -/
def Rules.meaning : Rules → M Bool
  | .empty => return false
  | .semicolon prev => prev.meaning
  | .action prev stmt => do
    if ← prev.meaning then return true
    stmt.meaning dev port
  | .ifThen prev what body => do
    if ← prev.meaning then return true
    if ← evaluate (what.holds · none) then body.meaning else return false
  | .ifElse prev what body other => do
    if ← prev.meaning then return true
    if ← evaluate (what.holds · none) then body.meaning else other.meaning

end Meaning

/-! ## What may differ -/

/-- A load from a node of the tree. -/
def Op.visitsNode : Op → Prop
  | .read _ .rules => True
  | _ => False

/-- Code in scope does the same whatever was logged before. -/
theorem Scoped.oblivious (inScope : Scoped ports ptrs code) : Matches Op.visitsNode Alike Eq code code := by
  induction inScope with
  | pure a => exact Matches.pure rfl
  | bind first second ih ih' =>
    refine Matches.bind ih ?_
    rintro a _ rfl
    exact ih' a
  | own f unlogged => exact Matches.modifyGet unlogged
  | look f unlogged next each ih =>
    have same : Matches Op.visitsNode Alike (fun w w' => f w = f w') (get : M Worker) get :=
      fun _ _ alike => .done ⟨unlogged _ _ alike,alike⟩
    refine Matches.bind same fun w w' equal => ?_
    rw [equal]
    exact ih _
  | load each ih =>
    refine Matches.bind (Matches.perform Op.appConfig) ?_
    rintro p _ rfl
    exact ih p
  | read known within => exact Matches.perform (Op.read _ _)

/-! ## The tree walk -/

section Walk

variable {dev : Devices} {port : Nat} {p : ConfigPtr} {node what body other left right prev new : Node}
  {f g : Mbuf → Bool} {spec next : M Bool}

def Agrees (ret : Int) (value : Bool) : Prop := 0 ≤ ret ∧ (ret ≠ 0 ↔ value = true)

theorem agrees_toInt (value : Bool) : Agrees value.toInt value := by
  cases value <;> simp [Agrees]

/-- The node of a condition is evaluated without a trace. -/
def Tests (dev : Devices) (port : Nat) (p : ConfigPtr) (node : Node) (f : Mbuf → Bool) : Prop :=
  Matches Op.visitsNode Alike Agrees (processRules dev port p node) (evaluate f)

theorem evaluate_and (f g : Mbuf → Bool) :
    evaluate (fun m => f m && g m) = (do if ← evaluate f then evaluate g else return false) := by
  funext w
  change _ = (if f w.pkt then evaluate g else pure false : M Bool) w
  cases value : f w.pkt
  · exact congrArg Program.done (by simp [value])
  · exact congrArg Program.done (by simp [value])

theorem evaluate_or (f g : Mbuf → Bool) :
    evaluate (fun m => f m || g m) = (do if ← evaluate f then return true else evaluate g) := by
  funext w
  change _ = (if f w.pkt then pure true else evaluate g : M Bool) w
  cases value : f w.pkt
  · exact congrArg Program.done (by simp [value])
  · exact congrArg Program.done (by simp [value])

theorem Tests.and (lhs : Tests dev port p left f) (rhs : Tests dev port p right g) :
    Tests dev port p (.and left right) fun m => f m && g m := by
  unfold Tests
  rw [evaluate_and]
  refine Matches.skip trivial fun _ => Matches.bind lhs fun ret value agrees => ?_
  obtain ⟨nonneg,nonzero⟩ := agrees
  cases value
  · have zero : ret = 0 := by simpa using nonzero
    subst ret
    exact Matches.pure (agrees_toInt false)
  · have positive : ¬ret < 0 ∧ ret ≠ 0 := ⟨by omega,nonzero.2 rfl⟩
    simp only [positive.1,positive.2,if_false,if_true]
    rw [← bind_pure (evaluate g)]
    refine Matches.bind rhs fun ret value agrees => ?_
    simp only [show ¬ret < 0 from not_lt.2 agrees.1,if_false]
    exact Matches.pure agrees

theorem Tests.or (lhs : Tests dev port p left f) (rhs : Tests dev port p right g) :
    Tests dev port p (.or left right) fun m => f m || g m := by
  unfold Tests
  rw [evaluate_or]
  refine Matches.skip trivial fun _ => Matches.bind lhs fun ret value agrees => ?_
  obtain ⟨nonneg,nonzero⟩ := agrees
  cases value
  · have zero : ret = 0 := by simpa using nonzero
    subst ret
    rw [← bind_pure (evaluate g)]
    refine Matches.bind rhs fun ret value agrees => ?_
    simp only [show ¬ret < 0 from not_lt.2 agrees.1,if_false]
    exact Matches.pure agrees
  · have positive : ¬ret < 0 ∧ ret ≠ 0 := ⟨by omega,nonzero.2 rfl⟩
    simp only [positive.1,positive.2,ne_eq,not_false_eq_true,if_false,if_true]
    exact Matches.pure (agrees_toInt true)

theorem Tests.inNetwork (field : AddrField) (network : Ipv4Network) :
    Tests dev port p (inNetworkNode field network) fun m =>
      ipv4InNetwork (rteBeToCpu32 (m.data.load32 (ipv4Header + field.offset))) network := by
  cases field
  all_goals
    refine Matches.skip trivial fun _ => fun w w' alike => .done ⟨?_,?_⟩
    · rw [← alike.pkt]
      exact agrees_toInt _
    · exact (alike.unseen (e := .call _) rfl).unseen rfl

theorem Tests.vlan (value : Int) :
    Tests dev port p (.action (.condVlan value)) fun m => decide ((m.vlanId.toNat : Int) = value) := by
  refine Matches.skip trivial fun _ => fun w w' alike => .done ⟨?_,?_⟩
  · rw [← alike.pkt]
    exact agrees_toInt _
  · exact (alike.unseen (e := .call _) rfl).unseen rfl

/-- What waits to the left of an operand has the value that the text gives it. -/
inductive Waits (dev : Devices) (port : Nat) (p : ConfigPtr) :
    Pending → (Mbuf → Option (Bool × Connective)) → Prop
  | none : Waits dev port p none fun _ => none
  | some {lhs : Node} {value : Mbuf → Bool} (tests : Tests dev port p lhs value) (op : Connective) :
      Waits dev port p (some (lhs,op)) fun m => some (value m,op)

theorem Waits.tests (waits : Waits dev port p pending before) (operand : Tests dev port p node f) :
    Tests dev port p (pending.node node) fun m => joinLeft (before m) (f m) := by
  cases waits with
  | none => exact operand
  | some tests op =>
    cases op with
    | and => exact tests.and operand
    | or => exact tests.or operand

theorem Cond.tests (cond : Cond) (waits : Waits dev port p pending before) :
    Tests dev port p (cond.node pending) fun m => cond.holds m (before m) := by
  induction cond generalizing pending before with
  | inNetwork field network => exact waits.tests (Tests.inNetwork field network)
  | vlan value => exact waits.tests (Tests.vlan value)
  | paren cond ih => exact waits.tests (ih .none)
  | op connective lhs rhs first second => exact second (.some (first waits) connective)

def Stops (ret : Int) (halts : Bool) : Prop := ret < 0 ↔ halts = true

/-- The node of a content does what the content means. -/
def Runs (dev : Devices) (port : Nat) (p : ConfigPtr) (node : Node) (spec : M Bool) : Prop :=
  Matches Op.visitsNode Alike Stops (processRules dev port p node) spec

theorem Runs.null : Runs dev port p .null (pure false) := Matches.pure (by simp [Stops])

/-- A branch, whose result the interpreter reports as `-1` or as `ret`. -/
theorem Runs.branch (branch : Runs dev port p node spec) (nonneg : 0 ≤ ret) :
    Matches Op.visitsNode Alike Stops
      (do if (← processRules dev port p node) < 0 then return -1 else return ret) spec := by
  rw [← bind_pure spec]
  refine Matches.bind branch fun result halts stops => ?_
  split
  case isTrue ended => exact Matches.pure (by simpa [Stops,ended] using stops)
  case isFalse going => exact Matches.pure (by simpa [Stops,going,not_lt.2 nonneg] using stops)

theorem Runs.seqNode (first : Runs dev port p prev spec) (second : Runs dev port p new next)
    (stmt : new ≠ .null) :
    Runs dev port p (Natasha.seqNode prev new) (do if ← spec then return true else next) := by
  unfold Natasha.seqNode
  by_cases empty : prev = .null
  · -- no node was made for an empty content, which ends nothing
    subst prev
    rw [if_pos rfl]
    have zero : ∀ w, Ensures (fun _ _ => True) (processRules dev port p .null) w fun ret _ => ret = 0 :=
      fun _ => rfl
    change Matches _ _ _ (processRules dev port p .null >>= fun _ => processRules dev port p new) _
    refine Matches.bind (Matches.and_ensures first zero) fun ret halts result => ?_
    obtain ⟨stops,rfl⟩ := result
    have going : halts = false := by simpa [Stops] using stops
    subst halts
    exact second
  · simp only [empty,stmt,if_false]
    refine Matches.skip trivial fun _ => Matches.bind first fun ret halts stops => ?_
    cases halts
    · have going : ¬ret < 0 := by simpa [Stops] using stops
      simp only [going,if_false,Bool.false_eq_true]
      exact second.branch (le_refl 0)
    · have ended : ret < 0 := stops.2 rfl
      simp only [ended,if_true]
      exact Matches.pure (by simp [Stops])

theorem Runs.ifElse (cond : Tests dev port p what f) (yes : Runs dev port p body spec)
    (no : Runs dev port p other next) :
    Runs dev port p (.ifElse (.cond what body) other) (do if ← evaluate f then spec else next) := by
  refine Matches.skip trivial fun _ => ?_
  simp only [processRules,bind_assoc]
  refine Matches.skip trivial fun _ => Matches.bind cond fun ret value agrees => ?_
  obtain ⟨nonneg,nonzero⟩ := agrees
  cases value
  · have zero : ret = 0 := by simpa using nonzero
    subst ret
    simpa using no.branch (le_refl 0)
  · -- the body reports 1, so that the else branch is not entered
    have positive : ¬ret < 0 ∧ ret ≠ 0 := ⟨by omega,nonzero.2 rfl⟩
    simp only [positive.1,positive.2,if_false,if_true,bind_assoc]
    rw [← bind_pure spec]
    refine Matches.bind yes fun ret halts stops => ?_
    split
    case isTrue ended => exact Matches.pure (by simpa [Stops,ended] using stops)
    case isFalse going => exact Matches.pure (by simpa [Stops,going] using stops)

theorem ensures_invoke_out (packet : OutPacket) (w : Worker) :
    Ensures (fun _ _ => True) ((Action.out packet).invoke dev port) w fun ret _ => ret < 0 := by
  simp only [Action.invoke,actionOut,storeMac,ensures_bind,ensures_event,ensures_writePkt,ensures_txSend,
    ensures_pure]
  exact ⟨fun _ => by decide,fun _ => by decide⟩

theorem ensures_invoke_print (w : Worker) :
    Ensures (fun _ _ => True) (Action.print.invoke dev port) w fun ret _ => 0 ≤ ret := by
  simp [Action.invoke,actionPrint,load32,load16,load8]

theorem Runs.action (stmt : RuleAction) :
    Runs dev port p (.action stmt.action) (stmt.meaning dev port) := by
  refine Matches.skip trivial fun _ => ?_
  have same := (Scoped.invoke dev port stmt.action : Scoped (fun _ => True) [] _).oblivious
  rw [← bind_pure (stmt.action.invoke dev port)]
  cases stmt with
  | natRewrite field =>
    refine Matches.bind same fun ret ret' equal => Matches.pure ?_
    subst ret'
    exact decide_eq_true_iff.symm
  | out number mac vlan =>
    refine Matches.bind (Matches.and_ensures same (ensures_invoke_out _)) fun ret _ result => Matches.pure ?_
    exact iff_of_true result.2 rfl
  | print =>
    refine Matches.bind (Matches.and_ensures same ensures_invoke_print) fun ret _ result => Matches.pure ?_
    exact iff_of_false (not_lt.2 result.2) (by simp)
  | drop =>
    have ended : ∀ w, Ensures (fun _ _ => True) (Action.drop.invoke dev port) w fun ret _ => ret < 0 :=
      fun _ => by simp [Action.invoke,actionDrop]
    refine Matches.bind (Matches.and_ensures same ended) fun ret _ result => Matches.pure ?_
    exact iff_of_true result.2 rfl

theorem seqNode_null (prev : Node) : seqNode prev .null = prev := by
  unfold seqNode
  split <;> simp_all

theorem Rules.runs (rules : Rules) : Runs dev port p rules.node (rules.meaning dev port) := by
  induction rules with
  | empty => exact Runs.null
  | semicolon prev ih =>
    rw [Rules.node,seqNode_null]
    exact ih
  | action prev stmt ih => exact ih.seqNode (Runs.action stmt) (by simp)
  | ifThen prev what body before inside =>
    exact before.seqNode (Runs.ifElse (what.tests .none) inside Runs.null) (by simp)
  | ifElse prev what body other before inside otherwise =>
    exact before.seqNode (Runs.ifElse (what.tests .none) inside otherwise) (by simp)

end Walk

/-- The parser builds, from any derivation of a rules section, a tree on which `process_rules`
makes the calls of actions and leaves the state that the text means, for any packet and any
configuration that the actions load, and reports a negative value if and only if a
statement ended the processing. -/
theorem rulesSection_means (rules : Rules) :
    ∃ root : Node,
      (∀ config : AppConfig,
        Gives (feedAll ⟨config,.file⟩ rules.sectionTokens) ⟨{ config with rules := root },.file⟩) ∧
      ∀ (dev : Devices) (port : Nat) (p : ConfigPtr),
        Matches Op.visitsNode Alike (fun ret halts => ret < 0 ↔ halts = true)
          (processRules dev port p root) (rules.meaning dev port) :=
  ⟨rules.node,rules.reads_section,fun _ _ _ => rules.runs⟩

end Natasha
