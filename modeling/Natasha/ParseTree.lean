import Natasha.Parser

/-! The parser reads every derivation of a rules section and builds one tree for it. A
derivation of a condition may group its operators in any way; the tree groups them to the
left. Statements leave no node when they are empty. -/
namespace Natasha

/-- The parse returns `a`, or fails for want of memory. -/
def Gives (parse : Parse α) (a : α) : Prop :=
  (∀ oracle, (parse.run.run oracle).1 = some a ∨ (parse.run.run oracle).1 = none) ∧
    parse.run.run allSucceed = (some a,allSucceed)

theorem Parse.run_bind_some {parse : Parse α} (next : α → Parse β)
    (found : parse.run.run oracle = (some a,oracle')) :
    (parse >>= next).run.run oracle = (next a).run.run oracle' := by
  rw [OptionT.run_bind,Option.elimM,StateT.run_bind,found]
  rfl

theorem Parse.run_bind_none {parse : Parse α} (next : α → Parse β)
    (failed : parse.run.run oracle = (none,oracle')) :
    (parse >>= next).run.run oracle = (none,oracle') := by
  rw [OptionT.run_bind,Option.elimM,StateT.run_bind,failed]
  rfl

/-- A sequence that returns was begun with success. -/
theorem Parse.of_bind {parse : Parse α} {next : α → Parse β}
    (result : (parse >>= next).run.run oracle = (some b,oracle')) :
    ∃ a oracle'', parse.run.run oracle = (some a,oracle'') ∧ (next a).run.run oracle'' = (some b,oracle') := by
  rcases outcome : parse.run.run oracle with ⟨_ | a,oracle''⟩
  · have impossible : none = some b := congrArg Prod.fst ((run_bind_none next outcome).symm.trans result)
    contradiction
  · exact ⟨a,oracle'',rfl,(run_bind_some next outcome).symm.trans result⟩

/-- What holds of the result, if the parse does not fail. -/
def Returns (parse : Parse α) (post : α → Prop) : Prop :=
  ∀ oracle a oracle', parse.run.run oracle = (some a,oracle') → post a

namespace Returns

variable {post : α → Prop}

theorem pure (holds : post a) : Returns (Pure.pure a) post := by
  intro oracle b oracle' result
  have same : some a = some b := congrArg Prod.fst result
  exact Option.some.inj same ▸ holds

theorem fail : Returns (failure : Parse α) post := by
  intro oracle a oracle' result
  have impossible : none = some a := congrArg Prod.fst result
  contradiction

theorem bind {parse : Parse β} {next : β → Parse α} {middle : β → Prop} (first : Returns parse middle)
    (second : ∀ b, middle b → Returns (next b) post) : Returns (parse >>= next) post := by
  intro oracle a oracle' result
  obtain ⟨b,oracle'',outcome,rest⟩ := Parse.of_bind result
  exact second b (first oracle b oracle'' outcome) oracle'' a oracle' rest

theorem stop {next : β → Parse α} : Returns ((failure : Parse β) >>= next) post :=
  bind (fail : Returns failure fun _ => False) fun _ impossible => impossible.elim

theorem mono {weaker : α → Prop} (returns : Returns parse post) (implied : ∀ a, post a → weaker a) : Returns parse weaker :=
  fun oracle a oracle' result => implied a (returns oracle a oracle' result)

theorem trivial (parse : Parse α) : Returns parse fun _ => True := fun _ _ _ _ => .intro

theorem after {parse : Parse β} {next : β → Parse α} (each : ∀ b, Returns (next b) post) :
    Returns (parse >>= next) post :=
  (trivial parse).bind fun b _ => each b

/-- A parse that cannot return fails. -/
theorem none {parse : Parse α} (never : Returns parse fun _ => False) (oracle : Nat → Bool) :
    (parse.run.run oracle).1 = .none := by
  rcases outcome : parse.run.run oracle with ⟨_ | a,oracle'⟩
  · rfl
  · exact (never oracle a oracle' outcome).elim

end Returns

namespace Gives

theorem pure (a : α) : Gives (Pure.pure a) a := ⟨fun _ => .inl rfl,rfl⟩

theorem bind {parse : Parse α} {next : α → Parse β} (first : Gives parse a) (second : Gives (next a) b) :
    Gives (parse >>= next) b := by
  refine ⟨fun oracle => ?_,(Parse.run_bind_some next first.2).trans second.2⟩
  rcases outcome : parse.run.run oracle with ⟨_ | found,oracle'⟩
  · exact .inr (congrArg Prod.fst (Parse.run_bind_none next outcome))
  · rcases first.1 oracle with same | failed
    · obtain rfl : found = a := by simpa [outcome] using same
      rw [Parse.run_bind_some next outcome]
      exact second.1 oracle'
    · simp [outcome] at failed

theorem checkPtr : Gives Natasha.checkPtr () := by
  refine ⟨fun oracle => ?_,rfl⟩
  by_cases succeeds : oracle 0
  · exact .inl (if_pos succeeds)
  · exact .inr (if_neg succeeds)

theorem newNode (node : Node) : Gives (Natasha.newNode node) node := checkPtr.bind (pure node)

theorem newNodeWithData (node : Node) : Gives (Natasha.newNodeWithData node) node :=
  checkPtr.bind (checkPtr.bind (pure node))

theorem rulesIf (what body other : Node) :
    Gives (Natasha.rulesIf what body other) (.ifElse (.cond what body) other) :=
  checkPtr.bind (checkPtr.bind (pure _))

end Gives

theorem Gives.returns {parse : Parse α} (gives : Gives parse a) : Returns parse (· = a) := by
  intro oracle b oracle' result
  rcases gives.1 oracle with same | none <;> simp_all

def Reads (p : Parser) (tokens : List Token) (p' : Parser) : Prop := Gives (feedAll p tokens) p'

namespace Reads

theorem nil (p : Parser) : Reads p [] p := Gives.pure p

theorem cons (first : Gives (feed p token) p') (rest : Reads p' tokens p'') :
    Reads p (token :: tokens) p'' := first.bind rest

theorem append (first : Reads p tokens p') (rest : Reads p' tokens' p'') :
    Reads p (tokens ++ tokens') p'' := by
  unfold Reads feedAll
  rw [List.foldlM_append]
  exact first.bind rest

end Reads

/-! ## Conditions -/

def Connective.node : Connective → Node → Node → Node
  | .and => .and
  | .or => .or

/-- What waits to the left of an operand is reduced with it. -/
def Pending.node (pending : Pending) (value : Node) : Node :=
  match pending with
  | none => value
  | some (lhs,op) => op.node lhs value

theorem Gives.reduceCond (pending : Pending) (value : Node) :
    Gives (Natasha.reduceCond pending value) (pending.node value) := by
  rcases pending with _ | ⟨lhs,op⟩
  · exact pure value
  · cases op <;> exact newNode _

def Cond.node (pending : Pending) : Cond → Node
  | .inNetwork field network => pending.node (inNetworkNode field network)
  | .vlan value => pending.node (.action (.condVlan value))
  | .paren cond => pending.node (cond.node none)
  | .op connective lhs rhs => rhs.node (some (lhs.node pending,connective))

section Rules

variable {config : AppConfig} {opens : List Open} {content : Node}

theorem Cond.reads (cond : Cond) (frames : List Pending) (pending : Pending) :
    Reads ⟨config,.rules opens content (.cond frames pending)⟩ cond.tokens
      ⟨config,.rules opens content (.operand frames (cond.node pending))⟩ := by
  induction cond generalizing frames pending with
  | inNetwork field network =>
    refine .cons (Gives.pure _) (.cons (Gives.pure _) (.cons ?_ (.nil _)))
    exact (Gives.newNodeWithData _).bind ((Gives.reduceCond _ _).bind (Gives.pure _))
  | vlan value =>
    refine .cons (Gives.pure _) (.cons ?_ (.nil _))
    exact (Gives.newNodeWithData _).bind ((Gives.reduceCond _ _).bind (Gives.pure _))
  | paren cond ih =>
    refine .cons (Gives.pure _) ((ih (pending :: frames) none).append (.cons ?_ (.nil _)))
    exact (Gives.reduceCond _ _).bind (Gives.pure _)
  | op connective lhs rhs left right =>
    refine (left frames pending).append (.cons ?_ (right _ _))
    cases connective <;> exact Gives.pure _

/-! ## Statements -/

/-- `rules_content` without the allocation. -/
def seqNode (prev new : Node) : Node :=
  if prev = .null then new else if new = .null then prev else .seq prev new

theorem Gives.rulesContent (prev new : Node) :
    Gives (Natasha.rulesContent prev new) (seqNode prev new) := by
  unfold Natasha.rulesContent seqNode
  split
  · exact pure _
  · split
    · exact pure _
    · exact newNode _

theorem Gives.endStmt (prev new : Node) :
    Gives (Natasha.endStmt config opens prev new) ⟨config,.rules opens (seqNode prev new) .stmt⟩ :=
  (rulesContent prev new).bind (pure _)

def Rules.node : Rules → Node
  | .empty => .null
  | .semicolon prev => seqNode prev.node .null
  | .action prev stmt => seqNode prev.node (.action stmt.action)
  | .ifThen prev what body => seqNode prev.node (.ifElse (.cond (what.node none) body.node) .null)
  | .ifElse prev what body other =>
    seqNode prev.node (.ifElse (.cond (what.node none) body.node) other.node)

/-- The content and the mode after the tokens: an `if` that ends the content waits for the
next token, which decides whether there is an `else`. -/
def Rules.parsed : Rules → Node × StmtMode
  | .ifThen prev what body => (prev.node,.afterIf (what.node none) body.node)
  | rules => (rules.node,.stmt)

/-- Any token but `else` is read as after a complete statement. -/
theorem Rules.resume (rules : Rules) (more : token ≠ .tokElse)
    (step : Gives (feedStmt config opens rules.node token) p) :
    Gives (feed ⟨config,.rules opens rules.parsed.1 rules.parsed.2⟩ token) p := by
  cases rules with
  | ifThen prev what body =>
    have reduced : Gives (do
        let prev ← rulesContent prev.node (← rulesIf (what.node none) body.node .null)
        feedStmt config opens prev token) p :=
      (Gives.rulesIf _ _ _).bind ((Gives.rulesContent _ _).bind step)
    cases token <;> first | exact reduced | exact absurd rfl more
  | empty | semicolon | action | ifElse => exact step

theorem Rules.reads_action (rules : Rules) (stmt : RuleAction) :
    Reads ⟨config,.rules opens rules.parsed.1 rules.parsed.2⟩ stmt.tokens
      ⟨config,.rules opens (seqNode rules.node (.action stmt.action)) .stmt⟩ := by
  rcases stmt with field | ⟨port,mac,_ | vlan⟩ | _ | _
  · refine .cons (rules.resume (by simp) (Gives.pure _)) (.cons (Gives.pure _) (.cons ?_ (.nil _)))
    exact (Gives.newNodeWithData _).bind (Gives.endStmt _ _)
  · refine .cons (rules.resume (by simp) (Gives.pure _)) (.cons (Gives.pure _) (.cons (Gives.pure _)
      (.cons (Gives.pure _) (.cons (Gives.pure _) (.cons ?_ (.nil _))))))
    exact (Gives.newNodeWithData _).bind (Gives.endStmt _ _)
  · refine .cons (rules.resume (by simp) (Gives.pure _)) (.cons (Gives.pure _) (.cons (Gives.pure _)
      (.cons (Gives.pure _) (.cons (Gives.pure _) (.cons (Gives.pure _) (.cons (Gives.pure _)
      (.cons ?_ (.nil _))))))))
    exact (Gives.newNodeWithData _).bind (Gives.endStmt _ _)
  · refine .cons (rules.resume (by simp) ?_) (.nil _)
    exact (Gives.newNode _).bind (Gives.endStmt _ _)
  · refine .cons (rules.resume (by simp) ?_) (.nil _)
    exact (Gives.newNode _).bind (Gives.endStmt _ _)

theorem Rules.reads_if (rules : Rules) (what : Cond)
    (body : Reads ⟨config,.rules (.ifBody rules.node (what.node none) :: opens) .null .stmt⟩ inside p) :
    Reads ⟨config,.rules opens rules.parsed.1 rules.parsed.2⟩
      (.tokIf :: .lparen :: (what.tokens ++ .rparen :: .lbrace :: inside)) p :=
  .cons (rules.resume (by simp) (Gives.pure _)) (.cons (Gives.pure _)
    ((what.reads [] none).append (.cons (Gives.pure _) (.cons (Gives.pure _) body))))

theorem Rules.closes (rules : Rules) (prev what : Node) :
    Gives (feed ⟨config,.rules (.ifBody prev what :: opens) rules.parsed.1 rules.parsed.2⟩ .rbrace)
      ⟨config,.rules opens prev (.afterIf what rules.node)⟩ :=
  rules.resume (by simp) (Gives.pure _)

theorem Rules.reads (rules : Rules) (opens : List Open) :
    Reads ⟨config,.rules opens .null .stmt⟩ rules.tokens
      ⟨config,.rules opens rules.parsed.1 rules.parsed.2⟩ := by
  induction rules generalizing opens with
  | empty => exact .nil _
  | semicolon prev ih =>
    exact (ih opens).append (.cons (prev.resume (by simp) (Gives.endStmt _ _)) (.nil _))
  | action prev stmt ih => exact (ih opens).append (prev.reads_action stmt)
  | ifThen prev what body before inside =>
    exact (before opens).append (prev.reads_if what ((inside _).append (.cons (body.closes _ _) (.nil _))))
  | ifElse prev what body other before inside otherwise =>
    refine (before opens).append (prev.reads_if what ((inside _).append (.cons (body.closes _ _)
      (.cons (Gives.pure _) (.cons (Gives.pure _) ((otherwise _).append (.cons ?_ (.nil _))))))))
    exact other.resume (by simp) ((Gives.rulesIf _ _ _).bind (Gives.endStmt _ _))

end Rules

/-- A rules section, wherever it stands in the file. -/
theorem Rules.reads_section (rules : Rules) (config : AppConfig) :
    Reads ⟨config,.file⟩ rules.sectionTokens ⟨{ config with rules := rules.node },.file⟩ :=
  .cons (Gives.pure _) (.cons (Gives.pure _) ((rules.reads []).append
    (.cons (rules.resume (by simp) (Gives.pure _)) (.nil _))))

end Natasha
