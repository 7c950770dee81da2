import Natasha.ParseTree

/-! The parser accepts nothing but sentences of the grammar. What it has read at any point is
spelt by the derivations that are on its stack: complete ones for the nodes, and the tokens of the
statement or line that is begun. -/
namespace Natasha

/-! ## Derivations -/

/-- `[vlan V] ip A`. -/
structure AddressText where
  vlan : Option Int
  ip : U32

/-- A derivation of `config_port`. -/
structure PortText where
  number : Int
  mtu : Option Int
  first : AddressText
  extra : List AddressText

/-- A derivation of one of the `config_lines`. -/
inductive LineText where
  | semicolon
  | port (line : PortText)
  | natRule (fromIp toIp : U32)

/-- A derivation of a section. -/
inductive SectionText where
  | config (lines : List LineText)
  | rules (rules : Rules)

/-- An optional number behind its keyword. -/
def optTokens (keyword : Token) : Option Int → List Token
  | none => []
  | some n => [keyword,.number n]

def AddressText.tokens (address : AddressText) : List Token :=
  optTokens .tokVlan address.vlan ++ [.tokIp,.ipv4Address address.ip]

/-- `port n [mtu M]`. -/
def headTokens (number : Int) (mtu : Option Int) : List Token := .tokPort :: .number number :: optTokens .tokMtu mtu

def PortText.tokens (line : PortText) : List Token :=
  headTokens line.number line.mtu ++ (line.first :: line.extra).flatMap AddressText.tokens ++ [.semicolon]

def LineText.tokens : LineText → List Token
  | .semicolon => [.semicolon]
  | .port line => line.tokens
  | .natRule fromIp toIp => [.tokNatRule,.ipv4Address fromIp,.ipv4Address toIp,.semicolon]

def SectionText.tokens : SectionText → List Token
  | .config lines => .configSection :: .lbrace :: (lines.flatMap LineText.tokens ++ [.rbrace])
  | .rules content => content.sectionTokens

/-! ## What the stack spells -/

/-- A left operand with its operator. -/
def Pending.Spells : Pending → List Token → Prop
  | none, ts => ts = []
  | some (lhs,op), ts => ∃ cond : Cond, lhs = cond.node none ∧ ts = cond.tokens ++ [op.token]

/-- The operators that wait outside of parentheses, the innermost first. -/
def FramesSpell : List Pending → List Token → Prop
  | [], ts => ts = []
  | pending :: frames, ts => ∃ outer inner, FramesSpell frames outer ∧ pending.Spells inner ∧
    ts = outer ++ inner ++ [.lparen]

def ifTokens (what : Cond) (body : Rules) : List Token :=
  .tokIf :: .lparen :: (what.tokens ++ .rparen :: .lbrace :: (body.tokens ++ [.rbrace]))

/-- The statement that is begun. -/
def StmtMode.Spells : StmtMode → List Token → Prop
  | .stmt, ts => ts = []
  | .natRewrite, ts => ts = [.tokNatRewrite]
  | .natRewriteField field, ts => ts = [.tokNatRewrite,.natRewriteField field]
  | .out, ts => ts = [.tokOut]
  | .outPort, ts => ts = [.tokOut,.tokPort]
  | .outNumber port, ts => ts = [.tokOut,.tokPort,.number port]
  | .outMac port, ts => ts = [.tokOut,.tokPort,.number port,.tokMac]
  | .outMacAddress port mac, ts => ts = [.tokOut,.tokPort,.number port,.tokMac,.macAddress mac]
  | .outVlan port mac, ts => ts = [.tokOut,.tokPort,.number port,.tokMac,.macAddress mac,.tokVlan]
  | .outVlanNumber port mac vlan, ts =>
    ts = [.tokOut,.tokPort,.number port,.tokMac,.macAddress mac,.tokVlan,.number vlan]
  | .tokIf, ts => ts = [.tokIf]
  | .cond frames pending, ts => ∃ outer inner, FramesSpell frames outer ∧ pending.Spells inner ∧
    ts = .tokIf :: .lparen :: (outer ++ inner)
  | .condField frames pending field, ts => ∃ outer inner, FramesSpell frames outer ∧ pending.Spells inner ∧
    ts = .tokIf :: .lparen :: (outer ++ inner ++ [.natRewriteField field])
  | .condIn frames pending field, ts => ∃ outer inner, FramesSpell frames outer ∧ pending.Spells inner ∧
    ts = .tokIf :: .lparen :: (outer ++ inner ++ [.natRewriteField field,.tokIn])
  | .condVlan frames pending, ts => ∃ outer inner, FramesSpell frames outer ∧ pending.Spells inner ∧
    ts = .tokIf :: .lparen :: (outer ++ inner ++ [.tokVlan])
  | .operand frames value, ts => ∃ outer, ∃ cond : Cond, FramesSpell frames outer ∧ value = cond.node none ∧
    ts = .tokIf :: .lparen :: (outer ++ cond.tokens)
  | .condEnd what, ts => ∃ cond : Cond, what = cond.node none ∧ ts = .tokIf :: .lparen :: (cond.tokens ++ [.rparen])
  | .afterIf what body, ts => ∃ (cond : Cond) (rules : Rules), what = cond.node none ∧ body = rules.node ∧
    ts = ifTokens cond rules
  | .tokElse what body, ts => ∃ (cond : Cond) (rules : Rules), what = cond.node none ∧ body = rules.node ∧
    ts = ifTokens cond rules ++ [.tokElse]

/-- The bodies that are open, the innermost first. -/
def OpensSpell : List Open → List Token → Prop
  | [], ts => ts = []
  | .ifBody prev what :: opens, ts => ∃ outer, ∃ (before : Rules) (cond : Cond), OpensSpell opens outer ∧
    prev = before.node ∧ what = cond.node none ∧
    ts = outer ++ before.tokens ++ .tokIf :: .lparen :: (cond.tokens ++ [.rparen,.lbrace])
  | .elseBody prev what body :: opens, ts => ∃ outer, ∃ (before : Rules) (cond : Cond) (inside : Rules),
    OpensSpell opens outer ∧ prev = before.node ∧ what = cond.node none ∧ body = inside.node ∧
    ts = outer ++ before.tokens ++ ifTokens cond inside ++ [.tokElse,.lbrace]

/-- Complete sections and, in a section `config`, complete lines. -/
def LinesSpell (ts : List Token) : Prop :=
  ∃ (file : List SectionText) (lines : List LineText),
    ts = file.flatMap SectionText.tokens ++ .configSection :: .lbrace :: lines.flatMap LineText.tokens

/-- A line `port` up to one of its addresses. -/
def PortSpells (number mtu : Int) (ips : List (U32 × Int)) (ts : List Token) : Prop :=
  ∃ before written, ∃ addresses : List AddressText, LinesSpell before ∧ mtu = written.getD 1500 ∧
    ips = addresses.map (fun address => (address.ip,address.vlan.getD 0)) ∧
    ts = before ++ headTokens number written ++ addresses.flatMap AddressText.tokens

def Mode.Spells : Mode → List Token → Prop
  | .file, ts => ∃ file : List SectionText, ts = file.flatMap SectionText.tokens
  | .configSection, ts => ∃ file : List SectionText, ts = file.flatMap SectionText.tokens ++ [.configSection]
  | .configLines, ts => LinesSpell ts
  | .port, ts => ∃ before, LinesSpell before ∧ ts = before ++ [.tokPort]
  | .portNumber n, ts => ∃ before, LinesSpell before ∧ ts = before ++ [.tokPort,.number n]
  | .portMtu n, ts => ∃ before, LinesSpell before ∧ ts = before ++ [.tokPort,.number n,.tokMtu]
  | .portMtuNumber n mtu, ts => ∃ before, LinesSpell before ∧ ts = before ++ headTokens n (some mtu)
  | .portVlan n mtu ips, ts => ∃ before, PortSpells n mtu ips before ∧ ts = before ++ [.tokVlan]
  | .portVlanNumber n mtu ips vlan, ts => ∃ before, PortSpells n mtu ips before ∧
    ts = before ++ [.tokVlan,.number vlan]
  | .portIp n mtu ips vlan, ts => ∃ before written, PortSpells n mtu ips before ∧ vlan = written.getD 0 ∧
    ts = before ++ optTokens .tokVlan written ++ [.tokIp]
  | .portAddress n mtu first extra, ts => PortSpells n mtu (first :: extra) ts
  | .natRule, ts => ∃ before, LinesSpell before ∧ ts = before ++ [.tokNatRule]
  | .natRuleFrom fromIp, ts => ∃ before, LinesSpell before ∧ ts = before ++ [.tokNatRule,.ipv4Address fromIp]
  | .natRuleTo fromIp toIp, ts => ∃ before, LinesSpell before ∧
    ts = before ++ [.tokNatRule,.ipv4Address fromIp,.ipv4Address toIp]
  | .rulesSection, ts => ∃ file : List SectionText, ts = file.flatMap SectionText.tokens ++ [.rulesSection]
  | .rules opens content mode, ts => ∃ (file : List SectionText) (outer : List Token) (rules : Rules)
    (begun : List Token), OpensSpell opens outer ∧ content = rules.node ∧ mode.Spells begun ∧
    ts = file.flatMap SectionText.tokens ++ .rulesSection :: .lbrace :: (outer ++ rules.tokens ++ begun)

/-! ## Rules -/

/-- An operand takes the operator that waits for it. -/
theorem Pending.Spells.join {pending : Pending} {ts : List Token} (spelt : pending.Spells ts) (cond : Cond)
    (operand : ∀ left, cond.node left = left.node (cond.node none)) :
    ∃ joined : Cond, pending.node (cond.node none) = joined.node none ∧ joined.tokens = ts ++ cond.tokens := by
  rcases pending with _ | ⟨lhs,op⟩
  · obtain rfl : ts = [] := spelt
    exact ⟨cond,rfl,rfl⟩
  · obtain ⟨left,rfl,rfl⟩ := spelt
    exact ⟨.op op left cond,(operand _).symm,by simp [Cond.tokens]⟩

section Rules

variable {config : AppConfig} {opens : List Open} {content : Node} {mode : StmtMode} {outer begun : List Token}
  (file : List SectionText) (around : OpensSpell opens outer) (rules : Rules)

include around

/-- A body, after the tokens `ts` of the statement that is begun. -/
theorem rules_spells (spelt : mode.Spells ts) (all : outer ++ rules.tokens ++ ts = whole) :
    (Mode.rules opens rules.node mode).Spells
      (file.flatMap SectionText.tokens ++ .rulesSection :: .lbrace :: whole) :=
  ⟨file,outer,rules,ts,around,rfl,spelt,by rw [all]⟩

/-- An action is complete. -/
theorem action_spells {parse : Parse Parser} (stmt : RuleAction)
    (gives : Gives parse ⟨config,.rules opens (seqNode rules.node (.action stmt.action)) .stmt⟩)
    (all : outer ++ rules.tokens ++ stmt.tokens = whole) :
    Returns parse fun p => p.mode.Spells (file.flatMap SectionText.tokens ++ .rulesSection :: .lbrace :: whole) := by
  refine gives.returns.mono ?_
  rintro _ rfl
  exact rules_spells file around (.action rules stmt) rfl (by simp [Rules.tokens,← all])

theorem feedStmt_spells (token : Token) :
    Returns (feedStmt config opens rules.node token) fun p => p.mode.Spells
      (file.flatMap SectionText.tokens ++ .rulesSection :: .lbrace :: (outer ++ rules.tokens ++ [token])) := by
  unfold feedStmt
  split
  case h_1 =>
    refine (Gives.endStmt _ _).returns.mono ?_
    rintro _ rfl
    exact rules_spells file around (.semicolon rules) rfl (by simp [Rules.tokens])
  case h_2 | h_3 | h_4 => exact .pure (rules_spells file around rules rfl rfl)
  case h_5 =>
    exact action_spells file around rules .print ((Gives.newNode _).bind (Gives.endStmt _ _)) rfl
  case h_6 =>
    exact action_spells file around rules .drop ((Gives.newNode _).bind (Gives.endStmt _ _)) rfl
  case h_7 =>
    split
    case h_1 =>
      obtain rfl : outer = [] := around
      exact .pure ⟨file ++ [.rules rules],by simp [SectionText.tokens,Rules.sectionTokens]⟩
    case h_2 =>
      obtain ⟨outer,before,cond,around,rfl,rfl,rfl⟩ := around
      exact .pure (rules_spells file around before ⟨cond,rules,rfl,rfl,rfl⟩ (by simp [ifTokens]))
    case h_3 =>
      obtain ⟨outer,before,cond,inside,around,rfl,rfl,rfl,rfl⟩ := around
      refine ((Gives.rulesIf _ _ _).bind (Gives.endStmt _ _)).returns.mono ?_
      rintro _ rfl
      exact rules_spells file around (.ifElse before cond inside rules) rfl (by simp [Rules.tokens,ifTokens])
  case h_8 => exact .fail

/-- An operand is complete. -/
theorem operand_spells {frames : List Pending} {pending : Pending} {frame inner : List Token} (waiting : FramesSpell frames frame)
    (waits : pending.Spells inner) (cond : Cond) (operand : ∀ left, cond.node left = left.node (cond.node none))
    (all : outer ++ rules.tokens ++ .tokIf :: .lparen :: (frame ++ (inner ++ cond.tokens)) = whole) :
    Returns (do
        return (⟨config,.rules opens rules.node (.operand frames (← reduceCond pending (cond.node none)))⟩ : Parser))
      fun p => p.mode.Spells (file.flatMap SectionText.tokens ++ .rulesSection :: .lbrace :: whole) := by
  refine (Gives.reduceCond pending (cond.node none)).returns.bind ?_
  rintro _ rfl
  obtain ⟨joined,value,tokens⟩ := waits.join cond operand
  exact .pure (rules_spells file around rules ⟨frame,joined,waiting,value,rfl⟩ (by rw [tokens,all]))

theorem feedRules_spells (spelt : mode.Spells begun) (token : Token) :
    Returns (feedRules config opens rules.node mode token) fun p => p.mode.Spells
      (file.flatMap SectionText.tokens ++ .rulesSection :: .lbrace :: (outer ++ rules.tokens ++ (begun ++ [token]))) := by
  unfold feedRules
  split
  case h_1 =>
    obtain rfl : begun = [] := spelt
    exact feedStmt_spells file around rules token
  case h_3 field =>
    obtain rfl : begun = _ := spelt
    exact action_spells file around rules (.natRewrite field) ((Gives.newNodeWithData _).bind (Gives.endStmt _ _)) rfl
  case h_8 port mac =>
    obtain rfl : begun = _ := spelt
    exact action_spells file around rules (.out port mac none) ((Gives.newNodeWithData _).bind (Gives.endStmt _ _)) rfl
  case h_11 port mac vlan =>
    obtain rfl : begun = _ := spelt
    exact action_spells file around rules (.out port mac (some vlan))
      ((Gives.newNodeWithData _).bind (Gives.endStmt _ _)) rfl
  case h_12 =>
    obtain rfl : begun = _ := spelt
    exact .pure (rules_spells file around rules ⟨[],[],rfl,rfl,rfl⟩ rfl)
  case h_13 frames pending =>
    obtain ⟨frame,inner,frames,waits,rfl⟩ := spelt
    exact .pure (rules_spells file around rules ⟨_,[],⟨frame,inner,frames,waits,rfl⟩,rfl,rfl⟩ (by simp))
  case h_14 | h_15 | h_16 =>
    obtain ⟨frame,inner,frames,waits,rfl⟩ := spelt
    exact .pure (rules_spells file around rules ⟨frame,inner,frames,waits,rfl⟩ (by simp))
  case h_17 field network =>
    obtain ⟨frame,inner,frames,waits,rfl⟩ := spelt
    refine (Gives.newNodeWithData _).returns.bind ?_
    rintro _ rfl
    exact operand_spells file around rules frames waits (.inNetwork field network) (fun _ => rfl) (by simp [Cond.tokens])
  case h_18 vlan =>
    obtain ⟨frame,inner,frames,waits,rfl⟩ := spelt
    refine (Gives.newNodeWithData _).returns.bind ?_
    rintro _ rfl
    exact operand_spells file around rules frames waits (.vlan vlan) (fun _ => rfl) (by simp [Cond.tokens])
  case h_19 | h_20 =>
    obtain ⟨frame,cond,frames,rfl,rfl⟩ := spelt
    exact .pure (rules_spells file around rules ⟨frame,_,frames,⟨cond,rfl,rfl⟩,rfl⟩ (by simp [Connective.token]))
  case h_21 =>
    obtain ⟨frame,cond,none,rfl,rfl⟩ := spelt
    obtain rfl : frame = [] := none
    exact .pure (rules_spells file around rules ⟨cond,rfl,rfl⟩ (by simp))
  case h_22 =>
    obtain ⟨_,cond,⟨frame,inner,frames,waits,rfl⟩,rfl,rfl⟩ := spelt
    exact operand_spells file around rules frames waits (.paren cond) (fun _ => rfl) (by simp [Cond.tokens])
  case h_23 =>
    obtain ⟨cond,rfl,rfl⟩ := spelt
    have opened : OpensSpell (.ifBody rules.node (cond.node none) :: opens) _ := ⟨outer,rules,cond,around,rfl,rfl,rfl⟩
    exact .pure (rules_spells file opened .empty rfl (by simp [Rules.tokens]))
  case h_24 =>
    obtain ⟨cond,inside,rfl,rfl,rfl⟩ := spelt
    exact .pure (rules_spells file around rules ⟨cond,inside,rfl,rfl,rfl⟩ rfl)
  case h_25 token _ =>
    obtain ⟨cond,inside,rfl,rfl,rfl⟩ := spelt
    refine (Gives.rulesIf _ _ _).returns.bind ?_
    rintro _ rfl
    refine (Gives.rulesContent _ _).returns.bind ?_
    rintro _ rfl
    have all : outer ++ rules.tokens ++ (ifTokens cond inside ++ [token]) =
        outer ++ (rules.ifThen cond inside).tokens ++ [token] := by simp [Rules.tokens,ifTokens]
    rw [all]
    exact feedStmt_spells file around (.ifThen rules cond inside) token
  case h_26 =>
    obtain ⟨cond,inside,rfl,rfl,rfl⟩ := spelt
    have opened : OpensSpell (.elseBody rules.node (cond.node none) inside.node :: opens) _ :=
      ⟨outer,rules,cond,inside,around,rfl,rfl,rfl,rfl⟩
    exact .pure (rules_spells file opened .empty rfl (by simp [Rules.tokens]))
  case h_27 => exact .fail
  all_goals
    obtain rfl : begun = _ := spelt
    exact .pure (rules_spells file around rules rfl rfl)

end Rules

/-! ## The file -/

section Lines

variable {number mtu : Int} {ips : List (U32 × Int)} {ts : List Token}

/-- One more line. -/
theorem LinesSpell.line (lines : LinesSpell ts) (line : LineText) (all : ts ++ line.tokens = whole) : LinesSpell whole := by
  obtain ⟨file,before,rfl⟩ := lines
  exact ⟨file,before ++ [line],by simp [← all]⟩

theorem LinesSpell.head (lines : LinesSpell before) (written : Option Int)
    (all : before ++ headTokens number written = ts) : PortSpells number (written.getD 1500) [] ts :=
  ⟨before,written,[],lines,rfl,rfl,by simp [← all]⟩

/-- One more address of the line. -/
theorem PortSpells.address (port : PortSpells number mtu ips ts) (address : AddressText)
    (all : ts ++ address.tokens = whole) :
    PortSpells number mtu (ips ++ [(address.ip,address.vlan.getD 0)]) whole := by
  obtain ⟨before,written,addresses,lines,rfl,rfl,rfl⟩ := port
  exact ⟨before,written,addresses ++ [address],lines,rfl,by simp,by simp [← all]⟩

/-- The line ends. -/
theorem PortSpells.close {first : U32 × Int} {extra : List (U32 × Int)}
    (port : PortSpells number mtu (first :: extra) ts) : LinesSpell (ts ++ [.semicolon]) := by
  obtain ⟨before,written,addresses,lines,rfl,pairs,rfl⟩ := port
  rcases addresses with _ | ⟨address,addresses⟩
  · cases pairs
  · exact lines.line (.port ⟨number,written,address,addresses⟩) (by simp [LineText.tokens,PortText.tokens])

end Lines

theorem feed_spells {p : Parser} {ts : List Token} (spelt : p.mode.Spells ts) (token : Token) :
    Returns (feed p token) fun p' => p'.mode.Spells (ts ++ [token]) := by
  obtain ⟨config,mode⟩ := p
  unfold feed
  dsimp only at spelt ⊢
  split
  case h_1 | h_2 =>
    obtain ⟨file,rfl⟩ := spelt
    exact .pure ⟨file,rfl⟩
  case h_3 =>
    obtain ⟨file,rfl⟩ := spelt
    exact .pure ⟨file,[],by simp⟩
  case h_4 => exact .pure (LinesSpell.line spelt .semicolon rfl)
  case h_5 =>
    obtain ⟨file,lines,rfl⟩ := spelt
    exact .pure ⟨file ++ [.config lines],by simp [SectionText.tokens]⟩
  case h_6 | h_7 => exact .pure ⟨_,spelt,rfl⟩
  case h_8 | h_9 | h_12 | h_22 | h_23 =>
    obtain ⟨before,lines,rfl⟩ := spelt
    exact .pure ⟨before,lines,by simp [headTokens,optTokens]⟩
  case h_10 =>
    obtain ⟨before,lines,rfl⟩ := spelt
    exact .pure ⟨_,lines.head none rfl,rfl⟩
  case h_11 =>
    obtain ⟨before,lines,rfl⟩ := spelt
    exact .pure ⟨_,none,lines.head none rfl,rfl,by simp [headTokens,optTokens]⟩
  case h_13 port mtu =>
    obtain ⟨before,lines,rfl⟩ := spelt
    exact .pure ⟨_,lines.head (some mtu) rfl,rfl⟩
  case h_14 port mtu =>
    obtain ⟨before,lines,rfl⟩ := spelt
    exact .pure ⟨_,none,lines.head (some mtu) rfl,rfl,by simp [optTokens]⟩
  case h_15 =>
    obtain ⟨before,port,rfl⟩ := spelt
    exact .pure ⟨before,port,by simp⟩
  case h_16 port mtu ips vlan =>
    obtain ⟨before,port,rfl⟩ := spelt
    exact .pure ⟨before,some vlan,port,rfl,rfl⟩
  case h_17 ip | h_18 ip =>
    obtain ⟨before,written,port,rfl,rfl⟩ := spelt
    exact .pure (port.address ⟨written,ip⟩ (by simp [AddressText.tokens]))
  case h_19 => exact .pure ⟨ts,spelt,rfl⟩
  case h_20 => exact .pure ⟨ts,none,spelt,rfl,by simp [optTokens]⟩
  case h_21 => exact .after fun _ => .pure spelt.close
  case h_24 fromIp toIp =>
    obtain ⟨before,lines,rfl⟩ := spelt
    exact .after fun _ => .pure (lines.line (.natRule fromIp toIp) (by simp [LineText.tokens]))
  case h_25 =>
    obtain ⟨file,rfl⟩ := spelt
    exact .pure ⟨file,[],.empty,[],rfl,rfl,rfl,by simp [Rules.tokens]⟩
  case h_26 opens content mode =>
    obtain ⟨file,outer,rules,begun,around,rfl,spelt,rfl⟩ := spelt
    have read : Returns (feedRules config opens rules.node mode token) _ := feedRules_spells file around rules spelt token
    simpa using read
  case h_27 => exact .fail

/-- The text that is read is the one that the stack spells. -/
theorem feedAll_spells {p : Parser} {ts : List Token} (spelt : p.mode.Spells ts) (tokens : List Token) :
    Returns (feedAll p tokens) fun p' => p'.mode.Spells (ts ++ tokens) := by
  induction tokens generalizing p ts with
  | nil => exact .pure (by simpa using spelt)
  | cons token tokens ih =>
    refine (feed_spells spelt token).bind fun middle spelt => ?_
    have rest : Returns (feedAll middle tokens) _ := ih spelt
    rw [List.append_assoc] at rest
    exact rest

/-- A text that is accepted has a derivation. -/
theorem yyparse_derivation (config : AppConfig) (tokens : List Token) :
    Returns (yyparse config tokens) fun _ => ∃ file : List SectionText, tokens = file.flatMap SectionText.tokens := by
  have start : Mode.file.Spells [] := ⟨[],rfl⟩
  refine (feedAll_spells (p := ⟨config,.file⟩) start tokens).bind fun p spelt => ?_
  obtain ⟨config,mode⟩ := p
  dsimp only at spelt ⊢
  split
  · exact .pure spelt
  · exact .fail

/-! ## Other numbers

The grammar does not look at the numbers. -/

section Lift

variable {f : Int → Int}

/-- The token with its number changed, if it has one. -/
def Token.mapNumber (f : Int → Int) : Token → Token
  | .number n => .number (f n)
  | token => token

def Cond.mapNumbers (f : Int → Int) : Cond → Cond
  | .inNetwork field network => .inNetwork field network
  | .vlan value => .vlan (f value)
  | .paren cond => .paren (cond.mapNumbers f)
  | .op connective lhs rhs => .op connective (lhs.mapNumbers f) (rhs.mapNumbers f)

def RuleAction.mapNumbers (f : Int → Int) : RuleAction → RuleAction
  | .out port mac vlan => .out (f port) mac (vlan.map f)
  | stmt => stmt

def Rules.mapNumbers (f : Int → Int) : Rules → Rules
  | .empty => .empty
  | .semicolon prev => .semicolon (prev.mapNumbers f)
  | .action prev stmt => .action (prev.mapNumbers f) (stmt.mapNumbers f)
  | .ifThen prev cond body => .ifThen (prev.mapNumbers f) (cond.mapNumbers f) (body.mapNumbers f)
  | .ifElse prev cond body other =>
    .ifElse (prev.mapNumbers f) (cond.mapNumbers f) (body.mapNumbers f) (other.mapNumbers f)

def AddressText.mapNumbers (f : Int → Int) (address : AddressText) : AddressText := ⟨address.vlan.map f,address.ip⟩

def PortText.mapNumbers (f : Int → Int) (line : PortText) : PortText :=
  ⟨f line.number,line.mtu.map f,line.first.mapNumbers f,line.extra.map (AddressText.mapNumbers f)⟩

@[simp] theorem Token.mapNumber_eq {token token' : Token} (plain : ∀ n, token' ≠ .number n) :
    token.mapNumber f = token' ↔ token = token' := by
  cases token with
  | number n => constructor <;> rintro rfl <;> exact absurd rfl (plain _)
  | _ => rfl

@[simp] theorem Token.mapNumber_eq_number {token : Token} {n : Int} :
    token.mapNumber f = .number n ↔ ∃ m, token = .number m ∧ f m = n := by
  cases token <;> simp [Token.mapNumber]

@[simp] theorem optTokens_mapNumber {keyword : Token} (plain : ∀ n, keyword ≠ .number n) (opt : Option Int) :
    (optTokens keyword opt).map (Token.mapNumber f) = optTokens keyword (opt.map f) := by
  have same : keyword.mapNumber f = keyword := (Token.mapNumber_eq plain).mpr rfl
  cases opt with
  | none => rfl
  | some n =>
    show [keyword.mapNumber f,_] = _
    rw [same]
    rfl

theorem Cond.tokens_mapNumbers (cond : Cond) : (cond.mapNumbers f).tokens = cond.tokens.map (Token.mapNumber f) := by
  induction cond with
  | op connective lhs rhs left right => cases connective <;> simp [mapNumbers,tokens,left,right,Connective.token,Token.mapNumber]
  | paren cond ih => simp [mapNumbers,tokens,ih,Token.mapNumber]
  | _ => rfl

theorem RuleAction.tokens_mapNumbers (stmt : RuleAction) :
    (stmt.mapNumbers f).tokens = stmt.tokens.map (Token.mapNumber f) := by
  rcases stmt with field | ⟨port,mac,_ | vlan⟩ | _ | _ <;> rfl

theorem Rules.tokens_mapNumbers (rules : Rules) :
    (rules.mapNumbers f).tokens = rules.tokens.map (Token.mapNumber f) := by
  induction rules with
  | empty => rfl
  | semicolon prev ih => simp [mapNumbers,tokens,ih,Token.mapNumber]
  | action prev stmt ih => simp [mapNumbers,tokens,ih,RuleAction.tokens_mapNumbers]
  | ifThen prev cond body before inside =>
    simp [mapNumbers,tokens,before,inside,Cond.tokens_mapNumbers,Token.mapNumber]
  | ifElse prev cond body other before inside otherwise =>
    simp [mapNumbers,tokens,before,inside,otherwise,Cond.tokens_mapNumbers,Token.mapNumber]

theorem Rules.sectionTokens_mapNumbers (rules : Rules) :
    (rules.mapNumbers f).sectionTokens = rules.sectionTokens.map (Token.mapNumber f) := by
  simp [sectionTokens,tokens_mapNumbers,Token.mapNumber]

theorem AddressText.tokens_mapNumbers (address : AddressText) :
    (address.mapNumbers f).tokens = address.tokens.map (Token.mapNumber f) := by
  simp [mapNumbers,tokens,Token.mapNumber]

theorem PortText.tokens_mapNumbers (line : PortText) :
    (line.mapNumbers f).tokens = line.tokens.map (Token.mapNumber f) := by
  have extra : (line.extra.map (AddressText.mapNumbers f)).flatMap AddressText.tokens =
      (line.extra.flatMap AddressText.tokens).map (Token.mapNumber f) := by
    simp only [List.flatMap_map,List.map_flatMap,AddressText.tokens_mapNumbers]
  simp [mapNumbers,tokens,headTokens,extra,AddressText.tokens_mapNumbers,Token.mapNumber]

/-- The text is one of `words` when it is so with its numbers changed. -/
def Lifts (f : Int → Int) (words : α → List Token) (a : α) : Prop :=
  ∀ ts : List Token, ts.map (Token.mapNumber f) = words a → ∃ exact, words exact = ts

theorem Lifts.flatMap {words : α → List Token} (each : ∀ a, Lifts f words a) (l : List α) :
    Lifts f (List.flatMap words) l := by
  induction l with
  | nil =>
    intro ts same
    exact ⟨[],(List.map_eq_nil_iff.mp same).symm⟩
  | cons a l ih =>
    intro ts same
    rw [List.flatMap_cons] at same
    obtain ⟨first,rest,rfl,head,tail⟩ := List.map_eq_append_iff.mp same
    obtain ⟨a,rfl⟩ := each a first head
    obtain ⟨l,rfl⟩ := ih rest tail
    exact ⟨a :: l,rfl⟩

theorem Connective.lift (connective : Connective) {token : Token} :
    token.mapNumber f = connective.token ↔ token = connective.token := by
  cases connective <;> simp [Connective.token]

theorem Cond.lift (cond : Cond) : Lifts f Cond.tokens cond := by
  induction cond with
  | inNetwork field network =>
    intro ts same
    simp [Cond.tokens,List.map_eq_cons_iff] at same
    exact ⟨.inNetwork field network,same.symm⟩
  | vlan value =>
    intro ts same
    simp [Cond.tokens,List.map_eq_cons_iff] at same
    obtain ⟨n,rfl,-⟩ := same
    exact ⟨.vlan n,rfl⟩
  | paren cond ih =>
    intro ts same
    simp [Cond.tokens,List.map_eq_cons_iff,List.map_eq_append_iff] at same
    obtain ⟨inside,rfl,same⟩ := same
    obtain ⟨cond,rfl⟩ := ih inside same
    exact ⟨.paren cond,rfl⟩
  | op connective lhs rhs left right =>
    intro ts same
    simp [Cond.tokens,List.map_eq_cons_iff,List.map_eq_append_iff,Connective.lift] at same
    obtain ⟨first,second,rfl,before,after⟩ := same
    obtain ⟨lhs,rfl⟩ := left first before
    obtain ⟨rhs,rfl⟩ := right second after
    exact ⟨.op connective lhs rhs,rfl⟩

theorem RuleAction.lift (stmt : RuleAction) : Lifts f RuleAction.tokens stmt := by
  intro ts same
  rcases stmt with field | ⟨port,mac,_ | vlan⟩ | _ | _
  · simp [RuleAction.tokens,List.map_eq_cons_iff] at same
    exact ⟨.natRewrite field,same.symm⟩
  · simp [RuleAction.tokens,List.map_eq_cons_iff] at same
    obtain ⟨n,rfl,-⟩ := same
    exact ⟨.out n mac none,rfl⟩
  · simp [RuleAction.tokens,List.map_eq_cons_iff] at same
    obtain ⟨v,n,rfl,-⟩ := same
    exact ⟨.out n mac (some v),rfl⟩
  · simp [RuleAction.tokens,List.map_eq_cons_iff] at same
    exact ⟨.print,same.symm⟩
  · simp [RuleAction.tokens,List.map_eq_cons_iff] at same
    exact ⟨.drop,same.symm⟩

theorem Rules.lift (rules : Rules) : Lifts f Rules.tokens rules := by
  induction rules with
  | empty =>
    intro ts same
    exact ⟨.empty,(List.map_eq_nil_iff.mp same).symm⟩
  | semicolon prev ih =>
    intro ts same
    simp [Rules.tokens,List.map_eq_cons_iff,List.map_eq_append_iff] at same
    obtain ⟨before,rfl,same⟩ := same
    obtain ⟨prev,rfl⟩ := ih before same
    exact ⟨.semicolon prev,rfl⟩
  | action prev stmt ih =>
    intro ts same
    obtain ⟨before,written,rfl,same,last⟩ := List.map_eq_append_iff.mp same
    obtain ⟨prev,rfl⟩ := ih before same
    obtain ⟨stmt,rfl⟩ := stmt.lift written last
    exact ⟨.action prev stmt,rfl⟩
  | ifThen prev cond body before inside =>
    intro ts same
    simp [Rules.tokens,List.map_eq_cons_iff,List.map_eq_append_iff] at same
    obtain ⟨first,test,inner,rfl,prev',cond',body'⟩ := same
    obtain ⟨prev,rfl⟩ := before first prev'
    obtain ⟨cond,rfl⟩ := cond.lift test cond'
    obtain ⟨body,rfl⟩ := inside inner body'
    exact ⟨.ifThen prev cond body,rfl⟩
  | ifElse prev cond body other before inside otherwise =>
    intro ts same
    simp [Rules.tokens,List.map_eq_cons_iff,List.map_eq_append_iff] at same
    obtain ⟨first,test,inner,last,rfl,prev',cond',body',other'⟩ := same
    obtain ⟨prev,rfl⟩ := before first prev'
    obtain ⟨cond,rfl⟩ := cond.lift test cond'
    obtain ⟨body,rfl⟩ := inside inner body'
    obtain ⟨other,rfl⟩ := otherwise last other'
    exact ⟨.ifElse prev cond body other,rfl⟩

theorem optTokens_lift {keyword : Token} (plain : ∀ n, keyword ≠ .number n) (opt : Option Int) :
    Lifts f (optTokens keyword) opt := by
  intro ts same
  cases opt with
  | none => exact ⟨none,(List.map_eq_nil_iff.mp same).symm⟩
  | some n =>
    simp [optTokens,List.map_eq_cons_iff,plain] at same
    obtain ⟨n,rfl,-⟩ := same
    exact ⟨some n,rfl⟩

theorem AddressText.lift (address : AddressText) : Lifts f AddressText.tokens address := by
  intro ts same
  simp [AddressText.tokens,List.map_eq_cons_iff,List.map_eq_append_iff] at same
  obtain ⟨written,rfl,same⟩ := same
  obtain ⟨vlan,rfl⟩ := optTokens_lift (by simp) address.vlan written same
  exact ⟨⟨vlan,address.ip⟩,rfl⟩

theorem PortText.lift (line : PortText) : Lifts f PortText.tokens line := by
  intro ts same
  simp [PortText.tokens,headTokens,List.map_eq_cons_iff,List.map_eq_append_iff] at same
  obtain ⟨written,first,rest,n,rfl,-,mtu',first',rest'⟩ := same
  obtain ⟨mtu,rfl⟩ := optTokens_lift (by simp) line.mtu written mtu'
  obtain ⟨address,rfl⟩ := line.first.lift first first'
  obtain ⟨extra,rfl⟩ := Lifts.flatMap AddressText.lift line.extra rest rest'
  exact ⟨⟨n,mtu,address,extra⟩,by simp [PortText.tokens,headTokens]⟩

theorem LineText.lift (line : LineText) : Lifts f LineText.tokens line := by
  intro ts same
  cases line with
  | semicolon =>
    simp [LineText.tokens,List.map_eq_cons_iff] at same
    exact ⟨.semicolon,same.symm⟩
  | port line =>
    obtain ⟨line,rfl⟩ := line.lift ts same
    exact ⟨.port line,rfl⟩
  | natRule fromIp toIp =>
    simp [LineText.tokens,List.map_eq_cons_iff] at same
    exact ⟨.natRule fromIp toIp,same.symm⟩

theorem SectionText.lift (text : SectionText) : Lifts f SectionText.tokens text := by
  intro ts same
  cases text with
  | config lines =>
    simp [SectionText.tokens,List.map_eq_cons_iff,List.map_eq_append_iff] at same
    obtain ⟨inside,rfl,same⟩ := same
    obtain ⟨lines,rfl⟩ := Lifts.flatMap LineText.lift lines inside same
    exact ⟨.config lines,rfl⟩
  | rules rules =>
    simp [SectionText.tokens,Rules.sectionTokens,List.map_eq_cons_iff,List.map_eq_append_iff] at same
    obtain ⟨inside,rfl,same⟩ := same
    obtain ⟨rules,rfl⟩ := rules.lift inside same
    exact ⟨.rules rules,rfl⟩

end Lift

/-- A text that is accepted has a derivation with the numbers that it had before a change. -/
theorem yyparse_derivation_exact (config : AppConfig) (exact : List Token) :
    Returns (yyparse config (exact.map (Token.mapNumber f))) fun _ =>
      ∃ file : List SectionText, exact = file.flatMap SectionText.tokens := by
  refine (yyparse_derivation config _).mono ?_
  rintro _ ⟨file,same⟩
  obtain ⟨file,rfl⟩ := Lifts.flatMap SectionText.lift file exact same
  exact ⟨file,rfl⟩

end Natasha
