import Natasha.Config

/-! The tokens of a configuration and the parse trees of the rules section. A tree is one
derivation of the grammar: the grammar of conditions is ambiguous, so several trees can
have the same tokens. -/
namespace Natasha

/-- What `yylex` returns, with the semantic value. -/
inductive Token where
  | oops
  | configSection
  | rulesSection
  | semicolon
  | lbrace
  | rbrace
  | lparen
  | rparen
  | tokPort
  | tokIp
  | tokMtu
  | tokVlan
  | tokNatRule
  | tokNatRewrite
  | tokIf
  | tokElse
  | tokAnd
  | tokOr
  | tokIn
  | tokOut
  | tokMac
  | tokPrint
  | tokDrop
  | number (value : Int)
  | ipv4Address (address : U32)
  | ipv4Network (network : Ipv4Network)
  | natRewriteField (field : AddrField)
  | macAddress (mac : Mac)

inductive Connective where
  | and
  | or
  deriving DecidableEq, Repr

def Connective.token : Connective → Token
  | .and => .tokAnd
  | .or => .tokOr

/-- A derivation of `cond`. -/
inductive Cond where
  | inNetwork (field : AddrField) (network : Ipv4Network)
  | vlan (value : Int)
  | paren (cond : Cond)
  | op (connective : Connective) (lhs rhs : Cond)

def Cond.tokens : Cond → List Token
  | .inNetwork field network => [.natRewriteField field,.tokIn,.ipv4Network network]
  | .vlan value => [.tokVlan,.number value]
  | .paren cond => .lparen :: (cond.tokens ++ [.rparen])
  | .op connective lhs rhs => lhs.tokens ++ connective.token :: rhs.tokens

/-- A derivation of `action`. -/
inductive RuleAction where
  | natRewrite (field : AddrField)
  | out (port : Int) (mac : Mac) (vlan : Option Int)
  | print
  | drop

/-- `print` and `drop` end without `;`: one that follows is an empty statement. -/
def RuleAction.tokens : RuleAction → List Token
  | .natRewrite field => [.tokNatRewrite,.natRewriteField field,.semicolon]
  | .out port mac none => [.tokOut,.tokPort,.number port,.tokMac,.macAddress mac,.semicolon]
  | .out port mac (some vlan) =>
    [.tokOut,.tokPort,.number port,.tokMac,.macAddress mac,.tokVlan,.number vlan,.semicolon]
  | .print => [.tokPrint]
  | .drop => [.tokDrop]

def RuleAction.action : RuleAction → Action
  | .natRewrite field => .natRewrite field
  | .out port mac vlan => .out ⟨.ofInt 8 port,vlan.getD 0,mac⟩
  | .print => .print
  | .drop => .drop

/-- A derivation of `rules_content`: a content and one more statement. -/
inductive Rules where
  | empty
  | semicolon (prev : Rules)
  | action (prev : Rules) (stmt : RuleAction)
  | ifThen (prev : Rules) (cond : Cond) (body : Rules)
  | ifElse (prev : Rules) (cond : Cond) (body other : Rules)

def Rules.tokens : Rules → List Token
  | .empty => []
  | .semicolon prev => prev.tokens ++ [.semicolon]
  | .action prev stmt => prev.tokens ++ stmt.tokens
  | .ifThen prev cond body =>
    prev.tokens ++ .tokIf :: .lparen :: (cond.tokens ++ .rparen :: .lbrace :: (body.tokens ++ [.rbrace]))
  | .ifElse prev cond body other =>
    prev.tokens ++ .tokIf :: .lparen :: (cond.tokens ++ .rparen :: .lbrace :: (body.tokens ++
      .rbrace :: .tokElse :: .lbrace :: (other.tokens ++ [.rbrace])))

def Rules.sectionTokens (rules : Rules) : List Token :=
  .rulesSection :: .lbrace :: (rules.tokens ++ [.rbrace])

end Natasha
