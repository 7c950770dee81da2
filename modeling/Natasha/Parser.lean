import Natasha.Syntax

/-! The bison parser with its semantic actions, as the pushdown machine that its tables are:
`feed` shifts one token after the reductions that the token allows. The grammar is LALR(1)
up to chains of `and` and `or`, which `%left` resolves to the reduction. -/
namespace Natasha

/-- `RTE_MAX_ETHPORTS` of the DPDK build. -/
def rteMaxEthports : Int := 32

/-- Semantic actions allocate; `YYERROR` and a syntax error are a failure. -/
abbrev Parse := OptionT Alloc

/-- `rte_zmalloc_socket` and `CHECK_PTR`. -/
def checkPtr : Parse Unit := OptionT.mk (rteZmallocSocket ())

/-! ## Semantic actions -/

def newNode (node : Node) : Parse Node := do
  checkPtr
  return node

def newNodeWithData (node : Node) : Parse Node := do
  checkPtr
  checkPtr
  return node

/-- `rules_content`: no sequence node for the first statement or an empty one. -/
def rulesContent (prev new : Node) : Parse Node :=
  if prev = .null then return new
  else if new = .null then return prev
  else newNode (.seq prev new)

def rulesIf (what body other : Node) : Parse Node := do
  checkPtr
  checkPtr
  return .ifElse (.cond what body) other

def condOp (lhs : Node) (op : Connective) (rhs : Node) : Parse Node :=
  match op with
  | .and => newNode (.and lhs rhs)
  | .or => newNode (.or lhs rhs)

def inNetworkNode (field : AddrField) (network : Ipv4Network) : Node :=
  if field = .src then .action (.condIpv4SrcInNetwork network) else .action (.condIpv4DstInNetwork network)

/-- One `port_ip_addr` cell for each of the extra addresses, last one first. -/
def configPortExtraIps : List (U32 × Int) → Parse (List (U32 × U16))
  | [] => return []
  | (ip,vlan) :: rest => do
    let next ← configPortExtraIps rest
    checkPtr
    return (ip,.ofInt 16 vlan) :: next

/-- `config_port`: the number is compared with `RTE_MAX_ETHPORTS` and indexes an array of
`NATASHA_MAX_ETHPORTS` cells. For another number than 0 and 1 the source stores behind the array
or before it, and what lies there is not modelled. -/
def configPort (config : AppConfig) (port mtu : Int) (first : U32 × Int) (extra : List (U32 × Int)) :
    Parse AppConfig := do
  let nextIps ← configPortExtraIps extra
  if port ≥ rteMaxEthports then
    failure
  checkPtr
  return { config with
    ports := Function.update config.ports port ⟨(first.1,.ofInt 16 first.2) :: nextIps,mtu⟩ }

def configNatRule (config : AppConfig) (fromIp toIp : U32) : Parse AppConfig := do
  let (ret,natLookup) ← (addRulesToTable config.natLookup fromIp toIp : Alloc (Int × NatLookup))
  if ret < 0 then
    failure
  return { config with natLookup := natLookup }

/-! ## The machine -/

/-- The left operand and the operator that wait for a right operand. -/
abbrev Pending := Option (Node × Connective)

/-- A body that is open, with the content around it. -/
inductive Open where
  | ifBody (prev what : Node)
  | elseBody (prev what body : Node)

inductive StmtMode where
  | stmt
  | natRewrite
  | natRewriteField (field : AddrField)
  | out
  | outPort
  | outNumber (port : Int)
  | outMac (port : Int)
  | outMacAddress (port : Int) (mac : Mac)
  | outVlan (port : Int) (mac : Mac)
  | outVlanNumber (port : Int) (mac : Mac) (vlan : Int)
  | tokIf
  /-- An operand is expected; `frames` are the operators that wait outside of parentheses. -/
  | cond (frames : List Pending) (pending : Pending)
  | condField (frames : List Pending) (pending : Pending) (field : AddrField)
  | condIn (frames : List Pending) (pending : Pending) (field : AddrField)
  | condVlan (frames : List Pending) (pending : Pending)
  /-- An operator or a closing parenthesis is expected. -/
  | operand (frames : List Pending) (value : Node)
  | condEnd (what : Node)
  /-- The body of an `if` is closed, and `else` may follow. -/
  | afterIf (what body : Node)
  | tokElse (what body : Node)

inductive Mode where
  | file
  | configSection
  | configLines
  | port
  | portNumber (port : Int)
  | portMtu (port : Int)
  | portMtuNumber (port mtu : Int)
  | portVlan (port mtu : Int) (ips : List (U32 × Int))
  | portVlanNumber (port mtu : Int) (ips : List (U32 × Int)) (vlan : Int)
  | portIp (port mtu : Int) (ips : List (U32 × Int)) (vlan : Int)
  | portAddress (port mtu : Int) (first : U32 × Int) (extra : List (U32 × Int))
  | natRule
  | natRuleFrom (fromIp : U32)
  | natRuleTo (fromIp toIp : U32)
  | rulesSection
  | rules (opens : List Open) (content : Node) (mode : StmtMode)

/-- The parser: the configuration so far and the stack. -/
structure Parser where
  config : AppConfig
  mode : Mode

/-- Reduce an operand with the operator that waits for it. -/
def reduceCond (pending : Pending) (value : Node) : Parse Node :=
  match pending with
  | none => return value
  | some (lhs,op) => condOp lhs op value

def endStmt (config : AppConfig) (opens : List Open) (prev new : Node) : Parse Parser := do
  return ⟨config,.rules opens (← rulesContent prev new) .stmt⟩

/-- A token where a statement or the end of the body is expected. -/
def feedStmt (config : AppConfig) (opens : List Open) (content : Node) : Token → Parse Parser
  | .semicolon => endStmt config opens content .null
  | .tokIf => return ⟨config,.rules opens content .tokIf⟩
  | .tokNatRewrite => return ⟨config,.rules opens content .natRewrite⟩
  | .tokOut => return ⟨config,.rules opens content .out⟩
  | .tokPrint => do
    endStmt config opens content (← newNode (.action .print))
  | .tokDrop => do
    endStmt config opens content (← newNode (.action .drop))
  | .rbrace =>
    match opens with
    | [] => return ⟨{ config with rules := content },.file⟩
    | .ifBody prev what :: opens => return ⟨config,.rules opens prev (.afterIf what content)⟩
    | .elseBody prev what body :: opens => do
      endStmt config opens prev (← rulesIf what body content)
  | _ => failure

def feedRules (config : AppConfig) (opens : List Open) (content : Node) (mode : StmtMode) (token : Token) :
    Parse Parser :=
  let goto (mode : StmtMode) : Parse Parser := return ⟨config,.rules opens content mode⟩
  match mode, token with
  | .stmt, token => feedStmt config opens content token
  | .natRewrite, .natRewriteField field => goto (.natRewriteField field)
  | .natRewriteField field, .semicolon => do
    endStmt config opens content (← newNodeWithData (.action (.natRewrite field)))
  | .out, .tokPort => goto .outPort
  | .outPort, .number port => goto (.outNumber port)
  | .outNumber port, .tokMac => goto (.outMac port)
  | .outMac port, .macAddress mac => goto (.outMacAddress port mac)
  | .outMacAddress port mac, .semicolon => do
    endStmt config opens content (← newNodeWithData (.action (.out ⟨.ofInt 8 port,0,mac⟩)))
  | .outMacAddress port mac, .tokVlan => goto (.outVlan port mac)
  | .outVlan port mac, .number vlan => goto (.outVlanNumber port mac vlan)
  | .outVlanNumber port mac vlan, .semicolon => do
    endStmt config opens content (← newNodeWithData (.action (.out ⟨.ofInt 8 port,vlan,mac⟩)))
  | .tokIf, .lparen => goto (.cond [] none)
  | .cond frames pending, .lparen => goto (.cond (pending :: frames) none)
  | .cond frames pending, .natRewriteField field => goto (.condField frames pending field)
  | .cond frames pending, .tokVlan => goto (.condVlan frames pending)
  | .condField frames pending field, .tokIn => goto (.condIn frames pending field)
  | .condIn frames pending field, .ipv4Network network => do
    let node ← newNodeWithData (inNetworkNode field network)
    goto (.operand frames (← reduceCond pending node))
  | .condVlan frames pending, .number vlan => do
    let node ← newNodeWithData (.action (.condVlan vlan))
    goto (.operand frames (← reduceCond pending node))
  | .operand frames value, .tokAnd => goto (.cond frames (some (value,.and)))
  | .operand frames value, .tokOr => goto (.cond frames (some (value,.or)))
  | .operand [] value, .rparen => goto (.condEnd value)
  | .operand (pending :: frames) value, .rparen => do
    goto (.operand frames (← reduceCond pending value))
  | .condEnd what, .lbrace => return ⟨config,.rules (.ifBody content what :: opens) .null .stmt⟩
  | .afterIf what body, .tokElse => goto (.tokElse what body)
  | .afterIf what body, token => do
    let prev ← rulesContent content (← rulesIf what body .null)
    feedStmt config opens prev token
  | .tokElse what body, .lbrace => return ⟨config,.rules (.elseBody content what body :: opens) .null .stmt⟩
  | _, _ => failure

def feed (p : Parser) (token : Token) : Parse Parser :=
  let goto (mode : Mode) : Parse Parser := return { p with mode := mode }
  match p.mode, token with
  | .file, .configSection => goto .configSection
  | .file, .rulesSection => goto .rulesSection
  | .configSection, .lbrace => goto .configLines
  | .configLines, .semicolon => goto .configLines
  | .configLines, .rbrace => goto .file
  | .configLines, .tokPort => goto .port
  | .configLines, .tokNatRule => goto .natRule
  | .port, .number port => goto (.portNumber port)
  | .portNumber port, .tokMtu => goto (.portMtu port)
  | .portNumber port, .tokVlan => goto (.portVlan port 1500 [])
  | .portNumber port, .tokIp => goto (.portIp port 1500 [] 0)
  | .portMtu port, .number mtu => goto (.portMtuNumber port mtu)
  | .portMtuNumber port mtu, .tokVlan => goto (.portVlan port mtu [])
  | .portMtuNumber port mtu, .tokIp => goto (.portIp port mtu [] 0)
  | .portVlan port mtu ips, .number vlan => goto (.portVlanNumber port mtu ips vlan)
  | .portVlanNumber port mtu ips vlan, .tokIp => goto (.portIp port mtu ips vlan)
  | .portIp port mtu [] vlan, .ipv4Address ip => goto (.portAddress port mtu (ip,vlan) [])
  | .portIp port mtu (first :: extra) vlan, .ipv4Address ip =>
    goto (.portAddress port mtu first (extra ++ [(ip,vlan)]))
  | .portAddress port mtu first extra, .tokVlan => goto (.portVlan port mtu (first :: extra))
  | .portAddress port mtu first extra, .tokIp => goto (.portIp port mtu (first :: extra) 0)
  | .portAddress port mtu first extra, .semicolon => do
    return ⟨← configPort p.config port mtu first extra,.configLines⟩
  | .natRule, .ipv4Address fromIp => goto (.natRuleFrom fromIp)
  | .natRuleFrom fromIp, .ipv4Address toIp => goto (.natRuleTo fromIp toIp)
  | .natRuleTo fromIp toIp, .semicolon => do
    return ⟨← configNatRule p.config fromIp toIp,.configLines⟩
  | .rulesSection, .lbrace => goto (.rules [] .null .stmt)
  | .rules opens content mode, token => feedRules p.config opens content mode token
  | _, _ => failure

def feedAll (p : Parser) (tokens : List Token) : Parse Parser := tokens.foldlM feed p

/-- `yyparse` on a configuration: the end of the file is accepted between sections. -/
def yyparse (config : AppConfig) (tokens : List Token) : Parse AppConfig := do
  let p ← feedAll ⟨config,.file⟩ tokens
  match p.mode with
  | .file => return p.config
  | _ => failure

end Natasha
