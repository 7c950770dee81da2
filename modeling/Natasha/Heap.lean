import Natasha.Lexer
import Natasha.ParseTree

/-! `app_config_load` and `app_config_free` on a heap of blocks (config.c, parseconfig.y and
action_nat.c). The parser is the machine of Natasha.Parser once more, with the block each
pointer points to: a value and its blocks are built together, so no block has two owners. -/
namespace Natasha.Heap

/-! ## Memory -/

structure Memory where
  /-- Blocks are numbered in the order they are allocated; this is the next one. -/
  next : Nat
  /-- The blocks passed to `rte_free`, the last one first. -/
  freed : List Nat
  /-- Success or failure of the allocations still to come. -/
  oracle : Nat → Bool

abbrev Alloc := StateM Memory

def rteZmallocSocket : Alloc (Option Nat) := fun m =>
  if m.oracle 0 then (some m.next,{ m with next := m.next + 1, oracle := fun i => m.oracle (i+1) })
  else (none,{ m with oracle := fun i => m.oracle (i+1) })

/-- `rte_free`, which ignores NULL. -/
def rteFree : Option Nat → Alloc Unit
  | none => pure ()
  | some block => modify fun m => { m with freed := block :: m.freed }

/-! ## Rules -/

/-- The `type` of a node, with `action` and what `data` points to. -/
inductive Kind where
  | action (action : Action)
  | seq
  | ifElse
  | cond
  | and
  | or

/-- A `struct app_config_node *` with the block of the node and the block of its data. -/
inductive Tree where
  | null
  | node (block : Nat) (data : Option Nat) (kind : Kind) (left right : Tree)

def resetRules : Tree → Alloc Unit
  | .null => pure ()
  | .node block data _ left right => do
    resetRules left
    resetRules right
    rteFree data
    rteFree (some block)

/-! ## The NAT table -/

abbrev Column := Nat × ThirdRow
abbrev Row := Nat × (Nat → Option Column)
abbrev Table := Option (Nat × (Nat → Option Row))

def natResetLookupTable : Table → Alloc Unit
  | none => pure ()
  | some (table,first) => do
    (List.range lkpFs).forM fun i =>
      match first i with
      | none => pure ()
      | some (row,second) => do
        (List.range lkpSs).forM fun j => rteFree ((second j).map Prod.fst)
        rteFree (some row)
    rteFree (some table)

/-- The row that is there, or a new one. -/
def rowOrNew (row : Option (Nat × α)) (zeroed : α) : Alloc (Option (Nat × α)) :=
  match row with
  | some row => return some row
  | none => do
    let block ← rteZmallocSocket
    return block.map fun block => (block,zeroed)

/-- `add_rule_to_table`. After a failed allocation the levels above it are freed, with no regard
to what else they point to. -/
def addRuleToTable (t : Table) (key value : U32) : Alloc Table := do
  match ← rowOrNew t (fun _ => none) with
  | none => return none
  | some (table,first) =>
    match ← rowOrNew (first (fstb key)) (fun _ => none) with
    | none => do
      rteFree (some table)
      return none
    | some (row,second) =>
      match ← rowOrNew (second (sndb key)) (fun _ => 0) with
      | none => do
        rteFree (some row)
        rteFree (some table)
        return none
      | some (column,third) =>
        let third := Function.update third (l2b key) value
        let second := Function.update second (sndb key) (some (column,third))
        return some (table,Function.update first (fstb key) (some (row,second)))

/-- `add_rules_to_table`, which does not see a failed allocation. -/
def addRulesToTable (natLookup : Table) (intIp extIp : U32) : Alloc (Int × Table) := do
  let extIpFormated := rteBeToCpu32 extIp
  let intIpFormated := rteBeToCpu32 intIp
  let natLookup ← addRuleToTable natLookup intIp extIpFormated
  let natLookup ← addRuleToTable natLookup extIp intIpFormated
  return (0,natLookup)

/-! ## The configuration -/

/-- `struct port_config`, with the block of each `port_ip_addr`. -/
structure PortConfig where
  ipAddresses : List (Nat × (U32 × U16))
  mtu : Int

/-- `struct app_config` in its block. -/
structure Config where
  block : Nat
  ports : Int → PortConfig
  natLookup : Table
  rules : Tree

def Config.zeroed (block : Nat) : Config := ⟨block,fun _ => ⟨[],0⟩,none,.null⟩

def freeIps : List (Nat × (U32 × U16)) → Alloc Unit
  | [] => pure ()
  | ip :: next => do
    rteFree (some ip.1)
    freeIps next

/-- `app_config_free`. The loop over the ports ends with the array. -/
def appConfigFree (config : Config) : Alloc Unit := do
  (List.range natashaMaxEthports).forM fun (i : Nat) => freeIps (config.ports i).ipAddresses
  natResetLookupTable config.natLookup
  resetRules config.rules
  rteFree (some config.block)

/-! ## Semantic actions -/

abbrev Parse := OptionT Alloc

/-- `rte_zmalloc_socket` and `CHECK_PTR`. -/
def checkPtr : Parse Nat := OptionT.mk rteZmallocSocket

def newNode (kind : Kind) (left right : Tree) : Parse Tree := do
  let block ← checkPtr
  return .node block none kind left right

def newNodeWithData (action : Action) : Parse Tree := do
  let block ← checkPtr
  let data ← checkPtr
  return .node block (some data) (.action action) .null .null

def rulesContent (prev new : Tree) : Parse Tree :=
  match prev, new with
  | .null, new => return new
  | prev, .null => return prev
  | prev, new => newNode .seq prev new

def rulesIf (what body other : Tree) : Parse Tree := do
  let ifBlock ← checkPtr
  let condBlock ← checkPtr
  return .node ifBlock none .ifElse (.node condBlock none .cond what body) other

def condOp (lhs : Tree) (op : Connective) (rhs : Tree) : Parse Tree :=
  match op with
  | .and => newNode .and lhs rhs
  | .or => newNode .or lhs rhs

def inNetworkAction (field : AddrField) (network : Ipv4Network) : Action :=
  if field = .src then .condIpv4SrcInNetwork network else .condIpv4DstInNetwork network

def configPortExtraIps : List (U32 × Int) → Parse (List (Nat × (U32 × U16)))
  | [] => return []
  | (ip,vlan) :: rest => do
    let next ← configPortExtraIps rest
    let block ← checkPtr
    return (block,(ip,.ofInt 16 vlan)) :: next

/-- `config_port`: the addresses that were there are overwritten. -/
def configPort (config : Config) (port mtu : Int) (first : U32 × Int) (extra : List (U32 × Int)) : Parse Config := do
  let nextIps ← configPortExtraIps extra
  if port ≥ rteMaxEthports then
    failure
  let block ← checkPtr
  return { config with
    ports := Function.update config.ports port ⟨(block,(first.1,.ofInt 16 first.2)) :: nextIps,mtu⟩ }

def configNatRule (config : Config) (fromIp toIp : U32) : Parse Config := do
  let (ret,natLookup) ← (addRulesToTable config.natLookup fromIp toIp : Alloc (Int × Table))
  if ret < 0 then
    failure
  return { config with natLookup := natLookup }

/-! ## The machine -/

abbrev Pending := Option (Tree × Connective)

inductive Open where
  | ifBody (prev what : Tree)
  | elseBody (prev what body : Tree)

inductive StmtMode where
  | stmt
  | natRewrite
  | natRewriteField (field : AddrField)
  | out
  | outPort
  | outNumber (port : Int)
  | outMac (port : Int)
  | outMacAddress (port : Int) (mac : Mac)
  | outVlan (port : Int) (mac : Mac)
  | outVlanNumber (port : Int) (mac : Mac) (vlan : Int)
  | tokIf
  | cond (frames : List Pending) (pending : Pending)
  | condField (frames : List Pending) (pending : Pending) (field : AddrField)
  | condIn (frames : List Pending) (pending : Pending) (field : AddrField)
  | condVlan (frames : List Pending) (pending : Pending)
  | operand (frames : List Pending) (value : Tree)
  | condEnd (what : Tree)
  | afterIf (what body : Tree)
  | tokElse (what body : Tree)

inductive Mode where
  | file
  | configSection
  | configLines
  | port
  | portNumber (port : Int)
  | portMtu (port : Int)
  | portMtuNumber (port mtu : Int)
  | portVlan (port mtu : Int) (ips : List (U32 × Int))
  | portVlanNumber (port mtu : Int) (ips : List (U32 × Int)) (vlan : Int)
  | portIp (port mtu : Int) (ips : List (U32 × Int)) (vlan : Int)
  | portAddress (port mtu : Int) (first : U32 × Int) (extra : List (U32 × Int))
  | natRule
  | natRuleFrom (fromIp : U32)
  | natRuleTo (fromIp toIp : U32)
  | rulesSection
  | rules (opens : List Open) (content : Tree) (mode : StmtMode)

structure Parser where
  config : Config
  mode : Mode

def reduceCond (pending : Pending) (value : Tree) : Parse Tree :=
  match pending with
  | none => return value
  | some (lhs,op) => condOp lhs op value

def endStmt (config : Config) (opens : List Open) (prev new : Tree) : Parse Parser := do
  return ⟨config,.rules opens (← rulesContent prev new) .stmt⟩

/-- A token where a statement or the end of the body is expected. The rules that were there are
overwritten at the end of a section. -/
def feedStmt (config : Config) (opens : List Open) (content : Tree) : Token → Parse Parser
  | .semicolon => endStmt config opens content .null
  | .tokIf => return ⟨config,.rules opens content .tokIf⟩
  | .tokNatRewrite => return ⟨config,.rules opens content .natRewrite⟩
  | .tokOut => return ⟨config,.rules opens content .out⟩
  | .tokPrint => do
    endStmt config opens content (← newNode (.action .print) .null .null)
  | .tokDrop => do
    endStmt config opens content (← newNode (.action .drop) .null .null)
  | .rbrace =>
    match opens with
    | [] => return ⟨{ config with rules := content },.file⟩
    | .ifBody prev what :: opens => return ⟨config,.rules opens prev (.afterIf what content)⟩
    | .elseBody prev what body :: opens => do
      endStmt config opens prev (← rulesIf what body content)
  | _ => failure

def feedRules (config : Config) (opens : List Open) (content : Tree) (mode : StmtMode) (token : Token) :
    Parse Parser :=
  let goto (mode : StmtMode) : Parse Parser := return ⟨config,.rules opens content mode⟩
  match mode, token with
  | .stmt, token => feedStmt config opens content token
  | .natRewrite, .natRewriteField field => goto (.natRewriteField field)
  | .natRewriteField field, .semicolon => do
    endStmt config opens content (← newNodeWithData (.natRewrite field))
  | .out, .tokPort => goto .outPort
  | .outPort, .number port => goto (.outNumber port)
  | .outNumber port, .tokMac => goto (.outMac port)
  | .outMac port, .macAddress mac => goto (.outMacAddress port mac)
  | .outMacAddress port mac, .semicolon => do
    endStmt config opens content (← newNodeWithData (.out ⟨.ofInt 8 port,0,mac⟩))
  | .outMacAddress port mac, .tokVlan => goto (.outVlan port mac)
  | .outVlan port mac, .number vlan => goto (.outVlanNumber port mac vlan)
  | .outVlanNumber port mac vlan, .semicolon => do
    endStmt config opens content (← newNodeWithData (.out ⟨.ofInt 8 port,vlan,mac⟩))
  | .tokIf, .lparen => goto (.cond [] none)
  | .cond frames pending, .lparen => goto (.cond (pending :: frames) none)
  | .cond frames pending, .natRewriteField field => goto (.condField frames pending field)
  | .cond frames pending, .tokVlan => goto (.condVlan frames pending)
  | .condField frames pending field, .tokIn => goto (.condIn frames pending field)
  | .condIn frames pending field, .ipv4Network network => do
    let node ← newNodeWithData (inNetworkAction field network)
    goto (.operand frames (← reduceCond pending node))
  | .condVlan frames pending, .number vlan => do
    let node ← newNodeWithData (.condVlan vlan)
    goto (.operand frames (← reduceCond pending node))
  | .operand frames value, .tokAnd => goto (.cond frames (some (value,.and)))
  | .operand frames value, .tokOr => goto (.cond frames (some (value,.or)))
  | .operand [] value, .rparen => goto (.condEnd value)
  | .operand (pending :: frames) value, .rparen => do
    goto (.operand frames (← reduceCond pending value))
  | .condEnd what, .lbrace => return ⟨config,.rules (.ifBody content what :: opens) .null .stmt⟩
  | .afterIf what body, .tokElse => goto (.tokElse what body)
  | .afterIf what body, token => do
    let prev ← rulesContent content (← rulesIf what body .null)
    feedStmt config opens prev token
  | .tokElse what body, .lbrace => return ⟨config,.rules (.elseBody content what body :: opens) .null .stmt⟩
  | _, _ => failure

def feed (p : Parser) (token : Token) : Parse Parser :=
  let goto (mode : Mode) : Parse Parser := return { p with mode := mode }
  match p.mode, token with
  | .file, .configSection => goto .configSection
  | .file, .rulesSection => goto .rulesSection
  | .configSection, .lbrace => goto .configLines
  | .configLines, .semicolon => goto .configLines
  | .configLines, .rbrace => goto .file
  | .configLines, .tokPort => goto .port
  | .configLines, .tokNatRule => goto .natRule
  | .port, .number port => goto (.portNumber port)
  | .portNumber port, .tokMtu => goto (.portMtu port)
  | .portNumber port, .tokVlan => goto (.portVlan port 1500 [])
  | .portNumber port, .tokIp => goto (.portIp port 1500 [] 0)
  | .portMtu port, .number mtu => goto (.portMtuNumber port mtu)
  | .portMtuNumber port mtu, .tokVlan => goto (.portVlan port mtu [])
  | .portMtuNumber port mtu, .tokIp => goto (.portIp port mtu [] 0)
  | .portVlan port mtu ips, .number vlan => goto (.portVlanNumber port mtu ips vlan)
  | .portVlanNumber port mtu ips vlan, .tokIp => goto (.portIp port mtu ips vlan)
  | .portIp port mtu [] vlan, .ipv4Address ip => goto (.portAddress port mtu (ip,vlan) [])
  | .portIp port mtu (first :: extra) vlan, .ipv4Address ip =>
    goto (.portAddress port mtu first (extra ++ [(ip,vlan)]))
  | .portAddress port mtu first extra, .tokVlan => goto (.portVlan port mtu (first :: extra))
  | .portAddress port mtu first extra, .tokIp => goto (.portIp port mtu (first :: extra) 0)
  | .portAddress port mtu first extra, .semicolon => do
    return ⟨← configPort p.config port mtu first extra,.configLines⟩
  | .natRule, .ipv4Address fromIp => goto (.natRuleFrom fromIp)
  | .natRuleFrom fromIp, .ipv4Address toIp => goto (.natRuleTo fromIp toIp)
  | .natRuleTo fromIp toIp, .semicolon => do
    return ⟨← configNatRule p.config fromIp toIp,.configLines⟩
  | .rulesSection, .lbrace => goto (.rules [] .null .stmt)
  | .rules opens content mode, token => feedRules p.config opens content mode token
  | _, _ => failure

/-- The reductions that the end of the file allows before it is refused. -/
def feedEnd (p : Parser) : Parse Unit :=
  match p.mode with
  | .rules _ content (.afterIf what body) => do
    let _ ← rulesContent content (← rulesIf what body .null)
    failure
  | _ => failure

/-- `yyparse`: whether the tokens are accepted, and the configuration object when it returns. A
token that is refused has stored nothing in it, and what is on the stack is dropped. -/
def yyparse (p : Parser) : List Token → Alloc (Bool × Config)
  | [] =>
    match p.mode with
    | .file => return (true,p.config)
    | _ => do
      let _ ← (feedEnd p).run
      return (false,p.config)
  | token :: tokens => do
    match ← (feed p token).run with
    | none => return (false,p.config)
    | some p' => yyparse p' tokens

def appConfigLoad (files : List Char → Option (List Char)) (fuel : Nat) (argv : List String) :
    Alloc (Option Config) := do
  match ← rteZmallocSocket with
  | none => return none
  | some block =>
    match configTokens files fuel argv with
    | none => do
      rteFree (some block)
      return none
    | some tokens =>
      let (accepted,config) ← yyparse ⟨.zeroed block,.file⟩ tokens
      if accepted then
        return some config
      appConfigFree config
      return none

/-! ## Without the blocks

Forgetting the blocks leaves the parser of Natasha.Parser, allocation by allocation. -/

def Tree.erase : Tree → Node
  | .null => .null
  | .node _ _ (.action action) _ _ => .action action
  | .node _ _ .seq left right => .seq left.erase right.erase
  | .node _ _ .ifElse left right => .ifElse left.erase right.erase
  | .node _ _ .cond left right => .cond left.erase right.erase
  | .node _ _ .and left right => .and left.erase right.erase
  | .node _ _ .or left right => .or left.erase right.erase

@[simp] theorem Tree.erase_eq_null (t : Tree) : t.erase = .null ↔ t = .null := by
  cases t with
  | null => simp [erase]
  | node block data kind left right => cases kind <;> simp [erase]

def Row.erase (row : Row) : SecondRow := fun j => (row.2 j).map Prod.snd

def Table.erase (table : Table) : NatLookup := table.map fun t i => (t.2 i).map Row.erase

def Config.erase (config : Config) : AppConfig where
  ports i := ⟨(config.ports i).ipAddresses.map Prod.snd,(config.ports i).mtu⟩
  natLookup := Table.erase config.natLookup
  rules := config.rules.erase

def Pending.erase (pending : Pending) : Natasha.Pending := pending.map fun waiting => (waiting.1.erase,waiting.2)

def Open.erase : Open → Natasha.Open
  | .ifBody prev what => .ifBody prev.erase what.erase
  | .elseBody prev what body => .elseBody prev.erase what.erase body.erase

def StmtMode.erase : StmtMode → Natasha.StmtMode
  | .stmt => .stmt
  | .natRewrite => .natRewrite
  | .natRewriteField field => .natRewriteField field
  | .out => .out
  | .outPort => .outPort
  | .outNumber port => .outNumber port
  | .outMac port => .outMac port
  | .outMacAddress port mac => .outMacAddress port mac
  | .outVlan port mac => .outVlan port mac
  | .outVlanNumber port mac vlan => .outVlanNumber port mac vlan
  | .tokIf => .tokIf
  | .cond frames pending => .cond (frames.map Pending.erase) pending.erase
  | .condField frames pending field => .condField (frames.map Pending.erase) pending.erase field
  | .condIn frames pending field => .condIn (frames.map Pending.erase) pending.erase field
  | .condVlan frames pending => .condVlan (frames.map Pending.erase) pending.erase
  | .operand frames value => .operand (frames.map Pending.erase) value.erase
  | .condEnd what => .condEnd what.erase
  | .afterIf what body => .afterIf what.erase body.erase
  | .tokElse what body => .tokElse what.erase body.erase

def Mode.erase : Mode → Natasha.Mode
  | .file => .file
  | .configSection => .configSection
  | .configLines => .configLines
  | .port => .port
  | .portNumber n => .portNumber n
  | .portMtu n => .portMtu n
  | .portMtuNumber n mtu => .portMtuNumber n mtu
  | .portVlan n mtu ips => .portVlan n mtu ips
  | .portVlanNumber n mtu ips vlan => .portVlanNumber n mtu ips vlan
  | .portIp n mtu ips vlan => .portIp n mtu ips vlan
  | .portAddress n mtu first extra => .portAddress n mtu first extra
  | .natRule => .natRule
  | .natRuleFrom fromIp => .natRuleFrom fromIp
  | .natRuleTo fromIp toIp => .natRuleTo fromIp toIp
  | .rulesSection => .rulesSection
  | .rules opens content mode => .rules (opens.map Open.erase) content.erase mode.erase

def Parser.erase (p : Parser) : Natasha.Parser := ⟨p.config.erase,p.mode.erase⟩

/-- The code without blocks returns the same, and leaves the same allocations to come. -/
def Simulates (code : Alloc α) (erased : Natasha.Alloc β) (erase : α → β) : Prop :=
  ∀ m, erased m.oracle = (erase (code m).1,(code m).2.oracle)

namespace Simulates

variable {code : Alloc α} {erased : Natasha.Alloc β} {e : α → β} {e' : γ → δ}

theorem pure (same : e a = b) : Simulates (Pure.pure a) (Pure.pure b) e := fun m => by
  change (b,m.oracle) = (e a,m.oracle)
  rw [same]

theorem bind {next : α → Alloc γ} {next' : β → Natasha.Alloc δ} (first : Simulates code erased e)
    (second : ∀ a, Simulates (next a) (next' (e a)) e') :
    Simulates (code >>= next) (erased >>= next') e' := by
  intro m
  change next' (erased m.oracle).1 (erased m.oracle).2 = _
  rw [first m]
  exact second _ _

theorem rteZmallocSocket (zeroed : β) :
    Simulates Heap.rteZmallocSocket (Natasha.rteZmallocSocket zeroed) (Option.map fun _ => zeroed) := by
  intro m
  unfold Heap.rteZmallocSocket Natasha.rteZmallocSocket
  by_cases succeeds : m.oracle 0 = true
  · simp [succeeds]
  · simp [succeeds]

/-- Frees are not seen. -/
theorem free (block : Option Nat) {next : Unit → Alloc α} (rest : Simulates (next ()) erased e) :
    Simulates (rteFree block >>= next) erased e := by
  cases block with
  | none => exact rest
  | some block => exact fun m => rest { m with freed := block :: m.freed }

end Simulates

theorem erase_update {f : Nat → Option α} (e : α → β) (i : Nat) (a : α) :
    (fun j => (Function.update f i (some a) j).map e) = Function.update (fun j => (f j).map e) i (some (e a)) :=
  Function.comp_update (Option.map e) f i (some a)

/-- The row that is there, or a new one, without its block. -/
def erasedRowOrNew (row : Option α) (zeroed : α) : Natasha.Alloc (Option α) :=
  match row with
  | some row => pure (some row)
  | none => Natasha.rteZmallocSocket zeroed

theorem addRuleToTable_eq (t : NatLookup) (key value : U32) :
    Natasha.addRuleToTable t key value = (do
      match ← erasedRowOrNew t (fun _ => none) with
      | none => return none
      | some first =>
        match ← erasedRowOrNew (first (fstb key)) (fun _ => none) with
        | none => return none
        | some second =>
          match ← erasedRowOrNew (second (sndb key)) (fun _ => 0) with
          | none => return none
          | some third =>
            let third := Function.update third (l2b key) value
            let second := Function.update second (sndb key) (some third)
            return some (Function.update first (fstb key) (some second))) := by
  unfold Natasha.addRuleToTable
  cases t
  all_goals
    refine bind_congr fun t => ?_
    cases t with
    | none => rfl
    | some first =>
      dsimp only
      cases first (fstb key)
      all_goals
        refine bind_congr fun row => ?_
        cases row with
        | none => rfl
        | some second =>
          dsimp only
          cases second (sndb key)
          all_goals
            refine bind_congr fun column => ?_
            cases column <;> rfl

theorem Simulates.rowOrNew (row : Option (Nat × α)) (zeroed : α) (f : α → β) :
    Simulates (Heap.rowOrNew row zeroed) (erasedRowOrNew (row.map fun r => f r.2) (f zeroed))
      (Option.map fun r => f r.2) := by
  cases row with
  | none =>
    intro m
    rw [Heap.rowOrNew]
    change _ = (Option.map _ (Option.map _ (Heap.rteZmallocSocket m).1),(Heap.rteZmallocSocket m).2.oracle)
    rw [Option.map_map]
    exact Simulates.rteZmallocSocket (f zeroed) m
  | some row => exact .pure rfl

theorem addRuleToTable_simulates (t : Table) (key value : U32) :
    Simulates (addRuleToTable t key value) (Natasha.addRuleToTable (Table.erase t) key value) Table.erase := by
  rw [addRuleToTable_eq]
  refine (Simulates.rowOrNew t (fun _ => none) fun first i => (first i).map Row.erase).bind fun t => ?_
  rcases t with _ | ⟨table,first⟩
  · exact .pure rfl
  refine (Simulates.rowOrNew (first (fstb key)) (fun _ => none) fun second j => (second j).map Prod.snd).bind
    fun row => ?_
  rcases row with _ | ⟨row,second⟩
  · exact .free _ (.pure rfl)
  refine (Simulates.rowOrNew (second (sndb key)) (fun _ => 0) id).bind fun column => ?_
  rcases column with _ | ⟨column,third⟩
  · exact .free _ (.free _ (.pure rfl))
  refine .pure ?_
  have inner : Row.erase (row,Function.update second (sndb key) (some (column,Function.update third (l2b key) value))) =
      Function.update (fun j => (second j).map Prod.snd) (sndb key) (some (Function.update third (l2b key) value)) :=
    erase_update Prod.snd _ _
  have outer := erase_update (f := first) Row.erase (fstb key)
    (row,Function.update second (sndb key) (some (column,Function.update third (l2b key) value)))
  rw [inner] at outer
  exact congrArg some outer

/-! ### Actions -/

/-- A parse without blocks makes the same allocations and returns the same, or fails as well. -/
abbrev Erases (parse : Parse α) (erased : Natasha.Parse β) (e : α → β) : Prop :=
  Simulates parse.run erased.run (Option.map e)

namespace Erases

variable {parse : Parse α} {erased : Natasha.Parse β} {e : α → β} {f : γ → δ}

theorem pure (same : e a = b) : Erases (Pure.pure a) (Pure.pure b) e := Simulates.pure (by simp [same])

theorem fail : Erases (failure : Parse α) (failure : Natasha.Parse β) e := Simulates.pure rfl

theorem bind {next : α → Parse γ} {next' : β → Natasha.Parse δ} (first : Erases parse erased e)
    (second : ∀ a, Erases (next a) (next' (e a)) f) : Erases (parse >>= next) (erased >>= next') f := by
  unfold Erases
  rw [OptionT.run_bind,OptionT.run_bind,Option.elimM,Option.elimM]
  refine Simulates.bind first fun result => ?_
  cases result with
  | none => exact .pure rfl
  | some a => exact second a

theorem lift {code : Alloc α} {code' : Natasha.Alloc β} (simulates : Simulates code code' e) :
    Erases (liftM code : Parse α) (liftM code' : Natasha.Parse β) e := by
  change Simulates (code >>= fun a => Pure.pure (some a)) (code' >>= fun b => Pure.pure (some b)) _
  exact simulates.bind fun a => .pure rfl

theorem checkPtr : Erases Heap.checkPtr Natasha.checkPtr fun _ => () := Simulates.rteZmallocSocket ()

theorem newNode (action : Action) :
    Erases (Heap.newNode (.action action) .null .null) (Natasha.newNode (.action action)) Tree.erase :=
  checkPtr.bind fun _ => pure rfl

theorem newNodeWithData (action : Action) :
    Erases (Heap.newNodeWithData action) (Natasha.newNodeWithData (.action action)) Tree.erase :=
  checkPtr.bind fun _ => checkPtr.bind fun _ => pure rfl

theorem rulesContent (prev new : Tree) :
    Erases (Heap.rulesContent prev new) (Natasha.rulesContent prev.erase new.erase) Tree.erase := by
  unfold Heap.rulesContent Natasha.rulesContent
  split
  · exact pure rfl
  case h_2 first =>
    have kept : prev.erase ≠ .null := by simpa using first
    rw [if_neg kept]
    exact pure rfl
  case h_3 first second =>
    have kept : prev.erase ≠ .null := by simpa using first
    have added : new.erase ≠ .null := by simpa using second
    rw [if_neg kept,if_neg added]
    exact checkPtr.bind fun _ => pure rfl

theorem rulesIf (what body other : Tree) :
    Erases (Heap.rulesIf what body other) (Natasha.rulesIf what.erase body.erase other.erase) Tree.erase :=
  checkPtr.bind fun _ => checkPtr.bind fun _ => pure rfl

theorem reduceCond (pending : Pending) (value : Tree) :
    Erases (Heap.reduceCond pending value) (Natasha.reduceCond pending.erase value.erase) Tree.erase := by
  rcases pending with _ | ⟨lhs,op⟩
  · exact pure rfl
  · cases op <;> exact checkPtr.bind fun _ => pure rfl

theorem configPortExtraIps (extra : List (U32 × Int)) :
    Erases (Heap.configPortExtraIps extra) (Natasha.configPortExtraIps extra) (List.map Prod.snd) := by
  induction extra with
  | nil => exact pure rfl
  | cons first rest ih => exact ih.bind fun _ => checkPtr.bind fun _ => pure rfl

theorem configPort (config : Config) (port mtu : Int) (first : U32 × Int) (extra : List (U32 × Int)) :
    Erases (Heap.configPort config port mtu first extra) (Natasha.configPort config.erase port mtu first extra)
      Config.erase := by
  refine (configPortExtraIps extra).bind fun nextIps => ?_
  by_cases many : port ≥ rteMaxEthports
  · simp only [many,if_true]
    exact fail
  · simp only [many,if_false]
    refine checkPtr.bind fun block => pure ?_
    simp only [Config.erase,AppConfig.mk.injEq,and_true]
    funext i
    by_cases same : i = port
    · subst i
      simp
    · simp [Function.update_of_ne same]

theorem configNatRule (config : Config) (fromIp toIp : U32) :
    Erases (Heap.configNatRule config fromIp toIp) (Natasha.configNatRule config.erase fromIp toIp) Config.erase := by
  have rules : Simulates (Heap.addRulesToTable config.natLookup fromIp toIp)
      (Natasha.addRulesToTable (Table.erase config.natLookup) fromIp toIp) fun r => (r.1,Table.erase r.2) :=
    (addRuleToTable_simulates _ _ _).bind fun _ => (addRuleToTable_simulates _ _ _).bind fun _ => .pure rfl
  refine (lift rules).bind fun r => ?_
  obtain ⟨ret,natLookup⟩ := r
  by_cases failed : ret < 0
  · simp only [failed,if_true]
    exact fail
  · simp only [failed,if_false]
    exact pure rfl

theorem endStmt (config : Config) (opens : List Open) (prev new : Tree) :
    Erases (Heap.endStmt config opens prev new)
      (Natasha.endStmt config.erase (opens.map Open.erase) prev.erase new.erase) Parser.erase :=
  (rulesContent prev new).bind fun _ => pure rfl

theorem feedStmt (config : Config) (opens : List Open) (content : Tree) (token : Token) :
    Erases (Heap.feedStmt config opens content token)
      (Natasha.feedStmt config.erase (opens.map Open.erase) content.erase token) Parser.erase := by
  cases token with
  | semicolon => exact endStmt config opens content .null
  | tokIf | tokNatRewrite | tokOut => exact pure rfl
  | tokPrint | tokDrop => exact (newNode _).bind fun _ => endStmt _ _ _ _
  | rbrace =>
    rcases opens with _ | ⟨⟨prev,what⟩ | ⟨prev,what,body⟩,opens⟩
    · exact pure rfl
    · exact pure rfl
    · exact (rulesIf what body content).bind fun _ => endStmt _ _ _ _
  | _ => exact fail

theorem inNetwork (field : AddrField) (network : Ipv4Network) :
    Erases (Heap.newNodeWithData (inNetworkAction field network))
      (Natasha.newNodeWithData (inNetworkNode field network)) Tree.erase := by
  have node : inNetworkNode field network = .action (inNetworkAction field network) := by
    unfold inNetworkNode inNetworkAction
    split <;> rfl
  rw [node]
  exact newNodeWithData _

theorem feedRules (config : Config) (opens : List Open) (content : Tree) (mode : StmtMode) (token : Token) :
    Erases (Heap.feedRules config opens content mode token)
      (Natasha.feedRules config.erase (opens.map Open.erase) content.erase mode.erase token) Parser.erase := by
  cases mode with
  | stmt => exact feedStmt config opens content token
  | natRewriteField field =>
    cases token with
    | semicolon => exact (newNodeWithData _).bind fun _ => endStmt _ _ _ _
    | _ => exact fail
  | outMacAddress port mac =>
    cases token with
    | semicolon => exact (newNodeWithData _).bind fun _ => endStmt _ _ _ _
    | tokVlan => exact pure rfl
    | _ => exact fail
  | outVlanNumber port mac vlan =>
    cases token with
    | semicolon => exact (newNodeWithData _).bind fun _ => endStmt _ _ _ _
    | _ => exact fail
  | condIn frames pending field =>
    cases token with
    | ipv4Network network =>
      exact (inNetwork field network).bind fun _ => (reduceCond pending _).bind fun _ => pure rfl
    | _ => exact fail
  | condVlan frames pending =>
    cases token with
    | number vlan => exact (newNodeWithData _).bind fun _ => (reduceCond pending _).bind fun _ => pure rfl
    | _ => exact fail
  | operand frames value =>
    cases frames with
    | nil => cases token <;> first | exact fail | exact pure rfl
    | cons pending frames =>
      cases token with
      | rparen => exact (reduceCond pending value).bind fun _ => pure rfl
      | tokAnd | tokOr => exact pure rfl
      | _ => exact fail
  | afterIf what body =>
    have rest : Erases (do
        let prev ← Heap.rulesContent content (← Heap.rulesIf what body .null)
        Heap.feedStmt config opens prev token) (do
        let prev ← Natasha.rulesContent content.erase (← Natasha.rulesIf what.erase body.erase .null)
        Natasha.feedStmt config.erase (opens.map Open.erase) prev token) Parser.erase :=
      (rulesIf what body .null).bind fun _ => (rulesContent content _).bind fun _ => feedStmt _ _ _ _
    cases token with
    | tokElse => exact pure rfl
    | _ => exact rest
  | _ => cases token <;> first | exact fail | exact pure rfl

theorem feed (p : Parser) (token : Token) :
    Erases (Heap.feed p token) (Natasha.feed p.erase token) Parser.erase := by
  obtain ⟨config,mode⟩ := p
  cases mode with
  | portIp n mtu ips vlan => cases ips <;> cases token <;> first | exact fail | exact pure rfl
  | portAddress n mtu first extra =>
    cases token with
    | semicolon => exact (configPort config n mtu first extra).bind fun _ => pure rfl
    | tokVlan | tokIp => exact pure rfl
    | _ => exact fail
  | natRuleTo fromIp toIp =>
    cases token with
    | semicolon => exact (configNatRule config fromIp toIp).bind fun _ => pure rfl
    | _ => exact fail
  | rules opens content mode => exact feedRules config opens content mode token
  | _ => cases token <;> first | exact fail | exact pure rfl

end Erases

theorem yyparse_refused {p : Parser} {token : Token} {m m' : Memory} (refused : (feed p token).run m = (none,m'))
    (tokens : List Token) : yyparse p (token :: tokens) m = ((false,p.config),m') := by
  change (match ((feed p token).run m).1 with
    | none => pure (false,p.config)
    | some p' => yyparse p' tokens : Alloc (Bool × Config)) ((feed p token).run m).2 = _
  rw [refused]
  rfl

theorem yyparse_read {p p' : Parser} {token : Token} {m m' : Memory} (read : (feed p token).run m = (some p',m'))
    (tokens : List Token) : yyparse p (token :: tokens) m = yyparse p' tokens m' := by
  change (match ((feed p token).run m).1 with
    | none => pure (false,p.config)
    | some p' => yyparse p' tokens : Alloc (Bool × Config)) ((feed p token).run m).2 = _
  rw [read]

/-- The parser with blocks accepts what the parser without them does, with the same configuration. -/
theorem yyparse_erase (p : Parser) (tokens : List Token) (m : Memory) :
    ((feedAll p.erase tokens >>= fun p =>
      match p.mode with
      | .file => return p.config
      | _ => failure : Natasha.Parse AppConfig).run.run m.oracle).1 =
      if (yyparse p tokens m).1.1 then some (yyparse p tokens m).1.2.erase else none := by
  induction tokens generalizing p m with
  | nil =>
    obtain ⟨config,mode⟩ := p
    cases mode <;> rfl
  | cons token tokens ih =>
    have step := Erases.feed p token m
    have first : feedAll p.erase (token :: tokens) = Natasha.feed p.erase token >>= fun p' => feedAll p' tokens := rfl
    rw [first,bind_assoc]
    rcases outcome : (feed p token).run m with ⟨_ | p',m'⟩
    · rw [outcome] at step
      rw [Parse.run_bind_none _ step,yyparse_refused outcome]
      rfl
    · rw [outcome] at step
      rw [Parse.run_bind_some _ step,yyparse_read outcome]
      exact ih p' m'

theorem appConfigLoad_erase (files : List Char → Option (List Char)) (fuel : Nat) (argv : List String) (m : Memory) :
    ((Natasha.appConfigLoad files fuel argv).run.run m.oracle).1 =
      (appConfigLoad files fuel argv m).1.map Config.erase := by
  have first : Natasha.checkPtr.run.run m.oracle =
      (Option.map (fun _ => ()) (rteZmallocSocket m).1,(rteZmallocSocket m).2.oracle) := Erases.checkPtr m
  have heap : appConfigLoad files fuel argv m = (match (rteZmallocSocket m).1 with
      | none => return none
      | some block =>
        match configTokens files fuel argv with
        | none => do
          rteFree (some block)
          return none
        | some tokens => yyparse ⟨.zeroed block,.file⟩ tokens >>= fun r =>
          if r.1 then return some r.2
          else appConfigFree r.2 >>= fun _ => return none : Alloc (Option Config)) (rteZmallocSocket m).2 := rfl
  rw [heap]
  unfold Natasha.appConfigLoad
  rcases outcome : rteZmallocSocket m with ⟨_ | block,m'⟩
  · rw [outcome] at first
    rw [Parse.run_bind_none _ first]
    rfl
  · rw [outcome] at first
    rw [Parse.run_bind_some _ first]
    cases configTokens files fuel argv with
    | none => rfl
    | some tokens =>
      have parsed := yyparse_erase ⟨.zeroed block,.file⟩ tokens m'
      refine parsed.trans ?_
      change _ = Option.map _ ((if (yyparse ⟨.zeroed block,.file⟩ tokens m').1.1 then _ else _ :
        Alloc (Option Config)) (yyparse ⟨.zeroed block,.file⟩ tokens m').2).1
      cases (yyparse ⟨.zeroed block,.file⟩ tokens m').1.1 <;> rfl

end Natasha.Heap
