import Natasha.Completion
import Natasha.Grammar
import Natasha.Networks
import Natasha.PortLines

/-! Number literals, from their digits to where they are stored. `atoi` makes an `int` of a literal,
and a port of `out` and a VLAN of an address are cut again; only the number of a port line is ever
compared with a bound. -/
namespace Natasha

open Interaction

/-! ## Scanning -/

/-- `yytext`: what the scanner took of the current buffer. -/
def Scanner.yytext (s s' : Scanner) : List Char :=
  (s.buffers.headD []).take ((s.buffers.headD []).length - (s'.buffers.headD []).length)

/-- A number with the value of its digits. -/
def exactToken (yytext : List Char) : Token → Token
  | .number _ => .number (decimal yytext)
  | token => token

/-- The tokens of `yylexAll`, with the numbers as the text has them. -/
def yylexExact (files : List Char → Option (List Char)) : (fuel : Nat) → Scanner → Option (List Token)
  | 0, _ => none
  | fuel+1, s =>
    match s.scan files with
    | .terminate => some []
    | .skip s => yylexExact files fuel s
    | .token token s' => (yylexExact files fuel s').map (exactToken (s.yytext s') token :: ·)

def exactTokens (files : List Char → Option (List Char)) (fuel : Nat) (argv : List String) : Option (List Token) := do
  let file ← configFile "/etc/natasha.conf" argv
  let text ← files file.toList
  yylexExact files fuel ⟨[text],.initial⟩

/-- The `int` that `atoi` makes of a literal of this value. -/
def atoiValue (value : Int) : Int := (BitVec.ofNat 32 (min value.toNat (2^63 - 1))).toInt

/-- Only the rule for numbers makes a number. -/
theorem lexRules_number {rule : LexRule} (member : rule ∈ lexRules) {value : List Char → Token}
    (action : rule.action = .token value) {text : List Char} {n : Int} (token : value text = .number n) :
    n = atoi text := by
  simp only [lexRules,word,scanned,List.mem_cons,List.not_mem_nil] at member
  -- one goal for each rule; those of a constant token, or of none, go at once
  repeat' rcases member with rfl | member
  all_goals cases action
  all_goals try cases token
  · rfl
  · cases scans : scanIpv4 text <;> simp [scans] at token
  · cases scans : scanNetwork text <;> simp [scans] at token
  · cases scans : scanMac text <;> simp [scans] at token

theorem scan_number {files : List Char → Option (List Char)} {s s' : Scanner} {n : Int}
    (scans : s.scan files = .token (.number n) s') : n = atoi (s.yytext s') := by
  unfold Scanner.scan at scans
  split at scans
  · cases scans
  · cases scans
  · cases scans
  · rename_i text rest _ _ read
    split at scans
    · cases scans
    · rename_i n action chosen
      obtain ⟨rule,member,rfl,longest⟩ := chooseRule_mem chosen
      dsimp only at scans
      split at scans
      · cases scans
      · rename_i value token
        injection scans with same next
        subst next
        rw [lexRules_number member token same]
        simp only [Scanner.yytext,read,List.headD_cons,List.length_drop]
        exact congrArg atoi (List.take_eq_take_iff.mpr (by omega))
      · cases scans
      · split at scans <;> cases scans

theorem atoi_decimal (text : List Char) : atoi text = atoiValue (decimal text) := rfl

theorem scan_exact {files : List Char → Option (List Char)} {s s' : Scanner} {token : Token}
    (scans : s.scan files = .token token s') : (exactToken (s.yytext s') token).mapNumber atoiValue = token := by
  cases token with
  | number n => rw [scan_number scans,atoi_decimal]; rfl
  | _ => rfl

/-- What `yylex` returns is the text up to the numbers. -/
theorem yylexAll_exact (files : List Char → Option (List Char)) (fuel : Nat) (s : Scanner) :
    yylexAll files fuel s = (yylexExact files fuel s).map (List.map (Token.mapNumber atoiValue)) := by
  induction fuel generalizing s with
  | zero => rfl
  | succ fuel ih =>
    rw [yylexAll,yylexExact]
    cases scans : s.scan files with
    | terminate => rfl
    | skip s' => exact ih s'
    | token token s' =>
      dsimp only
      rw [ih]
      cases yylexExact files fuel s' with
      | none => rfl
      | some exact => simp [scan_exact scans]

theorem configTokens_exact (files : List Char → Option (List Char)) (fuel : Nat) (argv : List String) :
    configTokens files fuel argv = (exactTokens files fuel argv).map (List.map (Token.mapNumber atoiValue)) := by
  unfold configTokens exactTokens
  rcases configFile "/etc/natasha.conf" argv with _ | file
  · rfl
  rcases found : files file.toList with _ | text
  · simp [found]
  · simp [found,yylexAll_exact]

/-- The numbers of a text are not negative. -/
theorem yylexExact_nonneg {files : List Char → Option (List Char)} {fuel : Nat} {s : Scanner} {exact : List Token}
    (read : yylexExact files fuel s = some exact) {n : Int} (member : .number n ∈ exact) : 0 ≤ n := by
  induction fuel generalizing s exact with
  | zero => cases read
  | succ fuel ih =>
    rw [yylexExact] at read
    cases scans : s.scan files with
    | terminate =>
      rw [scans] at read
      cases read
      cases member
    | skip s' =>
      rw [scans] at read
      exact ih read member
    | token token s' =>
      rw [scans] at read
      obtain ⟨rest,left,rfl⟩ := Option.map_eq_some_iff.mp read
      rcases List.mem_cons.mp member with same | later
      · cases token <;> cases same
        exact Int.natCast_nonneg _
      · exact ih left later

/-! ## What is stored -/

/-- A condition or statement of the rules that has numbers. -/
inductive Literal where
  | condVlan (vlan : Int)
  | out (port : Int) (mac : Mac) (vlan : Option Int)

def Cond.literals : Cond → List Literal
  | .inNetwork _ _ => []
  | .vlan value => [.condVlan value]
  | .paren cond => cond.literals
  | .op _ lhs rhs => lhs.literals ++ rhs.literals

def RuleAction.literals : RuleAction → List Literal
  | .out port mac vlan => [.out port mac vlan]
  | _ => []

/-- The literals of a section, in the order of the text. -/
def Rules.literals : Rules → List Literal
  | .empty => []
  | .semicolon prev => prev.literals
  | .action prev stmt => prev.literals ++ stmt.literals
  | .ifThen prev cond body => prev.literals ++ (cond.literals ++ body.literals)
  | .ifElse prev cond body other => prev.literals ++ (cond.literals ++ (body.literals ++ other.literals))

def Action.numbered : Action → List Action
  | .condVlan vlan => [.condVlan vlan]
  | .out packet => [.out packet]
  | _ => []

/-- The actions of a tree that have numbers, in the order of the text. -/
def Node.numbered : Node → List Action
  | .null | .noop => []
  | .action held => held.numbered
  | .seq left right | .ifElse left right | .cond left right | .and left right | .or left right =>
    left.numbered ++ right.numbered

/-- The pairs of an address and a VLAN. -/
def PortText.pairs (line : PortText) : List (U32 × Int) :=
  (line.first :: line.extra).map fun address => (address.ip,address.vlan.getD 0)

/-- A line `port` or a section `rules`: all that stores numbers. -/
inductive Statement where
  | port (line : PortText)
  | rules (content : Rules)

def Statement.tokens : Statement → List Token
  | .port line => line.tokens
  | .rules content => content.sectionTokens

/-- The action has the numbers of the literal; that of `out` sets the VLAN of the mbuf and takes
the queue with its port. -/
def Carries : Action → Literal → Prop
  | .condVlan vlan, .condVlan n => vlan = n
  | .out packet, .out port _ vlan =>
    (packet.port.toNat : Int) = port ∧ packet.vlan = vlan.getD 0 ∧
      ∀ (ok : (op : Op) → Ans op → Prop) (dev : Devices) (i : Nat) (w : Worker),
        Ensures ok (actionOut dev i packet) w fun _ w' => ∃ queue sent, Handed w w' queue sent ∧
          (queue : Int) = port ∧ (sent.vlanTci.toNat : Int) = vlan.getD 0
  | _, _ => False

/-- The configuration holds the numbers of a statement. -/
def Statement.HeldBy (config : AppConfig) : Statement → Prop
  | .port line =>
    (config.ports line.number).ipAddresses.map (fun cell => (cell.1,(cell.2.toNat : Int))) = line.pairs ∧
      (config.ports line.number).mtu = line.mtu.getD 1500
  | .rules content => List.Forall₂ Carries config.rules.numbered content.literals

/-- Whenever a statement of the text has been read, the configuration holds its numbers. -/
def NumbersHeld (tokens exact : List Token) : Prop :=
  ∀ (before : List Token) (stmt : Statement) (after : List Token), exact = before ++ stmt.tokens ++ after →
    ∀ (oracle oracle' : Nat → Bool) (p : Parser),
      (feedAll ⟨.zeroed,.file⟩ (tokens.take (before ++ stmt.tokens).length)).run.run oracle = (some p,oracle') →
        stmt.HeldBy p.config

/-! ## What fits -/

/-- A value of `bits` bits. -/
def FitsIn (bits : Nat) (n : Int) : Prop := 0 ≤ n ∧ n < 2 ^ bits

def Literal.Fits : Literal → Prop
  | .condVlan vlan => FitsIn 31 vlan
  | .out port _ vlan => FitsIn 8 port ∧ FitsIn 16 (vlan.getD 0)

def Statement.Fits : Statement → Prop
  | .port line => FitsIn 31 line.number ∧ FitsIn 31 (line.mtu.getD 1500) ∧ ∀ pair ∈ line.pairs, FitsIn 16 pair.2
  | .rules content => ∀ literal ∈ content.literals, literal.Fits

section Values

variable {n : Int} {bits : Nat}

theorem atoiValue_range (n : Int) : -2^31 ≤ atoiValue n ∧ atoiValue n < 2^31 := by
  unfold atoiValue
  exact ⟨BitVec.le_toInt _,BitVec.toInt_lt⟩

theorem atoiValue_eq : atoiValue n = n ↔ FitsIn 31 n := by
  have range := atoiValue_range n
  constructor
  · intro same
    have nonneg : 0 ≤ n := by
      by_contra negative
      have zero : atoiValue n = 0 := by
        rw [atoiValue,Int.toNat_eq_zero.mpr (by omega)]
        rfl
      omega
    exact ⟨nonneg,by omega⟩
  · rintro ⟨nonneg,small⟩
    lift n to Nat using nonneg
    have kept : (BitVec.ofNat 32 (min n (2^63 - 1))).toNat = n := by
      rw [BitVec.toNat_ofNat]
      omega
    rw [atoiValue,Int.toNat_natCast,BitVec.toInt_eq_toNat_of_lt (by omega),kept]

/-- A field of fewer bits. -/
theorem ofInt_atoiValue (narrow : bits ≤ 31) : ((BitVec.ofInt bits (atoiValue n)).toNat : Int) = n ↔ FitsIn bits n := by
  constructor
  · intro same
    have small := (BitVec.ofInt bits (atoiValue n)).isLt
    rw [← same]
    exact ⟨Int.natCast_nonneg _,by exact_mod_cast small⟩
  · rintro ⟨nonneg,small⟩
    have wider : (2 : Int) ^ bits ≤ 2 ^ 31 := pow_le_pow_right₀ (by decide) narrow
    rw [atoiValue_eq.mpr ⟨nonneg,by omega⟩,BitVec.toNat_ofInt]
    push_cast
    rw [Int.toNat_of_nonneg (Int.emod_nonneg _ (by positivity)),Int.emod_eq_of_lt nonneg small]

end Values

/-! ## Rules -/

section Rules

variable {f : Int → Int}

/-- The action that is made of a literal when `f` is made of its numbers. -/
def Literal.action (f : Int → Int) : Literal → Action
  | .condVlan vlan => .condVlan (f vlan)
  | .out port mac vlan => .out ⟨.ofInt 8 (f port),(vlan.map f).getD 0,mac⟩

theorem seqNode_numbered (prev new : Node) : (seqNode prev new).numbered = prev.numbered ++ new.numbered := by
  unfold seqNode
  split
  · subst prev
    rfl
  · split
    · subst new
      exact (List.append_nil _).symm
    · rfl

def Pending.numbered : Pending → List Action
  | none => []
  | some (lhs,_) => lhs.numbered

theorem Pending.node_numbered (pending : Pending) (value : Node) :
    (pending.node value).numbered = pending.numbered ++ value.numbered := by
  rcases pending with _ | ⟨lhs,op⟩
  · rfl
  · cases op <;> rfl

theorem Cond.node_numbered (cond : Cond) (pending : Pending) :
    ((cond.mapNumbers f).node pending).numbered = pending.numbered ++ cond.literals.map (Literal.action f) := by
  induction cond generalizing pending with
  | inNetwork field network =>
    have plain : (inNetworkNode field network).numbered = [] := by
      unfold inNetworkNode
      split <;> rfl
    exact (pending.node_numbered _).trans (congrArg _ plain)
  | vlan value => exact pending.node_numbered _
  | paren cond ih => exact (pending.node_numbered _).trans (congrArg _ (ih none))
  | op connective lhs rhs left right =>
    rw [mapNumbers,node,right,Pending.numbered,left,literals,List.map_append,List.append_assoc]

theorem RuleAction.action_numbered (stmt : RuleAction) :
    (stmt.mapNumbers f).action.numbered = stmt.literals.map (Literal.action f) := by
  cases stmt <;> rfl

/-- The tree holds the literals in the order of the text. -/
theorem Rules.node_numbered (rules : Rules) :
    (rules.mapNumbers f).node.numbered = rules.literals.map (Literal.action f) := by
  induction rules with
  | empty => rfl
  | semicolon prev ih =>
    rw [mapNumbers,node,seqNode_numbered,ih]
    exact List.append_nil _
  | action prev stmt ih =>
    rw [mapNumbers,node,seqNode_numbered,ih,Node.numbered,RuleAction.action_numbered,literals,List.map_append]
  | ifThen prev cond body before inside =>
    simp only [mapNumbers,node,seqNode_numbered,before,Node.numbered,Cond.node_numbered,inside,literals,
      List.map_append,Pending.numbered,List.nil_append,List.append_nil]
  | ifElse prev cond body other before inside otherwise =>
    simp only [mapNumbers,node,seqNode_numbered,before,Node.numbered,Cond.node_numbered,inside,otherwise,literals,
      List.map_append,Pending.numbered,List.nil_append,List.append_assoc]

theorem atoiValue_getD (vlan : Option Int) : (vlan.map atoiValue).getD 0 = atoiValue (vlan.getD 0) := by
  cases vlan <;> rfl

/-- What is made of a literal has its numbers if they fit. -/
theorem carries_iff (literal : Literal) : Carries (literal.action atoiValue) literal ↔ literal.Fits := by
  cases literal with
  | condVlan vlan => exact atoiValue_eq
  | out port mac vlan =>
    simp only [Literal.action,Carries,Literal.Fits,atoiValue_getD]
    generalize vlan.getD 0 = vlan
    constructor
    · rintro ⟨kept,-,sends⟩
      refine ⟨(ofInt_atoiValue (by decide)).mp kept,?_⟩
      let w : Worker := .start ⟨fun _ => 0,0,0,0,0,0⟩ (fun _ => ⟨[],Nat.zero_le _⟩) fun _ => 0
      obtain ⟨_,sent,-,-,tagged⟩ := (sends (fun _ _ => True) ⟨0,fun _ _ => 0⟩ 0 w).exec (steadyAnswer .zeroed) fun _ => trivial
      rw [← tagged]
      exact ⟨Int.natCast_nonneg _,by exact_mod_cast sent.vlanTci.isLt⟩
    · rintro ⟨port,tag⟩
      have narrow : FitsIn 31 vlan := ⟨tag.1,tag.2.trans (by decide)⟩
      refine ⟨(ofInt_atoiValue (by decide)).mpr port,atoiValue_eq.mpr narrow,fun ok dev i w => ?_⟩
      refine (actionOut_handed ok dev i _ w).mono fun _ w' handed => ⟨_,_,handed,?_,?_⟩
      · exact (ofInt_atoiValue (by decide)).mpr port
      · exact (ofInt_atoiValue (by decide)).mpr tag

end Rules

/-! ## Port lines -/

section Ports

variable {config : AppConfig} {number mtu : Int}

theorem feedAll_append (p : Parser) (first rest : List Token) :
    feedAll p (first ++ rest) = feedAll p first >>= fun q => feedAll q rest := List.foldlM_append ..

/-- An address is read, up to what ends the line. -/
theorem AddressText.reads (address : AddressText) (first : U32 × Int) (extra : List (U32 × Int)) :
    Reads ⟨config,.portAddress number mtu first extra⟩ address.tokens
      ⟨config,.portAddress number mtu first (extra ++ [(address.ip,address.vlan.getD 0)])⟩ := by
  obtain ⟨_ | vlan,ip⟩ := address
  · exact .cons (Gives.pure _) (.cons (Gives.pure _) (.nil _))
  · exact .cons (Gives.pure _) (.cons (Gives.pure _) (.cons (Gives.pure _) (.cons (Gives.pure _) (.nil _))))

theorem addresses_read (addresses : List AddressText) (first : U32 × Int) (extra : List (U32 × Int)) :
    Reads ⟨config,.portAddress number mtu first extra⟩ (addresses.flatMap AddressText.tokens)
      ⟨config,.portAddress number mtu first (extra ++ addresses.map fun address => (address.ip,address.vlan.getD 0))⟩ := by
  induction addresses generalizing extra with
  | nil =>
    rw [List.map_nil,List.append_nil]
    exact .nil _
  | cons address addresses ih =>
    have rest := ih (extra ++ [(address.ip,address.vlan.getD 0)])
    rw [List.append_assoc] at rest
    exact (address.reads first extra).append rest

/-- A line is read up to its semicolon. -/
theorem PortText.reads (line : PortText) :
    Reads ⟨config,.configLines⟩
      (headTokens line.number line.mtu ++ (line.first :: line.extra).flatMap AddressText.tokens)
      ⟨config,.portAddress line.number (line.mtu.getD 1500) (line.first.ip,line.first.vlan.getD 0)
        (line.extra.map fun address => (address.ip,address.vlan.getD 0))⟩ := by
  obtain ⟨number,mtu,⟨vlan,ip⟩,extra⟩ := line
  have rest : ∀ mtu, Reads ⟨config,.portAddress number mtu (ip,vlan.getD 0) []⟩ _ _ :=
    fun mtu => addresses_read extra (ip,vlan.getD 0) []
  rcases mtu with _ | mtu
  · rcases vlan with _ | vlan
    · exact .cons (Gives.pure _) (.cons (Gives.pure _) (.cons (Gives.pure _) (.cons (Gives.pure _) (rest 1500))))
    · exact .cons (Gives.pure _) (.cons (Gives.pure _) (.cons (Gives.pure _) (.cons (Gives.pure _)
        (.cons (Gives.pure _) (.cons (Gives.pure _) (rest 1500))))))
  · rcases vlan with _ | vlan
    · exact .cons (Gives.pure _) (.cons (Gives.pure _) (.cons (Gives.pure _) (.cons (Gives.pure _)
        (.cons (Gives.pure _) (.cons (Gives.pure _) (rest mtu))))))
    · exact .cons (Gives.pure _) (.cons (Gives.pure _) (.cons (Gives.pure _) (.cons (Gives.pure _)
        (.cons (Gives.pure _) (.cons (Gives.pure _) (.cons (Gives.pure _) (.cons (Gives.pure _) (rest mtu))))))))

/-- The cell that a line stores. -/
def PortText.cell (line : PortText) : PortConfig :=
  ⟨line.pairs.map fun pair => (pair.1,.ofInt 16 pair.2),line.mtu.getD 1500⟩

/-- A line stores its cell. -/
theorem PortText.stores (line : PortText) :
    Returns (feedAll ⟨config,.configLines⟩ line.tokens) fun p => p.mode = .configLines ∧
      p.config.ports = Function.update config.ports line.number line.cell := by
  rw [tokens,feedAll_append]
  refine line.reads.returns.bind ?_
  rintro _ rfl
  have stored := configPort_cell config line.number (line.mtu.getD 1500) (line.first.ip,line.first.vlan.getD 0)
    (line.extra.map fun address => (address.ip,address.vlan.getD 0))
  exact (stored.bind fun config' same => .pure ⟨rfl,same⟩).bind fun p closed => .pure closed

/-- Behind `out` a port has no address. -/
theorem outPort_stops (opens : List Open) (content : Node) (n : Int) {token : Token} (other : token ≠ .tokMac)
    (rest : List Token) :
    Returns (feedAll ⟨config,.rules opens content .outPort⟩ (.number n :: token :: rest)) fun _ => False := by
  have stops : Returns (feed ⟨config,.rules opens content (.outNumber n)⟩ token >>= fun q => feedAll q rest)
      fun _ => False := by
    cases token <;> first | exact .stop | exact absurd rfl other
  exact (Gives.pure _).returns.bind fun q same => by rw [same]; exact stops

/-- `port` starts a line or follows `out`. -/
theorem feed_tokPort (q : Parser) :
    Returns (feed q .tokPort) fun p => q.mode = .configLines ∧ p = ⟨q.config,.port⟩ ∨
      ∃ opens content, p = ⟨q.config,.rules opens content .outPort⟩ := by
  obtain ⟨config,mode⟩ := q
  cases mode with
  | configLines => exact .pure (.inl ⟨rfl,rfl⟩)
  | rules opens content mode =>
    cases mode with
    | out => exact .pure (.inr ⟨opens,content,rfl⟩)
    | afterIf what body => exact .after fun _ => .after fun _ => .fail
    | operand frames value => cases frames <;> exact .fail
    | _ => exact .fail
  | portIp n mtu ips vlan => cases ips <;> exact .fail
  | _ => exact .fail

/-- A line is read where a line may stand. -/
theorem PortText.begins (line : PortText) (q : Parser) :
    Returns (feedAll q line.tokens) fun _ => q.mode = .configLines := by
  -- what follows the number is no `mac`
  obtain ⟨token,rest,written,other⟩ : ∃ token rest, line.tokens = .tokPort :: .number line.number :: token :: rest ∧
      token ≠ .tokMac := by
    obtain ⟨number,_ | mtu,⟨_ | vlan,ip⟩,extra⟩ := line <;> exact ⟨_,_,rfl,by simp⟩
  rw [written]
  refine (feed_tokPort q).bind ?_
  rintro p (⟨lines,-⟩ | ⟨opens,content,rfl⟩)
  · exact (Returns.trivial _).mono fun _ _ => lines
  · exact (outPort_stops opens content line.number other rest).mono fun _ => False.elim

end Ports

/-! ## Sections -/

theorem feed_rulesSection (q : Parser) : Returns (feed q .rulesSection) fun _ => q.mode = .file := by
  obtain ⟨config,mode⟩ := q
  cases mode with
  | file => exact .pure rfl
  | rules opens content mode =>
    cases mode with
    | afterIf what body => exact .after fun _ => .after fun _ => .fail
    | operand frames value => cases frames <;> exact .fail
    | _ => exact .fail
  | portIp n mtu ips vlan => cases ips <;> exact .fail
  | _ => exact .fail

/-- A section stores its tree. -/
theorem Rules.section_stores (rules : Rules) (q : Parser) :
    Returns (feedAll q rules.sectionTokens) fun p => p.config.rules = rules.node := by
  obtain ⟨config,mode⟩ := q
  have begins : Returns (feedAll ⟨config,mode⟩ rules.sectionTokens) fun _ => mode = .file :=
    (feed_rulesSection ⟨config,mode⟩).bind fun _ file => (Returns.trivial _).mono fun _ _ => file
  intro oracle p oracle' read
  obtain rfl : mode = .file := begins oracle p oracle' read
  rw [(rules.reads_section config).returns oracle p oracle' read]

/-! ## Every statement -/

theorem portNumbers_mem {tokens : List Token} {i : Int} (member : i ∈ portNumbers tokens) : .number i ∈ tokens := by
  fun_induction portNumbers tokens with
  | case1 tokens ih => exact List.mem_cons_of_mem _ (List.mem_cons_of_mem _ (ih member))
  | case2 port tokens ih =>
    rcases List.mem_cons.mp member with rfl | later
    · exact List.mem_cons_of_mem _ List.mem_cons_self
    · exact List.mem_cons_of_mem _ (List.mem_cons_of_mem _ (ih later))
  | case3 token tokens _ _ ih => exact List.mem_cons_of_mem _ (ih member)
  | case4 => cases member

/-- No cell is written behind the range of `int`. -/
theorem feedAll_unwritten (exact : List Token) :
    Returns (feedAll ⟨.zeroed,.file⟩ (exact.map (Token.mapNumber atoiValue))) fun p => p.mode = .configLines →
      ∀ i, 2^31 ≤ i → (p.config.ports i).ipAddresses = [] := by
  refine (feedAll_steady ⟨.zeroed,.file⟩ _).mono fun p covers lines i beyond => ?_
  by_contra written
  have read : i ∈ portNumbers (exact.map (Token.mapNumber atoiValue)) := by
    have known := (covers i).mp (.inl written)
    simpa [Parser.Covers,Mode.pending,Mode.last,AppConfig.Written,AppConfig.zeroed] using known
  obtain ⟨token,_,same⟩ := List.mem_map.mp (portNumbers_mem read)
  obtain ⟨n,_,value⟩ := Token.mapNumber_eq_number.mp same
  have range := atoiValue_range n
  omega

theorem PortText.pairs_mapNumbers (line : PortText) :
    (line.mapNumbers atoiValue).pairs = line.pairs.map fun pair => (pair.1,atoiValue pair.2) := by
  obtain ⟨number,mtu,first,extra⟩ := line
  simp [pairs,mapNumbers,AddressText.mapNumbers,atoiValue_getD]

/-- What a line stores has its numbers if they fit. -/
theorem PortText.heldBy_iff (line : PortText) {config : AppConfig} {ports : Int → PortConfig}
    (stored : config.ports = Function.update ports (atoiValue line.number) (line.mapNumbers atoiValue).cell)
    (nonneg : 0 ≤ line.number) (unwritten : ∀ i, 2^31 ≤ i → (config.ports i).ipAddresses = []) :
    (Statement.port line).HeldBy config ↔ (Statement.port line).Fits := by
  have mtu : (line.mtu.map atoiValue).getD 1500 = atoiValue (line.mtu.getD 1500) := by
    cases line.mtu <;> rfl
  have held (number : atoiValue line.number = line.number) : (Statement.port line).HeldBy config ↔
      (∀ pair ∈ line.pairs, FitsIn 16 pair.2) ∧ FitsIn 31 (line.mtu.getD 1500) := by
    have same : config.ports line.number = (line.mapNumbers atoiValue).cell := by
      rw [stored,number,Function.update_self]
    have cells : (line.mapNumbers atoiValue).cell.ipAddresses.map (fun cell => (cell.1,(cell.2.toNat : Int))) =
        line.pairs.map fun pair => (pair.1,((BitVec.ofInt 16 (atoiValue pair.2)).toNat : Int)) := by
      rw [cell,pairs_mapNumbers,List.map_map,List.map_map]
      rfl
    show ((config.ports line.number).ipAddresses.map _ = line.pairs ∧ (config.ports line.number).mtu = _) ↔ _
    rw [same,cells]
    refine and_congr ?_ ?_
    · have fits : ∀ pair : U32 × Int,
          (pair.1,((BitVec.ofInt 16 (atoiValue pair.2)).toNat : Int)) = pair ↔ FitsIn 16 pair.2 := by
        rintro ⟨ip,vlan⟩
        have narrow : 16 ≤ 31 := by decide
        simpa using ofInt_atoiValue narrow
      calc _ ↔ _ = line.pairs.map id := by rw [List.map_id]
        _ ↔ ∀ pair ∈ line.pairs, _ = id pair := List.map_inj_left
        _ ↔ _ := forall₂_congr fun pair _ => fits pair
    · exact (Iff.of_eq (congrArg (· = _) mtu)).trans atoiValue_eq
  constructor
  · intro holds
    have inRange : FitsIn 31 line.number := by
      refine ⟨nonneg,?_⟩
      by_contra beyond
      have empty := unwritten line.number (by omega)
      rw [Statement.HeldBy,empty] at holds
      cases holds.1
    obtain ⟨vlans,size⟩ := (held (atoiValue_eq.mpr inRange)).mp holds
    exact ⟨inRange,size,vlans⟩
  · rintro ⟨inRange,size,vlans⟩
    exact (held (atoiValue_eq.mpr inRange)).mpr ⟨vlans,size⟩

theorem Statement.heldBy_iff (stmt : Statement) (before : List Token)
    (nonneg : ∀ n, .number n ∈ stmt.tokens → 0 ≤ n) :
    Returns (feedAll ⟨.zeroed,.file⟩ ((before ++ stmt.tokens).map (Token.mapNumber atoiValue))) fun p =>
      stmt.HeldBy p.config ↔ stmt.Fits := by
  cases stmt with
  | port line =>
    have unwritten := feedAll_unwritten (before ++ line.tokens)
    have stored : Returns (feedAll ⟨.zeroed,.file⟩ ((before ++ line.tokens).map (Token.mapNumber atoiValue))) fun p =>
        p.mode = .configLines ∧ ∃ ports, p.config.ports =
          Function.update ports (atoiValue line.number) (line.mapNumbers atoiValue).cell := by
      rw [List.map_append,feedAll_append,← PortText.tokens_mapNumbers]
      refine .after fun q => ?_
      obtain ⟨config,mode⟩ := q
      intro oracle p oracle' read
      obtain rfl : mode = .configLines := (line.mapNumbers atoiValue).begins ⟨config,mode⟩ oracle p oracle' read
      obtain ⟨lines,ports⟩ := (line.mapNumbers atoiValue).stores oracle p oracle' read
      exact ⟨lines,config.ports,ports⟩
    intro oracle p oracle' read
    obtain ⟨lines,ports,update⟩ := stored oracle p oracle' read
    have number : 0 ≤ line.number := nonneg _ (by simp [tokens,PortText.tokens,headTokens])
    exact line.heldBy_iff update number (unwritten oracle p oracle' read lines)
  | rules content =>
    rw [List.map_append,feedAll_append,tokens,← Rules.sectionTokens_mapNumbers]
    refine .after fun q => ((content.mapNumbers atoiValue).section_stores q).mono fun p stored => ?_
    rw [HeldBy,stored,Rules.node_numbered,List.forall₂_map_left_iff,List.forall₂_same]
    exact forall₂_congr fun literal _ => carries_iff literal

/-- The position of an element in a list of lists. -/
theorem flatten_split {lists : List (List α)} {before after : List α} {a : α}
    (same : lists.flatten = before ++ a :: after) :
    ∃ first inner rest last, lists = first ++ (inner ++ a :: rest) :: last ∧ before = first.flatten ++ inner ∧
      after = rest ++ last.flatten := by
  rcases List.flatten_eq_append_iff.mp same with ⟨first,last,rfl,rfl,tail⟩ | ⟨first,inner,b,rest,last,rfl,rfl,tail⟩
  · obtain ⟨empty,rest,last,rfl,none,rfl⟩ := List.flatten_eq_cons_iff.mp tail.symm
    refine ⟨first ++ empty,[],rest,last,by simp,?_,rfl⟩
    simp [List.flatten_eq_nil_iff.mpr none]
  · obtain ⟨rfl,rfl⟩ := List.cons.inj tail
    exact ⟨first,inner,rest,last,rfl,rfl,rfl⟩

/-- A section in pieces: the lines, and what is around them. -/
def SectionText.pieces : SectionText → List (List Token)
  | .config lines => [.configSection,.lbrace] :: (lines.map LineText.tokens ++ [[.rbrace]])
  | .rules content => [content.sectionTokens]

theorem SectionText.flatten_pieces (text : SectionText) : text.pieces.flatten = text.tokens := by
  cases text with
  | config lines => simp [pieces,tokens,List.flatMap_def]
  | rules content => simp [pieces,tokens]

/-- A piece with a number is a statement. -/
theorem SectionText.statement {text : SectionText} {piece : List Token} (member : piece ∈ text.pieces) {n : Int}
    (number : .number n ∈ piece) : ∃ stmt : Statement, piece = stmt.tokens := by
  cases text with
  | rules content => exact ⟨.rules content,List.mem_singleton.mp member⟩
  | config lines =>
    simp only [pieces,List.mem_cons,List.mem_append,List.mem_map,List.not_mem_nil,or_false] at member
    rcases member with rfl | ⟨line,_,rfl⟩ | rfl
    · simp at number
    · cases line with
      | port line => exact ⟨.port line,rfl⟩
      | semicolon => simp [LineText.tokens] at number
      | natRule fromIp toIp => simp [LineText.tokens] at number
    · simp at number

/-- Every number of a text is one of a statement. -/
theorem numbers_inStatements {exact : List Token} {file : List SectionText}
    (derived : exact = file.flatMap SectionText.tokens) {first rest : List Token} {n : Int}
    (number : exact = first ++ .number n :: rest) :
    ∃ (before inner outer after : List Token) (stmt : Statement), stmt.tokens = inner ++ .number n :: outer ∧
      first = before ++ inner ∧ rest = outer ++ after := by
  have pieces : (file.flatMap SectionText.pieces).flatten = first ++ .number n :: rest := by
    rw [← number,derived,List.flatMap_def,List.flatten_flatten,List.map_map]
    exact congrArg List.flatten (List.map_congr_left fun text _ => text.flatten_pieces)
  obtain ⟨before,inner,outer,after,split,rfl,rfl⟩ := flatten_split pieces
  have member : inner ++ .number n :: outer ∈ file.flatMap SectionText.pieces := by
    rw [split]
    simp
  obtain ⟨text,_,piece⟩ := List.mem_flatMap.mp member
  obtain ⟨stmt,same⟩ := SectionText.statement piece (n := n) (by simp)
  exact ⟨before.flatten,inner,outer,after.flatten,stmt,same.symm,rfl,rfl⟩

/-- Every statement of the text has numbers that fit. -/
def NumbersFit (exact : List Token) : Prop :=
  ∀ (before : List Token) (stmt : Statement) (after : List Token), exact = before ++ stmt.tokens ++ after → stmt.Fits

theorem numbersHeld_of_accepted {exact : List Token} {config : AppConfig} {oracle oracle' : Nat → Bool}
    (nonneg : ∀ n, .number n ∈ exact → 0 ≤ n)
    (accepted : (yyparse .zeroed (exact.map (Token.mapNumber atoiValue))).run.run oracle = (some config,oracle')) :
    NumbersHeld (exact.map (Token.mapNumber atoiValue)) exact ↔ NumbersFit exact := by
  have held (before : List Token) (stmt : Statement) (after : List Token) (split : exact = before ++ stmt.tokens ++ after) :=
    stmt.heldBy_iff before fun n member => nonneg n (by rw [split]; simp [member])
  have taken (before : List Token) (stmt : Statement) (after : List Token)
      (split : exact = before ++ stmt.tokens ++ after) :
      (exact.map (Token.mapNumber atoiValue)).take (before ++ stmt.tokens).length =
        (before ++ stmt.tokens).map (Token.mapNumber atoiValue) := by
    rw [split,List.map_append,List.take_left' (List.length_map _)]
  constructor
  · intro holds before stmt after split
    have run : ∃ p oracle', (feedAll ⟨.zeroed,.file⟩ ((before ++ stmt.tokens).map (Token.mapNumber atoiValue))).run.run
        oracle = (some p,oracle') := by
      obtain ⟨_,_,all,-⟩ := Parse.of_bind accepted
      rw [split,List.map_append,feedAll_append] at all
      obtain ⟨p,oracle',run,-⟩ := Parse.of_bind all
      exact ⟨p,oracle',run⟩
    obtain ⟨p,oracle',run⟩ := run
    refine (held before stmt after split oracle p oracle' run).mp (holds before stmt after split oracle oracle' p ?_)
    rw [taken before stmt after split]
    exact run
  · intro fits before stmt after split oracle oracle' p run
    rw [taken before stmt after split] at run
    exact (held before stmt after split oracle p oracle' run).mpr (fits before stmt after split)

/-- In a text that is accepted every number is one of a line `port` or of a section `rules`, and all
of them are stored as they are written if and only if they fit: the number of a port, an `mtu`
and a `vlan` condition in 31 bits, the other VLANs in 16, and the port of an `out` in 8. -/
theorem numbersHeld_iff (files : List Char → Option (List Char)) (fuel : Nat) (argv : List String)
    (oracle oracle' : Nat → Bool) (config : AppConfig) (tokens exact : List Token)
    (read : configTokens files fuel argv = some tokens) (spelt : exactTokens files fuel argv = some exact)
    (accepted : (appConfigLoad files fuel argv).run.run oracle = (some config,oracle')) :
    (∀ (first rest : List Token) (n : Int), exact = first ++ .number n :: rest →
      ∃ (before inner outer after : List Token) (stmt : Statement), stmt.tokens = inner ++ .number n :: outer ∧
        first = before ++ inner ∧ rest = outer ++ after) ∧
    (NumbersHeld tokens exact ↔ NumbersFit exact) := by
  obtain rfl : tokens = exact.map (Token.mapNumber atoiValue) := by
    rw [configTokens_exact,spelt] at read
    exact (Option.some.inj read).symm
  rw [appConfigLoad,read] at accepted
  obtain ⟨_,oracle,_,parsed⟩ := Parse.of_bind accepted
  obtain ⟨file,derived⟩ := yyparse_derivation_exact .zeroed exact oracle config oracle' parsed
  refine ⟨fun first rest n number => numbers_inStatements derived number,numbersHeld_of_accepted ?_ parsed⟩
  intro n member
  obtain ⟨file,-,text,-,scanned⟩ : ∃ file, configFile "/etc/natasha.conf" argv = some file ∧
      ∃ text, files file.toList = some text ∧ yylexExact files fuel ⟨[text],.initial⟩ = some exact := by
    simpa [exactTokens,Option.bind_eq_some_iff] using spelt
  exact yylexExact_nonneg scanned member

deriving instance DecidableEq for Token

/-- The next router, as a literal spells it. -/
def routerMac : Mac := fun i => .ofNat 8 ([2,0,0,0,0,1].getD i.val 0)

/-- `out` on a port, and nothing else. -/
def outFile (port : String) (name : List Char) : Option (List Char) :=
  if name = "/etc/natasha.conf".toList then
    some ("rules\x7bout port ".toList ++ port.toList ++ " mac 02:00:00:00:00:01;\x7d".toList)
  else none

/-- The only statement of the text. -/
def outText (port : Int) : Rules := .action .empty (.out port routerMac none)

/-- A text of this one statement is loaded, with what is left of the number. -/
theorem outText_loads {files : List Char → Option (List Char)} {fuel : Nat} {port : Int}
    (spelt : exactTokens files fuel [] = some (outText port).sectionTokens) :
    configTokens files fuel [] = some ((outText port).mapNumbers atoiValue).sectionTokens ∧
      (appConfigLoad files fuel []).run.run allSucceed =
        (some { AppConfig.zeroed with rules := ((outText port).mapNumbers atoiValue).node },allSucceed) := by
  have read : configTokens files fuel [] = some ((outText port).mapNumbers atoiValue).sectionTokens := by
    rw [configTokens_exact,spelt,Rules.sectionTokens_mapNumbers]
    rfl
  refine ⟨read,?_⟩
  have parsed := (((outText port).mapNumbers atoiValue).reads_section .zeroed).2
  rw [appConfigLoad,read]
  refine (Parse.run_bind_some _ Gives.checkPtr.2).trans ?_
  exact (Parse.run_bind_some _ parsed).trans rfl

/-- Port 1 fits. -/
theorem numbersHeld_iff_port1 :
    ∃ config tokens, configTokens (outFile "1") 60 [] = some tokens ∧
      (appConfigLoad (outFile "1") 60 []).run.run allSucceed = (some config,allSucceed) ∧
      (NumbersHeld tokens (outText 1).sectionTokens ↔ NumbersFit (outText 1).sectionTokens) := by
  have spelt : exactTokens (outFile "1") 60 [] = some (outText 1).sectionTokens := by decide +kernel
  obtain ⟨read,accepted⟩ := outText_loads spelt
  exact ⟨_,_,read,accepted,(numbersHeld_iff (outFile "1") 60 [] allSucceed allSucceed _ _ _ read spelt accepted).2⟩

/-- Port 256 is taken for port 0. -/
theorem numbersHeld_port256 :
    ¬∀ (files : List Char → Option (List Char)) (fuel : Nat) (argv : List String) (oracle oracle' : Nat → Bool)
      (config : AppConfig) (tokens exact : List Token), configTokens files fuel argv = some tokens →
      exactTokens files fuel argv = some exact →
      (appConfigLoad files fuel argv).run.run oracle = (some config,oracle') → NumbersHeld tokens exact := by
  intro claim
  have spelt : exactTokens (outFile "256") 60 [] = some (outText 256).sectionTokens := by decide +kernel
  obtain ⟨read,accepted⟩ := outText_loads spelt
  have held := claim (outFile "256") 60 [] allSucceed allSucceed _ _ _ read spelt accepted [] (.rules (outText 256)) []
    (List.append_nil _).symm allSucceed allSucceed _ (((outText 256).mapNumbers atoiValue).reads_section .zeroed).2
  rw [Statement.HeldBy,Rules.node_numbered] at held
  cases held with
  | cons first _ => exact absurd first.1 (by decide)

end Natasha
