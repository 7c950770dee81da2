import Natasha.PortIndices

/-! The addresses of the ports, from the text on. A port line replaces what an earlier line of the
same number stored, and the grammar builds its list of addresses from the last one back. -/
namespace Natasha

/-- A line `port n [mtu M] [vlan V] ip A ...`: its number and its pairs of an address and a VLAN. -/
structure PortLine where
  number : Int
  pairs : List (U32 × Int)
  deriving DecidableEq

/-- The `[vlan V] ip A` pairs that follow the number of a port line. -/
def linePairs : List Token → List (U32 × Int)
  | .tokMtu :: .number _ :: tokens => linePairs tokens
  | .tokVlan :: .number vlan :: .tokIp :: .ipv4Address ip :: tokens => (ip,vlan) :: linePairs tokens
  | .tokIp :: .ipv4Address ip :: tokens => (ip,0) :: linePairs tokens
  | _ => []

/-- The port lines of a configuration; `out port` is no port line. -/
def portLines : List Token → List PortLine
  | .tokOut :: .tokPort :: tokens => portLines tokens
  | .tokPort :: .number port :: tokens => ⟨port,linePairs tokens⟩ :: portLines tokens
  | _ :: tokens => portLines tokens
  | [] => []

/-- The last line of a number. -/
def lastPortLine (tokens : List Token) (number : Int) : Option PortLine :=
  ((portLines tokens).filter fun line => line.number = number).getLast?

example : lastPortLine [.configSection,.lbrace,.tokPort,.number 0,.tokMtu,.number 9000,.tokIp,.ipv4Address 1,.tokVlan,
    .number 5,.tokIp,.ipv4Address 2,.semicolon,.tokPort,.number 1,.tokIp,.ipv4Address 3,.semicolon,.rbrace] 0 =
      some ⟨0,[(1,0),(2,5)]⟩ := rfl

/-! ## What the lines store -/

/-- The cells of `ip_addresses`. -/
def PortLine.cells (line : PortLine) : List (U32 × U16) := line.pairs.map fun pair => (pair.1,.ofInt 16 pair.2)

/-- The lines store one after the other. -/
def storeLines (ports : Int → List (U32 × U16)) (lines : List PortLine) : Int → List (U32 × U16) :=
  lines.foldl (fun ports line => Function.update ports line.number line.cells) ports

/-- What is stored last stays. -/
theorem storeLines_last (ports : Int → List (U32 × U16)) (lines : List PortLine) (number : Int) :
    storeLines ports lines number =
      match (lines.filter fun line => line.number = number).getLast? with
      | none => ports number
      | some line => line.cells := by
  induction lines using List.reverseRecOn with
  | nil => rfl
  | append_singleton lines line ih =>
    rw [storeLines,List.foldl_append,List.foldl_cons,List.foldl_nil,List.filter_append]
    by_cases same : line.number = number
    · simp [same]
    · rw [Function.update_of_ne (Ne.symm same),← storeLines,ih]
      simp [same]

theorem portLines_skims : Skims portLines where
  outPort _ := rfl
  other token tokens out port := by cases token <;> first | rfl | contradiction

/-- A VLAN that is not written is a zero. -/
theorem linePairs_ip (tokens : List Token) :
    linePairs (.tokVlan :: .number 0 :: .tokIp :: tokens) = linePairs (.tokIp :: tokens) := by
  cases tokens with
  | nil => rfl
  | cons token tokens => cases token <;> rfl

/-- The port lines still to be stored, the one that is being read first. -/
def Mode.lines (mode : Mode) (tokens : List Token) : List PortLine :=
  match mode with
  | .portNumber n | .portMtuNumber n _ => ⟨n,linePairs tokens⟩ :: portLines tokens
  | .portMtu n => ⟨n,linePairs (.tokMtu :: tokens)⟩ :: portLines tokens
  | .portVlan n _ ips => ⟨n,ips ++ linePairs (.tokVlan :: tokens)⟩ :: portLines tokens
  | .portVlanNumber n _ ips vlan => ⟨n,ips ++ linePairs (.tokVlan :: .number vlan :: tokens)⟩ :: portLines tokens
  | .portIp n _ ips vlan => ⟨n,ips ++ linePairs (.tokVlan :: .number vlan :: .tokIp :: tokens)⟩ :: portLines tokens
  | .portAddress n _ first extra => ⟨n,first :: extra ++ linePairs tokens⟩ :: portLines tokens
  | mode => portLines (mode.last ++ tokens)

/-- The addresses of the ports once the tokens are accepted. -/
def Parser.expects (p : Parser) (tokens : List Token) : Int → List (U32 × U16) :=
  storeLines (fun n => (p.config.ports n).ipAddresses) (p.mode.lines tokens)

theorem Parser.expects_of {p p' : Parser} (ports : p'.config.ports = p.config.ports)
    (lines : p'.mode.lines tokens = p.mode.lines tokens') : p'.expects tokens = p.expects tokens' := by
  rw [expects,expects,ports,lines]

theorem configPortExtraIps_returns (extra : List (U32 × Int)) :
    Returns (configPortExtraIps extra) fun cells => cells = extra.map fun pair => (pair.1,.ofInt 16 pair.2) := by
  induction extra with
  | nil => exact .pure rfl
  | cons pair extra ih =>
    refine ih.bind fun cells stored => .after fun _ => .pure ?_
    rw [stored]
    rfl

/-- A `port` line stores one cell. -/
theorem configPort_cell (config : AppConfig) (port mtu : Int) (first : U32 × Int) (extra : List (U32 × Int)) :
    Returns (configPort config port mtu first extra) fun config' =>
      config'.ports = Function.update config.ports port
        ⟨(first :: extra).map fun pair => (pair.1,.ofInt 16 pair.2),mtu⟩ := by
  refine (configPortExtraIps_returns extra).bind fun cells stored => ?_
  subst stored
  split
  · exact .fail
  · exact .after fun _ => .pure rfl

theorem configPort_stores (config : AppConfig) (port mtu : Int) (first : U32 × Int) (extra : List (U32 × Int)) :
    Returns (configPort config port mtu first extra) fun config' =>
      (fun n => (config'.ports n).ipAddresses) =
        Function.update (fun n => (config.ports n).ipAddresses) port (PortLine.cells ⟨port,first :: extra⟩) := by
  refine (configPort_cell config port mtu first extra).mono fun config' stored => ?_
  funext n
  rw [stored]
  by_cases same : n = port
  · simp [same,PortLine.cells]
  · simp [same]

/-- The address that follows an `ip` without a VLAN. -/
theorem Parser.expects_ip {config : AppConfig} {n mtu : Int} {ips : List (U32 × Int)} {mode : Mode} {tokens : List Token}
    (lines : mode.lines (.tokIp :: tokens) = ⟨n,ips ++ linePairs (.tokIp :: tokens)⟩ :: portLines tokens) :
    Parser.expects ⟨config,.portIp n mtu ips 0⟩ tokens = Parser.expects ⟨config,mode⟩ (.tokIp :: tokens) := by
  refine Parser.expects_of rfl ?_
  dsimp only
  rw [lines,← linePairs_ip]
  rfl

theorem feed_expects (p : Parser) (token : Token) :
    Returns (feed p token) fun p' => ∀ tokens, p'.expects tokens = p.expects (token :: tokens) := by
  obtain ⟨config,mode⟩ := p
  unfold feed
  dsimp only
  split
  case h_11 | h_14 | h_20 => exact .pure fun _ => Parser.expects_ip rfl
  case h_18 port mtu first extra vlan ip =>
    refine .pure fun tokens => Parser.expects_of rfl ?_
    have joined : first :: (extra ++ [(ip,vlan)]) ++ linePairs tokens = first :: extra ++ (ip,vlan) :: linePairs tokens := by
      simp
    exact congrArg (fun pairs => PortLine.mk port pairs :: portLines tokens) joined
  case h_21 port mtu first extra =>
    refine (configPort_stores config port mtu first extra).bind fun config' stored => .pure fun tokens => ?_
    rw [Parser.expects,stored]
    have whole : first :: extra ++ linePairs (.semicolon :: tokens) = first :: extra := List.append_nil _
    show _ = storeLines _ (⟨port,first :: extra ++ linePairs (.semicolon :: tokens)⟩ :: portLines tokens)
    rw [whole]
    rfl
  case h_24 fromIp toIp =>
    refine (configNatRule_returns config fromIp toIp).bind ?_
    rintro config' ⟨natLookup,rfl⟩
    exact .pure fun _ => rfl
  case h_26 opens content mode =>
    refine (feedRules_skims portLines_skims token).mono fun p' passed tokens => Parser.expects_of passed.ports ?_
    have read := passed.tokens tokens
    rcases passed.outside with file | ⟨opens',content',mode',rules⟩
    · rw [file] at read ⊢
      exact read
    · rw [rules] at read ⊢
      exact read
  all_goals first
    | exact .fail
    | exact .pure fun _ => rfl

theorem feedAll_expects (p : Parser) (tokens : List Token) :
    Returns (feedAll p tokens) fun p' => p'.expects [] = p.expects tokens := by
  induction tokens generalizing p with
  | nil => exact .pure rfl
  | cons token tokens ih =>
    refine (feed_expects p token).bind fun middle step => ?_
    intro oracle p' oracle' result
    exact (ih middle oracle p' oracle' result).trans (step tokens)

/-- The addresses of a port are those of its last line, and none without a line. -/
theorem yyparse_lastPortLine (tokens : List Token) :
    Returns (yyparse .zeroed tokens) fun config => ∀ n, (config.ports n).ipAddresses =
      match lastPortLine tokens n with
      | none => []
      | some line => line.cells := by
  refine (feedAll_expects ⟨.zeroed,.file⟩ tokens).bind fun p expects => ?_
  obtain ⟨config,mode⟩ := p
  dsimp only
  split
  · refine .pure fun n => ?_
    have stored : (config.ports n).ipAddresses = storeLines (fun _ => []) (portLines tokens) n := congrFun expects n
    rw [stored,storeLines_last]
    rfl
  · exact .fail

theorem appConfigLoad_lastPortLine (files : List Char → Option (List Char)) (fuel : Nat) (argv : List String)
    {tokens : List Token} (read : configTokens files fuel argv = some tokens) :
    Returns (appConfigLoad files fuel argv) fun config => ∀ n, (config.ports n).ipAddresses =
      match lastPortLine tokens n with
      | none => []
      | some line => line.cells := by
  refine .after fun _ => ?_
  rw [read]
  exact yyparse_lastPortLine tokens

/-- The text gives an address to a port in a VLAN. -/
def Configured (tokens : List Token) (number : Int) (ip : U32) (vlan : Int) : Prop :=
  ∃ line, lastPortLine tokens number = some line ∧ (ip,vlan) ∈ line.pairs

/-- The port numbers are those of cells, and the VLANs are of 12 bits. -/
structure LinesInRange (tokens : List Token) : Prop where
  numbers : ∀ line ∈ portLines tokens, InRange line.number
  vlans : ∀ line ∈ portLines tokens, ∀ pair ∈ line.pairs, 0 ≤ pair.2 ∧ pair.2 < 4096

/-- A VLAN of 12 bits is what is stored of it. -/
theorem ofInt_vlan {vlan : Int} (inRange : 0 ≤ vlan ∧ vlan < 4096) (id : U16) : BitVec.ofInt 16 vlan = id ↔ vlan = id.toNat := by
  obtain ⟨nonneg,small⟩ := inRange
  lift vlan to Nat using nonneg
  rw [BitVec.ofInt_natCast,← BitVec.toNat_inj,BitVec.toNat_ofNat]
  omega

/-- The cells of a port hold what the text says. -/
theorem configured_iff {tokens : List Token} {config : AppConfig} (inRange : LinesInRange tokens) (number : Int)
    (stored : (config.ports number).ipAddresses =
      match lastPortLine tokens number with
      | none => []
      | some line => line.cells) (ip : U32) (vlan : U16) :
    (ip,vlan) ∈ (config.ports number).ipAddresses ↔ Configured tokens number ip vlan.toNat := by
  rw [stored,Configured]
  cases last : lastPortLine tokens number with
  | none => simp
  | some line =>
    have member : line ∈ portLines tokens := List.mem_of_mem_filter (List.mem_of_mem_getLast? last)
    simp only [PortLine.cells,List.mem_map,Prod.mk.injEq,Option.some.injEq,exists_eq_left']
    constructor
    · rintro ⟨⟨ip',vlan'⟩,pair,rfl,same⟩
      rwa [← (ofInt_vlan (inRange.vlans line member _ pair) vlan).mp same]
    · intro pair
      exact ⟨_,pair,rfl,(ofInt_vlan (inRange.vlans line member _ pair) vlan).mpr rfl⟩

end Natasha
