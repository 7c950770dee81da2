import Natasha.Numbers

/-! What a configuration says, given on its derivations: the cells of the `port` lines, the map of
the `nat rule` lines and the statements of the last rules section. The parser computes it, and
refuses the texts without a derivation whose port numbers it can use. -/
namespace Natasha

/-! ## Meaning -/

structure Settings where
  ports : Int → PortConfig
  nat : U32 → Option U32
  rules : Rules

def Settings.initial : Settings := ⟨fun _ => ⟨[],0⟩,fun _ => none,.empty⟩

/-- A later line replaces what an earlier one says about the same port or address. -/
def LineText.meaning (settings : Settings) : LineText → Settings
  | .semicolon => settings
  | .port line => { settings with ports := Function.update settings.ports line.number line.cell }
  | .natRule fromIp toIp => { settings with nat := writeRule settings.nat (fromIp,toIp) }

def SectionText.meaning (settings : Settings) : SectionText → Settings
  | .config lines => lines.foldl LineText.meaning settings
  | .rules content => { settings with rules := content }

def meaning (file : List SectionText) : Settings := file.foldl SectionText.meaning .initial

/-- The numbers that `config_port` lets pass. -/
def LineText.Fits : LineText → Prop
  | .port line => line.number < rteMaxEthports
  | _ => True

def SectionText.Fits : SectionText → Prop
  | .config lines => ∀ line ∈ lines, line.Fits
  | .rules _ => True

/-- The numbers that are indices of `ports`; `config_port` lets others pass, and the source then
stores outside of the array. -/
def LineText.InArray : LineText → Prop
  | .port line => InRange line.number
  | _ => True

def SectionText.InArray : SectionText → Prop
  | .config lines => ∀ line ∈ lines, line.InArray
  | .rules _ => True

structure Derives (file : List SectionText) (tokens : List Token) : Prop where
  spelt : tokens = file.flatMap SectionText.tokens
  fits : ∀ text ∈ file, text.Fits

/-- What holds also when rows of the NAT table could not be allocated. -/
structure Configures (config : AppConfig) (settings : Settings) : Prop where
  ports : config.ports = settings.ports
  rules : config.rules = settings.rules.node

structure Realizes (config : AppConfig) (settings : Settings) : Prop extends Configures config settings where
  nat : Refines config.natLookup settings.nat

theorem LineText.InArray.fits {line : LineText} (inArray : line.InArray) : line.Fits := by
  cases line with
  | port line => exact lt_trans inArray.2 (by decide)
  | semicolon | natRule => trivial

theorem SectionText.InArray.fits {text : SectionText} (inArray : text.InArray) : text.Fits := by
  cases text with
  | config lines => exact fun line member => (inArray line member).fits
  | rules => trivial

theorem derives_of_inArray {file : List SectionText} (inArray : ∀ text ∈ file, text.InArray) :
    Derives file (file.flatMap SectionText.tokens) :=
  ⟨rfl,fun text member => (inArray text member).fits⟩

theorem realizes_initial : Realizes .zeroed .initial := ⟨⟨rfl,rfl⟩,refines_empty⟩

/-! ## Lines -/

section Lines

variable {config : AppConfig} {settings : Settings}

theorem Gives.configPortExtraIps (extra : List (U32 × Int)) :
    Gives (Natasha.configPortExtraIps extra) (extra.map fun pair => (pair.1,.ofInt 16 pair.2)) := by
  induction extra with
  | nil => exact pure _
  | cons pair extra ih => exact ih.bind (checkPtr.bind (pure _))

theorem Gives.configPort {port : Int} (fits : port < rteMaxEthports) (mtu : Int) (first : U32 × Int)
    (extra : List (U32 × Int)) :
    Gives (Natasha.configPort config port mtu first extra) { config with
      ports := Function.update config.ports port
        ⟨(first :: extra).map fun pair => (pair.1,.ofInt 16 pair.2),mtu⟩ } := by
  refine (configPortExtraIps extra).bind ?_
  rw [if_neg (by omega)]
  exact checkPtr.bind (pure _)

theorem configPort_fits (port mtu : Int) (first : U32 × Int) (extra : List (U32 × Int)) :
    Returns (configPort config port mtu first extra) fun _ => port < rteMaxEthports := by
  refine .after fun nextIps => ?_
  split
  · exact .fail
  · exact .after fun _ => .pure (by omega)

/-- A line is accepted for its number, and stores its cell. -/
theorem PortText.gives (line : PortText) (fits : line.number < rteMaxEthports) :
    Reads ⟨config,.configLines⟩ line.tokens
      ⟨{ config with ports := Function.update config.ports line.number line.cell },.configLines⟩ :=
  line.reads.append (.cons ((Gives.configPort fits _ _ _).bind (Gives.pure _)) (.nil _))

theorem PortText.fits (line : PortText) :
    Returns (feedAll ⟨config,.configLines⟩ line.tokens) fun _ => line.number < rteMaxEthports := by
  rw [tokens,feedAll_append]
  refine line.reads.returns.bind ?_
  rintro _ rfl
  have stored : Returns (configPort config line.number (line.mtu.getD 1500) (line.first.ip,line.first.vlan.getD 0)
      (line.extra.map fun address => (address.ip,address.vlan.getD 0))) fun _ => line.number < rteMaxEthports :=
    configPort_fits _ _ _ _
  have read (next : AppConfig → Parse Parser) (last : Parser → Parse Parser) :
      Returns ((configPort config _ _ _ _ >>= next) >>= last) fun _ => line.number < rteMaxEthports :=
    (stored.bind fun config' fits => (Returns.trivial (next config')).mono fun _ _ => fits).bind fun p fits =>
      (Returns.trivial (last p)).mono fun _ _ => fits
  exact read _ _

/-- A rule is read up to its semicolon. -/
theorem natRule_reads (fromIp toIp : U32) :
    Reads ⟨config,.configLines⟩ [.tokNatRule,.ipv4Address fromIp,.ipv4Address toIp] ⟨config,.natRuleTo fromIp toIp⟩ :=
  .cons (Gives.pure _) (.cons (Gives.pure _) (.cons (Gives.pure _) (.nil _)))

/-- Whatever is allocated, a line changes what it names. -/
theorem LineText.returns (line : LineText) (configures : Configures config settings) :
    Returns (feedAll ⟨config,.configLines⟩ line.tokens) fun p =>
      line.Fits ∧ p.mode = .configLines ∧ Configures p.config (line.meaning settings) := by
  cases line with
  | semicolon => exact .pure ⟨trivial,rfl,configures⟩
  | port line =>
    intro oracle p oracle' read
    have fits := line.fits oracle p oracle' read
    rw [(line.gives fits).returns oracle p oracle' read]
    exact ⟨fits,rfl,congrArg (Function.update · line.number line.cell) configures.ports,configures.rules⟩
  | natRule fromIp toIp =>
    have stored : Returns (feed ⟨config,.natRuleTo fromIp toIp⟩ .semicolon) fun p =>
        ∃ natLookup, p = ⟨{ config with natLookup := natLookup },.configLines⟩ := by
      refine (configNatRule_returns config fromIp toIp).bind ?_
      rintro _ ⟨natLookup,rfl⟩
      exact .pure ⟨natLookup,rfl⟩
    have split : (LineText.natRule fromIp toIp).tokens =
        [.tokNatRule,.ipv4Address fromIp,.ipv4Address toIp] ++ [.semicolon] := rfl
    rw [split,feedAll_append]
    refine (natRule_reads fromIp toIp).returns.bind ?_
    rintro _ rfl
    refine stored.bind ?_
    rintro _ ⟨natLookup,rfl⟩
    exact .pure ⟨trivial,rfl,configures.ports,configures.rules⟩

theorem LineText.realizes (line : LineText) (fits : line.Fits) (realizes : Realizes config settings) :
    ∃ config', (feedAll ⟨config,.configLines⟩ line.tokens).run.run allSucceed = (some ⟨config',.configLines⟩,allSucceed) ∧
      Realizes config' (line.meaning settings) := by
  cases line with
  | semicolon => exact ⟨config,rfl,realizes⟩
  | port line =>
    refine ⟨_,(line.gives fits).2,⟨?_,realizes.rules⟩,realizes.nat⟩
    exact congrArg (Function.update · line.number line.cell) realizes.ports
  | natRule fromIp toIp =>
    obtain ⟨table,added,refines⟩ := addRulesToTable_refines config.natLookup settings.nat fromIp toIp realizes.nat
    refine ⟨{ config with natLookup := table },?_,⟨realizes.ports,realizes.rules⟩,refines⟩
    have lifted : (liftM (addRulesToTable config.natLookup fromIp toIp) : Parse (Int × NatLookup)).run.run allSucceed =
        (some (0,table),allSucceed) :=
      congrArg (fun r : (Int × NatLookup) × (Nat → Bool) => (some r.1,r.2)) added
    have stored : (configNatRule config fromIp toIp).run.run allSucceed =
        (some { config with natLookup := table },allSucceed) := Parse.run_bind_some _ lifted
    have closed : (feed ⟨config,.natRuleTo fromIp toIp⟩ .semicolon).run.run allSucceed =
        (some ⟨{ config with natLookup := table },.configLines⟩,allSucceed) := Parse.run_bind_some _ stored
    have read : (feedAll ⟨config,.configLines⟩ _).run.run allSucceed = _ := (natRule_reads fromIp toIp).2
    exact (Parse.run_bind_some (fun p => feedAll p [.semicolon]) read).trans (Parse.run_bind_some _ closed)

end Lines

/-! ## Sequences

Lines and sections are read one after the other, each from the mode that it leaves. -/

section Sequence

variable {config : AppConfig} {settings : Settings} {tokens : α → List Token} {step : Settings → α → Settings}
  {fits : α → Prop} {mode : Mode}

theorem Returns.sequence (each : ∀ {config settings} a, Configures config settings →
      Returns (feedAll ⟨config,mode⟩ (tokens a)) fun p => fits a ∧ p.mode = mode ∧ Configures p.config (step settings a))
    (pieces : List α) (configures : Configures config settings) :
    Returns (feedAll ⟨config,mode⟩ (pieces.flatMap tokens)) fun p =>
      (∀ a ∈ pieces, fits a) ∧ p.mode = mode ∧ Configures p.config (pieces.foldl step settings) := by
  induction pieces generalizing config settings with
  | nil => exact .pure ⟨nofun,rfl,configures⟩
  | cons a pieces ih =>
    rw [List.flatMap_cons,feedAll_append]
    refine (each a configures).bind ?_
    rintro ⟨config',_⟩ ⟨first,rfl,configures⟩
    exact (ih configures).mono fun p after => ⟨List.forall_mem_cons.mpr ⟨first,after.1⟩,after.2⟩

theorem realizes_sequence (each : ∀ {config settings} a, fits a → Realizes config settings →
      ∃ config', (feedAll ⟨config,mode⟩ (tokens a)).run.run allSucceed = (some ⟨config',mode⟩,allSucceed) ∧
        Realizes config' (step settings a))
    (pieces : List α) (all : ∀ a ∈ pieces, fits a) (realizes : Realizes config settings) :
    ∃ config', (feedAll ⟨config,mode⟩ (pieces.flatMap tokens)).run.run allSucceed = (some ⟨config',mode⟩,allSucceed) ∧
      Realizes config' (pieces.foldl step settings) := by
  induction pieces generalizing config settings with
  | nil => exact ⟨config,rfl,realizes⟩
  | cons a pieces ih =>
    obtain ⟨first,others⟩ := List.forall_mem_cons.mp all
    obtain ⟨middle,read,realizes⟩ := each a first realizes
    obtain ⟨config',rest,realizes⟩ := ih others realizes
    refine ⟨config',?_,realizes⟩
    rw [List.flatMap_cons,feedAll_append]
    exact (Parse.run_bind_some _ read).trans rest

end Sequence

/-! ## Sections -/

section Sections

variable {config : AppConfig} {settings : Settings}

/-- A section of lines is between its braces. -/
theorem configSection_eq (lines : List LineText) :
    feedAll ⟨config,.file⟩ (SectionText.config lines).tokens =
      feedAll ⟨config,.configLines⟩ (lines.flatMap LineText.tokens) >>= fun p => feedAll p [.rbrace] :=
  feedAll_append ..

theorem SectionText.returns (text : SectionText) (configures : Configures config settings) :
    Returns (feedAll ⟨config,.file⟩ text.tokens) fun p =>
      text.Fits ∧ p.mode = .file ∧ Configures p.config (text.meaning settings) := by
  cases text with
  | config lines =>
    rw [configSection_eq]
    refine (Returns.sequence LineText.returns lines configures).bind ?_
    rintro ⟨config',_⟩ ⟨fits,rfl,configures⟩
    exact .pure ⟨fits,rfl,configures⟩
  | rules content =>
    refine (content.reads_section config).returns.mono ?_
    rintro _ rfl
    exact ⟨trivial,rfl,configures.ports,rfl⟩

theorem SectionText.realizes (text : SectionText) (fits : text.Fits) (realizes : Realizes config settings) :
    ∃ config', (feedAll ⟨config,.file⟩ text.tokens).run.run allSucceed = (some ⟨config',.file⟩,allSucceed) ∧
      Realizes config' (text.meaning settings) := by
  cases text with
  | config lines =>
    obtain ⟨config',read,realizes⟩ := realizes_sequence LineText.realizes lines fits realizes
    rw [configSection_eq]
    exact ⟨config',Parse.run_bind_some _ read,realizes⟩
  | rules content => exact ⟨_,(content.reads_section config).2,⟨realizes.ports,rfl⟩,realizes.nat⟩

end Sections

/-! ## Cells -/

/-- No port has addresses but those of the array. -/
def Settings.Contained (settings : Settings) : Prop := ∀ i, (settings.ports i).ipAddresses ≠ [] → InRange i

section Cells

variable {settings : Settings}

theorem LineText.contained (line : LineText) (inArray : line.InArray) (contained : settings.Contained) :
    (line.meaning settings).Contained := by
  cases line with
  | semicolon | natRule => exact contained
  | port line =>
    intro i written
    by_cases same : i = line.number
    · exact same ▸ inArray
    · exact contained i (by simpa [LineText.meaning,Function.update_of_ne same] using written)

theorem SectionText.contained (text : SectionText) (inArray : text.InArray) (contained : settings.Contained) :
    (text.meaning settings).Contained := by
  cases text with
  | config lines => exact List.foldlRecOn lines LineText.meaning contained fun _ before line member =>
      line.contained (inArray line member) before
  | rules => exact contained

theorem meaning_contained {file : List SectionText} (inArray : ∀ text ∈ file, text.InArray) : (meaning file).Contained :=
  List.foldlRecOn file SectionText.meaning (fun _ none => absurd rfl none) fun _ before text member =>
    text.contained (inArray text member) before

theorem Configures.contained {config : AppConfig} (configures : Configures config settings) (contained : settings.Contained) :
    config.Contained :=
  fun i written => contained i (configures.ports ▸ written)

end Cells

/-! ## Files -/

theorem yyparse_returns {tokens : List Token} {file : List SectionText} (spelt : tokens = file.flatMap SectionText.tokens) :
    Returns (yyparse .zeroed tokens) fun config => Derives file tokens ∧ Configures config (meaning file) := by
  subst spelt
  refine (Returns.sequence SectionText.returns file realizes_initial.toConfigures).bind ?_
  rintro ⟨config,_⟩ ⟨fits,rfl,configures⟩
  exact .pure ⟨⟨rfl,fits⟩,configures⟩

theorem yyparse_realizes {tokens : List Token} {file : List SectionText} (derives : Derives file tokens) :
    ∃ config, (yyparse .zeroed tokens).run.run allSucceed = (some config,allSucceed) ∧ Realizes config (meaning file) := by
  obtain ⟨config,read,realizes⟩ := realizes_sequence SectionText.realizes file derives.fits realizes_initial
  rw [derives.spelt]
  exact ⟨config,Parse.run_bind_some _ read,realizes⟩

/-- With port lines for the cells of the array, no other cell is written. -/
theorem yyparse_contained {tokens : List Token} {file : List SectionText} (derives : Derives file tokens)
    (inArray : ∀ text ∈ file, text.InArray) :
    ∃ config, (yyparse .zeroed tokens).run.run allSucceed = (some config,allSucceed) ∧
      config.Contained ∧ Realizes config (meaning file) := by
  obtain ⟨config,read,realizes⟩ := yyparse_realizes derives
  exact ⟨config,read,realizes.contained (meaning_contained inArray),realizes⟩

/-- Whatever is allocated, what is accepted has a derivation and configures what any of them says. -/
theorem yyparse_configures {tokens : List Token} {oracle : Nat → Bool} {config : AppConfig}
    (accepted : ((yyparse .zeroed tokens).run.run oracle).1 = some config) :
    (∃ file, Derives file tokens) ∧ ∀ file, Derives file tokens → (∀ text ∈ file, text.InArray) →
      config.Contained ∧ Configures config (meaning file) := by
  have read : (yyparse .zeroed tokens).run.run oracle = (some config,((yyparse .zeroed tokens).run.run oracle).2) :=
    Prod.ext accepted rfl
  obtain ⟨file,spelt⟩ := yyparse_derivation .zeroed tokens oracle config _ read
  refine ⟨⟨file,(yyparse_returns spelt oracle config _ read).1⟩,fun file derives inArray => ?_⟩
  have configures := (yyparse_returns derives.spelt oracle config _ read).2
  exact ⟨configures.contained (meaning_contained inArray),configures⟩

/-- The parser accepts the texts that have a derivation. With port lines for the cells of the array it
gives them the meaning of any of their derivations; where memory was short it has the ports and the
rules, at least. -/
theorem yyparse_means (tokens : List Token) :
    (∀ file, Derives file tokens → ∃ config, ((yyparse .zeroed tokens).run.run allSucceed).1 = some config ∧
      ((∀ text ∈ file, text.InArray) → config.Contained ∧ Realizes config (meaning file))) ∧
    (∀ oracle config, ((yyparse .zeroed tokens).run.run oracle).1 = some config →
      (∃ file, Derives file tokens) ∧ ∀ file, Derives file tokens → (∀ text ∈ file, text.InArray) →
        config.Contained ∧ Configures config (meaning file)) := by
  refine ⟨fun file derives => ?_,fun oracle config accepted => yyparse_configures accepted⟩
  obtain ⟨config,read,realizes⟩ := yyparse_realizes derives
  exact ⟨config,congrArg Prod.fst read,fun inArray => ⟨realizes.contained (meaning_contained inArray),realizes⟩⟩

end Natasha
