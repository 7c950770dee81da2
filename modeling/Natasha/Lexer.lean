import Natasha.Lib.Regex
import Natasha.Parser

/-! The flex scanner of parseconfig.lex and `app_config_load`. A rule is taken for the longest
text it matches, and the first of the rules that match as much. Included files are a stack
of texts that are still to be read. -/
namespace Natasha

open Regex

/-! ## Semantic values -/

def digitValue (c : Char) : Nat := c.toNat - '0'.toNat

def decimal (text : List Char) : Nat := text.foldl (fun n c => 10*n + digitValue c) 0

/-- `atoi` of glibc: a `long`, cut to an `int`. -/
def atoi (text : List Char) : Int := (BitVec.ofNat 32 (min (decimal text) (2^63 - 1))).toInt

/-- `%<width>u` of `sscanf` on a text that starts with a digit. -/
def scanUnsigned (width : Nat) (text : List Char) : Option (Nat × List Char) :=
  let digits := (text.take width).takeWhile Char.isDigit
  if digits = [] then none else some (decimal digits,text.drop digits.length)

def scanChar (c : Char) : List Char → Option (List Char)
  | [] => none
  | d :: text => if d = c then some text else none

/-- `IPv4` of rte_ip.h. -/
def ipv4 (a b c d : Nat) : U32 :=
  ((.ofNat 32 a &&& 0xff#32) <<< 24) ||| ((.ofNat 32 b &&& 0xff#32) <<< 16) |||
    ((.ofNat 32 c &&& 0xff#32) <<< 8) ||| (.ofNat 32 d &&& 0xff#32)

/-- `"%3u.%3u.%3u.%3u"`. -/
def scanIpv4 (text : List Char) : Option (U32 × List Char) := do
  let (a,text) ← scanUnsigned 3 text
  let (b,text) ← scanUnsigned 3 (← scanChar '.' text)
  let (c,text) ← scanUnsigned 3 (← scanChar '.' text)
  let (d,text) ← scanUnsigned 3 (← scanChar '.' text)
  return (ipv4 a b c d,text)

/-- `"%3u.%3u.%3u.%3u/%2u"`. -/
def scanNetwork (text : List Char) : Option Ipv4Network := do
  let (ip,text) ← scanIpv4 text
  let (mask,_) ← scanUnsigned 2 (← scanChar '/' text)
  return ⟨ip,.ofNat 32 mask⟩

def hexValue (c : Char) : Option Nat :=
  if c.isDigit then some (digitValue c)
  else if 'a' ≤ c ∧ c ≤ 'f' then some (c.toNat - 'a'.toNat + 10)
  else if 'A' ≤ c ∧ c ≤ 'F' then some (c.toNat - 'A'.toNat + 10)
  else none

/-- `%2x`: one or two digits. A `0x` uses up the width and has no digit after it. -/
def scanHex : List Char → Option (Nat × List Char)
  | [] => none
  | c :: text => do
    let high ← hexValue c
    match text with
    | [] => return (high,[])
    | d :: rest =>
      if c = '0' ∧ (d = 'x' ∨ d = 'X') then
        none
      else
        match hexValue d with
        | some low => return (16*high + low,rest)
        | none => return (high,text)

/-- `"%2x:%2x:%2x:%2x:%2x:%2x"`; what follows the last digit is not looked at. -/
def scanMac (text : List Char) : Option Mac := do
  let (a,text) ← scanHex text
  let (b,text) ← scanHex (← scanChar ':' text)
  let (c,text) ← scanHex (← scanChar ':' text)
  let (d,text) ← scanHex (← scanChar ':' text)
  let (e,text) ← scanHex (← scanChar ':' text)
  let (f,_) ← scanHex (← scanChar ':' text)
  return fun i => .ofNat 8 ([a,b,c,d,e,f].getD i.val 0)

/-! ## Rules -/

/-- Where a rule applies: `INITIAL`, `include_ctx` or everywhere. -/
inductive StartCondition where
  | initial
  | includeCtx
  | any
  deriving DecidableEq

inductive LexAction where
  | ignore
  | token (value : List Char → Token)
  | beginInclude
  | openInclude

structure LexRule where
  condition : StartCondition
  pattern : Pattern Char
  action : LexAction

def isBlank (c : Char) : Bool := c = ' ' || c = '\t'
def isSpace (c : Char) : Bool := isBlank c || c = '\n'
def notNewline (c : Char) : Bool := c ≠ '\n'

def range (low high : Char) : Pattern Char := .set fun c => low ≤ c && c ≤ high

def digit : Pattern Char := range '0' '9'

def bytePattern : Pattern Char :=
  .alt (.seq (range '0' '1').opt (.seq digit.opt digit))
    (.alt (.seq (.literal ['2']) (.seq (range '0' '4') digit)) (.seq (.literal ['2','5']) (range '0' '5')))

def ipv4AddressPattern : Pattern Char := .seq ((Pattern.seq bytePattern (.literal ['.'])).rep 3) bytePattern

def ipv4NetworkPattern : Pattern Char :=
  .seq ipv4AddressPattern (.seq (.literal ['/'])
    (.alt digit (.alt (.seq (range '1' '2') digit) (.seq (.literal ['3']) (range '0' '2')))))

def macDigits : Pattern Char := (Pattern.alt digit (range 'a' 'z')).rep 2

def macAddressPattern : Pattern Char := .seq ((Pattern.seq macDigits (.literal [':'])).rep 5) macDigits

def word (text : String) (token : Token) : LexRule :=
  ⟨.initial,.literal text.toList,.token fun _ => token⟩

/-- A rule of `INITIAL` whose value is scanned from the text. -/
def scanned (pattern : Pattern Char) (value : List Char → Option Token) : LexRule :=
  ⟨.initial,pattern,.token fun text => (value text).getD .oops⟩

def lexRules : List LexRule := [
  ⟨.any,.star (.set isSpace),.ignore⟩,
  ⟨.any,.seq (.literal ['#']) (.star (.set notNewline)),.ignore⟩,
  word ";" .semicolon,
  word "\x7b" .lbrace,
  word "\x7d" .rbrace,
  word "(" .lparen,
  word ")" .rparen,
  word "config" .configSection,
  word "rules" .rulesSection,
  ⟨.initial,digit.plus,.token fun text => .number (atoi text)⟩,
  scanned ipv4AddressPattern fun text => (scanIpv4 text).map fun r => .ipv4Address r.1,
  scanned ipv4NetworkPattern fun text => (scanNetwork text).map .ipv4Network,
  scanned macAddressPattern fun text => (scanMac text).map .macAddress,
  word "port" .tokPort,
  word "mtu" .tokMtu,
  word "ip" .tokIp,
  word "vlan" .tokVlan,
  word "nat rule" .tokNatRule,
  word "nat rewrite" .tokNatRewrite,
  word "if" .tokIf,
  word "else" .tokElse,
  word "and" .tokAnd,
  word "or" .tokOr,
  word "in" .tokIn,
  word "out" .tokOut,
  word "mac" .tokMac,
  word "print" .tokPrint,
  word "drop" .tokDrop,
  word "ipv4.src_addr" (.natRewriteField .src),
  word "ipv4.dst_addr" (.natRewriteField .dst),
  ⟨.initial,.seq (.literal "!include".toList) (.set isBlank),.beginInclude⟩,
  ⟨.includeCtx,.plus (.set fun c => !isSpace c),.openInclude⟩,
  ⟨.any,.set fun _ => true,.token fun _ => .oops⟩]

/-! ## Scanner -/

/-- The texts still to be read, the current one first, and the start condition. -/
structure Scanner where
  buffers : List (List Char)
  condition : StartCondition

inductive Scanned where
  | token (token : Token) (rest : Scanner)
  | skip (rest : Scanner)
  | terminate

/-- The rule flex takes, with the length of its match. -/
def chooseRule (condition : StartCondition) (text : List Char) : Option (Nat × LexAction) :=
  lexRules.foldl (fun best rule =>
    if rule.condition = .any ∨ rule.condition = condition then
      match rule.pattern.longest text, best with
      | none, best => best
      | some n, none => some (n,rule.action)
      | some n, some (m,action) => if m < n then some (n,rule.action) else some (m,action)
    else best) none

/-- One round of `yylex`. `files` are the files that `fopen` finds. -/
def Scanner.scan (files : List Char → Option (List Char)) (s : Scanner) : Scanned :=
  match s.buffers with
  | [] | [[]] => .terminate
  | [] :: rest => .skip { s with buffers := rest }
  | text :: rest =>
    match chooseRule s.condition text with
    | none => .terminate
    | some (n,action) =>
      let yytext := text.take n
      let buffers := text.drop n :: rest
      match action with
      | .ignore => .skip { s with buffers := buffers }
      | .token value => .token (value yytext) { s with buffers := buffers }
      | .beginInclude => .skip ⟨buffers,.includeCtx⟩
      | .openInclude =>
        match files yytext with
        | some newfile => .skip ⟨newfile :: buffers,.initial⟩
        | none => .skip ⟨buffers,.initial⟩

/-- The tokens of a text, if the scanner ends within `fuel` rounds: a file can include itself. -/
def yylexAll (files : List Char → Option (List Char)) : (fuel : Nat) → Scanner → Option (List Token)
  | 0, _ => none
  | fuel+1, s =>
    match s.scan files with
    | .terminate => some []
    | .skip s => yylexAll files fuel s
    | .token token s => (yylexAll files fuel s).map (token :: ·)

/-! ## Loading -/

/-- The options of `app_config_load`, after the program name. -/
def configFile (file : String) : List String → Option String
  | [] => some file
  | ["-f"] => none
  | "-f" :: name :: argv => configFile name argv
  | _ :: _ => none

def configTokens (files : List Char → Option (List Char)) (fuel : Nat) (argv : List String) :
    Option (List Token) := do
  let file ← configFile "/etc/natasha.conf" argv
  let text ← files file.toList
  yylexAll files fuel ⟨[text],.initial⟩

/-- `app_config_load`. `yyparse` takes the tokens of the text one by one and, when it accepts,
has taken all of them. -/
def appConfigLoad (files : List Char → Option (List Char)) (fuel : Nat) (argv : List String) :
    Parse AppConfig := do
  checkPtr
  match configTokens files fuel argv with
  | none => failure
  | some tokens => yyparse .zeroed tokens

end Natasha
