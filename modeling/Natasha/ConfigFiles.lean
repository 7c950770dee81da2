import Natasha.MacLiterals
import Natasha.ParseTree

/-! The files of a configuration. flex keeps a stack of buffers and the file of the topmost one in
`yyin`; a file is closed at its end, or by `free_flex_buffers` when the parser stops before. A
`FILE` is the number of the `fopen` that made it. -/
namespace Natasha

/-! ## Buffers -/

/-- A buffer of flex: its file and what is left to be read of it. -/
structure FlexBuffer where
  file : Nat
  text : List Char

/-- The scanner, with the files that were opened and closed so far. -/
structure Flex where
  yyin : Nat
  /-- The current buffer first; none is a NULL `YY_CURRENT_BUFFER`. -/
  stack : List FlexBuffer
  condition : StartCondition
  /-- The calls of `fopen`. -/
  calls : Nat
  opened : List Nat
  closed : List Nat

namespace Flex

/-- `fclose(yyin)`. -/
def fcloseYyin (s : Flex) : Flex := { s with closed := s.closed ++ [s.yyin] }

/-- `yypush_buffer_state`. -/
def yypushBufferState (s : Flex) (buffer : FlexBuffer) : Flex :=
  { s with stack := buffer :: s.stack, yyin := buffer.file }

/-- `yypop_buffer_state`: the file of the previous buffer, if there is one. -/
def yypopBufferState (s : Flex) : Flex :=
  match s.stack with
  | _ :: previous :: stack => { s with stack := previous :: stack, yyin := previous.file }
  | _ => { s with stack := [] }

/-- `fopen`: the answer to each of its calls. -/
abbrev Fopen := Nat → List Char → Option (List Char)

/-- The action of an included name. -/
def openInclude (fopen : Fopen) (s : Flex) (yytext : List Char) : Flex :=
  match fopen s.calls yytext with
  | some newfile =>
    { (s.yypushBufferState ⟨s.calls,newfile⟩) with
      calls := s.calls + 1
      opened := s.opened ++ [s.calls]
      condition := .initial }
  | none => { s with calls := s.calls + 1, condition := .initial }

/-- What is left of the current buffer. -/
def advance (s : Flex) (n : Nat) : Flex :=
  match s.stack with
  | [] => s
  | buffer :: stack => { s with stack := { buffer with text := buffer.text.drop n } :: stack }

inductive Scanned where
  | token (token : Token) (rest : Flex)
  | skip (rest : Flex)
  | terminate (rest : Flex)

/-- One round of `yylex`. -/
def scan (fopen : Fopen) (s : Flex) : Scanned :=
  match s.stack with
  | [] => .terminate s
  | ⟨_,[]⟩ :: _ =>
    -- `<<EOF>>`
    let s := s.fcloseYyin.yypopBufferState
    if s.stack = [] then .terminate s else .skip s
  | ⟨_,text⟩ :: _ =>
    match chooseRule s.condition text with
    | none => .terminate s
    | some (n,action) =>
      let yytext := text.take n
      let s := s.advance n
      match action with
      | .ignore => .skip s
      | .token value => .token (value yytext) s
      | .beginInclude => .skip { s with condition := .includeCtx }
      | .openInclude => .skip (s.openInclude fopen yytext)

/-- The loop of `free_flex_buffers`, once for each buffer. -/
def closeBuffers : (buffers : List FlexBuffer) → Flex → Flex
  | [], s => s
  | _ :: buffers, s => closeBuffers buffers s.fcloseYyin.yypopBufferState

def freeFlexBuffers (s : Flex) : Flex := closeBuffers s.stack s

/-- `yyparse`, which asks `yylex` for one token after the other and stops at the first that it
cannot use. `none` is a run of more than `fuel` rounds. -/
def yyparse (fopen : Fopen) : (fuel : Nat) → Flex → Parser → (oracle : Nat → Bool) → Option (Option AppConfig × Flex)
  | 0, _, _, _ => none
  | fuel+1, s, p, oracle =>
    match s.scan fopen with
    | .skip s => yyparse fopen fuel s p oracle
    | .terminate s =>
      match p.mode with
      | .file => some (some p.config,s)
      | _ => some (none,s)
    | .token token s =>
      match (feed p token).run.run oracle with
      | (none,_) => some (none,s)
      | (some p,oracle) => yyparse fopen fuel s p oracle

end Flex

/-- What a load returns, and the files that it opened and closed. -/
structure Loaded where
  config : Option AppConfig
  opened : List Nat
  closed : List Nat

/-- `app_config_load` with its files. `yylexInit` is whether `yylex_init` succeeds. -/
def appConfigLoadFiles (fopen : Flex.Fopen) (yylexInit : Bool) (fuel : Nat) (argv : List String) (oracle : Nat → Bool) :
    Option Loaded :=
  match checkPtr.run.run oracle with
  | (none,_) => some ⟨none,[],[]⟩
  | (some _,oracle) =>
    match configFile "/etc/natasha.conf" argv with
    | none => some ⟨none,[],[]⟩
    | some file =>
      match fopen 0 file.toList with
      | none => some ⟨none,[],[]⟩
      | some text =>
        if !yylexInit then
          some ⟨none,[0],[0]⟩
        else
          (Flex.yyparse fopen fuel ⟨0,[⟨0,text⟩],.initial,1,[0],[]⟩ ⟨.zeroed,.file⟩ oracle).map fun r =>
            let s := r.2.freeFlexBuffers
            ⟨r.1,s.opened,s.closed⟩

namespace Flex

/-! ## Open files are on the stack -/

/-- The files that are not closed are those of the buffers, and `yyin` is the topmost. -/
structure Kept (s : Flex) : Prop where
  files : s.opened.Perm (s.closed ++ s.stack.map FlexBuffer.file)
  nodup : s.opened.Nodup
  fresh : ∀ file ∈ s.opened, file < s.calls
  current : ∀ buffer ∈ s.stack.head?, s.yyin = buffer.file

section Kept

variable {s : Flex} {fopen : Fopen}

theorem yypopBufferState_stack (s : Flex) : s.yypopBufferState.stack = s.stack.tail := by
  rcases stack : s.stack with _ | ⟨buffer,_ | ⟨previous,rest⟩⟩ <;> simp [yypopBufferState,stack]

theorem yypopBufferState_frame (s : Flex) : s.yypopBufferState.opened = s.opened ∧
    s.yypopBufferState.closed = s.closed ∧ s.yypopBufferState.calls = s.calls := by
  rcases stack : s.stack with _ | ⟨buffer,_ | ⟨previous,rest⟩⟩ <;> simp [yypopBufferState,stack]

theorem yypopBufferState_current (s : Flex) :
    ∀ buffer ∈ s.yypopBufferState.stack.head?, s.yypopBufferState.yyin = buffer.file := by
  rcases stack : s.stack with _ | ⟨buffer,_ | ⟨previous,rest⟩⟩ <;> simp [yypopBufferState,stack]

/-- `fclose(yyin)` and the pop: the topmost file goes from the stack to the closed ones. -/
theorem Kept.pop (kept : s.Kept) (stack : s.stack = buffer :: rest) : s.fcloseYyin.yypopBufferState.Kept where
  files := by
    obtain ⟨opened,closed,_⟩ := yypopBufferState_frame s.fcloseYyin
    have top : s.yyin = buffer.file := kept.current buffer (by rw [stack]; rfl)
    have files := kept.files
    rw [stack,List.map_cons] at files
    rw [opened,closed,yypopBufferState_stack]
    simpa [fcloseYyin,top,stack] using files
  nodup := by
    rw [(yypopBufferState_frame _).1]
    exact kept.nodup
  fresh := by
    obtain ⟨opened,_,calls⟩ := yypopBufferState_frame s.fcloseYyin
    rw [opened,calls]
    exact kept.fresh
  current := yypopBufferState_current _

theorem Kept.advance (kept : s.Kept) (n : Nat) : (s.advance n).Kept := by
  rcases stack : s.stack with _ | ⟨buffer,rest⟩
  · rw [Flex.advance,stack]
    exact kept
  · obtain ⟨files,nodup,fresh,current⟩ := kept
    rw [stack] at files current
    rw [Flex.advance,stack]
    refine ⟨files,nodup,fresh,?_⟩
    rintro _ ⟨⟩
    exact current buffer rfl

theorem Kept.begin (kept : s.Kept) (condition : StartCondition) : Kept { s with condition := condition } :=
  ⟨kept.files,kept.nodup,kept.fresh,kept.current⟩

theorem Kept.openInclude (kept : s.Kept) (yytext : List Char) : (s.openInclude fopen yytext).Kept := by
  rw [Flex.openInclude]
  split
  · refine ⟨?_,?_,?_,?_⟩
    · show (s.opened ++ [s.calls]).Perm (s.closed ++ s.calls :: s.stack.map FlexBuffer.file)
      exact ((kept.files.append_right _).trans (List.perm_append_singleton ..)).trans List.perm_middle.symm
    · have new : s.calls ∉ s.opened := fun member => Nat.lt_irrefl _ (kept.fresh _ member)
      exact (List.perm_append_singleton s.calls s.opened).nodup_iff.mpr (List.nodup_cons.mpr ⟨new,kept.nodup⟩)
    · intro file member
      rcases List.mem_append.mp member with old | new
      · exact Nat.lt_succ_of_lt (kept.fresh file old)
      · rw [List.mem_singleton.mp new]
        exact Nat.lt_succ_self _
    · rintro _ ⟨⟩
      rfl
  · exact ⟨kept.files,kept.nodup,fun file member => Nat.lt_succ_of_lt (kept.fresh file member),kept.current⟩

/-- The scanner that a round leaves. -/
def Scanned.rest : Scanned → Flex
  | .token _ rest => rest
  | .skip rest => rest
  | .terminate rest => rest

theorem Kept.scan (kept : s.Kept) : (s.scan fopen).rest.Kept := by
  unfold Flex.scan
  split
  · exact kept
  · rename_i stack
    dsimp only
    split
    · exact kept.pop stack
    · exact kept.pop stack
  · split
    · exact kept
    · rename_i n action _
      cases action with
      | ignore => exact kept.advance n
      | token value => exact kept.advance n
      | beginInclude => exact (kept.advance n).begin _
      | openInclude => exact (kept.advance n).openInclude _

theorem Kept.yyparse (kept : s.Kept) {p : Parser} {oracle : Nat → Bool} {r : Option AppConfig × Flex}
    (returns : Flex.yyparse fopen fuel s p oracle = some r) : r.2.Kept := by
  induction fuel generalizing s p oracle with
  | zero => cases returns
  | succ fuel ih =>
    have round : (s.scan fopen).rest.Kept := kept.scan
    rw [Flex.yyparse] at returns
    cases scanned : s.scan fopen with
    | skip s' =>
      rw [scanned] at returns round
      exact ih round returns
    | terminate s' =>
      rw [scanned] at returns round
      dsimp only at returns
      split at returns <;> cases returns <;> exact round
    | token token s' =>
      rw [scanned] at returns round
      dsimp only at returns
      split at returns
      · cases returns
        exact round
      · exact ih round returns

/-- Nothing is left open, and nothing is closed twice. -/
theorem Kept.freeFlexBuffers (kept : s.Kept) :
    s.freeFlexBuffers.closed.Perm s.freeFlexBuffers.opened ∧ s.freeFlexBuffers.opened.Nodup := by
  unfold Flex.freeFlexBuffers
  generalize stack : s.stack = buffers
  induction buffers generalizing s with
  | nil =>
    have files := kept.files
    rw [stack,List.map_nil,List.append_nil] at files
    exact ⟨files.symm,kept.nodup⟩
  | cons buffer buffers ih =>
    apply ih (kept.pop stack)
    rw [yypopBufferState_stack]
    exact congrArg List.tail stack

end Kept

/-! ## Rounds end -/

section Rounds

variable {s : Flex} {fopen : Fopen}

/-- On a text that is not empty some rule takes a character. -/
theorem chooseRule_progress (condition : StartCondition) (c : Char) (text : List Char) :
    ∃ n action, chooseRule condition (c :: text) = some (n+1,action) := by
  have last : lexRules = lexRules.take 32 ++ [⟨.any,.set fun _ => true,.token fun _ => .oops⟩] := rfl
  have any : (Regex.Pattern.set fun _ : Char => true).Matches [c] := .set rfl
  obtain ⟨m,longest,positive⟩ := Regex.Pattern.longest_of_matches any text
  rw [chooseRule_eq,last,List.foldl_append,List.foldl_cons,List.foldl_nil]
  generalize List.foldl _ none (lexRules.take 32) = best
  rw [List.cons_append,List.nil_append] at longest
  obtain ⟨m,rfl⟩ : ∃ k, m = k+1 := ⟨m-1,by simp at positive; omega⟩
  unfold takeRule
  rw [if_pos (.inl rfl),longest]
  rcases best with _ | ⟨n,action⟩
  · exact ⟨m,_,rfl⟩
  · by_cases shorter : n < m+1
    · exact ⟨m,_,if_pos shorter⟩
    · obtain ⟨n,rfl⟩ : ∃ k, n = k+1 := ⟨n-1,by omega⟩
      exact ⟨n,action,if_neg shorter⟩

/-- The characters still to be read, and the ends of the files. -/
def weight (s : Flex) : Nat := (s.stack.map fun buffer => buffer.text.length + 1).sum

theorem weight_cons {buffer : FlexBuffer} {rest : List FlexBuffer} (stack : s.stack = buffer :: rest) :
    s.weight = buffer.text.length + 1 + (rest.map fun buffer => buffer.text.length + 1).sum := by
  rw [weight,stack,List.map_cons,List.sum_cons]

theorem weight_pop {buffer : FlexBuffer} {rest : List FlexBuffer} (stack : s.stack = buffer :: rest) :
    s.fcloseYyin.yypopBufferState.weight < s.weight := by
  have popped : s.fcloseYyin.yypopBufferState.stack = rest :=
    (yypopBufferState_stack _).trans (congrArg List.tail stack)
  rw [weight_cons stack,weight,popped]
  omega

theorem weight_advance {buffer : FlexBuffer} {rest : List FlexBuffer} (stack : s.stack = buffer :: rest)
    (some : buffer.text ≠ []) (n : Nat) : (s.advance (n+1)).weight < s.weight := by
  have left : (s.advance (n+1)).stack = { buffer with text := buffer.text.drop (n+1) } :: rest := by
    rw [advance,stack]
  have positive := List.length_pos_iff.mpr some
  rw [weight_cons stack,weight_cons left,List.length_drop]
  omega

/-- What a round does to the calls of `fopen` and to the weight. -/
inductive Progress (bound : Nat) (s s' : Flex) : Prop
  | opens (more : s.calls < bound) (calls : s'.calls = s.calls + 1)
  | reads (calls : s.calls ≤ s'.calls) (lighter : s'.weight < s.weight)

/-- A round that does not end the scan reads something or opens a file. -/
theorem scan_progress {bound : Nat} (finite : ∀ n ≥ bound, ∀ name, fopen n name = none) :
    (∃ s', s.scan fopen = .terminate s') ∨ Progress bound s (s.scan fopen).rest := by
  unfold scan
  split
  · exact .inl ⟨_,rfl⟩
  · rename_i stack
    dsimp only
    split
    · exact .inl ⟨_,rfl⟩
    · have calls : s.fcloseYyin.yypopBufferState.calls = s.calls := (yypopBufferState_frame _).2.2
      exact .inr (.reads calls.ge (weight_pop stack))
  · rename_i file text rest some stack
    obtain ⟨c,text,rfl⟩ := List.exists_cons_of_ne_nil some
    obtain ⟨n,action,chosen⟩ := chooseRule_progress s.condition c text
    have lighter := weight_advance stack some n
    have calls : (s.advance (n+1)).calls = s.calls := by rw [advance,stack]
    rw [chosen]
    right
    cases action with
    | ignore => exact .reads calls.ge lighter
    | token value => exact .reads calls.ge lighter
    | beginInclude => exact .reads calls.ge lighter
    | openInclude =>
      show Progress bound s ((s.advance (n+1)).openInclude fopen _)
      rw [openInclude]
      split
      · rename_i found
        refine .opens ?_ (congrArg (· + 1) calls)
        by_contra many
        rw [calls,finite s.calls (by omega)] at found
        cases found
      · exact .reads (by dsimp only; omega) lighter

theorem Progress.lex {bound : Nat} {s s' : Flex} (progress : Progress bound s s') :
    Prod.Lex (· < ·) (· < ·) (bound - s'.calls,s'.weight) (bound - s.calls,s.weight) := by
  rw [Prod.lex_def]
  cases progress with
  | opens more calls => exact .inl (by dsimp only; omega)
  | reads calls lighter =>
    rcases Nat.lt_or_ge (bound - s'.calls) (bound - s.calls) with fewer | same
    · exact .inl fewer
    · exact .inr ⟨by dsimp only; omega,lighter⟩

/-- Lexicographic induction: on the files that can still be opened, then on what is left to be
read. -/
theorem yyparse_returns {bound : Nat} (finite : ∀ n ≥ bound, ∀ name, fopen n name = none) (s : Flex) (p : Parser)
    (oracle : Nat → Bool) : ∃ fuel r, yyparse fopen fuel s p oracle = some r := by
  generalize measure : (bound - s.calls,s.weight) = m
  induction m using (Prod.instWellFoundedRelation (α := Nat) (β := Nat)).wf.induction generalizing s p oracle with
  | _ m ih =>
    subst m
    have progress := scan_progress (s := s) finite
    cases scanned : s.scan fopen with
    | terminate s' =>
      have returned : ∃ r, yyparse fopen 1 s p oracle = some r := by
        rw [yyparse,scanned]
        dsimp only
        split <;> exact ⟨_,rfl⟩
      exact ⟨1,returned⟩
    | skip s' =>
      rw [scanned] at progress
      have lighter : Progress bound s s' := progress.resolve_left (by rintro ⟨_,⟨⟩⟩)
      obtain ⟨fuel,r,returns⟩ := ih _ lighter.lex s' p oracle rfl
      refine ⟨fuel+1,r,?_⟩
      rw [yyparse,scanned]
      exact returns
    | token token s' =>
      rw [scanned] at progress
      have lighter : Progress bound s s' := progress.resolve_left (by rintro ⟨_,⟨⟩⟩)
      rcases fed : (feed p token).run.run oracle with ⟨_ | p',oracle'⟩
      · refine ⟨1,(none,s'),?_⟩
        rw [yyparse,scanned]
        dsimp only
        rw [fed]
      · obtain ⟨fuel,r,returns⟩ := ih _ lighter.lex s' p' oracle' rfl
        refine ⟨fuel+1,r,?_⟩
        rw [yyparse,scanned]
        dsimp only
        rw [fed]
        exact returns

end Rounds

/-! ## Without the files

On files that `fopen` always finds the same, forgetting the handles leaves the scanner of
Natasha.Lexer. -/

section Erase

variable {s : Flex} {files : List Char → Option (List Char)}

def scanner (s : Flex) : Scanner := ⟨s.stack.map FlexBuffer.text,s.condition⟩

def Scanned.erase : Scanned → Natasha.Scanned
  | .token found rest => .token found rest.scanner
  | .skip rest => .skip rest.scanner
  | .terminate _ => .terminate

theorem scan_erase (files : List Char → Option (List Char)) (s : Flex) :
    s.scanner.scan files = (s.scan fun _ => files).erase := by
  obtain ⟨yyin,stack,condition,calls,opened,closed⟩ := s
  rcases stack with _ | ⟨⟨file,_ | ⟨c,text⟩⟩,rest⟩
  · rfl
  · rcases rest with _ | ⟨previous,rest⟩ <;> rfl
  · show (match chooseRule condition (c :: text) with | none => _ | some (n,action) => _) =
      Scanned.erase (match chooseRule condition (c :: text) with | none => _ | some (n,action) => _)
    rcases chooseRule condition (c :: text) with _ | ⟨n,action⟩
    · rfl
    · cases action with
      | ignore => rfl
      | token value => rfl
      | beginInclude => rfl
      | openInclude =>
        show (match files ((c :: text).take n) with | some newfile => _ | none => _) =
          Scanned.erase (.skip (openInclude (fun _ => files) _ ((c :: text).take n)))
        rw [openInclude]
        cases files ((c :: text).take n) <;> rfl

/-- The end of `yyparse`, at the end of the file. -/
def accept (p : Parser) : Parse AppConfig :=
  match p.mode with
  | .file => return p.config
  | _ => failure

theorem yyparse_erase {p : Parser} {oracle : Nat → Bool} {tokens : List Token}
    (scanned : yylexAll files fuel s.scanner = some tokens) :
    (yyparse (fun _ => files) fuel s p oracle).map Prod.fst =
      some ((feedAll p tokens >>= accept).run.run oracle).1 := by
  induction fuel generalizing s p oracle tokens with
  | zero => cases scanned
  | succ fuel ih =>
    rw [yylexAll,scan_erase] at scanned
    rw [yyparse]
    cases round : s.scan fun _ => files with
    | terminate s' =>
      rw [round] at scanned
      cases scanned
      rw [feedAll,List.foldlM_nil,pure_bind,accept]
      dsimp only
      split <;> rfl
    | skip s' =>
      rw [round] at scanned
      exact ih scanned
    | token token s' =>
      rw [round] at scanned
      obtain ⟨tokens,left,rfl⟩ := Option.map_eq_some_iff.mp scanned
      rw [feedAll,List.foldlM_cons,bind_assoc]
      dsimp only
      rcases fed : (feed p token).run.run oracle with ⟨_ | p',oracle'⟩
      · rw [Parse.run_bind_none _ fed]
        rfl
      · rw [Parse.run_bind_some _ fed]
        exact ih left

end Erase

end Flex

/-- A load returns the configuration that Natasha.Lexer computes from the tokens. -/
theorem appConfigLoadFiles_config {files : List Char → Option (List Char)} {fuel : Nat} {argv : List String}
    {tokens : List Token} (read : configTokens files fuel argv = some tokens) (oracle : Nat → Bool) :
    (appConfigLoadFiles (fun _ => files) true fuel argv oracle).map Loaded.config =
      some ((appConfigLoad files fuel argv).run.run oracle).1 := by
  obtain ⟨file,named,text,found,scanned⟩ : ∃ file, configFile "/etc/natasha.conf" argv = some file ∧
      ∃ text, files file.toList = some text ∧ yylexAll files fuel ⟨[text],.initial⟩ = some tokens := by
    simpa [configTokens,Option.bind_eq_some_iff] using read
  unfold appConfigLoadFiles appConfigLoad
  rw [named,read]
  dsimp only
  rw [found]
  rcases first : checkPtr.run.run oracle with ⟨_ | _,oracle'⟩
  · rw [Parse.run_bind_none _ first]
    rfl
  · rw [Parse.run_bind_some _ first]
    have parsed : (Flex.yyparse (fun _ => files) fuel ⟨0,[⟨0,text⟩],.initial,1,[0],[]⟩ ⟨.zeroed,.file⟩ oracle').map
        Prod.fst = _ := Flex.yyparse_erase scanned
    refine Eq.trans ?_ parsed
    exact Option.map_map ..

/-- Every file that a load has opened is closed when it returns, once. -/
theorem appConfigLoadFiles_closed {fopen : Flex.Fopen} {yylexInit : Bool} {fuel : Nat} {argv : List String}
    {oracle : Nat → Bool} {loaded : Loaded}
    (returns : appConfigLoadFiles fopen yylexInit fuel argv oracle = some loaded) :
    loaded.closed.Perm loaded.opened ∧ loaded.opened.Nodup := by
  unfold appConfigLoadFiles at returns
  split at returns
  · cases returns
    exact ⟨.refl _,List.nodup_nil⟩
  · split at returns
    · cases returns
      exact ⟨.refl _,List.nodup_nil⟩
    · split at returns
      · cases returns
        exact ⟨.refl _,List.nodup_nil⟩
      · rename_i text _
        split at returns
        · cases returns
          exact ⟨.refl _,List.nodup_singleton 0⟩
        · obtain ⟨r,parsed,rfl⟩ := Option.map_eq_some_iff.mp returns
          have started : Flex.Kept ⟨0,[⟨0,text⟩],.initial,1,[0],[]⟩ := by
            refine ⟨.refl _,List.nodup_singleton 0,by simp,?_⟩
            rintro _ ⟨⟩
            rfl
          exact (started.yyparse parsed).freeFlexBuffers

/-- A load returns unless files include one another without end. -/
theorem appConfigLoadFiles_returns {fopen : Flex.Fopen} {bound : Nat}
    (finite : ∀ n ≥ bound, ∀ name, fopen n name = none) (yylexInit : Bool) (argv : List String) (oracle : Nat → Bool) :
    ∃ fuel loaded, appConfigLoadFiles fopen yylexInit fuel argv oracle = some loaded := by
  unfold appConfigLoadFiles
  rcases checkPtr.run.run oracle with ⟨_ | _,oracle⟩
  · exact ⟨0,_,rfl⟩
  rcases configFile "/etc/natasha.conf" argv with _ | file
  · exact ⟨0,_,rfl⟩
  dsimp only
  rcases fopen 0 file.toList with _ | text
  · exact ⟨0,_,rfl⟩
  cases yylexInit
  case false => exact ⟨0,_,rfl⟩
  case true =>
    obtain ⟨fuel,r,returned⟩ :=
      Flex.yyparse_returns finite ⟨0,[⟨0,text⟩],.initial,1,[0],[]⟩ ⟨.zeroed,.file⟩ oracle
    exact ⟨fuel,_,congrArg (Option.map _) returned⟩

/-- Whatever the files hold, include and miss, and wherever the parser stops, a load closes each
file that it has opened exactly once, and no other; and it returns when the inclusions end. -/
theorem appConfigLoadFiles_closesOnce (fopen : Flex.Fopen) (yylexInit : Bool) (argv : List String)
    (oracle : Nat → Bool) :
    (∀ fuel loaded, appConfigLoadFiles fopen yylexInit fuel argv oracle = some loaded →
      loaded.opened.Nodup ∧ (∀ file ∈ loaded.opened, loaded.closed.count file = 1) ∧
        ∀ file ∈ loaded.closed, file ∈ loaded.opened) ∧
    ∀ bound, (∀ n ≥ bound, ∀ name, fopen n name = none) →
      ∃ fuel loaded, appConfigLoadFiles fopen yylexInit fuel argv oracle = some loaded := by
  refine ⟨fun fuel loaded returned => ?_,fun bound finite => appConfigLoadFiles_returns finite yylexInit argv oracle⟩
  obtain ⟨same,nodup⟩ := appConfigLoadFiles_closed returned
  refine ⟨nodup,fun file member => ?_,fun file member => same.mem_iff.mp member⟩
  rw [same.count_eq]
  exact List.count_eq_one_of_mem nodup member

/-- An included file with an error, after one that is missing. -/
def brokenInclude : Flex.Fopen
  | 0, _ => some "!include none\nconfig \x7b !include ports\n\x7d".toList
  | 2, _ => some "port 0 mtu ip".toList
  | _, _ => none

example : (appConfigLoadFiles brokenInclude true 40 [] allSucceed).map (fun loaded =>
    (loaded.config.isSome,loaded.opened,loaded.closed)) = some (false,[0,2],[2,0]) := by
  decide +kernel

end Natasha
