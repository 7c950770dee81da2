import Mathlib.Data.Multiset.OrderedMonoid
import Mathlib.Tactic.Abel
import Natasha.Heap
import Natasha.OutPorts

/-! The balance of the heap over a load. While the parser runs, every block that was allocated
is owned by the configuration, by a value on the stack, or lost: a field that pointed to it was
overwritten. Lost blocks stay lost, and a text that is refused loses the stack. -/
namespace Natasha.Heap

/-! ## Frees -/

/-- The code frees `blocks` in this order and does nothing else. -/
def Frees (code : Alloc Unit) (blocks : List Nat) : Prop :=
  ∀ m, code m = ((),{ m with freed := blocks.reverse ++ m.freed })

namespace Frees

theorem nil : Frees (pure ()) [] := fun _ => rfl

theorem rteFree (block : Option Nat) : Frees (Heap.rteFree block) block.toList := by
  cases block with
  | none => exact nil
  | some block => exact fun _ => rfl

theorem append {first second : Alloc Unit} {blocks more : List Nat} (frees : Frees first blocks)
    (rest : Frees second more) : Frees (first >>= fun _ => second) (blocks ++ more) := by
  intro m
  change second (first m).2 = _
  rw [frees m,rest,List.reverse_append,List.append_assoc]

theorem forM {list : List α} {code : α → Alloc Unit} {blocks : α → List Nat}
    (each : ∀ a, Frees (code a) (blocks a)) : Frees (list.forM code) (list.flatMap blocks) := by
  induction list with
  | nil => exact nil
  | cons a list ih =>
    rw [List.flatMap_cons]
    exact (each a).append ih

end Frees

/-- The blocks of a tree, in the order `reset_rules` frees them. -/
def Tree.blocks : Tree → List Nat
  | .null => []
  | .node block data _ left right => left.blocks ++ (right.blocks ++ (data.toList ++ [block]))

theorem frees_resetRules (t : Tree) : Frees (resetRules t) t.blocks := by
  induction t with
  | null => exact .nil
  | node block data kind left right ihl ihr =>
    exact ihl.append (ihr.append ((Frees.rteFree data).append (.rteFree (some block))))

def Row.blocks (row : Row) : List Nat :=
  (List.range lkpSs).flatMap (fun j => ((row.2 j).map Prod.fst).toList) ++ [row.1]

def Table.blocks : Table → List Nat
  | none => []
  | some (table,first) => (List.range lkpFs).flatMap (fun i => ((first i).map Row.blocks).getD []) ++ [table]

theorem frees_natResetLookupTable (t : Table) : Frees (natResetLookupTable t) (Table.blocks t) := by
  rcases t with _ | ⟨table,first⟩
  · exact .nil
  refine Frees.append (Frees.forM fun i => ?_) (.rteFree (some table))
  rcases first i with _ | ⟨row,second⟩
  · exact .nil
  · exact (Frees.forM fun j => .rteFree _).append (.rteFree (some row))

theorem frees_freeIps (ips : List (Nat × (U32 × U16))) : Frees (freeIps ips) (ips.map Prod.fst) := by
  induction ips with
  | nil => exact .nil
  | cons ip next ih => exact (Frees.rteFree (some ip.1)).append ih

/-- What `app_config_free` frees. -/
def Config.blocks (config : Config) : List Nat :=
  (List.range natashaMaxEthports).flatMap (fun (i : Nat) => (config.ports i).ipAddresses.map Prod.fst) ++
    (Table.blocks config.natLookup ++ (config.rules.blocks ++ [config.block]))

theorem frees_appConfigFree (config : Config) : Frees (appConfigFree config) config.blocks :=
  (Frees.forM fun (_ : Nat) => frees_freeIps _).append ((frees_natResetLookupTable _).append
    ((frees_resetRules _).append (.rteFree (some config.block))))

/-! ## Ownership -/

/-- The blocks of a configuration, a tree or a list of them, without their order. -/
def Tree.bag (t : Tree) : Multiset Nat := t.blocks

@[simp] theorem Tree.bag_null : Tree.null.bag = 0 := rfl

@[simp] theorem Tree.bag_node (block : Nat) (data : Option Nat) (kind : Kind) (left right : Tree) :
    (Tree.node block data kind left right).bag = left.bag + (right.bag + (data.toList + {block})) := rfl

theorem Tree.bag_eq_zero (t : Tree) : t.bag = 0 ↔ t = .null := by
  cases t with
  | null => simp
  | node block data kind left right => simp

def bags (trees : List Tree) : Multiset Nat := (trees.map Tree.bag).sum

@[simp] theorem bags_nil : bags [] = 0 := rfl

@[simp] theorem bags_cons (t : Tree) (trees : List Tree) : bags (t :: trees) = t.bag + bags trees := rfl

@[simp] theorem bags_append (trees more : List Tree) : bags (trees ++ more) = bags trees + bags more := by
  simp [bags]

theorem bags_eq_zero (trees : List Tree) : bags trees = 0 ↔ ∀ t ∈ trees, t = .null := by
  induction trees with
  | nil => simp
  | cons t trees ih => rw [bags_cons,add_eq_zero,ih,Tree.bag_eq_zero,List.forall_mem_cons]

def Pending.trees : Pending → List Tree
  | none => []
  | some (lhs,_) => [lhs]

def Open.trees : Open → List Tree
  | .ifBody prev what => [prev,what]
  | .elseBody prev what body => [prev,what,body]

/-- The trees on the stack. -/
def StmtMode.trees : StmtMode → List Tree
  | .cond frames pending | .condField frames pending _ | .condIn frames pending _ | .condVlan frames pending =>
    frames.flatMap Pending.trees ++ pending.trees
  | .operand frames value => frames.flatMap Pending.trees ++ [value]
  | .condEnd what => [what]
  | .afterIf what body | .tokElse what body => [what,body]
  | _ => []

def Mode.trees : Mode → List Tree
  | .rules opens content mode => opens.flatMap Open.trees ++ content :: mode.trees
  | _ => []

theorem Pending.erase_nodes (pending : Pending) : pending.erase.nodes = pending.trees.map Tree.erase := by
  rcases pending with _ | ⟨lhs,op⟩ <;> rfl

theorem frames_erase_nodes (frames : List Pending) :
    (frames.map Pending.erase).flatMap Natasha.Pending.nodes = (frames.flatMap Pending.trees).map Tree.erase := by
  induction frames with
  | nil => rfl
  | cons pending frames ih => simp [ih,Pending.erase_nodes]

theorem opens_erase_nodes (opens : List Open) :
    (opens.map Open.erase).flatMap Natasha.Open.nodes = (opens.flatMap Open.trees).map Tree.erase := by
  induction opens with
  | nil => rfl
  | cons first opens ih => cases first <;> simp [ih,Open.erase,Open.trees,Natasha.Open.nodes]

theorem StmtMode.erase_nodes (mode : StmtMode) : mode.erase.nodes = mode.trees.map Tree.erase := by
  cases mode <;> simp [StmtMode.erase,StmtMode.trees,Natasha.StmtMode.nodes,frames_erase_nodes,Pending.erase_nodes]

theorem Mode.erase_nodes (mode : Mode) : mode.erase.nodes = mode.trees.map Tree.erase := by
  cases mode with
  | rules opens content mode =>
    simp [Mode.erase,Mode.trees,Natasha.Mode.nodes,opens_erase_nodes,StmtMode.erase_nodes]
  | _ => rfl

def Config.bag (config : Config) : Multiset Nat := config.blocks

/-- What is reachable while the parser runs. -/
def Parser.bag (p : Parser) : Multiset Nat := p.config.bag + bags p.mode.trees

/-! ## Steps of the parser -/

/-- The memory of a load in which no allocation fails, before anything is freed. -/
def Memory.fresh (next : Nat) : Memory := ⟨next,[],allSucceed⟩

/-- The parse returns a value that owns `base` and the blocks it allocated. -/
def Makes (parse : Parse α) (bag : α → Multiset Nat) (base : Multiset Nat) : Prop :=
  ∀ n, ∃ a k, parse.run (.fresh n) = (some a,.fresh (n+k)) ∧ bag a = base + List.range' n k

/-- The parse returns a value, and some block is lost. -/
def Loses (parse : Parse α) (bag : α → Multiset Nat) (base : Multiset Nat) : Prop :=
  ∀ n, ∃ a k lost, parse.run (.fresh n) = (some a,.fresh (n+k)) ∧ bag a + lost = base + List.range' n k ∧ lost ≠ 0

/-- The parse fails, after `k` allocations. -/
def Refuses (parse : Parse α) (k : Nat) : Prop := ∀ n, parse.run (.fresh n) = (none,.fresh (n+k))

theorem bag_range' (n k l : Nat) :
    (List.range' n k : Multiset Nat) + List.range' (n+k) l = (List.range' n (k+l) : Multiset Nat) := by
  rw [Multiset.coe_add,List.range'_append_1]

theorem run_bind {parse : Parse α} {next : α → Parse β} (m : Memory) :
    (parse >>= next).run m = (match (parse.run m).1 with
      | none => pure none
      | some a => (next a).run : Alloc (Option β)) (parse.run m).2 := by
  rw [OptionT.run_bind,Option.elimM]
  change Option.elim (parse.run m).1 (pure none) (fun a => (next a).run) (parse.run m).2 = _
  cases (parse.run m).1 <;> rfl

section Bind

variable {parse : Parse α} {next : α → Parse β} {bag : α → Multiset Nat} {bag' : β → Multiset Nat}
  {base rest : Multiset Nat}

theorem Makes.pure {a : α} (same : bag a = base) : Makes (Pure.pure a) bag base :=
  fun _ => ⟨a,0,rfl,by simp [same]⟩

theorem Makes.bind (first : Makes parse bag base) (second : ∀ a, Makes (next a) bag' (bag a + rest)) :
    Makes (parse >>= next) bag' (base + rest) := by
  intro n
  obtain ⟨a,k,run,owned⟩ := first n
  obtain ⟨b,l,run',owned'⟩ := second a (n+k)
  refine ⟨b,k+l,?_,?_⟩
  · rw [run_bind,run,← Nat.add_assoc]
    exact run'
  · rw [owned',owned,← bag_range']
    abel

theorem Makes.checkPtr : Makes checkPtr (fun block => {block}) 0 := fun n => ⟨n,1,rfl,by simp⟩

theorem Makes.of_eq {base' : Multiset Nat} (makes : Makes parse bag base) (same : base = base') :
    Makes parse bag base' :=
  same ▸ makes

theorem Refuses.fail : Refuses (failure : Parse α) 0 := fun _ => rfl

end Bind

/-! ### Trees -/

theorem makes_newNode (kind : Kind) (left right : Tree) :
    Makes (newNode kind left right) Tree.bag (left.bag + right.bag) := by
  refine (Makes.checkPtr.bind fun block => Makes.pure ?_).of_eq (zero_add _)
  rw [Tree.bag_node]
  simp only [Option.toList_none,Multiset.coe_nil]
  abel

theorem makes_newNodeWithData (action : Action) : Makes (newNodeWithData action) Tree.bag 0 := by
  refine (Makes.checkPtr.bind fun block => (Makes.checkPtr.bind fun data => Makes.pure ?_).of_eq (zero_add _)).of_eq
    (zero_add 0)
  rw [Tree.bag_node]
  simp only [Tree.bag_null,Option.toList_some,Multiset.coe_singleton]
  abel

theorem makes_rulesContent (prev new : Tree) : Makes (rulesContent prev new) Tree.bag (prev.bag + new.bag) := by
  unfold rulesContent
  split
  · exact .pure (by simp)
  · exact .pure (by simp)
  · exact makes_newNode .seq prev new

theorem makes_rulesIf (what body other : Tree) :
    Makes (rulesIf what body other) Tree.bag (what.bag + body.bag + other.bag) := by
  refine (Makes.checkPtr.bind fun ifBlock => (Makes.checkPtr.bind fun condBlock => Makes.pure ?_).of_eq
    (zero_add _)).of_eq (zero_add _)
  rw [Tree.bag_node,Tree.bag_node]
  simp only [Option.toList_none,Multiset.coe_nil]
  abel

theorem makes_reduceCond (pending : Pending) (value : Tree) :
    Makes (reduceCond pending value) Tree.bag (bags pending.trees + value.bag) := by
  rcases pending with _ | ⟨lhs,op⟩
  · exact .pure (by simp [Pending.trees])
  · have lone : bags (Pending.trees (some (lhs,op))) = lhs.bag := by simp [Pending.trees]
    rw [lone]
    cases op <;> exact makes_newNode _ lhs value

/-! ### The NAT table -/

/-- Replacing one element of a table replaces its blocks. -/
theorem bag_update (g : β → List Nat) (f : Nat → β) (v : β) (n i : Nat) (inside : i < n) :
    ((List.range n).flatMap (fun j => g (Function.update f i v j)) : Multiset Nat) + g (f i) =
      ((List.range n).flatMap (fun j => g (f j)) : Multiset Nat) + g v := by
  induction n with
  | zero => omega
  | succ n ih =>
    simp only [List.range_succ,List.flatMap_append,List.flatMap_singleton,← Multiset.coe_add]
    by_cases last : i = n
    · subst i
      have before : ((List.range n).flatMap fun j => g (Function.update f n v j)) =
          (List.range n).flatMap fun j => g (f j) := by
        apply List.flatMap_congr
        intro j member
        rw [Function.update_of_ne (List.mem_range.mp member).ne]
      rw [before,Function.update_self]
      abel
    · rw [Function.update_of_ne (Ne.symm last)]
      have rest := ih (by omega)
      rw [add_right_comm,rest]
      abel

def Table.bag (t : Table) : Multiset Nat := Table.blocks t

theorem rowOrNew_run (g : Option (Nat × α) → List Nat) (row : Option (Nat × α)) (zeroed : α)
    (missing : g none = []) (new : ∀ block, g (some (block,zeroed)) = [block]) (n : Nat) :
    ∃ r k, rowOrNew row zeroed (.fresh n) = (some r,.fresh (n+k)) ∧
      (g (some r) : Multiset Nat) = (g row : Multiset Nat) + List.range' n k := by
  cases row with
  | none => exact ⟨(n,zeroed),1,rfl,by simp [missing,new]⟩
  | some row => exact ⟨row,0,rfl,by simp⟩

def Row.optionBlocks (row : Option Row) : List Nat := (row.map Row.blocks).getD []

def Column.optionBlocks (column : Option Column) : List Nat := (column.map Prod.fst).toList

theorem Row.bag_update (row : Nat) (second : Nat → Option Column) (j : Nat) (inside : j < lkpSs) (column : Column) :
    (Row.blocks (row,Function.update second j (some column)) : Multiset Nat) + Column.optionBlocks (second j) =
      (Row.blocks (row,second) : Multiset Nat) + {column.1} := by
  have replaced := Heap.bag_update Column.optionBlocks second (some column) lkpSs j inside
  have own : (Column.optionBlocks (some column) : Multiset Nat) = {column.1} := rfl
  simp only [Row.blocks,← Multiset.coe_add]
  rw [add_right_comm]
  change ((List.range lkpSs).flatMap (fun i => Column.optionBlocks _) : Multiset Nat) + _ + _ = _
  rw [replaced,own,add_right_comm]
  rfl

theorem Table.bag_update (table : Nat) (first : Nat → Option Row) (i : Nat) (inside : i < lkpFs) (row : Row) :
    Table.bag (some (table,Function.update first i (some row))) + Row.optionBlocks (first i) =
      Table.bag (some (table,first)) + row.blocks := by
  have replaced := Heap.bag_update Row.optionBlocks first (some row) lkpFs i inside
  have own : (Row.optionBlocks (some row) : Multiset Nat) = row.blocks := rfl
  simp only [Table.bag,Table.blocks,← Multiset.coe_add]
  rw [add_right_comm]
  change ((List.range lkpFs).flatMap (fun i => Row.optionBlocks _) : Multiset Nat) + _ + _ = _
  rw [replaced,own,add_right_comm]
  rfl

theorem bind_run {code : Alloc α} {next : α → Alloc β} {m m' : Memory} (run : code m = (a,m')) :
    (code >>= next) m = next a m' := by
  change next (code m).1 (code m).2 = _
  rw [run]

theorem addRuleToTable_run (t : Table) (key value : U32) (n : Nat) :
    ∃ t' k, addRuleToTable t key value (.fresh n) = (t',.fresh (n+k)) ∧
      Table.bag t' = Table.bag t + List.range' n k := by
  obtain ⟨inFirst,inSecond,_⟩ := indices_in_rows key
  obtain ⟨⟨table,first⟩,k,run,owned⟩ := rowOrNew_run Table.blocks t (fun _ => none) rfl
    (fun block => by simp [Table.blocks]) n
  obtain ⟨⟨row,second⟩,k',run',owned'⟩ := rowOrNew_run Row.optionBlocks (first (fstb key)) (fun _ => none) rfl
    (fun block => by simp [Row.optionBlocks,Row.blocks]) (n+k)
  obtain ⟨⟨column,third⟩,k'',run'',owned''⟩ := rowOrNew_run Column.optionBlocks (second (sndb key)) (fun _ => 0) rfl
    (fun block => rfl) (n+k+k')
  refine ⟨some (table,Function.update first (fstb key) (some (row,Function.update second (sndb key)
    (some (column,Function.update third (l2b key) value))))),k+k'+k'',?_,?_⟩
  · refine (bind_run run).trans ((bind_run run').trans ((bind_run run'').trans ?_))
    rw [Nat.add_assoc,Nat.add_assoc,← Nat.add_assoc k k' k'']
    rfl
  · have inner := Row.bag_update row second (sndb key) inSecond (column,Function.update third (l2b key) value)
    have outer := Table.bag_update table first (fstb key) inFirst (row,Function.update second (sndb key)
      (some (column,Function.update third (l2b key) value)))
    have lowest : ({column} : Multiset Nat) = Column.optionBlocks (second (sndb key)) + List.range' (n+k+k') k'' := owned''
    have middle : (Row.blocks (row,second) : Multiset Nat) = Row.optionBlocks (first (fstb key)) + List.range' (n+k) k' :=
      owned'
    have top : Table.bag (some (table,first)) = Table.bag t + List.range' n k := owned
    have rows : (Row.blocks (row,Function.update second (sndb key) (some (column,Function.update third (l2b key) value))) :
        Multiset Nat) = Row.blocks (row,second) + List.range' (n+k+k') k'' := by
      apply add_right_cancel (b := (Column.optionBlocks (second (sndb key)) : Multiset Nat))
      rw [inner,lowest]
      abel
    apply add_right_cancel (b := (Row.optionBlocks (first (fstb key)) : Multiset Nat))
    rw [outer,rows,middle,top,← bag_range',← bag_range',Nat.add_assoc]
    abel

/-! ### Configuration lines -/

/-- The blocks of the addresses of a port. -/
def Config.cells (config : Config) (port : Int) : Multiset Nat := (config.ports port).ipAddresses.map Prod.fst

theorem Config.bag_eq (config : Config) :
    config.bag = config.cells 0 + config.cells 1 + (Table.bag config.natLookup + (config.rules.bag + {config.block})) := by
  have ports : List.range natashaMaxEthports = [0,1] := rfl
  simp only [Config.bag,Config.blocks,Config.cells,Table.bag,Tree.bag,ports,List.flatMap_cons,List.flatMap_nil,
    List.append_nil,← Multiset.coe_add,Multiset.coe_singleton]
  rfl

theorem makes_configNatRule (config : Config) (fromIp toIp : U32) :
    Makes (configNatRule config fromIp toIp) Config.bag config.bag := by
  intro n
  obtain ⟨t,k,run,owned⟩ := addRuleToTable_run config.natLookup fromIp (rteBeToCpu32 toIp) n
  obtain ⟨t',k',run',owned'⟩ := addRuleToTable_run t toIp (rteBeToCpu32 fromIp) (n+k)
  refine ⟨{ config with natLookup := t' },k+k',?_,?_⟩
  · have both : addRulesToTable config.natLookup fromIp toIp (.fresh n) = ((0,t'),.fresh (n+k+k')) :=
      (bind_run run).trans (bind_run run')
    have lifted : (liftM (addRulesToTable config.natLookup fromIp toIp) : Parse (Int × Table)).run (.fresh n) =
        (some (0,t'),.fresh (n+k+k')) := by
      change (addRulesToTable config.natLookup fromIp toIp >>= fun r => pure (some r)) (.fresh n) = _
      exact bind_run both
    rw [configNatRule,run_bind,lifted,← Nat.add_assoc]
    rfl
  · rw [Config.bag_eq,Config.bag_eq,owned',owned,← bag_range']
    change config.cells 0 + config.cells 1 + _ = _
    abel

theorem configPortExtraIps_run (extra : List (U32 × Int)) (n : Nat) :
    ∃ ips, (configPortExtraIps extra).run (.fresh n) = (some ips,.fresh (n+extra.length)) ∧
      (ips.map Prod.fst : Multiset Nat) = List.range' n extra.length := by
  induction extra with
  | nil => exact ⟨[],rfl,rfl⟩
  | cons first rest ih =>
    obtain ⟨ips,run,owned⟩ := ih
    refine ⟨(n+rest.length,(first.1,.ofInt 16 first.2)) :: ips,?_,?_⟩
    · rw [configPortExtraIps,run_bind,run]
      rfl
    · rw [List.map_cons,← Multiset.cons_coe,owned,List.length_cons,List.range'_1_concat,← Multiset.coe_add,
        Multiset.coe_singleton,← Multiset.singleton_add]
      exact add_comm _ _

theorem configPort_refuses (config : Config) (port mtu : Int) (first : U32 × Int) (extra : List (U32 × Int))
    (many : port ≥ rteMaxEthports) : Refuses (configPort config port mtu first extra) extra.length := by
  intro n
  obtain ⟨ips,run,_⟩ := configPortExtraIps_run extra n
  rw [configPort,run_bind,run]
  simp only [many,if_true]
  rfl

/-- The line is stored: the cells of its port are the blocks it allocated. -/
theorem configPort_run (config : Config) (port mtu : Int) (first : U32 × Int) (extra : List (U32 × Int))
    (few : ¬port ≥ rteMaxEthports) (n : Nat) :
    ∃ cell : PortConfig, (configPort config port mtu first extra).run (.fresh n) =
      (some { config with ports := Function.update config.ports port cell },.fresh (n+(extra.length+1))) ∧
      (cell.ipAddresses.map Prod.fst : Multiset Nat) = List.range' n (extra.length+1) := by
  obtain ⟨ips,run,owned⟩ := configPortExtraIps_run extra n
  refine ⟨⟨(n+extra.length,(first.1,.ofInt 16 first.2)) :: ips,mtu⟩,?_,?_⟩
  · rw [configPort,run_bind,run]
    simp only [few,if_false]
    rfl
  · rw [List.map_cons,← Multiset.cons_coe,owned,List.range'_1_concat,← Multiset.coe_add,Multiset.coe_singleton,
      ← Multiset.singleton_add]
    exact add_comm _ _

section Cells

variable (config : Config) {port : Int} (cell : PortConfig)

/-- A cell of the array that is overwritten. -/
theorem Config.bag_inRange (inside : InRange port) :
    ({ config with ports := Function.update config.ports port cell } : Config).bag + config.cells port =
      config.bag + (cell.ipAddresses.map Prod.fst : Multiset Nat) := by
  have which : port = 0 ∨ port = 1 := by
    have upper : port < 2 := inside.2
    have lower := inside.1
    omega
  rw [Config.bag_eq,Config.bag_eq]
  rcases which with rfl | rfl
  · simp only [Config.cells,Function.update_self,Function.update_of_ne (show (1 : Int) ≠ 0 by decide)]
    abel
  · simp only [Config.cells,Function.update_self,Function.update_of_ne (show (0 : Int) ≠ 1 by decide)]
    abel

/-- A cell behind the array is not freed. -/
theorem Config.bag_outOfRange (outside : ¬InRange port) :
    ({ config with ports := Function.update config.ports port cell } : Config).bag = config.bag := by
  have zero : (0 : Int) ≠ port := fun same => outside (same ▸ ⟨by decide,by decide⟩)
  have one : (1 : Int) ≠ port := fun same => outside (same ▸ ⟨by decide,by decide⟩)
  rw [Config.bag_eq,Config.bag_eq]
  simp only [Config.cells,Function.update_of_ne zero,Function.update_of_ne one]

end Cells

theorem configPort_makes (config : Config) (port mtu : Int) (first : U32 × Int) (extra : List (U32 × Int))
    (few : ¬port ≥ rteMaxEthports) (inside : InRange port) (unused : (config.ports port).ipAddresses = []) :
    Makes (configPort config port mtu first extra) Config.bag config.bag := by
  intro n
  obtain ⟨cell,run,owned⟩ := configPort_run config port mtu first extra few n
  refine ⟨_,_,run,?_⟩
  have stored := config.bag_inRange cell inside
  have none : config.cells port = 0 := by simp [Config.cells,unused]
  rw [none,add_zero] at stored
  rw [stored,owned]

theorem configPort_loses (config : Config) (port mtu : Int) (first : U32 × Int) (extra : List (U32 × Int))
    (few : ¬port ≥ rteMaxEthports) (used : ¬InRange port ∨ (config.ports port).ipAddresses ≠ []) :
    Loses (configPort config port mtu first extra) Config.bag config.bag := by
  intro n
  obtain ⟨cell,run,owned⟩ := configPort_run config port mtu first extra few n
  by_cases inside : InRange port
  · refine ⟨_,_,config.cells port,run,?_,?_⟩
    · rw [config.bag_inRange cell inside,owned]
    · have some := used.resolve_left (not_not_intro inside)
      simpa [Config.cells] using some
  · refine ⟨_,_,(List.range' n (extra.length+1) : Multiset Nat),run,?_,?_⟩
    · rw [config.bag_outOfRange cell inside]
    · simp

/-! ### Tokens -/

end Natasha.Heap

namespace Natasha

/-- The body of an `if` is closed. -/
def StmtMode.isAfterIf : StmtMode → Bool
  | .afterIf _ _ => true
  | _ => false

/-- A section can end here. -/
def StmtMode.closes : StmtMode → Bool
  | .stmt | .afterIf _ _ => true
  | _ => false

/-- The token completes a line for a port that the array does not have or that has addresses
already, or a section over rules that are not empty. -/
def Parser.Overwrites (p : Parser) (token : Token) : Prop :=
  match p.mode with
  | .portAddress port _ _ _ => token = .semicolon ∧ (¬InRange port ∨ p.config.Written port)
  | .rules opens _ mode => opens = [] ∧ mode.closes = true ∧ token = .rbrace ∧ p.config.rules ≠ .null
  | _ => False

/-- Nodes are on the stack. An `if` that is complete has at least its condition. -/
def Mode.Holds (mode : Mode) : Prop :=
  match mode with
  | .rules _ _ stmtMode => stmtMode.isAfterIf = true ∨ ∃ node ∈ mode.nodes, node ≠ .null
  | _ => False

/-- The parser has blocks in its hands when the token is refused. The further addresses of a port
line are allocated before its number is looked at. -/
def Parser.Abandons (p : Parser) (token : Token) : Prop :=
  match p.mode with
  | .portAddress _ _ _ extra => token = .semicolon ∧ extra ≠ []
  | mode => mode.Holds

/-- No token overwrites anything, and the text does not end and is not refused while the parser
has blocks in its hands. -/
def Parser.Keeps (p : Parser) : List Token → Prop
  | [] => ¬p.mode.Holds
  | token :: tokens =>
    match ((feed p token).run.run allSucceed).1 with
    | none => ¬p.Abandons token
    | some p' => ¬p.Overwrites token ∧ p'.Keeps tokens

end Natasha

namespace Natasha.Heap

/-- What becomes of the blocks on a token: the token is read, and blocks are lost when it overwrites
a field, or it is refused after `k` allocations. -/
def Step (parse : Parse Parser) (base : Multiset Nat) (overwrites : Prop) (refusal : Nat → Prop) : Prop :=
  ∀ n, (∃ p k lost, parse.run (.fresh n) = (some p,.fresh (n+k)) ∧ p.bag + lost = base + List.range' n k ∧
      (lost = 0 ↔ ¬overwrites)) ∨
    ∃ k, parse.run (.fresh n) = (none,.fresh (n+k)) ∧ refusal k

section Step

variable {parse : Parse Parser} {base : Multiset Nat} {overwrites : Prop} {refusal : Nat → Prop}

theorem Step.makes (makes : Makes parse Parser.bag base) (kept : ¬overwrites) :
    Step parse base overwrites refusal := by
  intro n
  obtain ⟨p,k,run,owned⟩ := makes n
  exact .inl ⟨p,k,0,run,by rw [add_zero,owned],by simp [kept]⟩

theorem Step.loses (loses : Loses parse Parser.bag base) (lossy : overwrites) :
    Step parse base overwrites refusal := by
  intro n
  obtain ⟨p,k,lost,run,owned,some⟩ := loses n
  exact .inl ⟨p,k,lost,run,owned,by simp [some,lossy]⟩

theorem Step.refuses (k : Nat) (refuses : Refuses parse k) (when : refusal k) :
    Step parse base overwrites refusal :=
  fun n => .inr ⟨k,refuses n,when⟩

theorem Step.mono {base' : Multiset Nat} {overwrites' : Prop} {refusal' : Nat → Prop}
    (step : Step parse base overwrites refusal) (same : base = base') (iff : overwrites ↔ overwrites')
    (weaker : ∀ k, refusal k → refusal' k) : Step parse base' overwrites' refusal' := by
  subst same
  intro n
  rcases step n with ⟨p,k,lost,run,owned,none⟩ | ⟨k,run,when⟩
  · exact .inl ⟨p,k,lost,run,owned,none.trans (not_congr iff)⟩
  · exact .inr ⟨k,run,weaker k when⟩

end Step

theorem makes_endStmt (config : Config) (opens : List Open) (prev new : Tree) :
    Makes (endStmt config opens prev new) Parser.bag
      (prev.bag + new.bag + (config.bag + bags (opens.flatMap Open.trees))) := by
  refine (makes_rulesContent prev new).bind fun content => Makes.pure ?_
  simp only [Parser.bag,Mode.trees,StmtMode.trees,bags_append,bags_cons,bags_nil]
  abel

/-- The node of a statement is made, and the statement ends. -/
theorem Makes.thenEndStmt {parse : Parse Tree} {base : Multiset Nat} (first : Makes parse Tree.bag base)
    (config : Config) (opens : List Open) (prev : Tree) :
    Makes (parse >>= fun node => endStmt config opens prev node) Parser.bag
      (base + (prev.bag + (config.bag + bags (opens.flatMap Open.trees)))) := by
  refine first.bind fun node => (makes_endStmt config opens prev node).of_eq ?_
  abel

theorem Config.bag_rules (config : Config) (content : Tree) :
    ({ config with rules := content } : Config).bag + config.rules.bag = config.bag + content.bag := by
  rw [Config.bag_eq,Config.bag_eq]
  change config.cells 0 + config.cells 1 + _ + _ = _
  abel

theorem feedStmt_step (config : Config) (opens : List Open) (content : Tree) (token : Token) :
    Step (feedStmt config opens content token) (content.bag + (config.bag + bags (opens.flatMap Open.trees)))
      (opens = [] ∧ token = .rbrace ∧ config.rules ≠ .null) (· = 0) := by
  have goto : ∀ mode : StmtMode, mode.trees = [] → token ≠ .rbrace →
      Step (pure ⟨config,.rules opens content mode⟩)
        (content.bag + (config.bag + bags (opens.flatMap Open.trees)))
        (opens = [] ∧ token = .rbrace ∧ config.rules ≠ .null) (· = 0) := by
    intro mode empty other
    refine .makes (Makes.pure ?_) fun lossy => other lossy.2.1
    simp only [Parser.bag,Mode.trees,empty,bags_append,bags_cons,bags_nil]
    abel
  have leaf : ∀ action, token ≠ .rbrace → Step (do endStmt config opens content (← newNode (.action action) .null .null))
      (content.bag + (config.bag + bags (opens.flatMap Open.trees)))
      (opens = [] ∧ token = .rbrace ∧ config.rules ≠ .null) (· = 0) := by
    intro action other
    refine .makes (((makes_newNode _ _ _).thenEndStmt config opens content).of_eq ?_) fun lossy => other lossy.2.1
    simp
  cases token with
  | semicolon =>
    refine .makes ((makes_endStmt config opens content .null).of_eq ?_) (by simp)
    simp
  | tokIf => exact goto .tokIf rfl (by simp)
  | tokNatRewrite => exact goto .natRewrite rfl (by simp)
  | tokOut => exact goto .out rfl (by simp)
  | tokPrint => exact leaf .print (by simp)
  | tokDrop => exact leaf .drop (by simp)
  | rbrace =>
    rcases opens with _ | ⟨⟨prev,what⟩ | ⟨prev,what,body⟩,opens⟩
    · have stored := config.bag_rules content
      have owned : Parser.bag ⟨{ config with rules := content },.file⟩ =
          ({ config with rules := content } : Config).bag := by simp [Parser.bag,Mode.trees]
      by_cases empty : config.rules = .null
      · refine .makes (Makes.pure ?_) (by simp [empty])
        rw [empty,Tree.bag_null,add_zero] at stored
        rw [owned,stored]
        simp [add_comm]
      · refine .loses (fun n => ⟨_,0,config.rules.bag,rfl,?_,?_⟩) (by simp [empty])
        · rw [owned,stored]
          simp [add_comm]
        · rwa [ne_eq,Tree.bag_eq_zero]
    · refine .makes (Makes.pure ?_) (by simp)
      simp only [Parser.bag,Mode.trees,StmtMode.trees,List.flatMap_cons,Open.trees,bags_append,bags_cons,bags_nil]
      abel
    · refine .makes (((makes_rulesIf what body content).thenEndStmt config opens prev).of_eq ?_) (by simp)
      simp only [List.flatMap_cons,Open.trees,bags_append,bags_cons,bags_nil]
      abel
  | _ => exact .refuses 0 .fail rfl

theorem Config.written_erase (config : Config) (port : Int) :
    config.erase.Written port ↔ (config.ports port).ipAddresses ≠ [] := by
  simp [AppConfig.Written,Config.erase]

theorem nodes_null_iff (mode : Mode) : bags mode.trees = 0 ↔ ¬∃ node ∈ mode.erase.nodes, node ≠ .null := by
  rw [bags_eq_zero,Mode.erase_nodes]
  simp

section Rules

variable (config : Config) (opens : List Open) (content : Tree) (mode : StmtMode) (token : Token)

/-- A token that is refused at once. -/
theorem refuses_rules (other : mode.erase.isAfterIf = false) :
    bags (Mode.rules opens content mode).trees = 0 ∧ 0 = 0 ↔
      ¬(Parser.erase ⟨config,.rules opens content mode⟩).Abandons token := by
  rw [nodes_null_iff]
  simp [Parser.Abandons,Parser.erase,Mode.erase,Mode.Holds,other]

/-- The token after a statement. -/
theorem overwrites_rules (closes : mode.erase.closes = true) :
    (opens = [] ∧ token = .rbrace ∧ config.rules ≠ .null) ↔
      (Parser.erase ⟨config,.rules opens content mode⟩).Overwrites token := by
  simp [Parser.Overwrites,Parser.erase,Mode.erase,Config.erase,closes]

/-- A token that no section ends with. -/
theorem keeps_rules (other : token ≠ .rbrace) :
    ¬(Parser.erase ⟨config,.rules opens content mode⟩).Overwrites token :=
  fun lossy => other lossy.2.2.1

end Rules

/-- The end of an `if` without `else` is seen at the token after it. -/
theorem afterIf_run (content what body : Tree) (n : Nat) :
    ∃ prev k, prev.bag = what.bag + body.bag + content.bag + List.range' n (2+k) ∧
      ∀ {α : Type} (next : Tree → Parse α), (do next (← rulesContent content (← rulesIf what body .null))).run (.fresh n) =
        (next prev).run (.fresh (n+(2+k))) := by
  obtain ⟨prev,k,run,owned⟩ := makes_rulesContent content
    (.node n none .ifElse (.node (n+1) none .cond what body) .null) (n+2)
  refine ⟨prev,k,?_,fun next => ?_⟩
  · rw [owned,← bag_range']
    simp only [Tree.bag_node,Tree.bag_null,Option.toList_none,Multiset.coe_nil,List.range'_succ,List.range'_zero,
      ← Multiset.cons_coe,← Multiset.singleton_add]
    abel
  · rw [run_bind]
    change (rulesContent content (.node n none .ifElse (.node (n+1) none .cond what body) .null) >>= next).run
      (.fresh (n+2)) = _
    rw [run_bind,run,← Nat.add_assoc]

theorem afterIf_step (config : Config) (opens : List Open) (content what body : Tree) (token : Token) :
    Step (do
        let prev ← rulesContent content (← rulesIf what body .null)
        feedStmt config opens prev token)
      (what.bag + body.bag + (content.bag + (config.bag + bags (opens.flatMap Open.trees))))
      (opens = [] ∧ token = .rbrace ∧ config.rules ≠ .null) (0 < ·) := by
  intro n
  obtain ⟨prev,k,total,reduced⟩ := afterIf_run content what body n
  have after := reduced fun prev => feedStmt config opens prev token
  rcases feedStmt_step config opens prev token (n+(2+k)) with ⟨p,l,lost,run,owned,iff⟩ | ⟨l,run,none⟩
  · refine .inl ⟨p,2+k+l,lost,?_,?_,iff⟩
    · rw [after,run,Nat.add_assoc n]
    · rw [owned,total,← bag_range' n (2+k) l]
      abel
  · refine .inr ⟨2+k+l,?_,by omega⟩
    rw [after,run,Nat.add_assoc n]

/-- An operand is complete: what waits for it is reduced. -/
theorem makes_operand (config : Config) (opens : List Open) (content : Tree) (frames : List Pending)
    (pending : Pending) (value : Tree) :
    Makes (do return ⟨config,.rules opens content (.operand frames (← reduceCond pending value))⟩) Parser.bag
      (value.bag + (bags (frames.flatMap Pending.trees ++ pending.trees) +
        (content.bag + (config.bag + bags (opens.flatMap Open.trees))))) := by
  have last : ∀ reduced, Makes (pure ⟨config,.rules opens content (.operand frames reduced)⟩) Parser.bag
      (reduced.bag + (bags (frames.flatMap Pending.trees) +
        (content.bag + (config.bag + bags (opens.flatMap Open.trees))))) := by
    intro reduced
    apply Makes.pure
    simp only [Parser.bag,Mode.trees,StmtMode.trees,bags_append,bags_cons,bags_nil]
    abel
  refine ((makes_reduceCond pending value).bind last).of_eq ?_
  rw [bags_append]
  abel

theorem feedRules_step (config : Config) (opens : List Open) (content : Tree) (mode : StmtMode) (token : Token) :
    Step (feedRules config opens content mode token) (Parser.bag ⟨config,.rules opens content mode⟩)
      ((Parser.erase ⟨config,.rules opens content mode⟩).Overwrites token) fun k =>
        bags (Mode.rules opens content mode).trees = 0 ∧ k = 0 ↔
          ¬(Parser.erase ⟨config,.rules opens content mode⟩).Abandons token := by
  have split_bag : Parser.bag ⟨config,.rules opens content mode⟩ =
      bags mode.trees + (content.bag + (config.bag + bags (opens.flatMap Open.trees))) := by
    simp only [Parser.bag,Mode.trees,bags_append,bags_cons]
    abel
  have keeps := keeps_rules config opens content mode token
  rw [split_bag]
  -- the next mode of the same body
  have goto : ∀ (next : StmtMode) (refusal : Nat → Prop), token ≠ .rbrace → bags next.trees = bags mode.trees →
      Step (pure ⟨config,.rules opens content next⟩)
        (bags mode.trees + (content.bag + (config.bag + bags (opens.flatMap Open.trees))))
        ((Parser.erase ⟨config,.rules opens content mode⟩).Overwrites token) refusal := by
    intro next refusal other same
    refine .makes (Makes.pure ?_) (keeps other)
    simp only [Parser.bag,Mode.trees,bags_append,bags_cons,same]
    abel
  -- a statement ends
  have stmt : ∀ (node : Parse Tree) (refusal : Nat → Prop), token ≠ .rbrace → Makes node Tree.bag (bags mode.trees) →
      Step (do endStmt config opens content (← node))
        (bags mode.trees + (content.bag + (config.bag + bags (opens.flatMap Open.trees))))
        ((Parser.erase ⟨config,.rules opens content mode⟩).Overwrites token) refusal :=
    fun node refusal other made => .makes (made.thenEndStmt config opens content) (keeps other)
  unfold feedRules
  split
  case h_1 =>
    refine (feedStmt_step config opens content token).mono (zero_add _).symm
      (overwrites_rules config opens content .stmt token rfl) fun k none => ?_
    subst none
    exact refuses_rules config opens content .stmt token rfl
  case h_3 field => exact stmt _ _ (by simp) (makes_newNodeWithData _)
  case h_8 port mac => exact stmt _ _ (by simp) (makes_newNodeWithData _)
  case h_11 port mac vlan => exact stmt _ _ (by simp) (makes_newNodeWithData _)
  case h_13 frames pending =>
    refine goto (.cond (pending :: frames) none) _ (by simp) ?_
    simp only [StmtMode.trees,Pending.trees,List.flatMap_cons,List.append_nil,bags_append]
    exact add_comm _ _
  case h_17 frames pending field network =>
    refine .makes (((makes_newNodeWithData _).bind fun node =>
      makes_operand config opens content frames pending node).of_eq (zero_add _)) (keeps (by simp))
  case h_18 frames pending vlan =>
    refine .makes (((makes_newNodeWithData _).bind fun node =>
      makes_operand config opens content frames pending node).of_eq (zero_add _)) (keeps (by simp))
  case h_22 pending frames value =>
    refine .makes ((makes_operand config opens content frames pending value).of_eq ?_) (keeps (by simp))
    simp only [StmtMode.trees,List.flatMap_cons,bags_append,bags_cons,bags_nil]
    abel
  case h_23 what =>
    refine .makes (Makes.pure ?_) (keeps (by simp))
    simp only [Parser.bag,Mode.trees,StmtMode.trees,Open.trees,List.flatMap_cons,bags_append,bags_cons,bags_nil,
      Tree.bag_null]
    abel
  case h_25 what body other =>
    refine (afterIf_step config opens content what body token).mono ?_
      (overwrites_rules config opens content (.afterIf what body) token rfl) fun k some => ?_
    · simp [StmtMode.trees]
    · simp [Parser.Abandons,Parser.erase,Mode.erase,Mode.Holds,StmtMode.erase,StmtMode.isAfterIf,some.ne']
  case h_26 what body =>
    refine .makes (Makes.pure ?_) (keeps (by simp))
    simp only [Parser.bag,Mode.trees,StmtMode.trees,Open.trees,List.flatMap_cons,bags_append,bags_cons,bags_nil,
      Tree.bag_null]
    abel
  case h_27 =>
    refine .refuses 0 .fail (refuses_rules config opens content mode token ?_)
    cases mode with
    | afterIf what body => simp_all
    | _ => rfl
  all_goals exact goto _ _ (by simp) rfl

theorem lines_bag (config : Config) (mode : Mode) (none : bags mode.trees = 0) : Parser.bag ⟨config,mode⟩ = config.bag := by
  simp [Parser.bag,none]

/-- The line of a port that the array of devices has, on its own. -/
theorem portLine_step (config : Config) (port mtu : Int) (first : U32 × Int) (extra : List (U32 × Int)) :
    Step (do return ⟨← configPort config port mtu first extra,.configLines⟩) config.bag
      (¬InRange port ∨ config.erase.Written port) (· = extra.length) := by
  have lines : ∀ config : Config, Parser.bag ⟨config,.configLines⟩ = config.bag + 0 :=
    fun config => (lines_bag config .configLines rfl).trans (add_zero _).symm
  by_cases many : port ≥ rteMaxEthports
  · refine .refuses extra.length (fun n => ?_) rfl
    rw [run_bind,configPort_refuses config port mtu first extra many n]
    rfl
  rw [config.written_erase]
  by_cases used : ¬InRange port ∨ (config.ports port).ipAddresses ≠ []
  · refine .loses ?_ used
    intro n
    obtain ⟨config',k,lost,run,owned,some⟩ := configPort_loses config port mtu first extra many used n
    refine ⟨⟨config',.configLines⟩,k,lost,?_,?_,some⟩
    · rw [run_bind,run]
      rfl
    · rw [lines,add_zero,owned]
  · obtain ⟨inside,unused⟩ := not_or.mp used
    have stored := configPort_makes config port mtu first extra many (not_not.mp inside) (not_not.mp unused)
    exact .makes ((stored.bind fun config' => Makes.pure (lines config')).of_eq (add_zero _)) used

/-- Every token keeps, loses or refuses what the parser without blocks says it does. -/
theorem feed_step (p : Parser) (token : Token) :
    Step (feed p token) p.bag (p.erase.Overwrites token) fun k =>
      bags p.mode.trees = 0 ∧ k = 0 ↔ ¬p.erase.Abandons token := by
  obtain ⟨config,mode⟩ := p
  have goto : ∀ (next : Mode) (refusal : Nat → Prop), bags mode.trees = 0 → bags next.trees = 0 →
      ¬(Parser.erase ⟨config,mode⟩).Overwrites token →
      Step (pure ⟨config,next⟩) (Parser.bag ⟨config,mode⟩) ((Parser.erase ⟨config,mode⟩).Overwrites token) refusal := by
    intro next refusal none none' kept
    refine .makes (Makes.pure ?_) kept
    rw [lines_bag config mode none,lines_bag config next none']
  have refuse : bags mode.trees = 0 → ¬(Parser.erase ⟨config,mode⟩).Abandons token →
      Step failure (Parser.bag ⟨config,mode⟩) ((Parser.erase ⟨config,mode⟩).Overwrites token) fun k =>
        bags mode.trees = 0 ∧ k = 0 ↔ ¬(Parser.erase ⟨config,mode⟩).Abandons token := by
    intro none kept
    exact .refuses 0 .fail (by simp [none,kept])
  cases mode with
  | rules opens content mode => exact feedRules_step config opens content mode token
  | portAddress n mtu first extra =>
    cases token with
    | semicolon =>
      refine (portLine_step config n mtu first extra).mono (lines_bag config _ rfl).symm ?_ fun k many => ?_
      · simp [Parser.Overwrites,Parser.erase,Mode.erase]
      · subst many
        simp [Parser.Abandons,Parser.erase,Mode.erase,Mode.trees]
    | tokVlan | tokIp => exact goto _ _ rfl rfl (by simp [Parser.Overwrites,Parser.erase,Mode.erase])
    | _ => exact refuse rfl (by simp [Parser.Abandons,Parser.erase,Mode.erase])
  | natRuleTo fromIp toIp =>
    cases token with
    | semicolon =>
      have lines : ∀ config', Makes (pure ⟨config',.configLines⟩) Parser.bag (config'.bag + 0) := fun _ => .pure rfl
      exact .makes ((makes_configNatRule config fromIp toIp).bind lines) fun lossy => lossy
    | _ => exact refuse rfl fun holds => holds
  | portIp n mtu ips vlan =>
    cases ips <;> cases token <;> first | exact refuse rfl fun holds => holds | exact goto _ _ rfl rfl fun lossy => lossy
  | _ => cases token <;> first | exact refuse rfl fun holds => holds | exact goto _ _ rfl rfl fun lossy => lossy

/-- The end of the file. -/
theorem feedEnd_run (p : Parser) (n : Nat) :
    ∃ k, (feedEnd p).run (.fresh n) = (none,.fresh (n+k)) ∧ (bags p.mode.trees = 0 ∧ k = 0 ↔ ¬p.erase.mode.Holds) := by
  obtain ⟨config,mode⟩ := p
  cases mode with
  | rules opens content mode =>
    cases mode with
    | afterIf what body =>
      obtain ⟨prev,k,_,reduced⟩ := afterIf_run content what body n
      refine ⟨2+k,reduced fun _ => (failure : Parse Unit),?_⟩
      simp [Parser.erase,Mode.erase,Mode.Holds,StmtMode.erase,StmtMode.isAfterIf]
    | _ => exact ⟨0,rfl,refuses_rules config opens content _ .semicolon rfl⟩
  | _ => exact ⟨0,rfl,by simp [Mode.trees,Parser.erase,Mode.erase,Mode.Holds]⟩

/-- When the parser stops, the configuration is all that is left of what it had. -/
theorem owns_all {owned trees lost : Multiset Nat} {n k : Nat} (total : owned + trees + lost = List.range n) :
    owned ≤ List.range (n+k) ∧ (owned = List.range (n+k) ↔ lost = 0 ∧ trees = 0 ∧ k = 0) := by
  have all : (List.range (n+k) : Multiset Nat) = owned + (lost + (trees + List.range' n k)) := by
    have parts := bag_range' 0 n k
    rw [Nat.zero_add,← List.range_eq_range',← List.range_eq_range'] at parts
    rw [← parts,← total]
    abel
  rw [all]
  refine ⟨Multiset.le_add_right _ _,?_⟩
  rw [left_eq_add,add_eq_zero,add_eq_zero]
  simp

/-- The end of the text. -/
theorem yyparse_end (p : Parser) (n : Nat) :
    ∃ accepted k, yyparse p [] (.fresh n) = ((accepted,p.config),.fresh (n+k)) ∧
      (bags p.mode.trees = 0 ∧ k = 0 ↔ ¬p.erase.mode.Holds) := by
  by_cases done : p.mode = .file
  · refine ⟨true,0,?_,?_⟩
    · rw [yyparse,done]
      rfl
    · simp [Parser.erase,done,Mode.trees,Mode.erase,Mode.Holds]
  · obtain ⟨k,run,iff⟩ := feedEnd_run p n
    refine ⟨false,k,?_,iff⟩
    have refused : yyparse p [] = (feedEnd p).run >>= fun _ => pure (false,p.config) := by
      unfold yyparse
      split
      · contradiction
      · rfl
    rw [refused]
    exact bind_run run

/-- While the parser has `lost` blocks, the configuration it returns owns every block of the load
if and only if none is lost yet and none will be. -/
theorem yyparse_owns (p : Parser) (tokens : List Token) (n : Nat) (lost : Multiset Nat)
    (total : p.bag + lost = List.range n) :
    ∃ accepted config n', yyparse p tokens (.fresh n) = ((accepted,config),.fresh n') ∧ config.bag ≤ List.range n' ∧
      (config.bag = List.range n' ↔ lost = 0 ∧ p.erase.Keeps tokens) := by
  induction tokens generalizing p n lost with
  | nil =>
    obtain ⟨accepted,k,run,iff⟩ := yyparse_end p n
    obtain ⟨fewer,all⟩ := owns_all (k := k) total
    rw [iff] at all
    exact ⟨accepted,p.config,n+k,run,fewer,all⟩
  | cons token tokens ih =>
    have erased := Erases.feed p token (.fresh n)
    rcases feed_step p token n with ⟨p',k,lost',run,owned,none⟩ | ⟨k,run,when⟩
    · -- the token is read: what it loses is added to what was lost before
      have total' : p'.bag + (lost + lost') = List.range (n+k) := by
        have parts := bag_range' 0 n k
        rw [Nat.zero_add,← List.range_eq_range',← List.range_eq_range'] at parts
        rw [← parts,← total,add_comm lost,← add_assoc,owned]
        abel
      have keeps : p.erase.Keeps (token :: tokens) ↔ ¬p.erase.Overwrites token ∧ p'.erase.Keeps tokens := by
        rw [run] at erased
        have read : ((Natasha.feed p.erase token).run.run allSucceed).1 = some p'.erase := congrArg Prod.fst erased
        rw [Parser.Keeps,read]
      rw [yyparse_read run,keeps,← none,← and_assoc,← add_eq_zero]
      exact ih p' (n+k) (lost + lost') total'
    · have keeps : p.erase.Keeps (token :: tokens) ↔ ¬p.erase.Abandons token := by
        rw [run] at erased
        have refused : ((Natasha.feed p.erase token).run.run allSucceed).1 = none := congrArg Prod.fst erased
        rw [Parser.Keeps,refused]
      obtain ⟨fewer,all⟩ := owns_all (k := k) total
      rw [when,← keeps] at all
      exact ⟨false,p.config,n+k,yyparse_refused run tokens,fewer,all⟩

/-! ## Load and free -/

/-- Load a configuration and free it. -/
def loadAndFree (files : List Char → Option (List Char)) (fuel : Nat) (argv : List String) : Alloc Unit := do
  match ← appConfigLoad files fuel argv with
  | none => return
  | some config => appConfigFree config

/-- Every block that was allocated is freed once, and nothing else is. -/
def Memory.Balanced (m : Memory) : Prop := ∀ block, m.freed.count block = if block < m.next then 1 else 0

/-- The configuration that the tokens leave is freed, whether they are accepted or not. -/
theorem loadAndFree_tokens {files : List Char → Option (List Char)} {fuel : Nat} {argv : List String}
    {tokens : List Token} (found : configTokens files fuel argv = some tokens) {accepted : Bool} {config : Config} {n : Nat}
    (run : yyparse ⟨.zeroed 0,.file⟩ tokens (.fresh 1) = ((accepted,config),.fresh n)) :
    (loadAndFree files fuel argv (.fresh 0)).2 = ⟨n,config.blocks.reverse,allSucceed⟩ := by
  have frees : appConfigFree config (.fresh n) = ((),⟨n,config.blocks.reverse,allSucceed⟩) := by
    rw [frees_appConfigFree config,Memory.fresh,List.append_nil]
  have parsed : appConfigLoad files fuel argv (.fresh 0) =
      (if accepted then pure (some config) else appConfigFree config >>= fun _ => pure none : Alloc (Option Config))
        (.fresh n) := by
    have first : rteZmallocSocket (.fresh 0) = (some 0,.fresh 1) := rfl
    unfold appConfigLoad
    refine (bind_run first).trans ?_
    simp only [found]
    refine (bind_run run).trans ?_
    cases accepted <;> rfl
  cases accepted with
  | true =>
    have loaded : loadAndFree files fuel argv (.fresh 0) = appConfigFree config (.fresh n) := bind_run parsed
    rw [loaded,frees]
  | false =>
    have refused : appConfigLoad files fuel argv (.fresh 0) = (none,⟨n,config.blocks.reverse,allSucceed⟩) :=
      parsed.trans (bind_run frees)
    have loaded : loadAndFree files fuel argv (.fresh 0) = ((),⟨n,config.blocks.reverse,allSucceed⟩) := bind_run refused
    rw [loaded]

/-- What is freed are blocks of the load, and all of them if and only if the parser keeps them. -/
theorem loadAndFree_owns (files : List Char → Option (List Char)) (fuel : Nat) (argv : List String) :
    ∃ n freed, (loadAndFree files fuel argv (.fresh 0)).2 = ⟨n,freed,allSucceed⟩ ∧ (freed : Multiset Nat) ≤ List.range n ∧
      ((freed : Multiset Nat) = List.range n ↔
        ∀ tokens, configTokens files fuel argv = some tokens → Natasha.Parser.Keeps ⟨.zeroed,.file⟩ tokens) := by
  cases found : configTokens files fuel argv with
  | none =>
    refine ⟨1,[0],?_,le_rfl,fun _ _ ended => (nomatch ended),fun _ => rfl⟩
    unfold loadAndFree appConfigLoad
    simp only [found]
    rfl
  | some tokens =>
    have start : Parser.bag ⟨.zeroed 0,.file⟩ + 0 = List.range 1 := rfl
    obtain ⟨accepted,config,n,run,fewer,all⟩ := yyparse_owns ⟨.zeroed 0,.file⟩ tokens 1 0 start
    refine ⟨n,config.blocks.reverse,loadAndFree_tokens found run,?_,?_⟩
    · rw [Multiset.coe_reverse]
      exact fewer
    · rw [Multiset.coe_reverse]
      refine all.trans ⟨fun keeps tokens' same => ?_,fun keeps => ⟨rfl,keeps tokens rfl⟩⟩
      rw [← Option.some.inj same]
      exact keeps.2

/-- No text makes anything be freed twice. -/
theorem loadAndFree_nodup (files : List Char → Option (List Char)) (fuel : Nat) (argv : List String) :
    (loadAndFree files fuel argv (.fresh 0)).2.freed.Nodup := by
  obtain ⟨n,freed,after,fewer,_⟩ := loadAndFree_owns files fuel argv
  rw [after]
  exact Multiset.coe_nodup.mp (Multiset.nodup_of_le fewer (Multiset.coe_nodup.mpr List.nodup_range))

end Natasha.Heap
