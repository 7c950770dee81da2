import Mathlib.Data.Set.Card
import Natasha.NatTable
import Natasha.Networks

/-! Walking through the NAT table. `nat_iter` rebuilds the addresses from the indices of the
three levels, in host order, and hands the words over as they are stored, in network order. -/
namespace Natasha

/-! ## The walk -/

/-- What a walk carries along: the data of the callback, and `n`, a `size_t` that a table's
words do not overflow. -/
structure Walk (σ : Type u) where
  data : σ
  n : Nat

section Iterate

variable {σ : Type u} (func : Option (U32 → U32 → σ → σ))

/-- The body of the innermost loop. -/
def natIterWord (i j k : Nat) (word : U32) (walk : Walk σ) : Walk σ :=
  if word = 0 then
    walk
  else
    let data := match func with
      | none => walk.data
      | some func => func (ipv4 i j ((k >>> 8) &&& 0xff) (k &&& 0xff)) word walk.data
    ⟨data,walk.n+1⟩

def natIterThird (i j : Nat) (third : ThirdRow) (walk : Walk σ) : Walk σ :=
  (List.range lkpTs).foldl (fun walk k => natIterWord func i j k (third k) walk) walk

def natIterSecond (i : Nat) (second : SecondRow) (walk : Walk σ) : Walk σ :=
  (List.range lkpSs).foldl (fun walk j =>
    match second j with
    | none => walk
    | some third => natIterThird func i j third walk) walk

def natIterFirst (first : FirstRow) (walk : Walk σ) : Walk σ :=
  (List.range lkpFs).foldl (fun walk i =>
    match first i with
    | none => walk
    | some second => natIterSecond func i second walk) walk

/-- `nat_iter`, with a NULL `func` for `none`: what the callback leaves of its data, and the
return value, a `size_t` cut to an `int`. -/
def natIter (natLookup : NatLookup) (data : σ) : σ × Int :=
  match natLookup with
  | none => (data,0)
  | some first =>
    let walk := natIterFirst func first ⟨data,0⟩
    (walk.data,(BitVec.ofNat 32 (walk.n / 2)).toInt)

end Iterate

def natNumberOfRules (natLookup : NatLookup) : Int := (natIter none natLookup ()).2

/-- The calls that `nat_iter` makes to its callback, `from` and `to` of each. -/
def natCalls (natLookup : NatLookup) : List (U32 × U32) :=
  (natIter (some fun source target calls => calls ++ [(source,target)]) natLookup []).1

/-! ## The table as a list of entries -/

def wordEntry (i j k : Nat) (word : U32) : Option (U32 × U32) :=
  if word = 0 then none else some (ipv4 i j ((k >>> 8) &&& 0xff) (k &&& 0xff),word)

def thirdEntries (i j : Nat) (third : ThirdRow) : List (U32 × U32) :=
  (List.range lkpTs).filterMap fun k => wordEntry i j k (third k)

def secondEntries (i : Nat) (second : SecondRow) : List (U32 × U32) :=
  (List.range lkpSs).flatMap fun j => ((second j).map (thirdEntries i j)).getD []

def entries (natLookup : NatLookup) : List (U32 × U32) :=
  match natLookup with
  | none => []
  | some first => (List.range lkpFs).flatMap fun i => ((first i).map (secondEntries i)).getD []

section Walks

variable {σ : Type u} (func : Option (U32 → U32 → σ → σ))

/-- One call, counted. -/
def Walk.visit (walk : Walk σ) (entry : U32 × U32) : Walk σ :=
  ⟨(func.map fun func => func entry.1 entry.2 walk.data).getD walk.data,walk.n+1⟩

theorem natIterThird_entries (i j : Nat) (third : ThirdRow) (walk : Walk σ) :
    natIterThird func i j third walk = (thirdEntries i j third).foldl (Walk.visit func) walk := by
  rw [thirdEntries,List.foldl_filterMap,natIterThird]
  congr 1
  funext walk k
  by_cases zero : third k = 0
  · simp only [natIterWord,wordEntry,if_pos zero]
  · simp only [natIterWord,wordEntry,if_neg zero]
    cases func <;> rfl

theorem natIterSecond_entries (i : Nat) (second : SecondRow) (walk : Walk σ) :
    natIterSecond func i second walk = (secondEntries i second).foldl (Walk.visit func) walk := by
  rw [secondEntries,List.foldl_flatMap,natIterSecond]
  congr 1
  funext walk j
  cases second j with
  | none => simp only [Option.map_none,Option.getD_none,List.foldl_nil]
  | some third =>
    rw [Option.map_some,Option.getD_some]
    exact natIterThird_entries func i j third walk

/-- The three loops are one pass over the entries. -/
theorem natIterFirst_entries (first : FirstRow) (walk : Walk σ) :
    natIterFirst func first walk = (entries (some first)).foldl (Walk.visit func) walk := by
  rw [entries,List.foldl_flatMap,natIterFirst]
  congr 1
  funext walk i
  cases first i with
  | none => simp only [Option.map_none,Option.getD_none,List.foldl_nil]
  | some second =>
    rw [Option.map_some,Option.getD_some]
    exact natIterSecond_entries func i second walk

theorem visit_n (calls : List (U32 × U32)) (walk : Walk σ) :
    (calls.foldl (Walk.visit func) walk).n = walk.n + calls.length := by
  induction calls generalizing walk with
  | nil => rfl
  | cons call calls ih =>
    rw [List.foldl_cons,ih,List.length_cons]
    simp only [Walk.visit]
    omega

theorem visit_data (func : U32 → U32 → σ → σ) (calls : List (U32 × U32)) (walk : Walk σ) :
    (calls.foldl (Walk.visit (some func)) walk).data =
      calls.foldl (fun data call => func call.1 call.2 data) walk.data := by
  induction calls generalizing walk with
  | nil => rfl
  | cons call calls ih => rw [List.foldl_cons,ih,List.foldl_cons,Walk.visit,Option.map_some,Option.getD_some]

theorem natIter_data (func : U32 → U32 → σ → σ) (natLookup : NatLookup) (data : σ) :
    (natIter (some func) natLookup data).1 =
      (entries natLookup).foldl (fun data call => func call.1 call.2 data) data := by
  cases natLookup with
  | none => rfl
  | some first => rw [natIter,natIterFirst_entries,visit_data]

theorem natIter_count (natLookup : NatLookup) (data : σ) :
    (natIter func natLookup data).2 = (BitVec.ofNat 32 ((entries natLookup).length / 2)).toInt := by
  cases natLookup with
  | none => rfl
  | some first => rw [natIter,natIterFirst_entries,visit_n,Nat.zero_add]

end Walks

theorem natCalls_eq (natLookup : NatLookup) : natCalls natLookup = entries natLookup := by
  have appended (calls done : List (U32 × U32)) :
      calls.foldl (fun done call => done ++ [(call.1,call.2)]) done = done ++ calls := by
    induction calls generalizing done with
    | nil => simp
    | cons call calls ih => rw [List.foldl_cons,ih,List.append_assoc,List.singleton_append]
  rw [natCalls,natIter_data,appended,List.nil_append]

/-! ## Order and contents -/

theorem address_indices (ip : U32) : ip.toNat = 16777216 * fstb ip + 65536 * sndb ip + l2b ip := by
  have bound := ip.isLt
  rw [fstb_eq,sndb_eq,l2b_eq]
  omega

/-- The address that is rebuilt from three indices. -/
theorem index_address {i j k : Nat} (hi : i < lkpFs) (hj : j < lkpSs) (hk : k < lkpTs) :
    (ipv4 i j ((k >>> 8) &&& 0xff) (k &&& 0xff)).toNat = 16777216 * i + 65536 * j + k := by
  rw [lkpFs] at hi
  rw [lkpSs] at hj
  rw [lkpTs] at hk
  have third : (k >>> 8) &&& 0xff = k / 256 % 256 := by
    rw [Nat.shiftRight_eq_div_pow]
    exact Nat.and_two_pow_sub_one_eq_mod (k / 2^8) 8
  have fourth : k &&& 0xff = k % 256 := Nat.and_two_pow_sub_one_eq_mod k 8
  rw [third,fourth,ipv4_eq _ _ _ _ (by omega) (by omega) (by omega) (by omega),BitVec.toNat_ofNat,
    Nat.mod_eq_of_lt (by omega)]
  omega

theorem wordEntry_eq_some {i j k : Nat} {word ip target : U32} (hi : i < lkpFs) (hj : j < lkpSs) (hk : k < lkpTs) :
    wordEntry i j k word = some (ip,target) ↔ fstb ip = i ∧ sndb ip = j ∧ l2b ip = k ∧ word = target ∧ target ≠ 0 := by
  have address := index_address hi hj hk
  rw [lkpFs] at hi
  rw [lkpSs] at hj
  rw [lkpTs] at hk
  rw [fstb_eq,sndb_eq,l2b_eq]
  by_cases zero : word = 0
  · simp only [wordEntry,if_pos zero,reduceCtorEq,false_iff]
    rintro ⟨_,_,_,rfl,nonzero⟩
    exact nonzero zero
  · rw [wordEntry,if_neg zero,Option.some_inj,Prod.mk.injEq]
    constructor
    · rintro ⟨rfl,rfl⟩
      rw [address]
      exact ⟨by omega,by omega,by omega,rfl,zero⟩
    · rintro ⟨first,second,last,rfl,_⟩
      refine ⟨BitVec.eq_of_toNat_eq ?_,rfl⟩
      rw [address]
      omega

theorem mem_thirdEntries {i j : Nat} {third : ThirdRow} {ip target : U32} (hi : i < lkpFs) (hj : j < lkpSs) :
    (ip,target) ∈ thirdEntries i j third ↔ fstb ip = i ∧ sndb ip = j ∧ third (l2b ip) = target ∧ target ≠ 0 := by
  simp only [thirdEntries,List.mem_filterMap,List.mem_range]
  constructor
  · rintro ⟨k,inside,found⟩
    obtain ⟨first,second,rfl,word,nonzero⟩ := (wordEntry_eq_some hi hj inside).mp found
    exact ⟨first,second,word,nonzero⟩
  · rintro ⟨first,second,word,nonzero⟩
    have inside := (indices_in_rows ip).2.2
    exact ⟨l2b ip,inside,(wordEntry_eq_some hi hj inside).mpr ⟨first,second,rfl,word,nonzero⟩⟩

theorem mem_secondEntries {i : Nat} {second : SecondRow} {ip target : U32} (hi : i < lkpFs) :
    (ip,target) ∈ secondEntries i second ↔
      fstb ip = i ∧ ∃ third, second (sndb ip) = some third ∧ third (l2b ip) = target ∧ target ≠ 0 := by
  simp only [secondEntries,List.mem_flatMap,List.mem_range]
  constructor
  · rintro ⟨j,inside,found⟩
    cases row : second j with
    | none => simp [row] at found
    | some third =>
      rw [row,Option.map_some,Option.getD_some] at found
      obtain ⟨first,rfl,word⟩ := (mem_thirdEntries hi inside).mp found
      exact ⟨first,third,row,word⟩
  · rintro ⟨first,third,row,word⟩
    have inside := (indices_in_rows ip).2.1
    refine ⟨sndb ip,inside,?_⟩
    rw [row,Option.map_some,Option.getD_some]
    exact (mem_thirdEntries hi inside).mpr ⟨first,rfl,word⟩

/-- The entries are the graph of the lookup. -/
theorem mem_entries {natLookup : NatLookup} {ip target : U32} :
    (ip,target) ∈ entries natLookup ↔ natLookupIp natLookup ip = some target := by
  cases natLookup with
  | none => simp [entries,natLookupIp]
  | some first =>
    have inside := (indices_in_rows ip).1
    have found : (ip,target) ∈ entries (some first) ↔ ∃ second, first (fstb ip) = some second ∧
        (ip,target) ∈ secondEntries (fstb ip) second := by
      simp only [entries,List.mem_flatMap,List.mem_range]
      constructor
      · rintro ⟨i,bound,found⟩
        cases row : first i with
        | none => simp [row] at found
        | some second =>
          rw [row,Option.map_some,Option.getD_some] at found
          obtain ⟨rfl,_⟩ := (mem_secondEntries bound).mp found
          exact ⟨second,row,found⟩
      · rintro ⟨second,row,found⟩
        exact ⟨fstb ip,inside,by rwa [row]⟩
    simp only [found,mem_secondEntries inside,true_and]
    cases row : first (fstb ip) with
    | none => simp [natLookupIp,row]
    | some second =>
      cases column : second (sndb ip) with
      | none => simp [natLookupIp,row,column]
      | some third =>
        simp only [natLookupIp,row,column,Option.some.injEq,exists_eq_left']
        by_cases zero : third (l2b ip) = 0
        · simp only [if_pos zero,reduceCtorEq,iff_false]
          rintro ⟨rfl,nonzero⟩
          exact nonzero zero
        · simp only [if_neg zero,Option.some.injEq]
          exact ⟨fun word => word.1,fun word => ⟨word,word ▸ zero⟩⟩

theorem thirdEntries_sorted {i j : Nat} (third : ThirdRow) (hi : i < lkpFs) (hj : j < lkpSs) :
    (thirdEntries i j third).Pairwise fun a b => a.1 < b.1 := by
  rw [thirdEntries,List.pairwise_filterMap]
  refine List.pairwise_lt_range.imp_of_mem ?_
  rintro k k' member member' less ⟨ip,_⟩ found ⟨ip',_⟩ found'
  obtain ⟨first,second,last,_⟩ := (wordEntry_eq_some hi hj (List.mem_range.mp member)).mp found
  obtain ⟨first',second',last',_⟩ := (wordEntry_eq_some hi hj (List.mem_range.mp member')).mp found'
  rw [BitVec.lt_def,address_indices,address_indices ip',first,second,last,first',second',last']
  omega

theorem secondEntries_sorted {i : Nat} (second : SecondRow) (hi : i < lkpFs) :
    (secondEntries i second).Pairwise fun a b => a.1 < b.1 := by
  have inside {j : Nat} (hj : j < lkpSs) {entry : U32 × U32}
      (found : entry ∈ ((second j).map (thirdEntries i j)).getD []) : fstb entry.1 = i ∧ sndb entry.1 = j := by
    cases row : second j with
    | none => simp [row] at found
    | some third =>
      rw [row,Option.map_some,Option.getD_some] at found
      obtain ⟨first,second,_⟩ := (mem_thirdEntries hi hj).mp found
      exact ⟨first,second⟩
  rw [secondEntries,List.pairwise_flatMap]
  constructor
  · intro j member
    cases second j with
    | none => exact List.Pairwise.nil
    | some third =>
      rw [Option.map_some,Option.getD_some]
      exact thirdEntries_sorted third hi (List.mem_range.mp member)
  · refine List.pairwise_lt_range.imp_of_mem ?_
    intro j j' member member' less entry found entry' found'
    obtain ⟨first,second⟩ := inside (List.mem_range.mp member) found
    obtain ⟨first',second'⟩ := inside (List.mem_range.mp member') found'
    have last := (indices_in_rows entry.1).2.2
    rw [lkpTs] at last
    rw [BitVec.lt_def,address_indices,address_indices entry'.1,first,second,first',second']
    omega

theorem entries_sorted (natLookup : NatLookup) : (entries natLookup).Pairwise fun a b => a.1 < b.1 := by
  cases natLookup with
  | none => exact List.Pairwise.nil
  | some rows =>
    have inside {i : Nat} (hi : i < lkpFs) {entry : U32 × U32}
        (found : entry ∈ ((rows i).map (secondEntries i)).getD []) : fstb entry.1 = i := by
      cases row : rows i with
      | none => simp [row] at found
      | some second =>
        rw [row,Option.map_some,Option.getD_some] at found
        exact ((mem_secondEntries hi).mp found).1
    rw [entries,List.pairwise_flatMap]
    constructor
    · intro i member
      cases rows i with
      | none => exact List.Pairwise.nil
      | some second =>
        rw [Option.map_some,Option.getD_some]
        exact secondEntries_sorted second (List.mem_range.mp member)
    · refine List.pairwise_lt_range.imp_of_mem ?_
      intro i i' member member' less entry found entry' found'
      have first := inside (List.mem_range.mp member) found
      have first' := inside (List.mem_range.mp member') found'
      rw [fstb_eq] at first first'
      rw [BitVec.lt_def]
      omega

theorem entries_nodup (natLookup : NatLookup) : ((entries natLookup).map Prod.fst).Nodup := by
  have distinct : (entries natLookup).Pairwise fun a b => a.1 ≠ b.1 :=
    (entries_sorted natLookup).imp fun less => BitVec.ne_of_lt less
  exact List.pairwise_map.mpr distinct

/-- The number of addresses that have an entry. -/
theorem entries_length (natLookup : NatLookup) :
    (entries natLookup).length = {ip | (natLookupIp natLookup ip).isSome}.ncard := by
  have found : {ip | (natLookupIp natLookup ip).isSome} = (((entries natLookup).map Prod.fst).toFinset : Set U32) := by
    ext ip
    simp only [Set.mem_ofPred_eq,Option.isSome_iff_exists,Finset.mem_coe,List.mem_toFinset,List.mem_map,Prod.exists,
      exists_and_right,exists_eq_right,mem_entries]
  rw [found,Set.ncard_coe_finset,List.toFinset_card_of_nodup (entries_nodup natLookup),List.length_map]

/-- The callback is called for the graph of the lookup, in the order of the addresses. -/
theorem natIter_enumerates (rules : List (U32 × U32)) :
    (∀ ip target, (ip,target) ∈ natCalls (natTable rules) ↔ natLookupIp (natTable rules) ip = some target) ∧
    (natCalls (natTable rules)).Pairwise (fun a b => a.1 < b.1) ∧
    (∀ (σ : Type u) (func : U32 → U32 → σ → σ) (data : σ),
      (natIter (some func) (natTable rules) data).1 =
        (natCalls (natTable rules)).foldl (fun data call => func call.1 call.2 data) data) ∧
    ({ip | (natLookupIp (natTable rules) ip).isSome}.ncard < 2^32 →
      natNumberOfRules (natTable rules) = ({ip | (natLookupIp (natTable rules) ip).isSome}.ncard / 2 : Nat)) := by
  simp only [natCalls_eq]
  refine ⟨fun ip target => mem_entries,entries_sorted _,fun σ func data => natIter_data func _ data,?_⟩
  intro bound
  rw [natNumberOfRules,natIter_count,entries_length,BitVec.toInt_ofNat',Int.bmod_eq_of_le] <;> omega

/-! ## The dump -/

/-- `%i` of a number that is not negative. -/
def formatInt (n : Nat) : List Char := Nat.toDigits 10 n

/-- `IPv4_FMT` on the bytes of `IPv4_FMTARGS`. -/
def formatIpv4 (ip : U32) : List Char :=
  formatInt ((ip >>> 24) &&& 0xff#32).toNat ++ '.' :: (formatInt ((ip >>> 16) &&& 0xff#32).toNat ++
    '.' :: (formatInt ((ip >>> 8) &&& 0xff#32).toNat ++ '.' :: formatInt (ip &&& 0xff#32).toNat))

/-- `nat_dump_rule` with what is written to `out_fd` so far, one text for each `dprintf`. -/
def natDumpRule (source target : U32) (out : List (List Char)) : List (List Char) :=
  out ++ [formatIpv4 source ++ " -> ".toList ++ formatIpv4 target ++ ['\n']]

def natDumpRules (natLookup : NatLookup) : List (List Char) × Int := natIter (some natDumpRule) natLookup []

/-- The addresses of a line `x -> y`, read the way a configuration is. -/
def writtenRule (line : List Char) : Option (U32 × U32) := do
  let (x,text) ← scanIpv4 line
  let text ← " -> ".toList.foldlM (fun text c => scanChar c text) text
  let (y,_) ← scanIpv4 text
  return (x,y)

theorem formatInt_digits : ∀ n ≤ 255, Digits 3 255 (formatInt n) ∧ decimal (formatInt n) = n := by
  have spelled : ∀ n ∈ List.range 256, (formatInt n ≠ [] ∧ (formatInt n).all Char.isDigit = true ∧
      (formatInt n).length ≤ 3) ∧ decimal (formatInt n) = n := by decide +kernel
  intro n bound
  obtain ⟨⟨nonempty,all,short⟩,value⟩ := spelled n (List.mem_range.mpr (Nat.lt_succ_of_le bound))
  have digits := List.all_eq_true.mp all
  exact ⟨⟨nonempty,digits,short,value.trans_le bound⟩,value⟩

/-- An address is read back, whatever follows that is no digit. -/
theorem scanIpv4_format (ip : U32) {rest : List Char} (stop : ∀ c ∈ rest.head?, c.isDigit = false) :
    scanIpv4 (formatIpv4 ip ++ rest) = some (ip,rest) := by
  have byte (k : Nat) : ((ip >>> k) &&& 0xff#32).toNat = ip.toNat / 2^k % 256 := by
    rw [BitVec.toNat_and,BitVec.toNat_ushiftRight,Nat.shiftRight_eq_div_pow]
    exact Nat.and_two_pow_sub_one_eq_mod (ip.toNat / 2^k) 8
  have low : (ip &&& 0xff#32).toNat = ip.toNat % 256 := by
    rw [BitVec.toNat_and]
    exact Nat.and_two_pow_sub_one_eq_mod ip.toNat 8
  have dot (n : Nat) (text : List Char) :
      scanUnsigned 3 (formatInt (n % 256) ++ '.' :: text) = some (n % 256,'.' :: text) := by
    obtain ⟨field,value⟩ := formatInt_digits (n % 256) (by omega)
    rw [field.scan fun c here => by cases here; rfl,value]
  have last (n : Nat) : scanUnsigned 3 (formatInt (n % 256) ++ rest) = some (n % 256,rest) := by
    obtain ⟨field,value⟩ := formatInt_digits (n % 256) (by omega)
    rw [field.scan stop,value]
  have bound := ip.isLt
  have value : ipv4 (ip.toNat / 2^24 % 256) (ip.toNat / 2^16 % 256) (ip.toNat / 2^8 % 256) (ip.toNat % 256) = ip := by
    rw [ipv4_eq _ _ _ _ (by omega) (by omega) (by omega) (by omega)]
    apply BitVec.eq_of_toNat_eq
    rw [BitVec.toNat_ofNat]
    omega
  simp only [formatIpv4,byte,low,scanIpv4,List.append_assoc,List.cons_append,dot,last,scanChar,
    if_true,Option.bind_eq_bind,Option.bind_some,Option.pure_def,value]

theorem writtenRule_line (x y : U32) :
    writtenRule (formatIpv4 x ++ " -> ".toList ++ formatIpv4 y ++ ['\n']) = some (x,y) := by
  have first : scanIpv4 (formatIpv4 x ++ (" -> ".toList ++ (formatIpv4 y ++ ['\n']))) =
      some (x," -> ".toList ++ (formatIpv4 y ++ ['\n'])) := scanIpv4_format x fun c here => by cases here; rfl
  have second : scanIpv4 (formatIpv4 y ++ ['\n']) = some (y,['\n']) :=
    scanIpv4_format y fun c here => by cases here; rfl
  simp only [writtenRule,List.append_assoc,first,Option.bind_eq_bind,Option.bind_some]
  simp only [String.reduceToList,List.cons_append,List.nil_append,List.foldlM_cons,List.foldlM_nil,scanChar,if_true,
    Option.bind_eq_bind,Option.bind_some,Option.pure_def,second]

theorem natDumpRules_lines (natLookup : NatLookup) :
    (natDumpRules natLookup).1 = (entries natLookup).map fun entry =>
      formatIpv4 entry.1 ++ " -> ".toList ++ formatIpv4 entry.2 ++ ['\n'] := by
  have appended (calls : List (U32 × U32)) (out : List (List Char)) :
      calls.foldl (fun out call => natDumpRule call.1 call.2 out) out = out ++ calls.map fun entry =>
        formatIpv4 entry.1 ++ " -> ".toList ++ formatIpv4 entry.2 ++ ['\n'] := by
    induction calls generalizing out with
    | nil => simp
    | cons call calls ih => rw [List.foldl_cons,ih,natDumpRule,List.map_cons,List.append_assoc,List.singleton_append]
  rw [natDumpRules,natIter_data,appended,List.nil_append]

/-- A dump that says what the table does: every line is about a lookup, and every lookup that
finds something has one line. -/
structure Dumps (lines : List (List Char)) (natLookup : NatLookup) : Prop where
  sound : ∀ line ∈ lines, ∃ x y, writtenRule line = some (x,y) ∧
    natLookupIp natLookup x = some (rteBeToCpu32 y)
  complete : ∀ ip, (natLookupIp natLookup ip).isSome →
    lines.countP (fun line => (writtenRule line).map Prod.fst = some ip) = 1

/-- The address that the last rule about `ip` maps it to reads the same from both ends. -/
def PalindromicTargets (rules : List (U32 × U32)) : Prop :=
  ∀ ip target, lastWriter rules ip = some target → rteBeToCpu32 target = target

theorem natDumpRules_complete (natLookup : NatLookup) (ip : U32) (found : (natLookupIp natLookup ip).isSome) :
    (natDumpRules natLookup).1.countP (fun line => (writtenRule line).map Prod.fst = some ip) = 1 := by
  obtain ⟨target,lookup⟩ := Option.isSome_iff_exists.mp found
  have member : ip ∈ (entries natLookup).map Prod.fst := List.mem_map.mpr ⟨_,mem_entries.mpr lookup,rfl⟩
  have once := List.count_eq_one_of_mem (entries_nodup natLookup) member
  rw [List.count,List.countP_map] at once
  rw [natDumpRules_lines,List.countP_map,← once]
  congr 1
  funext entry
  simp only [Function.comp,writtenRule_line,Option.map_some,Option.some.injEq]
  rw [Bool.eq_iff_iff]
  simp

/-- The line of an entry repeats the word of the table, and the lookup returns that word too. -/
theorem Dumps.palindrome {natLookup : NatLookup} {ip value : U32}
    (dumps : Dumps (natDumpRules natLookup).1 natLookup) (found : natLookupIp natLookup ip = some value) :
    rteBeToCpu32 value = value := by
  have printed : formatIpv4 ip ++ " -> ".toList ++ formatIpv4 value ++ ['\n'] ∈ (natDumpRules natLookup).1 := by
    rw [natDumpRules_lines]
    exact List.mem_map.mpr ⟨_,mem_entries.mpr found,rfl⟩
  obtain ⟨x,y,read,answer⟩ := dumps.sound _ printed
  rw [writtenRule_line] at read
  cases read
  rw [found] at answer
  exact (Option.some_inj.mp answer).symm

/-- The second address of a line is printed as if it were in host order, so that the dump is
right when no byte order matters. -/
theorem natDumpRules_dumps_iff (rules : List (U32 × U32)) :
    Dumps (natDumpRules (natTable rules)).1 (natTable rules) ↔ PalindromicTargets rules := by
  have lookup := (natTable_refines_lastWriter rules).1
  constructor
  · intro dumps ip target written
    by_cases zero : target = 0
    · subst target
      rfl
    · have found : natLookupIp (natTable rules) ip = some (rteBeToCpu32 target) := by
        rw [lookup,written,reported,if_neg zero]
      have same := dumps.palindrome found
      rw [rteBeToCpu32_involutive] at same
      exact same.symm
  · intro palindromic
    refine ⟨?_,natDumpRules_complete _⟩
    intro line member
    rw [natDumpRules_lines] at member
    obtain ⟨⟨ip,value⟩,entry,rfl⟩ := List.mem_map.mp member
    refine ⟨ip,value,writtenRule_line ip value,?_⟩
    have found := mem_entries.mp entry
    rw [found]
    rw [lookup] at found
    cases written : lastWriter rules ip with
    | none => simp [written,reported] at found
    | some target =>
      by_cases zero : target = 0
      · simp [written,reported,zero] at found
      · rw [written,reported,if_neg zero,palindromic ip target written] at found
        cases found
        rw [palindromic ip value written]

/-- `nat rule 10.0.1.2 212.48.49.50;`, whose dump says `10.0.1.2 -> 50.49.48.212`. -/
theorem natDumpRules_swaps : ¬ Dumps (natDumpRules (natTable [(0x0a000102,0xd4303132)])).1
    (natTable [(0x0a000102,0xd4303132)]) := by
  intro dumps
  have found : natLookupIp (natTable [(0x0a000102,0xd4303132)]) 0x0a000102 = some 0x323130d4 := by decide
  exact absurd (dumps.palindrome found) (by decide)

end Natasha
