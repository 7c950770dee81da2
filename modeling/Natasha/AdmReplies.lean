import Natasha.Lib.Protocol
import Natasha.Lib.Wire
import Natasha.AdmFraming

/-! What a client of the administration server reads. The structures of cli.h are read back from
the bytes of a reply, and hold what the handler was answered. -/
namespace Natasha.Adm

open Interaction Wire

/-! ## Numbers -/

abbrev Client := Reader Byte

/-- The number that bytes stand for, least significant first. -/
def leValue (bytes : List Byte) : Nat := bytes.foldr (fun b value => b.toNat + 256 * value) 0

def readBe16 : Client Nat := (fun bytes => leValue bytes.reverse) <$> repeated symbol 2

def readBe64 : Client U64 := (fun bytes => .ofNat 64 (leValue bytes.reverse)) <$> repeated symbol 8

def readLe64 : Client U64 := (fun bytes => .ofNat 64 (leValue bytes)) <$> repeated symbol 8

theorem leValue_bytes64 (x : U64) : leValue (bytes64 x) = x.toNat := by
  have bound := x.isLt
  have places : List.range 8 = [0,1,2,3,4,5,6,7] := rfl
  simp only [leValue,bytes64,places,List.map_cons,List.map_nil,List.foldr_cons,List.foldr_nil,BitVec.toNat_setWidth,
    BitVec.toNat_ushiftRight,Nat.shiftRight_eq_div_pow,Nat.reduceMul,Nat.reducePow]
  omega

/-- A byte of a number that holds one byte of `x`. -/
theorem byte_placed (x : U64) {i : Nat} (hi : i < 8) (k : Nat) :
    ((((x >>> (8*i)) &&& 0xff) <<< (56 - 8*i)) >>> (8*k)).setWidth 8 =
      if i + k = 7 then (x >>> (8*i)).setWidth 8 else (0 : Byte) := by
  have mask (n : Nat) : (0xff : U64).getLsbD n = decide (n < 8) := by
    change (BitVec.ofNat 64 (2^8-1)).getLsbD n = _
    rw [BitVec.getLsbD_ofNat,Nat.testBit_two_pow_sub_one,← Bool.decide_and]
    exact decide_eq_decide.mpr (by omega)
  ext j hj
  simp only [BitVec.getElem_setWidth,BitVec.getLsbD_ushiftRight,BitVec.getLsbD_shiftLeft,BitVec.getLsbD_and,mask]
  by_cases same : i + k = 7
  · have place : 8*k + j - (56 - 8*i) = j := by omega
    simp [same,place,hj]
    omega
  · simp [same]
    omega

/-- A byte of the number in network order. -/
theorem byte_rteCpuToBe64 (x : U64) {k : Nat} (hk : k < 8) :
    ((rteCpuToBe64 x) >>> (8*k)).setWidth 8 = ((x >>> (8*(7-k))).setWidth 8 : Byte) := by
  have shared (a b : U64) : ((a ||| b) >>> (8*k)).setWidth 8 = (a >>> (8*k)).setWidth 8 ||| ((b >>> (8*k)).setWidth 8 : Byte) := by
    ext j hj
    simp
  have placed (places : List Nat) (acc : U64) (few : ∀ i ∈ places, i < 8) :
      (((places.foldl (fun acc i => acc ||| ((x >>> (8*i)) &&& 0xff) <<< (56 - 8*i)) acc) >>> (8*k)).setWidth 8 : Byte) =
        (acc >>> (8*k)).setWidth 8 ||| if 7 - k ∈ places then (x >>> (8*(7-k))).setWidth 8 else 0 := by
    induction places generalizing acc with
    | nil => simp
    | cons i places ih =>
      rw [List.foldl_cons,ih _ fun j member => few j (List.mem_cons_of_mem i member),shared,
        byte_placed x (few i List.mem_cons_self) k,BitVec.or_assoc]
      have here : i + k = 7 ↔ 7 - k = i := by omega
      simp only [List.mem_cons,here]
      congr 1
      by_cases same : 7 - k = i <;> by_cases later : 7 - k ∈ places <;> simp_all
  have all := placed (List.range 8) 0 fun i member => List.mem_range.mp member
  rw [if_pos (List.mem_range.mpr (by omega))] at all
  simpa [rteCpuToBe64] using all

theorem bytes64_rteCpuToBe64 (x : U64) : bytes64 (rteCpuToBe64 x) = (bytes64 x).reverse := by
  have eight : (List.range 8).reverse = (List.range 8).map fun k => 7 - k := by decide
  rw [bytes64,bytes64,← List.map_reverse,eight,List.map_map]
  exact List.map_congr_left fun k member => byte_rteCpuToBe64 x (List.mem_range.mp member)

theorem decodes_le64 (x : U64) : Decodes readLe64 (bytes64 x) x := by
  have reads := (Decodes.symbols (bytes64 x)).map fun bytes => (BitVec.ofNat 64 (leValue bytes) : U64)
  rwa [leValue_bytes64,BitVec.ofNat_toNat,BitVec.setWidth_eq,length_bytes64] at reads

theorem decodes_be64 (x : U64) : Decodes readBe64 (bytes64 (rteCpuToBe64 x)) x := by
  have reads := (Decodes.symbols (bytes64 (rteCpuToBe64 x))).map fun bytes => (BitVec.ofNat 64 (leValue bytes.reverse) : U64)
  rwa [length_bytes64,bytes64_rteCpuToBe64,List.reverse_reverse,leValue_bytes64,BitVec.ofNat_toNat,BitVec.setWidth_eq,
    ← bytes64_rteCpuToBe64] at reads

theorem decodes_be16 (x : U16) : Decodes readBe16 (bytes16 x) (rteBeToCpu16 x).toNat := by
  obtain ⟨high,low,bytes,value⟩ := bytes16_value x
  have reads := (Decodes.symbols [high,low]).map fun bytes => leValue bytes.reverse
  have same : leValue [high,low].reverse = (rteBeToCpu16 x).toNat := by
    simp only [leValue,List.reverse_cons,List.reverse_nil,List.nil_append,List.cons_append,List.foldr_cons,List.foldr_nil]
    omega
  rw [bytes]
  rwa [same] at reads

/-! ## Structures -/

/-- The members in their order. -/
def appStatsOf (words : List U64) : Stat → U64
  | .dropNoRule => words.getD 0 0
  | .dropNatCondition => words.getD 1 0
  | .dropBadL3Cksum => words.getD 2 0
  | .rxBadL4Cksum => words.getD 3 0
  | .dropUnknownIcmp => words.getD 4 0
  | .dropUnhandledEthertype => words.getD 5 0
  | .dropTxNotsent => words.getD 6 0

def readAppStats : Client (Stat → U64) := appStatsOf <$> repeated readBe64 7

def ethStatsOf (words queues : List U64) : RteEthStats where
  ipackets := words.getD 0 0
  opackets := words.getD 1 0
  ibytes := words.getD 2 0
  obytes := words.getD 3 0
  imissed := words.getD 4 0
  ierrors := words.getD 5 0
  oerrors := words.getD 6 0
  rxNombuf := words.getD 7 0
  queues i := queues.getD i 0

/-- The counters of the queues are in the order of the server's memory. -/
def readEthStats : Client RteEthStats := do
  let words ← repeated readBe64 8
  let queues ← repeated readLe64 80
  return ethStatsOf words queues

theorem decodes_be64s (words : List U64) {n : Nat} (length : words.length = n) :
    Decodes (repeated readBe64 n) ((words.map rteCpuToBe64).flatMap bytes64) words := by
  rw [List.flatMap_map]
  simpa using Decodes.repeated (g := id) words length fun x _ => decodes_be64 x

theorem decodes_appStats (stats : Stat → U64) : Decodes readAppStats (appStatsBytes (cpuToBeAppStats stats)) stats := by
  let members : List Stat := [.dropNoRule,.dropNatCondition,.dropBadL3Cksum,.rxBadL4Cksum,.dropUnknownIcmp,
    .dropUnhandledEthertype,.dropTxNotsent]
  have bytes : appStatsBytes (cpuToBeAppStats stats) = ((members.map stats).map rteCpuToBe64).flatMap bytes64 := by
    rw [List.map_map]
    rfl
  have same : appStatsOf (members.map stats) = stats := by
    funext stat
    cases stat <;> rfl
  have words := (decodes_be64s (members.map stats) (n := 7) rfl).map appStatsOf
  rw [same] at words
  rw [bytes]
  exact words

theorem decodes_ethStats (s : RteEthStats) : Decodes readEthStats (cpuToBePortStats s).bytes s := by
  let members : List U64 := [s.ipackets,s.opackets,s.ibytes,s.obytes,s.imissed,s.ierrors,s.oerrors,s.rxNombuf]
  have bytes : (cpuToBePortStats s).bytes =
      (members.map rteCpuToBe64).flatMap bytes64 ++ ((List.ofFn s.queues).flatMap bytes64 ++ []) := by
    rw [RteEthStats.bytes,RteEthStats.words,List.flatMap_append,List.append_nil]
    rfl
  have same : ethStatsOf members (List.ofFn s.queues) = s := by
    have rows : (fun i : Fin 80 => (List.ofFn s.queues).getD i 0) = s.queues := by
      funext i
      rw [List.getD_eq_getElem?_getD,List.getElem?_ofFn,dif_pos i.isLt]
      rfl
    rw [ethStatsOf,rows]
    rfl
  have queues : Decodes (repeated readLe64 80) ((List.ofFn s.queues).flatMap bytes64) (List.ofFn s.queues) := by
    simpa using Decodes.repeated (g := id) (List.ofFn s.queues) (List.length_ofFn) fun x _ => decodes_le64 x
  have reads : Decodes readEthStats ((members.map rteCpuToBe64).flatMap bytes64 ++ ((List.ofFn s.queues).flatMap bytes64 ++ []))
      (ethStatsOf members (List.ofFn s.queues)) := (decodes_be64s members rfl).bind (queues.bind (.pure _))
  rw [bytes]
  rwa [same] at reads

/-! ## Replies -/

/-- What follows the header of a reply. -/
inductive ReplyData where
  | none
  | version (text : List Byte)
  | ports (stats : List RteEthStats)
  | cores (stats : List (Byte × (Stat → U64)))

structure Response where
  type : Byte
  status : Byte
  data : ReplyData

def readCore : Client (Byte × (Stat → U64)) := do
  let coreid ← symbol
  let stats ← readAppStats
  return (coreid,stats)

def readData (type : Byte) (size : Nat) : Client ReplyData :=
  if type = CmdType.version.code then .version <$> repeated symbol size
  else if type = CmdType.dpdkStats.code then .ports <$> repeated readEthStats (size / sizeofRteEthStats)
  else if type = CmdType.appStats.code then .cores <$> repeated readCore (size / (sizeofNatashaAppStats + 1))
  else return .none

/-- The size is of use where data follow; in the other replies it is what the stack held. -/
def readResponse : Client Response := do
  let type ← symbol
  let status ← symbol
  let size ← readBe16
  let data ← readData type size
  return ⟨type,status,data⟩

theorem decodes_response {reply : NatashaCmdReply} {word : List Byte} {data : ReplyData}
    (reads : Decodes (readData reply.type (rteBeToCpu16 reply.dataSize).toNat) word data) :
    Decodes readResponse (reply.bytes ++ word) ⟨reply.type,reply.status,data⟩ := by
  have bytes : reply.bytes ++ word = [reply.type] ++ ([reply.status] ++ (bytes16 reply.dataSize ++ (word ++ []))) := by
    simp [NatashaCmdReply.bytes]
  rw [bytes]
  exact (Decodes.symbol _).bind ((Decodes.symbol _).bind ((decodes_be16 _).bind (reads.bind (.pure _))))

theorem decodes_core (core : Nat) (stats : Stat → U64) :
    Decodes readCore ([.ofNat 8 core] ++ appStatsBytes (cpuToBeAppStats stats)) (.ofNat 8 core,stats) := by
  have reads : Decodes readCore ([.ofNat 8 core] ++ (appStatsBytes (cpuToBeAppStats stats) ++ [])) (.ofNat 8 core,stats) :=
    (Decodes.symbol _).bind ((decodes_appStats stats).bind (.pure _))
  rwa [List.append_nil] at reads

/-- A size that is announced in 16 bits. -/
theorem rteBeToCpu16_announced {size : Nat} (small : size < 65536) :
    (rteBeToCpu16 (rteBeToCpu16 (.ofNat 16 size))).toNat = size := by
  rw [rteBeToCpu16_involutive,BitVec.toNat_ofNat,Nat.mod_eq_of_lt small]

/-! ## Handlers -/

abbrev Event := Sigma Ans

/-- What a handler was answered, but not how much was sent. -/
def record (seen : List Event) : (op : Op) → Ans op → List Event
  | .send _, _ => seen
  | op, answer => seen ++ [⟨op,answer⟩]

def recorder : Protocol Op Ans (List Event) := ⟨fun _ _ => True,fun _ _ _ => True,record⟩

/-- The status after all ports were reset: that of the last error. -/
def resetStatus (status : Byte) (rets : List Int) : Byte :=
  rets.foldl (fun status ret => if ret ≠ 0 then .ofInt 8 ret else status) status

/-- The status after all ports were asked. -/
def getStatus (status : Byte) (rets : List Int) : Byte :=
  rets.foldl (fun status ret => if ret ≠ 0 then .ofInt 8 (-1) else status) status

/-- A response, and what its handler was answered. -/
inductive Reports (s : Server) : Response → List Event → Prop
  | status : Reports s ⟨CmdType.status.code,natashaReplyOk,.none⟩ []
  | exit : Reports s ⟨CmdType.exit.code,natashaReplyOk,.none⟩ []
  | reload (ret : Int) : Reports s ⟨CmdType.reload.code,.ofInt 8 ret,.none⟩ [⟨.reloadAll,ret⟩]
  | resetStats (answers : List (Nat × Int)) (ports : answers.map Prod.fst = List.range s.devCount.toNat) :
      Reports s ⟨CmdType.resetStats.code,resetStatus natashaReplyOk (answers.map Prod.snd),.none⟩
        (answers.map fun a => ⟨.ethStatsReset a.1,a.2⟩)
  | version : Reports s ⟨CmdType.version.code,natashaReplyOk,.version s.version⟩ []
  | dpdkStats (answers : List (Nat × Int × RteEthStats)) (ports : answers.map Prod.fst = List.range s.devCount.toNat) :
      Reports s ⟨CmdType.dpdkStats.code,getStatus natashaReplyOk (answers.map fun a => a.2.1),.ports (answers.map fun a => a.2.2)⟩
        (answers.map fun a => ⟨.ethStatsGet a.1,a.2⟩)
  | appStats (answers : List (Nat × (Stat → U64))) (cores : answers.map Prod.fst = s.cores.slaves) :
      Reports s ⟨CmdType.appStats.code,natashaReplyOk,.cores (answers.map fun a => (.ofNat 8 a.1,a.2))⟩
        (answers.map fun a => ⟨.appStats a.1,a.2⟩)

/-- The sizes of all data fit in 16 bits. -/
structure Server.Sized (s : Server) : Prop where
  version : s.version.length < 65536
  ports : sizeofRteEthStats * s.devCount.toNat < 65536
  cores : (sizeofNatashaAppStats + 1) * s.cores.slaves.length < 65536

/-- A handler that succeeds has sent a response to the query, that reports what it was answered. -/
def Replies (s : Server) (type : Byte) (sent : List Byte) (ret : Int) (sent' : List Byte) (seen : List Event) : Prop :=
  (ret = 0 ∨ ret = -1) ∧ (ret = 0 → ∃ word response, sent' = sent ++ word ∧ Decodes readResponse word response ∧
    response.type = type ∧ Reports s response seen)

section Handlers

variable {s : Server} {sent : List Byte} {seen : List Event} {reply : NatashaCmdReply}

/-- Whether all of a buffer goes out. -/
def Sends (seen : List Event) (sent word : List Byte) (ret : Int) (sent' : List Byte) (seen' : List Event) : Prop :=
  seen' = seen ∧ (ret = 0 ∨ ret = -1) ∧ (ret = 0 → sent' = sent ++ word)

theorem conforms_send (buf : List Byte) : recorder.Conforms (send buf) sent seen fun nb sent' seen' =>
    seen' = seen ∧ sent' = sent ++ buf.take nb.toNat := ⟨trivial,fun _ _ => ⟨rfl,rfl⟩⟩

theorem sendReply_sends (reply : NatashaCmdReply) :
    recorder.Conforms (sendReply reply) sent seen (Sends seen sent reply.bytes) := by
  refine (conforms_send _).bind ?_
  rintro nb _ _ ⟨rfl,rfl⟩
  refine .ite (fun _ => .pure ⟨rfl,.inr rfl,nofun⟩) fun whole => .pure ⟨rfl,.inl rfl,fun _ => ?_⟩
  obtain rfl : nb = 4 := not_not.mp whole
  rfl

/-- A reply and one buffer behind it. -/
theorem sendReply_sends_then (reply : NatashaCmdReply) {buf : List Byte} {size : Nat} (length : buf.length = size) :
    recorder.Conforms (do
      if (← sendReply reply) < 0 then
        return -1
      if (← send buf) ≠ (size : Int) then
        return -1
      return 0) sent seen (Sends seen sent (reply.bytes ++ buf)) := by
  refine (sendReply_sends reply).bind ?_
  rintro ret sent' _ ⟨rfl,ended,replied⟩
  refine .ite (fun _ => .pure ⟨rfl,.inr rfl,nofun⟩) fun success => (conforms_send _).bind ?_
  obtain rfl : ret = 0 := ended.resolve_right fun failed => success (failed ▸ by decide)
  rintro nb _ _ ⟨rfl,rfl⟩
  refine .ite (fun _ => .pure ⟨rfl,.inr rfl,nofun⟩) fun whole => .pure ⟨rfl,.inl rfl,fun _ => ?_⟩
  obtain rfl : nb = size := not_not.mp whole
  rw [replied rfl,Int.toNat_natCast,← length,List.take_length,List.append_assoc]

theorem Sends.replies {word sent' : List Byte} {ret : Int} {seen' : List Event} {response : Response}
    (sends : Sends seen sent word ret sent' seen') (reads : Decodes readResponse word response) (reports : Reports s response seen) :
    Replies s response.type sent ret sent' seen' := by
  obtain ⟨rfl,ended,success⟩ := sends
  exact ⟨ended,fun zero => ⟨word,response,success zero,reads,rfl,reports⟩⟩

/-- A header that no data follow. -/
theorem decodes_header (bare : ∀ size, readData reply.type size = pure .none) :
    Decodes readResponse reply.bytes ⟨reply.type,reply.status,.none⟩ := by
  have reads : Decodes readResponse (reply.bytes ++ []) ⟨reply.type,reply.status,.none⟩ :=
    decodes_response (bare _ ▸ Decodes.pure ReplyData.none)
  rwa [List.append_nil] at reads

theorem handleCmdStatus_replies :
    recorder.Conforms (handleCmdStatus CmdType.status.code reply) sent [] (Replies s CmdType.status.code sent) :=
  (sendReply_sends _).mono fun _ _ _ sends => sends.replies (decodes_header fun _ => rfl) .status

theorem handleCmdExit_replies :
    recorder.Conforms (handleCmdExit CmdType.exit.code reply) sent [] (Replies s CmdType.exit.code sent) :=
  (sendReply_sends _).mono fun _ _ _ sends => sends.replies (decodes_header fun _ => rfl) .exit

theorem handleCmdReload_replies :
    recorder.Conforms (handleCmdReload CmdType.reload.code reply) sent [] (Replies s CmdType.reload.code sent) := by
  have reloaded : recorder.Conforms appConfigReloadAll sent [] fun ret sent' seen => sent' = sent ∧ seen = [⟨.reloadAll,ret⟩] :=
    .perform trivial fun _ _ => ⟨rfl,rfl⟩
  refine reloaded.bind ?_
  rintro ret _ _ ⟨rfl,rfl⟩
  exact (sendReply_sends _).mono fun _ _ _ sends => sends.replies (decodes_header fun _ => rfl) (.reload ret)

/-- What is asked of the ports, one after the other. -/
theorem resetPorts_answers (ports : List Nat) (reply : NatashaCmdReply) :
    recorder.Conforms (resetPorts ports reply) sent seen fun reply' sent' seen' => sent' = sent ∧
      ∃ answers : List (Nat × Int), answers.map Prod.fst = ports ∧
        reply' = { reply with status := resetStatus reply.status (answers.map Prod.snd) } ∧
        seen' = seen ++ answers.map fun a => ⟨.ethStatsReset a.1,a.2⟩ := by
  induction ports generalizing reply seen with
  | nil => exact .pure ⟨rfl,[],rfl,rfl,(List.append_nil seen).symm⟩
  | cons port ports ih =>
    have reset : recorder.Conforms (rteEthStatsReset port) sent seen fun ret sent' seen' =>
        sent' = sent ∧ seen' = seen ++ [⟨.ethStatsReset port,ret⟩] := .perform trivial fun _ _ => ⟨rfl,rfl⟩
    refine reset.bind ?_
    rintro ret _ _ ⟨rfl,rfl⟩
    refine (ih _).mono ?_
    rintro _ _ _ ⟨rfl,answers,rfl,rfl,rfl⟩
    refine ⟨rfl,(port,ret) :: answers,rfl,?_,by simp⟩
    by_cases success : ret = 0 <;> simp [resetStatus,success]

theorem handleCmdResetStats_replies :
    recorder.Conforms (handleCmdResetStats s CmdType.resetStats.code reply) sent [] (Replies s CmdType.resetStats.code sent) := by
  refine (resetPorts_answers _ _).bind ?_
  rintro _ _ _ ⟨rfl,answers,ports,rfl,rfl⟩
  exact (sendReply_sends _).mono fun _ _ _ sends => sends.replies (decodes_header fun _ => rfl) (.resetStats answers ports)

/-- The data of a reply whose size is announced. -/
theorem decodes_announced {type status : Byte} {size : Nat} {word : List Byte} {data : ReplyData} (small : size < 65536)
    (reads : Decodes (readData type size) word data) :
    Decodes readResponse ((NatashaCmdReply.mk type status (rteBeToCpu16 (.ofNat 16 size))).bytes ++ word) ⟨type,status,data⟩ := by
  apply decodes_response
  rwa [rteBeToCpu16_announced small]

theorem handleCmdVersion_replies (reply : NatashaCmdReply) (sized : s.Sized) :
    recorder.Conforms (handleCmdVersion s CmdType.version.code reply) sent [] (Replies s CmdType.version.code sent) := by
  have reads : Decodes (readData CmdType.version.code s.version.length) s.version (.version s.version) :=
    (Decodes.symbols s.version).map ReplyData.version
  exact (sendReply_sends_then _ rfl).mono fun _ _ _ sends => sends.replies (decodes_announced sized.version reads) .version

theorem portStats_answers (ports : List Nat) (reply : NatashaCmdReply) :
    recorder.Conforms (portStats ports reply) sent seen fun filled sent' seen' => sent' = sent ∧
      ∃ answers : List (Nat × Int × RteEthStats), answers.map Prod.fst = ports ∧
        filled = (answers.map fun a => cpuToBePortStats a.2.2,
          { reply with status := getStatus reply.status (answers.map fun a => a.2.1) }) ∧
        seen' = seen ++ answers.map fun a => ⟨.ethStatsGet a.1,a.2⟩ := by
  induction ports generalizing reply seen with
  | nil => exact .pure ⟨rfl,[],rfl,rfl,(List.append_nil seen).symm⟩
  | cons port ports ih =>
    have asked : recorder.Conforms (rteEthStatsGet port) sent seen fun answer sent' seen' =>
        sent' = sent ∧ seen' = seen ++ [⟨.ethStatsGet port,answer⟩] := .perform trivial fun _ _ => ⟨rfl,rfl⟩
    refine asked.bind ?_
    rintro answer _ _ ⟨rfl,rfl⟩
    refine (ih _).bind ?_
    rintro _ _ _ ⟨rfl,answers,rfl,rfl,rfl⟩
    refine .pure ⟨rfl,(port,answer) :: answers,rfl,?_,by simp⟩
    by_cases success : answer.1 = 0 <;> simp [getStatus,success]

theorem handleCmdDpdkStats_replies (reply : NatashaCmdReply) (sized : s.Sized) :
    recorder.Conforms (handleCmdDpdkStats s CmdType.dpdkStats.code reply) sent [] (Replies s CmdType.dpdkStats.code sent) := by
  refine (portStats_answers _ _).bind ?_
  rintro _ _ _ ⟨rfl,answers,ports,rfl,rfl⟩
  have count : answers.length = s.devCount.toNat := by simpa using congrArg List.length ports
  have length : ((answers.map fun a => cpuToBePortStats a.2.2).flatMap RteEthStats.bytes).length =
      sizeofRteEthStats * s.devCount.toNat := by rw [length_portStats,List.length_map,count]
  have members : Decodes (repeated readEthStats (sizeofRteEthStats * s.devCount.toNat / sizeofRteEthStats))
      ((answers.map fun a => cpuToBePortStats a.2.2).flatMap RteEthStats.bytes) (answers.map fun a => a.2.2) := by
    rw [Nat.mul_div_cancel_left _ (by decide),List.flatMap_map]
    exact Decodes.repeated answers count fun a _ => decodes_ethStats a.2.2
  have reads : Decodes (readData CmdType.dpdkStats.code (sizeofRteEthStats * s.devCount.toNat))
      ((answers.map fun a => cpuToBePortStats a.2.2).flatMap RteEthStats.bytes) (.ports (answers.map fun a => a.2.2)) :=
    members.map ReplyData.ports
  exact (sendReply_sends_then _ length).mono fun _ _ _ sends =>
    sends.replies (decodes_announced sized.ports reads) (.dpdkStats answers ports)

/-- The cores one after the other, each with two sends. -/
theorem sendCoreStats_answers (cores : List Nat) :
    recorder.Conforms (sendCoreStats cores) sent seen fun ret sent' seen' => (ret = 0 ∨ ret = -1) ∧
      (ret = 0 → ∃ answers : List (Nat × (Stat → U64)), answers.map Prod.fst = cores ∧
        sent' = sent ++ (answers.flatMap fun a => [.ofNat 8 a.1] ++ appStatsBytes (cpuToBeAppStats a.2)) ∧
        seen' = seen ++ answers.map fun a => ⟨.appStats a.1,a.2⟩) := by
  induction cores generalizing sent seen with
  | nil => exact .pure ⟨.inl rfl,fun _ => ⟨[],rfl,(List.append_nil sent).symm,(List.append_nil seen).symm⟩⟩
  | cons core cores ih =>
    have copied : recorder.Conforms (copyStats core) sent seen fun stats sent' seen' =>
        sent' = sent ∧ seen' = seen ++ [⟨.appStats core,stats⟩] := .perform trivial fun _ _ => ⟨rfl,rfl⟩
    refine copied.bind ?_
    rintro stats _ _ ⟨rfl,rfl⟩
    refine (conforms_send _).bind ?_
    rintro first _ _ ⟨rfl,rfl⟩
    refine .ite (fun _ => .pure ⟨.inr rfl,nofun⟩) fun one => (conforms_send _).bind ?_
    rintro second _ _ ⟨rfl,rfl⟩
    refine .ite (fun _ => .pure ⟨.inr rfl,nofun⟩) fun whole => ih.mono ?_
    rintro ret _ _ ⟨ended,success⟩
    refine ⟨ended,fun zero => ?_⟩
    obtain ⟨answers,rfl,rfl,rfl⟩ := success zero
    obtain rfl : first = 1 := not_not.mp one
    obtain rfl : second = sizeofNatashaAppStats := not_not.mp whole
    refine ⟨(core,stats) :: answers,rfl,?_,by simp⟩
    rw [Int.toNat_natCast,← length_appStats (cpuToBeAppStats stats),List.take_length]
    simp

theorem handleCmdAppStats_replies (reply : NatashaCmdReply) (sized : s.Sized) :
    recorder.Conforms (handleCmdAppStats s CmdType.appStats.code reply) sent [] (Replies s CmdType.appStats.code sent) := by
  refine (sendReply_sends _).bind ?_
  rintro ret _ _ ⟨rfl,ended,replied⟩
  refine .ite (fun _ => .pure ⟨.inr rfl,nofun⟩) fun success => (sendCoreStats_answers _).mono ?_
  obtain rfl : ret = 0 := ended.resolve_right fun failed => success (failed ▸ by decide)
  rintro ret _ _ ⟨ended,success⟩
  refine ⟨ended,fun zero => ?_⟩
  obtain ⟨answers,cores,rfl,rfl⟩ := success zero
  have count : answers.length = s.cores.slaves.length := by simpa using congrArg List.length cores
  have members : Decodes (repeated readCore ((sizeofNatashaAppStats + 1) * s.cores.slaves.length / (sizeofNatashaAppStats + 1)))
      (answers.flatMap fun a => [.ofNat 8 a.1] ++ appStatsBytes (cpuToBeAppStats a.2))
      (answers.map fun a => (.ofNat 8 a.1,a.2)) := by
    rw [Nat.mul_div_cancel_left _ (by decide)]
    exact Decodes.repeated answers count fun a _ => decodes_core a.1 a.2
  have reads : Decodes (readData CmdType.appStats.code ((sizeofNatashaAppStats + 1) * s.cores.slaves.length)) _ _ :=
    members.map ReplyData.cores
  exact ⟨_,_,by rw [replied rfl,List.append_assoc]; rfl,decodes_announced sized.cores reads,rfl,.appStats answers cores⟩

/-- Every command is answered by a response to it. -/
theorem handleClientQuery_replies (sized : s.Sized) (type : Byte) (frame : NatashaCmdReply) :
    recorder.Conforms (handleClientQuery s type frame) sent [] (Replies s type sent) := by
  rw [handleClientQuery]
  split
  · rename_i command found
    have member := List.mem_of_find?_eq_some found
    obtain rfl : command.1.code = type := by simpa using List.find?_some found
    simp only [natashaCommands,List.mem_cons,List.not_mem_nil,or_false] at member
    rcases member with rfl | rfl | rfl | rfl | rfl | rfl | rfl
    · exact handleCmdStatus_replies
    · exact handleCmdExit_replies
    · exact handleCmdReload_replies
    · exact handleCmdResetStats_replies
    · exact handleCmdVersion_replies frame sized
    · exact handleCmdDpdkStats_replies frame sized
    · exact handleCmdAppStats_replies frame sized
  · exact .pure ⟨.inr rfl,fun zero => absurd zero (show ¬(-1 : Int) = 0 by decide)⟩

end Handlers

end Natasha.Adm
