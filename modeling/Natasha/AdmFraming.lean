import Natasha.Adm

/-! Reply framing on an administration connection. A client reads a reply and then as many bytes
as it announces; four handlers announce what their stack frame held before. -/
namespace Natasha.Adm

open Interaction

/-- A reply followed by exactly the bytes it announces, big-endian. -/
def Framed : List Byte → Prop
  | _ :: _ :: high :: low :: data => data.length = 256 * high.toNat + low.toNat
  | _ => False

instance : DecidablePred Framed := fun bytes =>
  match bytes with
  | _ :: _ :: high :: low :: data => inferInstanceAs (Decidable (data.length = 256 * high.toNat + low.toNat))
  | [] | [_] | [_,_] | [_,_,_] => inferInstanceAs (Decidable False)

/-- When the reply to a query announces what follows it: the size is set, and it fits in 16
bits, or it is not set and the frame held a zero. -/
def Framing (s : Server) (type : Byte) (frame : NatashaCmdReply) : Prop :=
  if type = CmdType.version.code then s.version.length < 65536
  else if type = CmdType.dpdkStats.code then sizeofRteEthStats * s.devCount.toNat < 65536
  else if type = CmdType.appStats.code then (sizeofNatashaAppStats + 1) * s.cores.slaves.length < 65536
  else frame.dataSize = 0

/-- A client that reads one reply: the message and what is left. -/
def readReply : List Byte → Option (List Byte × List Byte)
  | type :: status :: high :: low :: rest =>
    let size := 256 * high.toNat + low.toNat
    if size ≤ rest.length then some (type :: status :: high :: low :: rest.take size,rest.drop size) else none
  | _ => none

def readReplies : Nat → List Byte → Option (List (List Byte) × List Byte)
  | 0, bytes => some ([],bytes)
  | n+1, bytes => do
    let first ← readReply bytes
    let others ← readReplies n first.2
    return (first.1 :: others.1,others.2)

/-! ## Bytes -/

theorem length_bytes64 (x : U64) : (bytes64 x).length = 8 := by simp [bytes64]

theorem length_flatMap_bytes64 (words : List U64) : (words.flatMap bytes64).length = 8 * words.length := by
  induction words with
  | nil => rfl
  | cons x words ih =>
    rw [List.flatMap_cons,List.length_append,ih,length_bytes64,List.length_cons]
    omega

theorem length_ethStats (stats : RteEthStats) : stats.bytes.length = sizeofRteEthStats := by
  rw [RteEthStats.bytes,length_flatMap_bytes64]
  simp [RteEthStats.words,sizeofRteEthStats]

theorem length_appStats (stats : Stat → U64) : (appStatsBytes stats).length = sizeofNatashaAppStats := by
  rw [appStatsBytes,length_flatMap_bytes64]
  rfl

/-- The client reads the size as `rte_be_to_cpu_16` of the member. -/
theorem bytes16_value (x : U16) : ∃ high low, bytes16 x = [high,low] ∧
    256 * high.toNat + low.toNat = (rteBeToCpu16 x).toNat := by
  refine ⟨_,_,rfl,?_⟩
  have bound := x.isLt
  have small : x.toNat / 256 < 256 := by omega
  simp only [BitVec.toNat_setWidth,BitVec.toNat_ushiftRight,Nat.shiftRight_eq_div_pow,rteBeToCpu16,
    BitVec.toNat_ofNat,Nat.reducePow]
  rw [Nat.mod_eq_of_lt small,Nat.mod_eq_of_lt (show x.toNat / 256 + 256 * (x.toNat % 256) < 65536 by omega)]
  omega

theorem framed_iff (reply : NatashaCmdReply) (data : List Byte) :
    Framed (reply.bytes ++ data) ↔ data.length = (rteBeToCpu16 reply.dataSize).toNat := by
  obtain ⟨high,low,bytes,value⟩ := bytes16_value reply.dataSize
  rw [NatashaCmdReply.bytes,bytes,← value]
  rfl

/-- A size goes through 16 bits unharmed exactly when it fits. -/
theorem announced_iff (size : Nat) :
    size = (rteBeToCpu16 (rteBeToCpu16 (.ofNat 16 size))).toNat ↔ size < 65536 := by
  rw [rteBeToCpu16_involutive,BitVec.toNat_ofNat]
  omega

/-! ## Handlers -/

/-- The outcome of a handler: all of a reply and `length` bytes, or a failure after some bytes. -/
def Answers (dataSize : U16) (length : Nat) (sent : List Byte) (ret : Int) (sent' : List Byte) : Prop :=
  ∃ bytes, sent' = sent ++ bytes ∧ (ret = 0 ∨ ret = -1) ∧
    (ret = 0 → ∃ reply : NatashaCmdReply, ∃ data : List Byte,
      bytes = reply.bytes ++ data ∧ reply.dataSize = dataSize ∧ data.length = length)

theorem ensures_send (buf sent : List Byte) (post : Int → List Byte → Prop) :
    Ensures sockets (send buf) sent post ↔
      ∀ nb : Int, -1 ≤ nb ∧ nb ≤ buf.length → post nb (sent ++ buf.take nb.toNat) := Iff.rfl

@[simp] theorem ensures_appConfigReloadAll (sent : List Byte) (post : Int → List Byte → Prop) :
    Ensures sockets appConfigReloadAll sent post ↔ ∀ ret, post ret sent :=
  forall_congr' fun _ => true_imp_iff

@[simp] theorem ensures_rteEthStatsReset (port : Nat) (sent : List Byte) (post : Int → List Byte → Prop) :
    Ensures sockets (rteEthStatsReset port) sent post ↔ ∀ ret, post ret sent :=
  forall_congr' fun _ => true_imp_iff

@[simp] theorem ensures_rteEthStatsGet (port : Nat) (sent : List Byte)
    (post : Int × RteEthStats → List Byte → Prop) :
    Ensures sockets (rteEthStatsGet port) sent post ↔ ∀ answer, post answer sent :=
  forall_congr' fun _ => true_imp_iff

@[simp] theorem ensures_copyStats (core : Nat) (sent : List Byte) (post : (Stat → U64) → List Byte → Prop) :
    Ensures sockets (copyStats core) sent post ↔ ∀ stats, post stats sent :=
  forall_congr' fun _ => true_imp_iff

theorem sendReply_answers (reply : NatashaCmdReply) (sent : List Byte) :
    Ensures sockets (sendReply reply) sent (Answers reply.dataSize 0 sent) := by
  simp only [sendReply,ensures_bind,ensures_send,ensures_ite,ensures_pure]
  intro nb _
  constructor
  · intro part
    exact ⟨_,rfl,.inr rfl,fun zero => absurd zero (by decide)⟩
  · intro whole
    have all : nb = 4 := not_not.mp whole
    subst all
    exact ⟨_,rfl,.inl rfl,fun _ => ⟨reply,[],by simp [NatashaCmdReply.bytes,bytes16],rfl,rfl⟩⟩

/-- A buffer sent after a reply, if all of both was taken. -/
theorem Answers.followed {dataSize : U16} {sent sent' buf : List Byte} {nb : Int}
    (replied : Answers dataSize 0 sent 0 sent') (whole : nb = buf.length) :
    Answers dataSize buf.length sent 0 (sent' ++ buf.take nb.toNat) := by
  obtain ⟨bytes,rfl,_,success⟩ := replied
  obtain ⟨reply,data,rfl,size,empty⟩ := success rfl
  obtain rfl := List.length_eq_zero_iff.mp empty
  refine ⟨_,List.append_assoc _ _ _,.inl rfl,fun _ => ⟨reply,buf,?_,size,rfl⟩⟩
  rw [whole,Int.toNat_natCast,List.take_length,List.append_nil]

theorem Answers.failed {dataSize : U16} {length : Nat} {sent sent' : List Byte} {ret : Int}
    (before : Answers dataSize length sent ret sent') (length' : Nat) (bytes : List Byte) :
    Answers dataSize length' sent (-1) (sent' ++ bytes) := by
  obtain ⟨first,rfl,_⟩ := before
  exact ⟨first ++ bytes,List.append_assoc _ _ _,.inr rfl,fun zero => absurd zero (by decide)⟩

theorem handleCmdStatus_answers (cmdType : Byte) (reply : NatashaCmdReply) (sent : List Byte) :
    Ensures sockets (handleCmdStatus cmdType reply) sent (Answers reply.dataSize 0 sent) :=
  sendReply_answers _ sent

theorem handleCmdExit_answers (cmdType : Byte) (reply : NatashaCmdReply) (sent : List Byte) :
    Ensures sockets (handleCmdExit cmdType reply) sent (Answers reply.dataSize 0 sent) :=
  sendReply_answers _ sent

theorem handleCmdReload_answers (cmdType : Byte) (reply : NatashaCmdReply) (sent : List Byte) :
    Ensures sockets (handleCmdReload cmdType reply) sent (Answers reply.dataSize 0 sent) := by
  rw [handleCmdReload,ensures_bind,ensures_appConfigReloadAll]
  exact fun ret => sendReply_answers _ sent

theorem resetPorts_dataSize (ports : List Nat) (reply : NatashaCmdReply) (sent : List Byte) :
    Ensures sockets (resetPorts ports reply) sent fun reply' sent' =>
      reply'.dataSize = reply.dataSize ∧ sent' = sent := by
  induction ports generalizing reply with
  | nil => exact ⟨rfl,rfl⟩
  | cons port ports ih =>
    rw [resetPorts,ensures_bind,ensures_rteEthStatsReset]
    intro ret
    apply (ih _).mono
    intro reply' sent' kept
    refine ⟨kept.1.trans ?_,kept.2⟩
    split <;> rfl

theorem handleCmdResetStats_answers (s : Server) (cmdType : Byte) (reply : NatashaCmdReply) (sent : List Byte) :
    Ensures sockets (handleCmdResetStats s cmdType reply) sent (Answers reply.dataSize 0 sent) := by
  rw [handleCmdResetStats,ensures_bind]
  apply (resetPorts_dataSize _ _ sent).mono
  rintro reply' sent' ⟨size,rfl⟩
  rw [← show reply'.dataSize = reply.dataSize from size]
  exact sendReply_answers reply' sent'

/-- A reply and one buffer behind it. -/
theorem sendReply_then (reply : NatashaCmdReply) (buf sent : List Byte) (size : Nat) (length : buf.length = size) :
    Ensures sockets (do
      if (← sendReply reply) < 0 then
        return -1
      if (← send buf) ≠ (size : Int) then
        return -1
      return 0) sent (Answers reply.dataSize size sent) := by
  rw [ensures_bind]
  apply (sendReply_answers reply sent).mono
  intro ret sent' replied
  obtain ⟨bytes,_,ended,_⟩ := id replied
  simp only [ensures_bind,ensures_send,ensures_ite,ensures_pure]
  refine ⟨fun _ => ?_,fun nonneg nb _ => ⟨fun _ => ?_,fun whole => ?_⟩⟩
  · simpa using replied.failed size []
  · exact replied.failed size _
  · have zero : ret = 0 := ended.resolve_right fun negative => nonneg (by rw [negative]; decide)
    subst zero
    rw [← length] at whole ⊢
    exact replied.followed (not_not.mp whole)

theorem handleCmdVersion_answers (s : Server) (cmdType : Byte) (reply : NatashaCmdReply) (sent : List Byte) :
    Ensures sockets (handleCmdVersion s cmdType reply) sent
      (Answers (rteBeToCpu16 (.ofNat 16 s.version.length)) s.version.length sent) :=
  sendReply_then _ s.version sent _ rfl

theorem portStats_filled (ports : List Nat) (reply : NatashaCmdReply) (sent : List Byte) :
    Ensures sockets (portStats ports reply) sent fun filled sent' =>
      filled.1.length = ports.length ∧ sent' = sent := by
  induction ports generalizing reply with
  | nil => exact ⟨rfl,rfl⟩
  | cons port ports ih =>
    rw [portStats,ensures_bind,ensures_rteEthStatsGet]
    intro answer
    rw [ensures_bind]
    apply (ih _).mono
    rintro filled sent' ⟨length,rfl⟩
    exact ⟨by simp [length],rfl⟩

theorem length_portStats (stats : List RteEthStats) :
    (stats.flatMap RteEthStats.bytes).length = sizeofRteEthStats * stats.length := by
  induction stats with
  | nil => rfl
  | cons x stats ih =>
    rw [List.flatMap_cons,List.length_append,ih,length_ethStats,List.length_cons,Nat.mul_add,Nat.mul_one,Nat.add_comm]

theorem handleCmdDpdkStats_answers (s : Server) (cmdType : Byte) (reply : NatashaCmdReply) (sent : List Byte) :
    Ensures sockets (handleCmdDpdkStats s cmdType reply) sent
      (Answers (rteBeToCpu16 (.ofNat 16 (sizeofRteEthStats * s.devCount.toNat)))
        (sizeofRteEthStats * s.devCount.toNat) sent) := by
  rw [handleCmdDpdkStats,ensures_bind]
  apply (portStats_filled _ _ sent).mono
  rintro filled sent' ⟨length,rfl⟩
  apply sendReply_then _ _ sent'
  rw [length_portStats,length,List.length_range]

theorem sendCoreStats_bytes (cores : List Nat) (sent : List Byte) :
    Ensures sockets (sendCoreStats cores) sent fun ret sent' => ∃ bytes, sent' = sent ++ bytes ∧
      (ret = 0 ∨ ret = -1) ∧ (ret = 0 → bytes.length = (sizeofNatashaAppStats + 1) * cores.length) := by
  induction cores generalizing sent with
  | nil => exact ⟨[],(List.append_nil _).symm,.inl rfl,fun _ => rfl⟩
  | cons coreid cores ih =>
    simp only [sendCoreStats,ensures_bind,ensures_copyStats,ensures_send,ensures_ite,ensures_pure]
    intro stats nb _
    constructor
    · exact fun _ => ⟨_,rfl,.inr trivial,fun zero => absurd zero (by decide)⟩
    · intro first nb' _
      obtain rfl : nb = 1 := not_not.mp first
      constructor
      · exact fun _ => ⟨_,List.append_assoc _ _ _,.inr trivial,fun zero => absurd zero (by decide)⟩
      · intro second
        obtain rfl : nb' = sizeofNatashaAppStats := not_not.mp second
        apply (ih _).mono
        rintro ret sent' ⟨bytes,rfl,ended,length⟩
        refine ⟨_,by rw [List.append_assoc,List.append_assoc],ended,fun zero => ?_⟩
        have rest := length zero
        have taken : ((appStatsBytes (cpuToBeAppStats stats)).take sizeofNatashaAppStats).length =
            sizeofNatashaAppStats := by rw [List.length_take,length_appStats,Nat.min_self]
        have one : ([BitVec.ofNat 8 coreid].take (1 : Int).toNat).length = 1 := rfl
        rw [List.length_append,List.length_append,one,Int.toNat_natCast,taken,rest,List.length_cons,Nat.mul_add,
          Nat.mul_one]
        omega

theorem handleCmdAppStats_answers (s : Server) (cmdType : Byte) (reply : NatashaCmdReply) (sent : List Byte) :
    Ensures sockets (handleCmdAppStats s cmdType reply) sent
      (Answers (rteBeToCpu16 (.ofNat 16 ((sizeofNatashaAppStats + 1) * s.cores.slaves.length)))
        ((sizeofNatashaAppStats + 1) * s.cores.slaves.length) sent) := by
  rw [handleCmdAppStats,ensures_bind]
  apply (sendReply_answers _ sent).mono
  intro ret sent' replied
  obtain ⟨bytes,rfl,ended,success⟩ := id replied
  rw [ensures_ite]
  constructor
  · intro _
    have failed := replied.failed ((sizeofNatashaAppStats + 1) * s.cores.slaves.length) []
    rw [List.append_nil] at failed
    exact failed
  · intro nonneg
    obtain ⟨reply',data,rfl,size,empty⟩ := success (ended.resolve_right fun h => nonneg (by rw [h]; decide))
    obtain rfl := List.length_eq_zero_iff.mp empty
    apply (sendCoreStats_bytes _ _).mono
    rintro ret sent' ⟨stats,rfl,ended,length⟩
    refine ⟨_,List.append_assoc _ _ _,ended,fun zero => ⟨reply',stats,?_,size,length zero⟩⟩
    rw [List.append_nil]

/-! ## Queries -/

/-- What a handler did decides the framing of its reply. -/
theorem Answers.framed {dataSize : U16} {length : Nat} {sent sent' : List Byte} {ret : Int}
    (answers : Answers dataSize length sent ret sent') {condition : Prop}
    (decides : length = (rteBeToCpu16 dataSize).toNat ↔ condition) :
    ∃ bytes, sent' = sent ++ bytes ∧ (ret = 0 ∨ ret = -1) ∧ (ret = 0 → (Framed bytes ↔ condition)) := by
  obtain ⟨bytes,same,ended,success⟩ := answers
  refine ⟨bytes,same,ended,fun zero => ?_⟩
  obtain ⟨reply,data,rfl,size,count⟩ := success zero
  rw [framed_iff,size,count]
  exact decides

theorem noData_iff (dataSize : U16) : 0 = (rteBeToCpu16 dataSize).toNat ↔ dataSize = 0 := by
  rw [← rteBeToCpu16_eq_zero_iff,← BitVec.toNat_inj]
  exact eq_comm

theorem handleClientQuery_framed (s : Server) (type : Byte) (frame : NatashaCmdReply) (sent : List Byte) :
    Ensures sockets (handleClientQuery s type frame) sent fun ret sent' =>
      ∃ bytes, sent' = sent ++ bytes ∧ (ret = 0 ∨ ret = -1) ∧
        (ret = 0 → (Framed bytes ↔ Framing s type frame)) := by
  rw [handleClientQuery]
  split
  · rename_i command found
    have member := List.mem_of_find?_eq_some found
    have code : command.1.code = type := by simpa using List.find?_some found
    subst code
    simp only [natashaCommands,List.mem_cons,List.not_mem_nil,or_false] at member
    rcases member with rfl | rfl | rfl | rfl | rfl | rfl | rfl
    · exact (handleCmdStatus_answers _ frame sent).mono fun _ _ answers => answers.framed (noData_iff _)
    · exact (handleCmdExit_answers _ frame sent).mono fun _ _ answers => answers.framed (noData_iff _)
    · exact (handleCmdReload_answers _ frame sent).mono fun _ _ answers => answers.framed (noData_iff _)
    · exact (handleCmdResetStats_answers s _ frame sent).mono fun _ _ answers => answers.framed (noData_iff _)
    · exact (handleCmdVersion_answers s _ frame sent).mono fun _ _ answers => answers.framed (announced_iff _)
    · exact (handleCmdDpdkStats_answers s _ frame sent).mono fun _ _ answers => answers.framed (announced_iff _)
    · exact (handleCmdAppStats_answers s _ frame sent).mono fun _ _ answers => answers.framed (announced_iff _)
  · exact ⟨[],(List.append_nil _).symm,.inr rfl,fun zero => absurd zero (show ¬(-1 : Int) = 0 by decide)⟩

/-! ## Connections -/

/-- The messages that were sent whole. -/
def messages (exchanges : List Exchange) : List (List Byte) :=
  (exchanges.filter fun x => x.ret = 0).map Exchange.sent

/-- Induction on the arrivals: whole messages one after another, and what a handler that failed
had sent before. -/
theorem serve_exchanges (s : Server) (arrivals : List Arrival) (sent : List Byte) :
    Ensures sockets (serve s arrivals) sent fun exchanges sent' =>
      (∃ rest, sent' = sent ++ ((messages exchanges).flatten ++ rest)) ∧
      ∀ x ∈ exchanges, x.ret = 0 → (Framed x.sent ↔ Framing s x.type x.frame) := by
  induction arrivals generalizing sent with
  | nil => exact ⟨⟨[],by simp [messages]⟩,by simp⟩
  | cons arrival arrivals ih =>
    rw [serve]
    split
    · rename_i type _
      simp only [ensures_bind,ensures_get]
      apply (handleClientQuery_framed s type arrival.frame sent).mono
      rintro ret sent' ⟨bytes,rfl,ended,framed⟩
      rw [ensures_ite,List.drop_left]
      constructor
      · intro negative
        have failed : ¬ret = 0 := by omega
        refine ⟨⟨bytes,by simp [messages,failed]⟩,fun x member => ?_⟩
        obtain rfl := List.mem_singleton.mp member
        exact fun zero => absurd zero failed
      · intro nonneg
        have zero : ret = 0 := ended.resolve_right fun h => nonneg (by rw [h]; decide)
        rw [ensures_bind]
        apply (ih _).mono
        rintro exchanges sent' ⟨⟨rest,rfl⟩,each⟩
        refine ⟨⟨rest,by simp [messages,zero]⟩,fun x member => ?_⟩
        rcases List.mem_cons.mp member with rfl | later
        · exact framed
        · exact each x later
    · exact ⟨⟨[],by simp [messages]⟩,by simp⟩

/-- A client that trusts the announced sizes recovers framed messages. -/
theorem readReplies_framed (msgs : List (List Byte)) (framed : ∀ m ∈ msgs, Framed m) (rest : List Byte) :
    readReplies msgs.length (msgs.flatten ++ rest) = some (msgs,rest) := by
  induction msgs with
  | nil => rfl
  | cons m msgs ih =>
    have first := framed m List.mem_cons_self
    have later := ih fun m' member => framed m' (List.mem_cons_of_mem _ member)
    unfold Framed at first
    split at first
    · rename_i type status high low data
      simp only [List.length_cons,List.flatten_cons,List.cons_append,List.append_assoc,readReplies,readReply]
      rw [← first,if_pos (by simp),List.take_left,List.drop_left]
      simp [later]
    · contradiction

theorem serve_framed (s : Server) (arrivals : List Arrival) :
    Ensures sockets (serve s arrivals) [] fun exchanges sent =>
      ((∀ x ∈ exchanges, x.ret = 0 → Framed x.sent) ↔
        ∀ x ∈ exchanges, x.ret = 0 → Framing s x.type x.frame) ∧
      ((∀ x ∈ exchanges, x.ret = 0 → Framing s x.type x.frame) →
        ∃ rest, readReplies (messages exchanges).length sent = some (messages exchanges,rest)) := by
  apply (serve_exchanges s arrivals []).mono
  rintro exchanges sent ⟨⟨rest,rfl⟩,each⟩
  refine ⟨⟨fun all x member zero => ?_,fun all x member zero => ?_⟩,fun all => ⟨rest,?_⟩⟩
  · exact (each x member zero).mp (all x member zero)
  · exact (each x member zero).mpr (all x member zero)
  · apply readReplies_framed
    intro m member
    obtain ⟨x,inside,rfl⟩ := List.mem_map.mp member
    obtain ⟨inside,zero⟩ := List.mem_filter.mp inside
    have zero : x.ret = 0 := by simpa using zero
    exact (each x inside zero).mpr (all x inside zero)

/-- A socket that takes whatever it is given. -/
def willing : (op : Op) → Ans op
  | .reloadAll => (0 : Int)
  | .ethStatsReset _ => (0 : Int)
  | .ethStatsGet _ => ((0 : Int),(⟨0,0,0,0,0,0,0,0,fun _ => 0⟩ : RteEthStats))
  | .appStats _ => fun _ => 0
  | .send len => (len : Int)

theorem willing_sockets (op : Op) : sockets op (willing op) := by
  cases op with
  | send len => exact ⟨Int.le_trans (by decide) (Int.natCast_nonneg len),Int.le_refl _⟩
  | reloadAll | ethStatsReset _ | ethStatsGet _ | appStats _ => trivial

/-- Status, then exit: where the frame of the first handler held `0x0100` the client waits for a
byte that is never sent, and takes the next reply for data. -/
theorem serve_announces_stale_size :
    ¬∀ (s : Server) (arrivals : List Arrival), Ensures sockets (serve s arrivals) [] fun exchanges _ =>
      ∀ x ∈ exchanges, x.ret = 0 → Framed x.sent := by
  intro claim
  have framed := (claim ⟨[],1,oneLcore⟩ [⟨some [1],⟨0,0,0x0100⟩⟩,⟨some [2],⟨0,0,0⟩⟩]).exec willing willing_sockets
  exact absurd (framed _ List.mem_cons_self rfl) (by decide)

end Natasha.Adm
