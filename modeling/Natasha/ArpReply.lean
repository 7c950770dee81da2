import Natasha.EchoReply
import Natasha.PortLines

/-! ARP replies. A request is answered on the port it came in by, over itself, when its target
address is one of that port's; everything else is left to `dispatch_packet`. -/
namespace Natasha

open Interaction

variable {ok : (op : Op) → Ans op → Prop}

/-! ## The reply -/

/-- What `arp_request` writes. Each load finds what the request had there: what is written before it
lies elsewhere. -/
def Buffer.arpReply (b : Buffer) (mac : Mac) : Buffer :=
  let sourceIp := rteBeToCpu32 (b.load32 (arpHeader + Arp.arpSip))
  let targetIp := rteBeToCpu32 (b.load32 (arpHeader + Arp.arpTip))
  let b := b.store16 (arpHeader + Arp.arpOp) (rteBeToCpu16 arpOpReply)
  let b := (b.storeMac Eth.dAddr (b.loadMac Eth.sAddr)).storeMac Eth.sAddr mac
  let b := (b.storeMac (arpHeader + Arp.arpTha) (b.loadMac (arpHeader + Arp.arpSha))).storeMac (arpHeader + Arp.arpSha) mac
  (b.store32 (arpHeader + Arp.arpTip) (rteBeToCpu32 sourceIp)).store32 (arpHeader + Arp.arpSip) (rteBeToCpu32 targetIp)

namespace Mbuf

def arpOp (m : Mbuf) : U16 := rteBeToCpu16 (m.data.load16 (arpHeader + Arp.arpOp))

def arpTarget (m : Mbuf) : U32 := rteBeToCpu32 (m.data.load32 (arpHeader + Arp.arpTip))

/-- The reply of a port with address `mac`. -/
structure ArpRepliesTo (mac : Mac) (reply request : Mbuf) : Prop where
  operation : reply.arpOp = arpOpReply
  ethernet : reply.data.loadMac Eth.dAddr = request.data.loadMac Eth.sAddr ∧ reply.data.loadMac Eth.sAddr = mac
  target : reply.data.loadMac (arpHeader + Arp.arpTha) = request.data.loadMac (arpHeader + Arp.arpSha) ∧
    reply.data.load32 (arpHeader + Arp.arpTip) = request.data.load32 (arpHeader + Arp.arpSip)
  sender : reply.data.loadMac (arpHeader + Arp.arpSha) = mac ∧
    reply.data.load32 (arpHeader + Arp.arpSip) = request.data.load32 (arpHeader + Arp.arpTip)
  rest : ∀ i, Eth.etherType ≤ i → i < arpHeader + Arp.arpOp ∨ arpHeader + Arp.arpTip + 4 ≤ i →
    reply.data i = request.data i
  frame : reply.pktLen = request.pktLen ∧ reply.vlanTci = request.vlanTci

end Mbuf

section Reply

variable (b : Buffer) (mac : Mac)

theorem arpReply_operation : (b.arpReply mac).load16 (arpHeader + Arp.arpOp) = rteBeToCpu16 arpOpReply := by
  simp only [Buffer.arpReply]
  rw [Buffer.load16_store32_frame _ _ _ _ (by simp),Buffer.load16_store32_frame _ _ _ _ (by simp)]
  refine Eq.trans (Buffer.load16_congr fun i low high => ?_) (Buffer.load16_store16 b _ _)
  rw [Buffer.storeMac_frame _ _ _ _ (by simp at *; omega),Buffer.storeMac_frame _ _ _ _ (by simp at *; omega),
    Buffer.storeMac_frame _ _ _ _ (by simp at *; omega),Buffer.storeMac_frame _ _ _ _ (by simp at *; omega)]

theorem arpReply_ethernet :
    (b.arpReply mac).loadMac Eth.dAddr = b.loadMac Eth.sAddr ∧ (b.arpReply mac).loadMac Eth.sAddr = mac := by
  simp only [Buffer.arpReply]
  constructor
  · rw [Buffer.loadMac_store32_frame _ _ _ _ (by simp),Buffer.loadMac_store32_frame _ _ _ _ (by simp),
      Buffer.loadMac_storeMac_frame _ _ _ _ (by simp),Buffer.loadMac_storeMac_frame _ _ _ _ (by simp),
      Buffer.loadMac_storeMac_frame _ _ _ _ (by simp),Buffer.loadMac_storeMac,
      Buffer.loadMac_store16_frame _ _ _ _ (by simp)]
  · rw [Buffer.loadMac_store32_frame _ _ _ _ (by simp),Buffer.loadMac_store32_frame _ _ _ _ (by simp),
      Buffer.loadMac_storeMac_frame _ _ _ _ (by simp),Buffer.loadMac_storeMac_frame _ _ _ _ (by simp),
      Buffer.loadMac_storeMac]

theorem arpReply_hardware :
    (b.arpReply mac).loadMac (arpHeader + Arp.arpTha) = b.loadMac (arpHeader + Arp.arpSha) ∧
      (b.arpReply mac).loadMac (arpHeader + Arp.arpSha) = mac := by
  simp only [Buffer.arpReply]
  constructor
  · rw [Buffer.loadMac_store32_frame _ _ _ _ (by simp),Buffer.loadMac_store32_frame _ _ _ _ (by simp),
      Buffer.loadMac_storeMac_frame _ _ _ _ (by simp),Buffer.loadMac_storeMac,
      Buffer.loadMac_storeMac_frame _ _ _ _ (by simp),Buffer.loadMac_storeMac_frame _ _ _ _ (by simp),
      Buffer.loadMac_store16_frame _ _ _ _ (by simp)]
  · rw [Buffer.loadMac_store32_frame _ _ _ _ (by simp),Buffer.loadMac_store32_frame _ _ _ _ (by simp),
      Buffer.loadMac_storeMac]

theorem arpReply_protocol :
    (b.arpReply mac).load32 (arpHeader + Arp.arpTip) = b.load32 (arpHeader + Arp.arpSip) ∧
      (b.arpReply mac).load32 (arpHeader + Arp.arpSip) = b.load32 (arpHeader + Arp.arpTip) := by
  simp only [Buffer.arpReply]
  constructor
  · rw [Buffer.load32_store32_frame _ _ _ _ (by simp),Buffer.load32_store32,rteBeToCpu32_involutive]
  · rw [Buffer.load32_store32,rteBeToCpu32_involutive]

theorem arpReply_frame (i : Nat) (behind : Eth.etherType ≤ i)
    (apart : i < arpHeader + Arp.arpOp ∨ arpHeader + Arp.arpTip + 4 ≤ i) : b.arpReply mac i = b i := by
  simp only [Buffer.arpReply]
  rw [Buffer.store32_frame _ _ _ _ (by simp at *; omega),Buffer.store32_frame _ _ _ _ (by simp at *; omega),
    Buffer.storeMac_frame _ _ _ _ (by simp at *; omega),Buffer.storeMac_frame _ _ _ _ (by simp at *; omega),
    Buffer.storeMac_frame _ _ _ _ (by simp at *; omega),Buffer.storeMac_frame _ _ _ _ (by simp at *; omega),
    Buffer.store16_frame _ _ _ _ (by simp at *; omega)]

/-- The reply as `tx_send` queues it. -/
theorem arpReply_repliesTo (m : Mbuf) :
    Mbuf.ArpRepliesTo mac (Mbuf.prepared { m with data := m.data.arpReply mac }) m where
  operation := by
    show rteBeToCpu16 ((m.data.arpReply mac).load16 _) = _
    rw [arpReply_operation]
    rfl
  ethernet := arpReply_ethernet m.data mac
  target := ⟨(arpReply_hardware m.data mac).1,(arpReply_protocol m.data mac).1⟩
  sender := ⟨(arpReply_hardware m.data mac).2,(arpReply_protocol m.data mac).2⟩
  rest i behind apart := arpReply_frame m.data mac i behind apart
  frame := ⟨rfl,rfl⟩

end Reply

/-! ## The handler -/

/-- The accesses of `arp_request` to a request that it answers. -/
def arpAccesses : List Event :=
  [.read,.read,.read,.write,.read,.write,.write,.read,.write,.write,.write,.write]

/-- The worker when `arp_request` has written the reply. -/
def Worker.arpReplying (w : Worker) (mac : Mac) : Worker :=
  { w with pkt := { w.pkt with data := w.pkt.data.arpReply mac }, log := w.log ++ arpAccesses }

theorem Accessed.arpReplying (w : Worker) (mac : Mac) : Accessed w (w.arpReplying mac) :=
  ⟨rfl,rfl,arpAccesses,rfl,by simp [arpAccesses,Event.accesses]⟩

theorem arpRequest_mine (dev : Devices) (port : Nat) (w : Worker)
    (mine : ∀ p, ok .appConfig p → (w.pkt.arpTarget,w.pkt.vlanId) ∈ (p.config.ports port).ipAddresses) :
    Ensures ok (arpRequest dev port) w fun ret w' => 0 ≤ ret ∧
      Answered port (Mbuf.prepared { w.pkt with data := w.pkt.data.arpReply (dev.macaddr port) }) w w' := by
  simp only [arpRequest,load32,store16,store32,storeMac,loadMac,isNatashaPortIp,ensures_bind,ensures_readPkt,
    ensures_appConfig,ensures_readConfig,ensures_pure]
  intro p loaded _
  have found := (any_address_iff _ _ _).mpr (mine p loaded)
  simp only [Mbuf.arpTarget] at found
  simp only [Worker.logged_pkt,found,Bool.not_true,Bool.false_eq_true,if_false,ensures_bind,ensures_readPkt,ensures_writePkt]
  simp only [Worker.stored,Worker.logged,List.append_assoc,List.cons_append,List.nil_append,ensures_pure]
  refine (txSend_answered port (w.arpReplying (dev.macaddr port))).mono fun sent w' answered => ?_
  exact ⟨Int.natCast_nonneg _,answered.after (.arpReplying w _)⟩

theorem arpRequest_foreign (dev : Devices) (port : Nat) (w : Worker)
    (foreign : ∀ p, ok .appConfig p → (w.pkt.arpTarget,w.pkt.vlanId) ∉ (p.config.ports port).ipAddresses) :
    Ensures ok (arpRequest dev port) w fun ret w' => ret = -1 ∧ Accessed w w' ∧ w'.pkt = w.pkt := by
  simp only [arpRequest,load32,isNatashaPortIp,ensures_bind,ensures_readPkt,ensures_appConfig,ensures_readConfig,ensures_pure]
  intro p loaded _
  have missing := Bool.eq_false_iff.mpr (mt (any_address_iff _ _ _).mp (foreign p loaded))
  simp only [Mbuf.arpTarget] at missing
  simp only [Worker.logged_pkt,missing,Bool.not_false,if_true,ensures_pure,true_and,and_true]
  exact (Accessed.read w).trans ((Accessed.read _).trans (.read _))

section Handle

variable (dev : Devices) (port : Nat) (w : Worker)

theorem arpHandle_mine (request : w.pkt.arpOp = arpOpRequest)
    (mine : ∀ p, ok .appConfig p → (w.pkt.arpTarget,w.pkt.vlanId) ∈ (p.config.ports port).ipAddresses) :
    Ensures ok (arpHandle dev port) w fun ret w' => 0 ≤ ret ∧
      ∃ reply : Mbuf, reply.ArpRepliesTo (dev.macaddr port) w.pkt ∧ Answered port reply w w' := by
  rw [Mbuf.arpOp] at request
  simp only [arpHandle,load16,ensures_bind,ensures_readPkt,request,if_true]
  refine Ensures.mono (arpRequest_mine dev port (w.logged .read) ?_) fun ret w' answered => ?_
  · exact mine
  · exact ⟨answered.1,_,arpReply_repliesTo _ w.pkt,answered.2.after (.read w)⟩

theorem arpHandle_foreign
    (foreign : ¬(w.pkt.arpOp = arpOpRequest ∧
      ∃ p, ok .appConfig p ∧ (w.pkt.arpTarget,w.pkt.vlanId) ∈ (p.config.ports port).ipAddresses)) :
    Ensures ok (arpHandle dev port) w fun ret w' => ret = -1 ∧ Accessed w w' ∧ w'.pkt = w.pkt := by
  by_cases request : w.pkt.arpOp = arpOpRequest
  · have others : ∀ p, ok .appConfig p → (w.pkt.arpTarget,w.pkt.vlanId) ∉ (p.config.ports port).ipAddresses :=
      fun p loaded member => foreign ⟨request,p,loaded,member⟩
    rw [Mbuf.arpOp] at request
    simp only [arpHandle,load16,ensures_bind,ensures_readPkt,request,if_true]
    refine Ensures.mono (arpRequest_foreign dev port (w.logged .read) ?_) fun ret w' refused => ?_
    · exact others
    · exact ⟨refused.1,(Accessed.read w).trans refused.2.1,refused.2.2⟩
  · rw [Mbuf.arpOp] at request
    simp only [arpHandle,load16,ensures_bind,ensures_readPkt,request,if_false,ensures_pure,true_and]
    exact ⟨.read w,rfl⟩

end Handle

/-- A request is answered for the addresses of the last line of its port, and for no others. -/
theorem arpHandle_answers (files : List Char → Option (List Char)) (fuel : Nat) (argv : List String)
    (oracle oracle' : Nat → Bool) (config : AppConfig) (tokens : List Token)
    (accepted : (appConfigLoad files fuel argv).run.run oracle = (some config,oracle'))
    (read : configTokens files fuel argv = some tokens) (inRange : LinesInRange tokens)
    (dev : Devices) (port : Nat) (w : Worker) (loads : ∀ p, ok .appConfig p → p.config = config) :
    (w.pkt.arpOp = arpOpRequest ∧ Configured tokens port w.pkt.arpTarget w.pkt.vlanId.toNat →
      Ensures ok (arpHandle dev port) w fun ret w' => 0 ≤ ret ∧
        ∃ reply : Mbuf, reply.ArpRepliesTo (dev.macaddr port) w.pkt ∧ Answered port reply w w') ∧
    (¬(w.pkt.arpOp = arpOpRequest ∧ Configured tokens port w.pkt.arpTarget w.pkt.vlanId.toNat) →
      Ensures ok (arpHandle dev port) w (fun ret w' => ret = -1 ∧ Accessed w w' ∧ w'.pkt = w.pkt) ∧
      (w.pkt.data.load16 Eth.etherType = rteBeToCpu16 etherTypeArp →
        Ensures ok (dispatchPacket dev port) w fun _ w' => Discarded w w' ∧ w'.pkt.data = w.pkt.data)) := by
  have stored := appConfigLoad_lastPortLine files fuel argv read oracle config oracle' accepted
  have configured := configured_iff inRange port (stored port) w.pkt.arpTarget w.pkt.vlanId
  refine ⟨fun ⟨request,mine⟩ => ?_,fun foreign => ?_⟩
  · refine arpHandle_mine dev port w request fun p loaded => ?_
    rw [loads p loaded]
    exact configured.mpr mine
  · have others : ∀ w₀ : Worker, w₀.pkt = w.pkt → ¬(w₀.pkt.arpOp = arpOpRequest ∧
        ∃ p, ok .appConfig p ∧ (w₀.pkt.arpTarget,w₀.pkt.vlanId) ∈ (p.config.ports port).ipAddresses) := by
      rintro w₀ same ⟨request,p,loaded,member⟩
      rw [same] at request member
      rw [loads p loaded] at member
      exact foreign ⟨request,configured.mp member⟩
    refine ⟨arpHandle_foreign dev port w (others w rfl),fun arp => ?_⟩
    have ipv4 : ¬w.pkt.data.load16 Eth.etherType = rteBeToCpu16 etherTypeIpv4 := by
      rw [arp]
      decide
    let kept (m : Mbuf) : Prop := m.data = w.pkt.data
    have received : kept w.pkt := rfl
    refine dispatchPacket_refused received fun w₀ same => ?_
    rw [if_neg ipv4,if_pos arp]
    refine (arpHandle_foreign dev port w₀ (others w₀ same)).mono fun ret w' refused => ?_
    exact ⟨refused.1,refused.2.1,by rw [refused.2.2,same]⟩

/-- Two lines for port 0: the second one replaces the first. -/
def twoLinesFile (name : List Char) : Option (List Char) :=
  if name = "/etc/natasha.conf".toList then
    some "config\x7bport 0 ip 10.0.0.9;port 0 mtu 9000 ip 10.0.0.1 vlan 5 ip 10.0.0.2;\x7d".toList
  else none

/-- Who has 10.0.0.x, asked in VLAN 5 with a priority. -/
def whoHas (x : Byte) : Mbuf where
  data := .ofBytes ([255,255,255,255,255,255,2,0,0,0,0,5,8,6] ++ [0,1,8,0,6,4,0,1] ++ [2,0,0,0,0,5,10,0,0,7] ++
    [0,0,0,0,0,0,10,0,0,x])
  pktLen := 60
  olFlags := 0
  vlanTci := 0x2005
  l2Len := 0
  l3Len := 0

theorem twoLinesFile_parses :
    (configTokens twoLinesFile 60 []).map (fun tokens =>
      (portLines tokens,((yyparse .zeroed tokens).run.run allSucceed).1.isSome)) =
        some ([⟨0,[(0x0a000009,0)]⟩,⟨0,[(0x0a000001,0),(0x0a000002,5)]⟩],true) := by
  decide +kernel

theorem twoLinesFile_loads :
    ∃ config oracle' tokens, (appConfigLoad twoLinesFile 60 []).run.run allSucceed = (some config,oracle') ∧
      configTokens twoLinesFile 60 [] = some tokens ∧
      portLines tokens = [⟨0,[(0x0a000009,0)]⟩,⟨0,[(0x0a000001,0),(0x0a000002,5)]⟩] := by
  obtain ⟨tokens,read,facts⟩ := Option.map_eq_some_iff.mp twoLinesFile_parses
  obtain ⟨lines,accepted⟩ := Prod.mk.inj facts
  obtain ⟨config,loaded⟩ := Option.isSome_iff_exists.mp accepted
  refine ⟨config,((yyparse .zeroed tokens).run.run allSucceed).2,tokens,?_,read,lines⟩
  rw [appConfigLoad,read,← loaded]
  rfl

/-- 10.0.0.2 is answered for; 10.0.0.9, of the line that was replaced, is not. -/
theorem arpHandle_answers_twoLines :
    ∃ config : AppConfig,
      Ensures (steadyOnly config) (arpHandle soleDevice 0) (.start (whoHas 2) (fun _ => ⟨[],by decide⟩) fun _ => 0)
        (fun ret w' => 0 ≤ ret ∧ ∃ reply : Mbuf, reply.ArpRepliesTo (soleDevice.macaddr 0) (whoHas 2) ∧
          Answered 0 reply (.start (whoHas 2) (fun _ => ⟨[],by decide⟩) fun _ => 0) w') ∧
      Ensures (steadyOnly config) (dispatchPacket soleDevice 0) (.start (whoHas 9) (fun _ => ⟨[],by decide⟩) fun _ => 0)
        fun _ w' => Discarded (.start (whoHas 9) (fun _ => ⟨[],by decide⟩) fun _ => 0) w' ∧ w'.pkt.data = (whoHas 9).data := by
  obtain ⟨config,oracle',tokens,accepted,read,lines⟩ := twoLinesFile_loads
  have last : lastPortLine tokens 0 = some ⟨0,[(0x0a000001,0),(0x0a000002,5)]⟩ := by
    rw [lastPortLine,lines]
    rfl
  have inRange : LinesInRange tokens := by
    constructor
    · rw [lines]
      simp [InRange,natashaMaxEthports]
    · rw [lines]
      decide
  have answers (x : Byte) := arpHandle_answers twoLinesFile 60 [] allSucceed oracle' config tokens accepted read inRange
    soleDevice 0 (.start (whoHas x) (fun _ => ⟨[],by decide⟩) fun _ => 0)
    (fun p loaded => congrArg ConfigPtr.config loaded : ∀ p, steadyOnly config .appConfig p → p.config = config)
  refine ⟨config,(answers 2).1 ⟨by decide,_,last,by decide⟩,((answers 9).2 ?_).2 (by decide)⟩
  rintro ⟨-,line,same,member⟩
  cases last.symm.trans same
  exact absurd member (by decide)

end Natasha
