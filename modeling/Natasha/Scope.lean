import Natasha.Dispatch

/-! Which code of a core is in scope: it works on the core's own memory without looking at
the log, and reads the shared configuration only through pointers it loaded itself and only
at some ports. The derivation is given once for each function; the properties of such code
are inductions over it. -/
namespace Natasha

open Interaction

/-- Everything but loads from the packet and the calls of conditions. -/
def Event.visible : Event → Bool
  | .read => false
  | .call action => !action.isCond
  | _ => true

/-- Two workers that did the same. -/
structure Alike (w w' : Worker) : Prop where
  pkt : w.pkt = w'.pkt
  txQueues : w.txQueues = w'.txQueues
  stats : w.stats = w'.stats
  rx : w.rx = w'.rx
  tx : w.tx = w'.tx
  log : w.log.filter Event.visible = w'.log.filter Event.visible

theorem Alike.logged (alike : Alike w w') (e : Event) : Alike (w.logged e) (w'.logged e) :=
  { alike with log := by simp [alike.log] }

theorem Alike.unseen (alike : Alike w w') (unseen : e.visible = false) : Alike (w.logged e) w' :=
  { alike with log := by simp [alike.log,unseen] }

/-- A step on the core's own memory. -/
def Unlogged (f : Worker → α × Worker) : Prop :=
  ∀ w w', Alike w w' → (f w).1 = (f w').1 ∧ Alike (f w).2 (f w').2

/-- A member other than a port, or a port that is allowed. -/
def Member.Within (ports : Int → Prop) : Member → Prop
  | .ports index => ports index
  | .natLookup | .rules => True

/-- Code that has `ptrs` and the pointers it loads. -/
inductive Scoped (ports : Int → Prop) : List ConfigPtr → {α : Type} → M α → Prop
  | pure (a : α) : Scoped ports ptrs (Pure.pure a : M α)
  | bind {code : M α} {next : α → M β} (first : Scoped ports ptrs code) (second : ∀ a, Scoped ports ptrs (next a)) :
      Scoped ports ptrs (code >>= next)
  | own (f : Worker → α × Worker) (unlogged : Unlogged f) : Scoped ports ptrs (modifyGet f : M α)
  | look {β : Type} (f : Worker → β) (unlogged : ∀ w w', Alike w w' → f w = f w') (next : β → M α)
      (each : ∀ b, Scoped ports ptrs (next b)) : Scoped ports ptrs ((get : M Worker) >>= fun w => next (f w))
  | load {next : ConfigPtr → M α} (each : ∀ p, Scoped ports (p :: ptrs) (next p)) :
      Scoped ports ptrs (appConfig >>= next)
  | read (known : p ∈ ptrs) (within : member.Within ports) : Scoped ports ptrs (readConfig p member)

namespace Scoped

variable {ports : Int → Prop} {ptrs : List ConfigPtr} {code : M α} {next : α → M β}

theorem mono (inScope : Scoped ports ptrs code) (more : ptrs ⊆ ptrs') : Scoped ports ptrs' code := by
  induction inScope generalizing ptrs' with
  | pure a => exact .pure a
  | bind first second ih ih' => exact (ih more).bind fun a => ih' a more
  | own f unlogged => exact .own f unlogged
  | look f unlogged next each ih => exact .look f unlogged next fun b => ih b more
  | load each ih => exact .load fun p => ih p (List.cons_subset_cons p more)
  | read known within => exact .read (more known) within

theorem ite (c : Prop) [Decidable c] {other : M α} (yes : Scoped ports ptrs code) (no : Scoped ports ptrs other) :
    Scoped ports ptrs (if c then code else other) := by
  split
  · exact yes
  · exact no

/-! ## Primitive operations -/

theorem readNatLookup (known : p ∈ ptrs) : Scoped ports ptrs (readConfig p .natLookup) := .read known trivial

theorem readRules (known : p ∈ ptrs) : Scoped ports ptrs (readConfig p .rules) := .read known trivial

theorem event (e : Event) : Scoped ports ptrs (Natasha.event e) :=
  .own _ fun _ _ alike => ⟨rfl,alike.logged e⟩

theorem readPkt (f : Mbuf → α) : Scoped ports ptrs (Natasha.readPkt f) :=
  .own _ fun _ _ alike => ⟨congrArg f alike.pkt,alike.logged .read⟩

theorem writePkt (f : Mbuf → Mbuf) : Scoped ports ptrs (Natasha.writePkt f) :=
  .own _ fun _ _ alike =>
    ⟨rfl,{ alike with pkt := congrArg f alike.pkt, log := by simp [alike.log] }⟩

theorem bump (stat : Stat) : Scoped ports ptrs (Natasha.bump stat) :=
  .own _ fun _ _ alike =>
    ⟨rfl,{ alike with stats := by simp [alike.stats], log := by simp [alike.log] }⟩

theorem setQueue (port : Nat) (queue : TxQueue) :
    Scoped ports ptrs (modify fun w => w.setQueue port queue : M PUnit) :=
  .own _ fun _ _ alike => ⟨rfl,{ alike with txQueues := by simp [alike.txQueues] }⟩

theorem rteEthTxBurst (port : Nat) (pkts : List Mbuf) : Scoped ports ptrs (Natasha.rteEthTxBurst port pkts) :=
  .own _ fun _ _ alike =>
    ⟨by simp [alike.tx],{ alike with tx := by simp [alike.tx], log := by simp [alike.log,alike.tx] }⟩

/-! ## Transmit -/

theorem freeNotSent (port n remaining : Nat) : Scoped ports ptrs (Natasha.freeNotSent port n remaining) := by
  induction remaining generalizing n with
  | zero => exact pure _
  | succ remaining ih => exact (bump _).bind fun _ => (event _).bind fun _ => ih _

theorem txFlush (port : Nat) (pkts : List Mbuf) : Scoped ports ptrs (Natasha.txFlush port pkts) :=
  ite _ (pure _) ((rteEthTxBurst _ _).bind fun _ => (freeNotSent _ _ _).bind fun _ =>
    (setQueue _ _).bind fun _ => pure _)

theorem enqueue (port : Nat) (setLengths : Mbuf → Mbuf) : Scoped ports ptrs (do
    Natasha.writePkt setLengths
    let w ← get
    let queue := w.txQueues port
    Natasha.event (.enqueue port queue.pkts.length)
    let pkts := queue.pkts ++ [w.pkt]
    if h : pkts.length < maxTxBurst then
      modify fun w => w.setQueue port ⟨pkts,h⟩
      return 0
    else
      Natasha.txFlush port pkts) := by
  refine (writePkt _).bind fun _ => ?_
  refine .look (fun w => (w.txQueues port,w.pkt)) (fun w w' alike => by simp [alike.txQueues,alike.pkt])
    (fun own => do
      Natasha.event (.enqueue port own.1.pkts.length)
      if h : (own.1.pkts ++ [own.2]).length < maxTxBurst then
        modify fun w => w.setQueue port ⟨own.1.pkts ++ [own.2],h⟩
        return 0
      else
        Natasha.txFlush port (own.1.pkts ++ [own.2])) fun own => (event _).bind fun _ => ?_
  split
  · exact (setQueue _ _).bind fun _ => pure _
  · exact txFlush _ _

theorem txSend (port : Nat) : Scoped ports ptrs (Natasha.txSend port) :=
  (readPkt _).bind fun _ => ite _ ((writePkt _).bind fun _ => enqueue port _) (enqueue port _)

/-! ## NAT rewrite -/

theorem cksumUpdateAt (field : Nat) (before after : U32) :
    Scoped ports ptrs (Natasha.cksumUpdateAt field before after) :=
  (readPkt _).bind fun _ => writePkt _

theorem lookupAndRewrite (table : NatLookup) (ip : U32) (field : Nat) :
    Scoped ports ptrs (Natasha.lookupAndRewrite table ip field) := by
  unfold Natasha.lookupAndRewrite
  split
  · exact (event _).bind fun _ => pure _
  · exact (writePkt _).bind fun _ => pure _

theorem l4CksumUpdate (field : Nat) (offload : U64) (before after : U32) :
    Scoped ports ptrs (Natasha.l4CksumUpdate field offload before after) :=
  (readPkt _).bind fun _ => ite _ (cksumUpdateAt ..) ((writePkt _).bind fun _ => writePkt _)

/-- Load the table, translate the word at `field` and go on if it is there. -/
theorem translate (ip : U32) (field : Nat) {rest : M Int} (more : Scoped ports ptrs rest) : Scoped ports ptrs (do
    let config ← Natasha.appConfig
    Natasha.readConfig config .natLookup
    if (← Natasha.lookupAndRewrite config.config.natLookup ip field) < 0 then
      Natasha.bump .dropNoRule
      return -1
    rest) :=
  .load fun p => (readNatLookup List.mem_cons_self).bind fun _ => (lookupAndRewrite ..).bind fun _ =>
    ite _ ((bump _).bind fun _ => pure _) (more.mono (List.subset_cons_self p ptrs))

theorem icmpNatHandle (inner : AddrField) : Scoped ports ptrs (Natasha.icmpNatHandle inner) :=
  (readPkt _).bind fun _ => ite _ (pure _) ((readPkt _).bind fun _ => ite _ (pure _)
    ((readPkt _).bind fun _ => (readPkt _).bind fun _ => translate _ _
      ((readPkt _).bind fun _ => (cksumUpdateAt ..).bind fun _ => (readPkt _).bind fun _ =>
        (cksumUpdateAt ..).bind fun _ => (cksumUpdateAt ..).bind fun _ => pure _)))

theorem actionNatRewriteImpl (address : Nat) (inner : AddrField) :
    Scoped ports ptrs (Natasha.actionNatRewriteImpl address inner) := by
  refine (readPkt _).bind fun _ => translate _ _ ((readPkt _).bind fun _ => (cksumUpdateAt ..).bind fun _ =>
    (readPkt _).bind fun _ => (readPkt _).bind fun _ => ?_)
  refine ite _ ((l4CksumUpdate ..).bind fun _ => pure _) (ite _ ?_ (ite _ (icmpNatHandle _) (pure _)))
  exact (readPkt _).bind fun _ => ite _ (pure _) ((l4CksumUpdate ..).bind fun _ => pure _)

/-! ## Rules -/

theorem invoke (dev : Devices) (port : Nat) (action : Action) : Scoped ports ptrs (action.invoke dev port) := by
  refine (event _).bind fun _ => ?_
  cases action with
  | condIpv4SrcInNetwork network => exact (readPkt _).bind fun _ => pure _
  | condIpv4DstInNetwork network => exact (readPkt _).bind fun _ => pure _
  | condVlan vlan => exact (readPkt _).bind fun _ => pure _
  | natRewrite field => exact ite _ (actionNatRewriteImpl ..) (actionNatRewriteImpl ..)
  | out packet =>
    exact (writePkt _).bind fun _ => (writePkt _).bind fun _ => (writePkt _).bind fun _ =>
      (writePkt _).bind fun _ => (txSend _).bind fun _ => pure _
  | print =>
    exact (readPkt _).bind fun _ => (readPkt _).bind fun _ => (readPkt _).bind fun _ =>
      ite _ ((readPkt _).bind fun _ => (readPkt _).bind fun _ => pure _)
        (ite _ ((readPkt _).bind fun _ => pure _)
          (ite _ ((readPkt _).bind fun _ => pure _) (pure _)))
  | drop => exact (bump _).bind fun _ => (event _).bind fun _ => pure _

theorem processRules (dev : Devices) (port : Nat) (known : p ∈ ptrs) (node : Node) :
    Scoped ports ptrs (Natasha.processRules dev port p node) := by
  induction node with
  | null => exact pure _
  | noop => exact (readRules known).bind fun _ => pure _
  | action action => exact (readRules known).bind fun _ => invoke dev port action
  | seq left right ihl ihr =>
    exact (readRules known).bind fun _ => ihl.bind fun _ => ite _ (pure _)
      (ihr.bind fun _ => ite _ (pure _) (pure _))
  | ifElse left right ihl ihr =>
    exact (readRules known).bind fun _ => ihl.bind fun _ => ite _ (pure _)
      (ite _ (ihr.bind fun _ => ite _ (pure _) (pure _)) (pure _))
  | cond left right ihl ihr =>
    exact (readRules known).bind fun _ => ihl.bind fun _ => ite _ (pure _) (ite _ (pure _)
      (ihr.bind fun _ => ite _ (pure _) (pure _)))
  | and left right ihl ihr =>
    exact (readRules known).bind fun _ => ihl.bind fun _ => ite _ (pure _) (ite _ (pure _)
      (ihr.bind fun _ => ite _ (pure _) (pure _)))
  | or left right ihl ihr =>
    exact (readRules known).bind fun _ => ihl.bind fun _ => ite _ (pure _) (ite _ (pure _)
      (ihr.bind fun _ => ite _ (pure _) (pure _)))

/-! ## Reception -/

theorem isNatashaPortIp (known : p ∈ ptrs) (ip : U32) (vlan : U16) {port : Nat} (allowed : ports port) :
    Scoped ports ptrs (Natasha.isNatashaPortIp p ip vlan port) :=
  bind (.read known (show (Member.ports port).Within ports from allowed)) fun _ => pure _

theorem isNatashaIpOn (known : p ∈ ptrs) (ip : U32) (vlan : U16) {list : List Nat}
    (allowed : ∀ port ∈ list, ports port) : Scoped ports ptrs (Natasha.isNatashaIpOn p ip vlan list) := by
  induction list with
  | nil => exact pure _
  | cons port list ih =>
    refine (isNatashaPortIp known ip vlan (allowed port List.mem_cons_self)).bind fun _ => ite _ (pure _) ?_
    exact ih fun other later => allowed other (List.mem_cons_of_mem _ later)

theorem icmpDispatch (port : Nat) : Scoped ports ptrs (Natasha.icmpDispatch port) := by
  refine (readPkt _).bind fun _ => ite _ ?_ (pure _)
  exact (writePkt _).bind fun _ => (readPkt _).bind fun _ => (readPkt _).bind fun _ =>
    (writePkt _).bind fun _ => (writePkt _).bind fun _ => (readPkt _).bind fun _ =>
    (readPkt _).bind fun _ => (writePkt _).bind fun _ => (writePkt _).bind fun _ =>
    (writePkt _).bind fun _ => (readPkt _).bind fun _ => (writePkt _).bind fun _ =>
    (writePkt _).bind fun _ => (readPkt _).bind fun _ => (readPkt _).bind fun _ =>
    (writePkt _).bind fun _ => (txSend port).bind fun _ => pure _

theorem finish (status : Int) : Scoped ports ptrs (do
    if status < 0 then
      Natasha.bump .dropUnhandledEthertype
      rtePktmbufFree
    return 0 : M Int) :=
  ite _ ((bump _).bind fun _ => (event _).bind fun _ => pure _) (pure _)

theorem applyRules (dev : Devices) (port : Nat) : Scoped ports ptrs (do
    let config ← Natasha.appConfig
    Natasha.readConfig config .rules
    if config.config.rules = .null then
      return -1
    let config ← Natasha.appConfig
    Natasha.readConfig config .rules
    let ret ← Natasha.processRules dev port config config.config.rules
    Natasha.event (.rules ret)
    return 0 : M Int) :=
  .load fun _ => (readRules List.mem_cons_self).bind fun _ => ite _ (pure _)
    (.load fun _ => (readRules List.mem_cons_self).bind fun _ =>
      (processRules dev port List.mem_cons_self _).bind fun _ => (event _).bind fun _ => pure _)

section Devices

variable {dev : Devices} {port : Nat} (devices : ∀ i < dev.count.toNat, ports i) (here : ports port)

include devices

theorem icmpAnswer : Scoped ports ptrs (Natasha.icmpAnswer dev port) :=
  (readPkt _).bind fun _ => .load fun _ => (readPkt _).bind fun _ =>
    (isNatashaIpOn List.mem_cons_self _ _ fun i member => devices i (List.mem_range.1 member)).bind
      fun _ => ite _ (pure _)
      ((icmpDispatch port).bind fun _ => ite _
        ((bump _).bind fun _ => (event _).bind fun _ => pure _) (pure _))

theorem ipv4Handle : Scoped ports ptrs (Natasha.ipv4Handle dev port) := by
  have padding : Scoped ports ptrs fixNexus9000PaddingBug :=
    (readPkt _).bind fun _ => (readPkt _).bind fun _ => ite _ (writePkt _) (pure _)
  exact padding.bind fun _ => (readPkt _).bind fun _ => ite _
    ((icmpAnswer devices).bind fun _ => ite _ (pure _) (applyRules dev port)) (applyRules dev port)

omit devices in
include here in
theorem arpHandle : Scoped ports ptrs (Natasha.arpHandle dev port) := by
  refine (readPkt _).bind fun _ => ite _ ?_ (pure _)
  refine (readPkt _).bind fun _ => (readPkt _).bind fun _ => .load fun _ => (readPkt _).bind fun _ =>
    (isNatashaPortIp List.mem_cons_self _ _ here).bind fun _ => ite _ (pure _) ?_
  exact (writePkt _).bind fun _ => (readPkt _).bind fun _ => (writePkt _).bind fun _ =>
    (writePkt _).bind fun _ => (readPkt _).bind fun _ => (writePkt _).bind fun _ =>
    (writePkt _).bind fun _ => (writePkt _).bind fun _ => (writePkt _).bind fun _ =>
    (txSend port).bind fun _ => pure _

include here

theorem handle : Scoped ports ptrs (do
    let ethType ← load16 Eth.etherType
    let status ←
      if ethType = rteBeToCpu16 etherTypeIpv4 then Natasha.ipv4Handle dev port
      else if ethType = rteBeToCpu16 etherTypeArp then Natasha.arpHandle dev port
      else Pure.pure (-1)
    if status < 0 then
      Natasha.bump .dropUnhandledEthertype
      rtePktmbufFree
    return 0 : M Int) :=
  (readPkt _).bind fun _ => ite _ ((ipv4Handle devices).bind finish)
    (ite _ ((arpHandle here).bind finish) ((pure _).bind finish))

theorem dispatchPacket : Scoped ports ptrs (Natasha.dispatchPacket dev port) :=
  (readPkt _).bind fun _ => ite _ ((bump _).bind fun _ => (event _).bind fun _ => pure _)
    (ite _ ((bump _).bind fun _ => handle devices here) (handle devices here))

end Devices

end Scoped

end Natasha
