import Natasha.Dispatch
import Natasha.Ledger

/-! Ownership of the mbuf under dispatch. `Since` follows the mbuf from its reception through
the stages of its life; `Keeps` is the code that leaves it at its stage, and `tx_send`
takes it away. -/
namespace Natasha

open Interaction

variable {ok : (op : Op) → Ans op → Prop} {ports : Nat → Prop} {w₀ w : Worker} {s t : Stage}

/-- Since `w₀`, when the mbuf was received, it went through lawful events to stage `s`. -/
def Since (ports : Nat → Prop) (w₀ : Worker) (s : Stage) (w : Worker) : Prop :=
  ∃ es, Books ports w₀ w es ∧ Stage.held.run es = some s

theorem Since.refl (w : Worker) : Since ports w .held w := ⟨[],Books.refl w,rfl⟩

theorem Since.step (since : Since ports w₀ s w) (books : Books ports w w' es)
    (lawful : s.run es = some t) : Since ports w₀ t w' := by
  obtain ⟨before,past,reached⟩ := since
  exact ⟨before ++ es,past.trans books,(Stage.run_append _ _ _ _ reached).trans lawful⟩

def Stage.Owns (s : Stage) : Prop := s = .held ∨ s = .breaking

theorem Stage.owns_held : Stage.held.Owns := .inl rfl
theorem Stage.owns_breaking : Stage.breaking.Owns := .inr rfl

theorem Since.read (since : Since ports w₀ s w) (own : s.Owns) : Since ports w₀ s (w.logged .read) :=
  since.step (Books.logged w .read rfl) (by rcases own with rfl | rfl <;> rfl)

theorem Since.write (since : Since ports w₀ s w) (own : s.Owns) (f : Mbuf → Mbuf) :
    Since ports w₀ s (w.stored f) :=
  since.step (Books.stored w f) (by rcases own with rfl | rfl <;> rfl)

/-- The mbuf is gone and everything owed for it is paid. -/
def Gone (ports : Nat → Prop) (w₀ w : Worker) : Prop := ∃ t, t.Consumed ∧ Since ports w₀ t w

/-! ## Transmit -/

theorem run_sendAccesses (own : s.Owns) (m : Mbuf) : s.run m.sendAccesses = some s := by
  unfold Mbuf.sendAccesses
  rcases own with rfl | rfl <;> split <;> rfl

theorem run_enqueue (own : s.Owns) (m : Mbuf) (port slot : Nat) :
    s.run (m.sendAccesses ++ [.enqueue port slot]) = some (.queued port slot) := by
  rw [Stage.run_append s s _ _ (run_sendAccesses own m)]
  rcases own with rfl | rfl <;> rfl

@[simp] theorem offeredOn_sendAccesses (q : Nat) (m : Mbuf) : offeredOn q m.sendAccesses = 0 := by
  unfold Mbuf.sendAccesses
  split <;> rfl

@[simp] theorem enqueuedOn_sendAccesses (q : Nat) (m : Mbuf) : enqueuedOn q m.sendAccesses = 0 :=
  countP_accesses (sendAccesses_quiet m) _ rfl rfl

@[simp] theorem bumps_sendAccesses (st : Stat) (m : Mbuf) : bumps st m.sendAccesses = 0 :=
  countP_accesses (sendAccesses_quiet m) _ rfl rfl

@[simp] theorem queuesIn_sendAccesses (ports : Nat → Prop) (m : Mbuf) :
    QueuesIn ports m.sendAccesses := by
  unfold Mbuf.sendAccesses
  split <;> simp [Event.queue]

theorem filled_length (w : Worker) (port : Nat) :
    (w.filled port).length = (w.txQueues port).pkts.length + 1 := by
  simp [Worker.filled]

theorem Books.queued (w : Worker) (port : Nat) (allowed : ports port)
    (room : (w.filled port).length < maxTxBurst) :
    Books ports w ((w.enqueued port).setQueue port ⟨w.filled port,room⟩)
      (w.pkt.sendAccesses ++ [.enqueue port (w.txQueues port).pkts.length]) where
  log := rfl
  stats st := by simp [Event.isBump,Worker.enqueued]
  queues q := by
    by_cases same : q = port
    · subst q
      simp [Event.offeredOn,Event.isEnqueueOn,filled_length]
    · simp [Event.offeredOn,Event.isEnqueueOn,Worker.enqueued,Function.update_of_ne same,Ne.symm same]
  allowed := by simpa [Event.queue] using allowed

theorem Books.sent (w : Worker) (port : Nat) (allowed : ports port) :
    Books ports w ((w.enqueued port).flushed port (w.filled port))
      ((w.pkt.sendAccesses ++ [.enqueue port (w.txQueues port).pkts.length]) ++
        flushEvents port (w.filled port) ((w.enqueued port).taken (w.filled port))) where
  log := by simp [Worker.flushed,Worker.enqueued]
  stats st := by
    rw [Books.flushed_stats]
    simp [Event.isBump,Worker.enqueued]
  queues q := by
    by_cases same : q = port
    · subst q
      simp [Event.offeredOn,Event.isEnqueueOn,Worker.flushed,TxQueue.empty,filled_length]
    · simp [Event.offeredOn,Event.isEnqueueOn,Worker.flushed,Worker.enqueued,
        Function.update_of_ne same,Ne.symm same]
  allowed := by simpa [Event.queue] using allowed

theorem taken_le (w : Worker) (pkts : List Mbuf) : w.taken pkts ≤ pkts.length := Nat.min_le_right _ _

theorem Since.txSend (since : Since ports w₀ s w) (own : s.Owns) (port : Nat) (allowed : ports port) :
    Ensures ok (Natasha.txSend port) w fun _ w' => Gone ports w₀ w' := by
  rw [ensures_txSend]
  refine ⟨fun room => ?_,fun _ => ?_⟩
  · exact ⟨.queued port (w.txQueues port).pkts.length,trivial,
      since.step (Books.queued w port allowed room) (run_enqueue own _ _ _)⟩
  · have bounded := taken_le (w.enqueued port) (w.filled port)
    have emptied := Stage.run_notSent port ((w.enqueued port).taken (w.filled port))
      ((w.filled port).length - (w.enqueued port).taken (w.filled port))
    refine ⟨.flushing port (w.filled port).length 0,rfl,since.step (Books.sent w port allowed) ?_⟩
    rw [Stage.run_append _ _ _ _ (run_enqueue own _ _ _)]
    rw [Nat.add_sub_cancel' bounded] at emptied
    simp only [filled_length] at bounded emptied
    simpa [flushEvents,Stage.next,filled_length,bounded] using emptied

/-! ## Code that leaves the mbuf where it is -/

/-- Code that at most reads and writes the mbuf. -/
def Keeps (ok : (op : Op) → Ans op → Prop) (ports : Nat → Prop) (code : M α) : Prop :=
  ∀ ⦃w₀ w s⦄, Stage.Owns s → Since ports w₀ s w → Ensures ok code w fun _ w' => Since ports w₀ s w'

namespace Keeps

variable {code : M α} {next : α → M β}

theorem pure (a : α) : Keeps ok ports (Pure.pure a : M α) := fun _ _ _ _ since => since

theorem bind (first : Keeps ok ports code) (second : ∀ a, Keeps ok ports (next a)) :
    Keeps ok ports (code >>= next) := by
  intro w₀ w s own since
  rw [ensures_bind]
  exact (first own since).mono fun a w' since => second a own since

theorem ite (c : Prop) [Decidable c] {other : M α} (yes : Keeps ok ports code)
    (no : Keeps ok ports other) : Keeps ok ports (if c then code else other) := by
  split
  · exact yes
  · exact no

theorem before {post : β → Worker → Prop} (first : Keeps ok ports code) (own : s.Owns)
    (since : Since ports w₀ s w)
    (rest : ∀ a w', Since ports w₀ s w' → Ensures ok (next a) w' post) :
    Ensures ok (code >>= next) w post := by
  rw [ensures_bind]
  exact (first own since).mono rest

theorem readPkt (f : Mbuf → α) : Keeps ok ports (Natasha.readPkt f) :=
  fun _ _ _ own since => since.read own

theorem writePkt (f : Mbuf → Mbuf) : Keeps ok ports (Natasha.writePkt f) :=
  fun _ _ _ own since => since.write own f

theorem appConfig : Keeps ok ports Natasha.appConfig := fun _ _ _ _ since _ _ => since

theorem readConfig (p : ConfigPtr) (m : Member) : Keeps ok ports (Natasha.readConfig p m) :=
  fun _ _ _ _ since _ _ => since

theorem cksumUpdateAt (field : Nat) (before after : U32) :
    Keeps ok ports (Natasha.cksumUpdateAt field before after) :=
  (readPkt _).bind fun _ => writePkt _

theorem isNatashaPortIp (p : ConfigPtr) (ip : U32) (vlan : U16) (port : Nat) :
    Keeps ok ports (Natasha.isNatashaPortIp p ip vlan port) :=
  (readConfig _ _).bind fun _ => pure _

theorem isNatashaIpOn (p : ConfigPtr) (ip : U32) (vlan : U16) (list : List Nat) :
    Keeps ok ports (Natasha.isNatashaIpOn p ip vlan list) := by
  induction list with
  | nil => exact pure _
  | cons port list ih => exact (isNatashaPortIp ..).bind fun _ => ite _ (pure _) ih

theorem l4CksumUpdate (field : Nat) (offload : U64) (before after : U32) :
    Keeps ok ports (Natasha.l4CksumUpdate field offload before after) :=
  (readPkt _).bind fun _ => ite _ (cksumUpdateAt ..) ((writePkt _).bind fun _ => writePkt _)

theorem fixNexus9000PaddingBug : Keeps ok ports Natasha.fixNexus9000PaddingBug :=
  (readPkt _).bind fun _ => (readPkt _).bind fun _ => ite _ (writePkt _) (pure _)

theorem actionPrint : Keeps ok ports Natasha.actionPrint :=
  (readPkt _).bind fun _ => (readPkt _).bind fun _ => (readPkt _).bind fun _ =>
    ite _ ((readPkt _).bind fun _ => (readPkt _).bind fun _ => pure _)
      (ite _ ((readPkt _).bind fun _ => pure _)
        (ite _ ((readPkt _).bind fun _ => pure _) (pure _)))

end Keeps

end Natasha
