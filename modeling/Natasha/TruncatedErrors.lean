import Natasha.IcmpErrors
import Natasha.Ledger

/-! ICMP errors that are too short for the header they should quote. The length test of
`icmp_nat_handle` compares an unsigned difference with zero, so it lets every error through and
whatever follows the message in the buffer is taken for a quoted header. -/
namespace Natasha

open Interaction

/-- An ICMP error that ends before the header it should quote does. -/
structure Mbuf.TruncatedError (m : Mbuf) : Prop where
  ihl : headerLength m.data = 5
  whole : m.fragOffset = 0
  error : m.IsError
  short : m.totalLength < sizeofIpv4Hdr + sizeofIcmpHdr + sizeofIpv4Hdr

/-- A load of the NAT table, for one address. -/
def Op.isLookup : Op → Bool
  | .read _ .natLookup => true
  | _ => false

/-- How many addresses are looked up in a run. -/
def lookups (config : AppConfig) (code : M α) (w : Worker) : Nat :=
  (asked (steadyAnswer config) code w).countP Op.isLookup

/-- `action_nat_rewrite` only translates the outer address and the packet goes on. -/
structure LeavesQuote (config : AppConfig) (field : AddrField) (w : Worker) : Prop where
  bytes : ∀ i ≥ l4Header, (exec (steadyAnswer config) (actionNatRewrite field) w).2.pkt.data i = w.pkt.data i
  outer : lookups config (actionNatRewrite field) w = 1
  goesOn : (exec (steadyAnswer config) (actionNatRewrite field) w).1 = 0 ∧
    Accessed w (exec (steadyAnswer config) (actionNatRewrite field) w).2

section Lookups

variable (config : AppConfig) (w : Worker)

theorem lookups_done {code : M α} {a : α} {w' : Worker} (done : code.run w = .done (a,w')) (next : α → M β) :
    lookups config (code >>= next) w = lookups config (next a) w' := by
  rw [lookups,asked_done done,lookups]

theorem lookups_readPkt (f : Mbuf → α) (next : α → M β) :
    lookups config (readPkt f >>= next) w = lookups config (next (f w.pkt)) (w.logged .read) :=
  lookups_done config w rfl next

theorem lookups_cksumUpdateAt (field : Nat) (before after : U32) (next : Unit → M β) :
    lookups config (cksumUpdateAt field before after >>= next) w =
      lookups config (next ()) ((w.logged .read).stored fun m => m.cksumUpdated field before after) :=
  lookups_done config w rfl next

theorem lookups_lookupAndRewrite {table : NatLookup} {ip new : U32} (found : natLookupIp table ip = some new) (field : Nat)
    (next : Int → M β) : lookups config (lookupAndRewrite table ip field >>= next) w =
      lookups config (next 0) (w.stored fun m => { m with data := m.data.store32 field new }) := by
  apply lookups_done
  rw [lookupAndRewrite,found]
  rfl

/-- One lookup as its callers make it. -/
theorem lookups_natLookup (next : ConfigPtr → M α) :
    lookups config (do let config ← appConfig; readConfig config .natLookup; next config) w =
      lookups config (next ⟨0,config⟩) w + 1 := by
  show List.countP Op.isLookup (.appConfig :: .read ⟨0,config⟩ .natLookup ::
    asked (steadyAnswer config) (next ⟨0,config⟩) w) = _
  simp [List.countP_cons,Op.isLookup,lookups]

theorem icmpNatHandle_lookups (inner : AddrField) (error : w.pkt.IsError) : lookups config (icmpNatHandle inner) w = 1 := by
  have type := (not_isError_iff w.pkt error.1).not.mp (not_not.mpr error)
  simp only [icmpNatHandle,load8,load16,load32,lookups_readPkt]
  rw [if_neg type]
  simp only [lookups_readPkt]
  rw [if_neg (unlikely_nonneg _)]
  simp only [lookups_readPkt,lookups_natLookup]
  unfold lookupAndRewrite
  split <;> rfl

theorem actionNatRewriteImpl_lookups (field : AddrField) (error : w.pkt.IsError) {new : U32}
    (found : natLookupIp config.natLookup (rteBeToCpu32 (w.pkt.addr field)) = some new) :
    lookups config (actionNatRewriteImpl field.address field.opposite) w = 2 := by
  rw [Mbuf.addr] at found
  -- the outer address is found, and the packet is still an error when its protocol is looked at
  have error' := (w.pkt.readdressed_isError field new).mpr error
  have icmp := error'.1
  have notTcp : ¬(w.pkt.readdressed field.address new).proto = ipprotoTcp := by rw [icmp]; decide
  have notUdp : ¬((w.pkt.readdressed field.address new).proto = ipprotoUdplite ∨
      (w.pkt.readdressed field.address new).proto = ipprotoUdp) := by rw [icmp]; decide
  simp only [actionNatRewriteImpl,load8,load16,load32,lookups_readPkt,lookups_natLookup]
  rw [lookups_lookupAndRewrite config _ found,if_neg (by decide)]
  simp only [lookups_readPkt,lookups_cksumUpdateAt,Worker.stored_pkt,Worker.logged_pkt,Buffer.load32_store32]
  refine congrArg (· + 1) ?_
  refine (congrArg (lookups config · _) (if_neg notTcp)).trans ?_
  refine (congrArg (lookups config · _) (if_neg notUdp)).trans ?_
  refine (congrArg (lookups config · _) (if_pos icmp)).trans ?_
  exact icmpNatHandle_lookups config _ field.opposite error'

end Lookups

theorem actionNatRewrite_lookups (config : AppConfig) (field : AddrField) (w : Worker) (error : w.pkt.IsError) {new : U32}
    (found : natLookupIp config.natLookup (rteBeToCpu32 (w.pkt.addr field)) = some new) :
    lookups config (actionNatRewrite field) w = 2 := by
  cases field with
  | src => exact actionNatRewriteImpl_lookups config w .src error found
  | dst => exact actionNatRewriteImpl_lookups config w .dst error found

theorem actionNatRewrite_truncated (config : AppConfig) (field : AddrField) (w : Worker) (truncated : w.pkt.TruncatedError)
    (new : U32) (found : natLookupIp config.natLookup (rteBeToCpu32 (w.pkt.addr field)) = some new) :
    ¬LeavesQuote config field w := by
  intro leaves
  have twice := actionNatRewrite_lookups config field w truncated.error found
  have once := leaves.outer
  omega

/-- The same error, which claims to end behind its ICMP header. -/
def truncatedError : Mbuf := { timeExceeded with data := timeExceeded.data.store8 (ipv4Header + Ipv4.totalLength + 1) 28 }

theorem truncatedError_truncated : truncatedError.TruncatedError := ⟨by decide,by decide,by decide,by decide⟩

theorem actionNatRewrite_truncated_timeExceeded :
    truncatedError.TruncatedError ∧
      ¬LeavesQuote bareConfig .dst (.start truncatedError (fun _ => ⟨[],by decide⟩) fun _ => 0) :=
  ⟨truncatedError_truncated,actionNatRewrite_truncated bareConfig .dst
    (.start truncatedError (fun _ => ⟨[],by decide⟩) fun _ => 0) truncatedError_truncated (rteBeToCpu32 0x0a000001)
    (by decide)⟩

/-- The four bytes where a source address would be are looked up and overwritten. -/
theorem truncatedError_rewritten :
    ¬∀ (config : AppConfig) (field : AddrField) (w : Worker) (new : U32), w.pkt.TruncatedError →
      natLookupIp config.natLookup (rteBeToCpu32 (w.pkt.addr field)) = some new → LeavesQuote config field w := by
  intro claim
  have leaves := claim bareConfig .dst (.start truncatedError (fun _ => ⟨[],by decide⟩) fun _ => 0) (rteBeToCpu32 0x0a000001)
    truncatedError_truncated (by decide)
  exact absurd (leaves.bytes AddrField.src.innerAddress (by decide)) (by decide)

end Natasha
