import Natasha.Lib.Interaction
import Natasha.Lib.Simulation
import Natasha.Lib.OnesComplement
import Natasha.Lib.Regex
import Natasha.Mbuf
import Natasha.Checksum
import Natasha.NatTable
import Natasha.NatAllocation
import Natasha.Config
import Natasha.Worker
import Natasha.ActionNat
import Natasha.Rules
import Natasha.Dispatch
import Natasha.Transmit
import Natasha.Reception
import Natasha.Leaks
import Natasha.Ledger
import Natasha.TransmitQueue
import Natasha.Ownership
import Natasha.Rewrite
import Natasha.Fate
import Natasha.Accounting
import Natasha.HeaderChecksum
import Natasha.Fragments
import Natasha.IcmpErrors
import Natasha.NatOrder
import Natasha.TruncatedErrors
import Natasha.Footprint
import Natasha.Offload
import Natasha.Completion
import Natasha.Echo
import Natasha.EchoReply
import Natasha.IcmpFragments
import Natasha.SourceMac
import Natasha.Syntax
import Natasha.Parser
import Natasha.Lexer
import Natasha.Networks
import Natasha.NatDump
import Natasha.ParseTree
import Natasha.MacLiterals
import Natasha.ConfigFiles
import Natasha.Scope
import Natasha.RulesMeaning
import Natasha.Reload
import Natasha.Residue
import Natasha.Setup
import Natasha.Queues
import Natasha.System
import Natasha.Discipline
import Natasha.ReloadSafety
import Natasha.PortIndices
import Natasha.PortLines
import Natasha.ArpReply
import Natasha.OutPorts
import Natasha.Grammar
import Natasha.Numbers
import Natasha.Heap
import Natasha.HeapBalance
import Natasha.Adm
import Natasha.AdmFraming
import Natasha.AdmLoop
import Natasha.AdmClients
import Natasha.AdmChunks
import Natasha.Verdict
import Natasha.Forwarding
import Natasha.Denotation
import Natasha.Layout
import Natasha.Progress
import Natasha.Custody
import Natasha.Startup
import Natasha.EndToEnd
import Natasha.AdmReplies
import Natasha.AdmService
