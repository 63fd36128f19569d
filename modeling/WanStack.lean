import WanStack.Lib.Reassembly
import WanStack.Aftr.Bytes
import WanStack.Aftr.Frag
import WanStack.Aftr.FragInv
import WanStack.Aftr.Collect
import WanStack.Aftr.Defrag
import WanStack.Aftr.Defrag6
import WanStack.Aftr.Encap
import WanStack.Lib.SearchTree
import WanStack.Lib.Tried
import WanStack.Lib.Scanf
import WanStack.Lib.StreamEdits
import WanStack.Lib.Splay
import WanStack.Lib.LinkedTree
import WanStack.Lib.RedBlack
import WanStack.Lib.RedBlackBalance
import WanStack.Lib.Radix
import WanStack.Lib.RadixPath
import WanStack.Lib.BinaryHeap
import WanStack.Lib.Again
import WanStack.Lib.BitPrefix
import WanStack.Lib.FieldOrder
import WanStack.Aftr.Nat
import WanStack.Aftr.State
import WanStack.Aftr.Translate
import WanStack.Aftr.Command
import WanStack.Aftr.System
import WanStack.Aftr.TunnelInv
import WanStack.Aftr.Moves
import WanStack.Aftr.Linked
import WanStack.Aftr.PacketMoves
import WanStack.Aftr.CommandMoves
import WanStack.Aftr.StepMoves
import WanStack.Aftr.Runs
import WanStack.Aftr.FragTunnels
import WanStack.Aftr.SplayOrder
import WanStack.Aftr.Wildcards
import WanStack.Aftr.Changes
import WanStack.Aftr.RateLimit
import WanStack.Aftr.Names
import WanStack.Aftr.Generations
import WanStack.Aftr.Sessions
import WanStack.Aftr.SessionRuns
import WanStack.Aftr.NextGen
import WanStack.Aftr.BucketRefill
import WanStack.Aftr.SplayLinks
import WanStack.Aftr.TreeLinks
import WanStack.Aftr.TreeRuns
import WanStack.Aftr.TreeOps
import WanStack.Aftr.TunnelLinks
import WanStack.Aftr.TunnelPaths
import WanStack.Aftr.TunnelRuns
import WanStack.Aftr.TunnelSet
import WanStack.Aftr.ExpiryHeap
import WanStack.Aftr.ExpiryRuns
import WanStack.Aftr.Filters
import WanStack.Aftr.FilterLoops
import WanStack.Aftr.Prefixes
import WanStack.Aftr.FtpSeq
import WanStack.Aftr.PacketShape
import WanStack.Aftr.TooBig
import WanStack.Aftr.IcmpErrors
import WanStack.Aftr.FtpRuns
import WanStack.Aftr.FtpCommands
import WanStack.Aftr.Datapath
import WanStack.Aftr.PacketRuns
import WanStack.Aftr.FtpChains
import WanStack.Aftr.Delivery
import WanStack.Aftr.Departure
import WanStack.Aftr.Wire
import WanStack.Lib.PartialRun
import WanStack.Lib.Reused
import WanStack.Lib.Slots
import WanStack.Lib.Walk
import WanStack.Lib.Leader
import WanStack.Lib.OnesComplement
import WanStack.Lib.Queue
import WanStack.Aftr.ControlStream
import WanStack.Racoon.IsakmpFrag
import WanStack.Racoon.NattKeepalive
import WanStack.Radvd.Options
import WanStack.Radvd.SendRa
import WanStack.Radvd.Timer
import WanStack.Radvd.Schedule
import WanStack.Radvd.Lifetimes
import WanStack.Aftr.FileEntries
import WanStack.Aftr.FileRuns
import WanStack.Racoon.RecvdPkt
import WanStack.Racoon.Networks
import WanStack.Racoon.Proposal
import WanStack.Racoon.PropCheck
import WanStack.Racoon.Handles
import WanStack.Racoon.Informational
import WanStack.Racoon.InfoAuth
import WanStack.Racoon.Deletion
import WanStack.Racoon.SaIndex
import WanStack.Racoon.SpiWire
import WanStack.Racoon.GetSpi
import WanStack.Aftr.Cksum
import WanStack.Aftr.Rewrite
import WanStack.Aftr.TcpMss
import WanStack.Racoon.NotifyReads
import WanStack.Racoon.Quick
import WanStack.Racoon.QuickLoop
import WanStack.Racoon.QuickAuth
import WanStack.Racoon.PolicyLookup
import WanStack.Racoon.SaPayload
import WanStack.Racoon.SetProposal
import WanStack.Racoon.SaChain
import WanStack.Racoon.SaWritten
import WanStack.Racoon.SaRoundTrip
import WanStack.Racoon.SaByPair
import WanStack.Racoon.Remoteconf
import WanStack.Racoon.SectionChoice
import WanStack.Racoon.Phase1
import WanStack.Racoon.Phase1Policy
import WanStack.Racoon.Phase2
import WanStack.Racoon.SaDecoded
import WanStack.Racoon.Phase2Approval
import WanStack.Racoon.Phase2Offer
import WanStack.Racoon.Phase2Reply
import WanStack.Racoon.Phase2Answer
import WanStack.Racoon.Pfkey
import WanStack.Racoon.PfkeyBundle
import WanStack.Racoon.AddressPool
import WanStack.Racoon.AddressRuns
import WanStack.Racoon.ResponderLifetime
import WanStack.Racoon.Xauth
import WanStack.Racoon.XauthGate
import WanStack.Racoon.CfgMessage
import WanStack.Racoon.AttrWalk
import WanStack.Racoon.AttrForms
import WanStack.Racoon.AttrSettings
import WanStack.Racoon.IdCodec
import WanStack.Racoon.IdCompare
import WanStack.Racoon.SainfoTree
import WanStack.Racoon.Schedular
import WanStack.Racoon.Dpd
import WanStack.Racoon.PeerIdentity
import WanStack.Racoon.OakleyCrypt
import WanStack.Racoon.R2Payloads
import WanStack.Racoon.PayloadCodec
import WanStack.Radvd.ProcessRa
import WanStack.Radvd.Radvdump
import WanStack.Radvd.Dnssl
import WanStack.Radvd.OptionValues
import WanStack.Radvd.BuiltOptions
import WanStack.Radvd.RaReads
import WanStack.Radvd.RaChecks
import WanStack.Radvd.RaLocal
import WanStack.Radvd.CheckIface
import WanStack.Radvd.ReadinConfig
import WanStack.Radvd.StatementOrder
import WanStack.Libipsec.PolicyRoundTrip
