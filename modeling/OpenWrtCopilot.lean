import OpenWrtCopilot.Ports.SshClient
import OpenWrtCopilot.Ports.ManagementUpload
import OpenWrtCopilot.Ports.ManagementConfirmRuns
import OpenWrtCopilot.Ports.ManagementUngated
import OpenWrtCopilot.Ports.WirelessAgreement
import OpenWrtCopilot.Ports.FirewallComplete
import OpenWrtCopilot.Ports.ManagementDhcp
import OpenWrtCopilot.Ports.ManagementDnsJobs
import OpenWrtCopilot.Ports.PackagesCache
import OpenWrtCopilot.Ports.HostKeyFirstUse
import OpenWrtCopilot.Ports.HostKeySharing
import OpenWrtCopilot.Ports.SshAccounts
import OpenWrtCopilot.Ports.ChatHistory
import OpenWrtCopilot.Ports.SnapshotPolls
import OpenWrtCopilot.Ports.VaultRoundTrip
import OpenWrtCopilot.Ports.ProviderReload
import OpenWrtCopilot.Ports.ProviderFiles
import OpenWrtCopilot.Ports.ProviderRouting
import OpenWrtCopilot.Ports.EmbeddingBatches
import OpenWrtCopilot.Ports.ChatStream
import OpenWrtCopilot.Ports.HostsFile
import OpenWrtCopilot.Ports.SystemSettings
import OpenWrtCopilot.Ports.KnowledgeReopen
import OpenWrtCopilot.Ports.KnowledgeSharing
import OpenWrtCopilot.Ports.KnowledgeChunkers
import OpenWrtCopilot.Ports.KnowledgeCounts
import OpenWrtCopilot.Ports.KnowledgeWindows
import OpenWrtCopilot.Ports.KnowledgeSections
import OpenWrtCopilot.Ports.RagHistory
import OpenWrtCopilot.Ports.VectorVersions
import OpenWrtCopilot.Ports.DhcpDecoding
import OpenWrtCopilot.Ports.RouterFeed
import OpenWrtCopilot.Ports.ManagementSettled
import OpenWrtCopilot.Ports.SnapshotOrder
import OpenWrtCopilot.Ports.FirstRunSetup
import OpenWrtCopilot.Ports.ApkPackages
import OpenWrtCopilot.Ports.StorageMarks
import OpenWrtCopilot.Ports.UseChat
import OpenWrtCopilot.Ports.StreamUsage
import OpenWrtCopilot.Ports.RouterMarkdown
import OpenWrtCopilot.Ports.HtmlExtraction
import OpenWrtCopilot.Ports.KnowledgeGlobs
import OpenWrtCopilot.Ports.KnowledgeStability
import OpenWrtCopilot.Ports.RagMemoryBounds
import OpenWrtCopilot.Ports.RagReduction
import OpenWrtCopilot.Ports.VectorFilters
import OpenWrtCopilot.Ports.RagRerank
import OpenWrtCopilot.Ports.ContextCache
import OpenWrtCopilot.Ports.CpuLoad
import OpenWrtCopilot.Ports.ClientLabels
import OpenWrtCopilot.Ports.FocusedContext
import OpenWrtCopilot.Ports.ManagementPrintf
import OpenWrtCopilot.Ports.ChromaMetadata
import OpenWrtCopilot.Ports.SshTransport
import OpenWrtCopilot.Ports.WifiRadios
import OpenWrtCopilot.Ports.NetworkInterfaces
import OpenWrtCopilot.Ports.RagSessions
import OpenWrtCopilot.Ports.BrowserMedia
import OpenWrtCopilot.Ports.SystemGather
import OpenWrtCopilot.Ports.MetadataManager
import OpenWrtCopilot.Ports.ProcessCpu
import OpenWrtCopilot.Ports.UseManagementJob
