import DigitalWorker.Channels.Clicks
import DigitalWorker.Channels.Confirmation
import DigitalWorker.Channels.DecisionList
import DigitalWorker.Conversation.AmountsRead
import DigitalWorker.Conversation.Completeness
import DigitalWorker.Conversation.Naming
import DigitalWorker.Conversation.Receipt
import DigitalWorker.Conversation.SkippedItems
import DigitalWorker.Evaluation.QuotePlaces
import DigitalWorker.Evaluation.Shelving
import DigitalWorker.Evaluation.StoredWeights
import DigitalWorker.Evaluation.Submitted
import DigitalWorker.Kernel.TrialCalls
import DigitalWorker.Knowledge.CacheTransparency
import DigitalWorker.Knowledge.ChunkLaws
import DigitalWorker.Knowledge.CorpusSearch
import DigitalWorker.Knowledge.IndexParity
import DigitalWorker.Knowledge.NameClashes
import DigitalWorker.Knowledge.NamedSources
import DigitalWorker.Knowledge.ProviderHttp
import DigitalWorker.Knowledge.ProviderOrder
import DigitalWorker.Observability.Redaction
import DigitalWorker.Platform.Login
import DigitalWorker.Platform.RateLimit
import DigitalWorker.Preparation.Attribution
import DigitalWorker.Preparation.ImapMailbox
import DigitalWorker.Preparation.LegalQuotes
import DigitalWorker.Preparation.ReworkCount
import DigitalWorker.Preparation.ReworkScope
import DigitalWorker.Preparation.RulePacks
import DigitalWorker.Protocol.AmendCall
import DigitalWorker.Protocol.BidClosing
import DigitalWorker.Protocol.Competition
import DigitalWorker.Protocol.DecisionCards
import DigitalWorker.Protocol.Explanations
import DigitalWorker.Protocol.Finality
import DigitalWorker.Protocol.HeldWork
import DigitalWorker.Protocol.LawSweeps
import DigitalWorker.Protocol.OpenPoints
import DigitalWorker.Protocol.Publishing
import DigitalWorker.Protocol.ReturnsTally
import DigitalWorker.Protocol.Segregation
import DigitalWorker.Protocol.Settlement
import DigitalWorker.Protocol.SingleDecision
import DigitalWorker.Protocol.Timeliness
import DigitalWorker.Runtime.Checkpoints
import DigitalWorker.Runtime.ModelGateway
import DigitalWorker.Runtime.PromptLoading
import DigitalWorker.Runtime.StrictSchema
import DigitalWorker.Tools.Replay
import DigitalWorker.WorkOps.Names
import DigitalWorker.WorkOps.Regenerate
import DigitalWorker.WorkOps.TranscriptLaws
import DigitalWorker.Worker.Deliverable
import DigitalWorker.Worker.IngestJobs
