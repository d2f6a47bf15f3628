import FrameGraph.Catalog
import FrameGraph.Engine.Recording
import FrameGraph.Engine.Transcript
import FrameGraph.Executors
import FrameGraph.Json.Reader
import FrameGraph.Log.Board
import FrameGraph.Log.Console
import FrameGraph.Plan
import FrameGraph.Proofs.Plan.Account
import FrameGraph.Proofs.Plan.Interpretation
import FrameGraph.Proofs.Plan.Content
import FrameGraph.Proofs.Plan.Closed
import FrameGraph.Proofs.Plan.Execution
import FrameGraph.Proofs.Recording.Extension
import FrameGraph.Proofs.Recording.Room
import FrameGraph.Proofs.Recording.Build
import FrameGraph.Proofs.Document.Grammar
import FrameGraph.Proofs.Document.Acceptance
import FrameGraph.Proofs.Number.Widening
import FrameGraph.Proofs.Template
import FrameGraph.Proofs.Document.WellFormed
import FrameGraph.Proofs.Document.Writing
import FrameGraph.Proofs.Plan.References
import FrameGraph.Proofs.Recording.Skipped
import FrameGraph.Proofs.Document.Location
import FrameGraph.Proofs.Catalog.History
import FrameGraph.Proofs.Document.Blame
import FrameGraph.Proofs.Recording.History
import FrameGraph.Proofs.Plan.Cut
import FrameGraph.Proofs.Recording.Partial
import FrameGraph.Proofs.Recording.Order
import FrameGraph.Proofs.Log.Attribution
import FrameGraph.Proofs.Document.Sight
import FrameGraph.Proofs.Document.Unread
import FrameGraph.Proofs.Document.Stages
import FrameGraph.Proofs.Document.FirstFault
import FrameGraph.Proofs.Document.Respelling
import FrameGraph.Proofs.Executors
import FrameGraph.Proofs.Recording.Resize
import FrameGraph.Proofs.Plan.Tally
import FrameGraph.Proofs.Plan.Statistics
import FrameGraph.Proofs.Plan.Calls
import FrameGraph.Proofs.Plan.Names
import FrameGraph.Proofs.Plan.Signs
import FrameGraph.Proofs.Document.Flags
