import SlideFlow.Command.Run
import SlideFlow.Deck.Exchange
import SlideFlow.Endpoint
import SlideFlow.Main
import SlideFlow.Markup.Edit
import SlideFlow.Proofs.Compile.Cycles
import SlideFlow.Proofs.Compile.Reach
import SlideFlow.Proofs.Compile.Recompile
import SlideFlow.Proofs.Compile.Routing
import SlideFlow.Proofs.Counter.Schedule
import SlideFlow.Proofs.Compile.Graph
import SlideFlow.Proofs.Counter.Sessions
import SlideFlow.Proofs.Timeline.Written
import SlideFlow.Proofs.Timeline.RoundTrip
import SlideFlow.Proofs.Deck.Legible
import SlideFlow.Proofs.Deck.Agreement
import SlideFlow.Proofs.Flow.Splice
import SlideFlow.Proofs.Command.Output
import SlideFlow.Proofs.Command.Emitted
import SlideFlow.Proofs.Fragment.Accepted
import SlideFlow.Proofs.Markup.Address
import SlideFlow.Proofs.Timeline.Ancestry
import SlideFlow.Proofs.Timeline.Coverage
import SlideFlow.Proofs.Markup.Bare
import SlideFlow.Proofs.Timeline.Invariance
import SlideFlow.Proofs.Files.Reading
import SlideFlow.Proofs.Compile.Dependence
import SlideFlow.Proofs.Compile.Extension
import SlideFlow.Proofs.Flow.Lifecycle
import SlideFlow.Proofs.Flow.Topics
import SlideFlow.Proofs.Service.Binding
import SlideFlow.Proofs.Files.AllOrNothing
import SlideFlow.Proofs.Ident.Stream
import SlideFlow.Proofs.Ident.Issue
import SlideFlow.Proofs.Timeline.Recognition
