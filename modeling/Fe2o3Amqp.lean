import Fe2o3Amqp.Primitives
import Fe2o3Amqp.Types
import Fe2o3Amqp.Link.Relay
import Fe2o3Amqp.Util.Run
import Fe2o3Amqp.Util.Chunks
import Fe2o3Amqp.Session.Model
import Fe2o3Amqp.Session.Endpoint
import Fe2o3Amqp.Session.OutgoingWindow
import Fe2o3Amqp.Session.FlowControl
import Fe2o3Amqp.Session.NoStall
import Fe2o3Amqp.Session.LinkEffects
import Fe2o3Amqp.Session.Dispositions
import Fe2o3Amqp.Link.IncompleteTransfer
import Fe2o3Amqp.Link.Reassembly
import Fe2o3Amqp.Serde.Format
import Fe2o3Amqp.Serde.Ser
import Fe2o3Amqp.Serde.De
import Fe2o3Amqp.Serde.Value
import Fe2o3Amqp.Serde.Decodes
import Fe2o3Amqp.Serde.Writes
import Fe2o3Amqp.Serde.ValueRoundTrip
import Fe2o3Amqp.Serde.Composite
import Fe2o3Amqp.Types.Codec
import Fe2o3Amqp.Serde.CompositeRoundTrip
import Fe2o3Amqp.Serde.Arrays
import Fe2o3Amqp.Types.RoundTrip
import Fe2o3Amqp.Types.Message
import Fe2o3Amqp.Types.MessageRoundTrip
import Fe2o3Amqp.Session.Actions
import Fe2o3Amqp.Session.LinkConsistency
import Fe2o3Amqp.Session.SendOrder
import Fe2o3Amqp.Control
import Fe2o3Amqp.Session.Engine
import Fe2o3Amqp.Session.GracefulEnd
import Fe2o3Amqp.Session.Silence
import Fe2o3Amqp.Session.DetachExact
import Fe2o3Amqp.Connection.Model
import Fe2o3Amqp.Connection.CloseLast
import Fe2o3Amqp.Session.Strangers
import Fe2o3Amqp.Acceptor.Session
import Fe2o3Amqp.Session.Untouched
import Fe2o3Amqp.Acceptor.LateAccept
import Fe2o3Amqp.Acceptor.EarlyAccept
import Fe2o3Amqp.Link.Detach
import Fe2o3Amqp.Session.Echo
import Fe2o3Amqp.Session.SerialWindow
import Fe2o3Amqp.Transaction.Session
import Fe2o3Amqp.Transaction.Isolation
import Fe2o3Amqp.Transaction.Commit
import Fe2o3Amqp.Link.SendCancel
import Fe2o3Amqp.Link.Credit
import Fe2o3Amqp.Link.Attach
import Fe2o3Amqp.Link.Closing
import Fe2o3Amqp.Link.AttachCount
import Fe2o3Amqp.Link.Resume
import Fe2o3Amqp.Link.ResumeRounds
import Fe2o3Amqp.Link.ResumeKept
import Fe2o3Amqp.Link.Sections
import Fe2o3Amqp.Link.ResumePayload
import Fe2o3Amqp.Link.ResumeIntact
import Fe2o3Amqp.Link.ResumeEnds
import Fe2o3Amqp.Transaction.Replay
import Fe2o3Amqp.Transaction.Window
import Fe2o3Amqp.Transaction.PostSettlement
import Fe2o3Amqp.Transaction.Coordinator
import Fe2o3Amqp.Link.DeliveryTags
import Fe2o3Amqp.Serde.IoRead
import Fe2o3Amqp.Serde.ReadersAgree
import Fe2o3Amqp.Serde.Mirror
import Fe2o3Amqp.Serde.DescribedAgree
import Fe2o3Amqp.Types.PerformativesAgree
import Fe2o3Amqp.Types.FromReader
import Fe2o3Amqp.Serde.ValueDe
import Fe2o3Amqp.Serde.FirstElement
import Fe2o3Amqp.Serde.SizesAgree
import Fe2o3Amqp.Link.CreditFormula
import Fe2o3Amqp.Link.Splitting
import Fe2o3Amqp.Session.DispositionRanges
import Fe2o3Amqp.Link.DisposeAll
import Fe2o3Amqp.Link.CreditWait
import Fe2o3Amqp.Link.DeliveryCount
import Fe2o3Amqp.Auth.Scram
import Fe2o3Amqp.Management.Client
import Fe2o3Amqp.Auth.ScramSound
import Fe2o3Amqp.Auth.ScramSha1
import Fe2o3Amqp.Auth.ScramComplete
import Fe2o3Amqp.Link.Disposer
import Fe2o3Amqp.Link.AutoCredit
import Fe2o3Amqp.Link.IncompleteUnsettled
import Fe2o3Amqp.Link.ResumeTags
import Fe2o3Amqp.Serde.Grammar
import Fe2o3Amqp.Serde.LazyValue
import Fe2o3Amqp.Serde.MapEntries
import Fe2o3Amqp.Serde.DeclaredSize
import Fe2o3Amqp.Link.ByteReader
import Fe2o3Amqp.Link.KeptPrefix
import Fe2o3Amqp.WebSocket
import Fe2o3Amqp.Auth.Plain
import Fe2o3Amqp.Transaction.Acquisition
import Fe2o3Amqp.Frames.Encoder
import Fe2o3Amqp.Serde.CompositeSize
import Fe2o3Amqp.Frames.Cutting
import Fe2o3Amqp.Frames.OneFrame
import Fe2o3Amqp.Link.SplitFits
import Fe2o3Amqp.Types.DescriptorForms
import Fe2o3Amqp.Types.MixedForms
import Fe2o3Amqp.Connection.Channels
import Fe2o3Amqp.Connection.OutgoingOrder
import Fe2o3Amqp.Util.TwoEnds
import Fe2o3Amqp.Connection.TwoEnds
import Fe2o3Amqp.Link.Arrival
import Fe2o3Amqp.Types.PerformativeForms
import Fe2o3Amqp.Session.Outcomes
import Fe2o3Amqp.Link.Settlement
