import AnyHttp.Lib.Run
import AnyHttp.Lib.Segments
import AnyHttp.Lib.Slots
import AnyHttp.Lib.Update
import AnyHttp.Lib.Messages
import AnyHttp.Common
import AnyHttp.Quic.Stream
import AnyHttp.Quic.Driver
import AnyHttp.Quic.Sender
import AnyHttp.Quic.Receiver
import AnyHttp.Quic.Equiv.Frame
import AnyHttp.Quic.Equiv.Outgoing
import AnyHttp.Quic.Equiv.Sender
import AnyHttp.Quic.Equiv.Simulation
import AnyHttp.Quic.Equiv.Representation
import AnyHttp.Quic.Equiv.ZeroCopy
import AnyHttp.Quic.Equiv.Body
import AnyHttp.Quic.Equiv.HalfOpen
import AnyHttp.Quic.Equiv.Receiver
import AnyHttp.Quic.Equiv.Told
import AnyHttp.Quic.Equiv.Reception
import AnyHttp.Quic.Equiv.Reading
import AnyHttp.Quic.Equiv.Contract
import AnyHttp.Quic.Connection
import AnyHttp.Quic.Equiv.Handlers
import AnyHttp.Quic.Equiv.Connection
import AnyHttp.Quic.Equiv.Cancellation
import AnyHttp.H1.Message
import AnyHttp.H1.Writer
import AnyHttp.H1.Server
import AnyHttp.H1.Equiv.Writer
import AnyHttp.H1.Equiv.Sequencing
import AnyHttp.H1.Equiv.Boundary
import AnyHttp.H1.Client
import AnyHttp.H1.Equiv.Pipelining
import AnyHttp.H1.Equiv.Responses
import AnyHttp.H1.Equiv.Release
import AnyHttp.H2.Stream
import AnyHttp.H2.Equiv.Reading
import AnyHttp.H2.Equiv.Incoming
import AnyHttp.H2.Equiv.Outgoing
import AnyHttp.H2.Client
import AnyHttp.H2.Equiv.Iterator
import AnyHttp.H2.Equiv.Retirement
import AnyHttp.H1.Equiv.Interim
import AnyHttp.H2.Equiv.Interim
import AnyHttp.H3.Client
import AnyHttp.H3.Equiv.Interim
import AnyHttp.Equiv.Interim
import AnyHttp.AltSvc
import AnyHttp.Equiv.AltSvc
import AnyHttp.Equiv.FileHandler
import AnyHttp.Equiv.Server
import AnyHttp.H2.Equiv.SendLoop
import AnyHttp.Lib.Dispenser
import AnyHttp.Quic.Accept
import AnyHttp.Quic.Credit
import AnyHttp.Quic.Demux
import AnyHttp.Quic.Equiv.Accept
import AnyHttp.Quic.Equiv.Credit
import AnyHttp.Quic.Equiv.Demux
import AnyHttp.Quic.Equiv.Ended
import AnyHttp.Quic.Equiv.LateAccept
import AnyHttp.Quic.Equiv.Table
import AnyHttp.Equiv.Authority
import AnyHttp.Equiv.FileCache
import AnyHttp.Equiv.GetResponse
import AnyHttp.H1.Equiv.Retry
import AnyHttp.H2.Equiv.Deferral
import AnyHttp.H2.Equiv.LastReads
import AnyHttp.H2.Equiv.Submit
import AnyHttp.Quic.Equiv.Attribution
import AnyHttp.Quic.Equiv.Packing
import AnyHttp.Lib.ReadyQueue
import AnyHttp.Quic.Equiv.Parking
import AnyHttp.Alternative
import AnyHttp.Detect
import AnyHttp.Equiv.Advertisement
import AnyHttp.Equiv.Detect
import AnyHttp.Equiv.HttpDate
import AnyHttp.Equiv.Lifetime
import AnyHttp.Equiv.PctDecode
import AnyHttp.H1.Equiv.Shutdown
import AnyHttp.Quic.Alpn
import AnyHttp.Quic.Equiv.Alpn
import AnyHttp.Contract
import AnyHttp.Equiv.Contract
import AnyHttp.H1.Equiv.Framing
import AnyHttp.H1.Equiv.Io
import AnyHttp.H2.Equiv.Flow
import AnyHttp.H2.Equiv.Progress
import AnyHttp.H2.Equiv.Session
import AnyHttp.Equiv.RequestHandlers
import AnyHttp.H2.Duplex
import AnyHttp.H2.Equiv.Duplex
import AnyHttp.H2.Equiv.Service
