import Fup.Lib.StepSystem
import Fup.Lib.FixedWidth
import Fup.Lib.Buffer
import Fup.Lib.PositionedWrite
import Fup.Lib.InputStream
import Fup.Lib.QueueFamily
import Fup.Lib.PrefixCode
import Fup.Lib.Strides
import Fup.Common
import Fup.Message
import Fup.Message.Wire
import Fup.Message.HostOrder
import Fup.Message.Bounds
import Fup.Message.RoundTrip
import Fup.Message.WellFormed
import Fup.Message.Language
import Fup.Message.Sizes
import Fup.Message.Lossless
import Fup.Message.Declared
import Fup.Utils
import Fup.Communications
import Fup.QueueMap
import Fup.TcpReceive
import Fup.TcpReceive.Boundaries
import Fup.TcpSend
import Fup.Threadpool
import Fup.Threadpool.Serving
import Fup.Client.ReceivePackets
import Fup.Client.ReceivePackets.Datagrams
import Fup.Client.TransmitPackets
import Fup.Client.PacketCount
import Fup.Client.Transfer
import Fup.Client.ListenResend
import Fup.Client.Transmission
import Fup.Client.Transmission.Owed
import Fup.Client.Transmission.Exhaustion
import Fup.Client.Transmission.Stop
import Fup.Client.PacketTables
import Fup.Client.Upload
import Fup.Client.Upload.Acknowledged
import Fup.Client.Download
import Fup.Client.Download.ResendLock
import Fup.Client.Operations
import Fup.Client.Requests
import Fup.Lib.ClearEntries
import Fup.Lib.ConditionVariable
import Fup.Utils.MissingPackets
import Fup.Threadpool.WorkingCount
import Fup.Client.Upload.QueueBound
import Fup.Socket
import Fup.TcpIdentity
import Fup.Threadpool.Joining
import Fup.Utils.AddressReaders
import Fup.Utils.UdpDestination
import Fup.Socket.Connect
import Fup.Client.Transmission.Chunks
import Fup.Client.Transmission.FileMutex
import Fup.Client.Transmission.Duplicates
import Fup.Threadpool.Wakeups
import Fup.Client.Session
import Fup.Client.Session.Delivery
import Fup.Client.Session.Unheard
import Fup.TcpLink
import Fup.Client.Answers
import Fup.Client.Session.Copies
import Fup.Lib.Shares
import Fup.Socket.Handles
import Fup.Socket.Handles.Owned
import Fup.Client.Upload.Threads
import Fup.Socket.Destination
import Fup.Client.Session.Arrival
import Fup.Client.Session.Progress
import Fup.Client.Download.Rounds
import Fup.Client.Session.Sharing
import Fup.Client.Download.Output
