import CqlDriver.Pool.Delivery
import CqlDriver.Pool.Waiters
import CqlDriver.Pool.Callers
import CqlDriver.Pool.SpawnBounds
import CqlDriver.Pool.Progress
import CqlDriver.Pool.SpawnLoop
import CqlDriver.Pool.Size
import CqlDriver.Connection.Waits
import CqlDriver.Session.Correlation
import CqlDriver.Session.AnsweredWaits
import CqlDriver.Session.CallFlows
import CqlDriver.Connection.SocketHolder
import CqlDriver.Session.SessionCall
import CqlDriver.Protocol.ColumnReading
import CqlDriver.Math.DecodeRelated
import CqlDriver.Math.DecodeTracks
import CqlDriver.Protocol.ResultMessage
import CqlDriver.Protocol.ResponseBodies
import CqlDriver.Protocol.ResultMetadata
import CqlDriver.Protocol.ResultReuse
import CqlDriver.Connection.DecodeMessage
import CqlDriver.Connection.StreamIds
import CqlDriver.Connection.SendFailure
import CqlDriver.Session.Retries
import CqlDriver.Session.BatchPreparation
import CqlDriver.Session.StreamLeases
import CqlDriver.Session.PreparedIds
import CqlDriver.Protocol.BatchMessage
import CqlDriver.Column.Scalars
import CqlDriver.Column.VarIntBody
import CqlDriver.Column.ByteOrder
import CqlDriver.Math.Ends
import CqlDriver.Protocol.Responses
import CqlDriver.Protocol.BodyExtent
import CqlDriver.Protocol.BatchCommand
import CqlDriver.Connection.Handshake
import CqlDriver.Connection.HandshakeRequests
import CqlDriver.Connection.ByteReceiver
import CqlDriver.Connection.Conversation
import CqlDriver.Common.FairChoice
import CqlDriver.Common.TimeUUID
import CqlDriver.Common.UUIDTimePoint
import CqlDriver.Math.Hexadecimal
import CqlDriver.Math.TwosComplement
import CqlDriver.Common.UUIDText
import CqlDriver.Pool.DropIdle
import CqlDriver.Connection.RequestFrame
import CqlDriver.Protocol.RowsHeader
import CqlDriver.Protocol.QueryParameters
import CqlDriver.Protocol.RequestBodies
import CqlDriver.Column.PointerRefines
import CqlDriver.Column.Pointer
import CqlDriver.Protocol.ContainerReuse
import CqlDriver.Protocol.VariableInteger
import CqlDriver.Common.MathUtils
import CqlDriver.Math.Register
import CqlDriver.Column.DecimalArithmetic
import CqlDriver.Column.DecimalDivision
import CqlDriver.Column.DecimalCompare
import CqlDriver.Math.Numeral
import CqlDriver.Column.DecimalText
import CqlDriver.Common.OStream
import CqlDriver.Math.Gregorian
import CqlDriver.Column.Calendar
import CqlDriver.Column.DateTime
import CqlDriver.Column.TimeOfDay
import CqlDriver.Column.CollectionLoads
import CqlDriver.Math.WhileLoop
import CqlDriver.Column.DecimalStrip
import CqlDriver.Common.NodeAddress
import CqlDriver.Math.Ownership
import CqlDriver.Math.Runs
import CqlDriver.Common.Reusable
import CqlDriver.Common.ReusableOwnership
import CqlDriver.Math.Framing
import CqlDriver.Connection.WireFrame
import CqlDriver.Connection.RequestStream
import CqlDriver.Connection.ResponseStream
import CqlDriver.Connection.Exchange
import CqlDriver.Math.Turns
import CqlDriver.Session.ClientConnection
import CqlDriver.Session.ClientRecords
import CqlDriver.Session.ClientTurns
import CqlDriver.Session.ServedFlows
import CqlDriver.Session.ClientProgress
