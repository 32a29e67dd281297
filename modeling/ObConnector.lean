import ObConnector.Protocol20.ForwardCompat
import ObConnector.Net.ReadExact
import ObConnector.Stmt.FetchInt
import ObConnector.LoadBalance.AddressString
import ObConnector.Auth.Packets
import ObConnector.Stmt.LobRead
import ObConnector.Tns.Lookup
import ObConnector.Net.Plain
import ObConnector.Stmt.ParamCount
import ObConnector.Auth.Sm3Scramble
import ObConnector.Net.Socks5
import ObConnector.Auth.AttributeRuns
import ObConnector.Stmt.CursorPrefetch
import ObConnector.Net.WriteStream
import ObConnector.Protocol20.FltRoundTrip
import ObConnector.Stmt.ComplexSize
import ObConnector.Stmt.ParamWalk
import ObConnector.Net.ReadAhead
import ObConnector.Serialize.ObObjWire
import ObConnector.Trace.RequestText
import ObConnector.LoadBalance.Affinity
import ObConnector.LoadBalance.Window
import ObConnector.LoadBalance.Blacklist
import ObConnector.Stmt.SkipComment
import ObConnector.Complex.GlobalHash
import ObConnector.Trace.TagText
import ObConnector.Trace.FailedRequest
import ObConnector.Complex.Parser
import ObConnector.FormatModels.NumberText
import ObConnector.Net.Corrupted
