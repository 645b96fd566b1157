import XmsgImXsc.RecvSplit
import XmsgImXsc.RecvDatagram
import XmsgImXsc.WebSocketSplit
import XmsgImXsc.ChannelLoss
import XmsgImXsc.Link
import XmsgImXsc.Answer
import XmsgImXsc.TcpH2N
import XmsgImXsc.TcpH2NSvc
import XmsgImXsc.N2HMsgMgr
import XmsgImXsc.TidWrap
import XmsgImXsc.HttpChannel
import XmsgImXsc.HttpRequests
import XmsgImXsc.PassiveEnd
import XmsgImXsc.OobData
import XmsgImXsc.Lib.Sweep
import XmsgImXsc.Lib.Throttle
import XmsgImXsc.WebSocketDecode
import XmsgImXsc.Timeout
import XmsgImXsc.RudpTimeout
import XmsgImXsc.PassiveReply
import XmsgImXsc.PassiveLog
import XmsgImXsc.WebSocketControl
import XmsgImXsc.WebSocketHandShake
import XmsgImXsc.Lib.Wire
import XmsgImXsc.HttpRsp
import XmsgImXsc.Lib.Pipe
import XmsgImXsc.StreamLink
import XmsgImXsc.StreamOrder
import XmsgImXsc.StreamAnswer
import XmsgImXsc.StreamRecv
import XmsgImXsc.StreamHandlers
import XmsgImXsc.WebSocketChannel
import XmsgImXsc.N2HDispatch
import XmsgImXsc.DatagramLink
import XmsgImXsc.HttpConversation
import XmsgImXsc.Heartbeat
