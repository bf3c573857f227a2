import Tntpp.Connector.Auth
import Tntpp.Connector.Handshake
import Tntpp.Connector.Reauthentication
import Tntpp.Connector.Reconnection
import Tntpp.Connector.Rejection
import Tntpp.Connector.Service
import Tntpp.Connector.Shutdown
import Tntpp.Connector.StaleWrites
import Tntpp.Connector.Tolerance
import Tntpp.Detail.Counters
import Tntpp.Detail.Footprint
import Tntpp.Detail.HeaderCodec
import Tntpp.Detail.ReceiveBuffer
