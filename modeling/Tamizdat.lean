import Tamizdat.FragPoC.Retention
import Tamizdat.FragPoC.Stream
import Tamizdat.Wgturn.BondIdentity
import Tamizdat.Vkturn.MuxDelivery
import Tamizdat.FragPoC.BufferedPipe
import Tamizdat.Server.ReplayWindow
import Tamizdat.Server.DynPorts
import Tamizdat.Userdb.FastPath
import Tamizdat.Client.StreamSlots
import Tamizdat.ClientCmd.UdpAssociate
import Tamizdat.Svc.ServiceRuntime
import Tamizdat.Localtun.Agreement
import Tamizdat.Localtun.ManagerRuns
import Tamizdat.Client.ConnBudget
import Tamizdat.Outbounds.Leases
import Tamizdat.WgturnClient.BondReorder
import Tamizdat.Relay.Relays
import Tamizdat.Node.GeoData
import Tamizdat.AutoRoute.Windows
import Tamizdat.Client.BundleFetch
import Tamizdat.Server.ConfigBundle
import Tamizdat.Wgturn.Downlink
import Tamizdat.FragPoC.DownWorkers
import Tamizdat.Server.Masquerade
import Tamizdat.Server.ClientHello
import Tamizdat.Client.FrameObserver
import Tamizdat.Sniff.Http
import Tamizdat.Sniff.BufferedConn
import Tamizdat.Vkturn.Client
import Tamizdat.Localtun.DnsmasqFrontend
import Tamizdat.Localtun.Ports
import Tamizdat.Rulesdb.Load
import Tamizdat.Wgturn.OutboundBridge
import Tamizdat.WgturnClient.SplitTunnel
import Tamizdat.Client.ServerNames
