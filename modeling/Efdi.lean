import Efdi.Federation.TopologyRuns
import Efdi.Federation.BadProof
import Efdi.Acl.LeastPrivilege
import Efdi.Acl.Apply
import Efdi.Tracks.Consumers
import Efdi.Federation.PushOutcome
import Efdi.Stanag.KlvStream
import Efdi.Sparkplug.Aliases
import Efdi.Control.Supervisor
import Efdi.Tracks.Ghosts
import Efdi.Tracks.Strikes
import Efdi.Tracks.TwinRuns
import Efdi.Tracks.AddressIndex
import Efdi.Asterix.Cat062Numbers
import Efdi.Tak.Topics
import Efdi.Tak.NffiStreams
import Efdi.Tak.Ip1Streams
import Efdi.Tracks.WarStatus
import Efdi.Tak.NvgFeed
import Efdi.Tak.DeadReckoning
import Efdi.Tak.TrailTable
import Efdi.Control.SignCsr
import Efdi.Sapient.ObjectIds
import Efdi.Admin.Lockout
import Efdi.Admin.Accounts
import Efdi.Admin.PasswordChanges
import Efdi.Admin.IdentityRuns
import Efdi.Control.Sitaware
import Efdi.Mavlink.CommandBridge
import Efdi.Backbone.SentBack
import Efdi.Federation.PathLookup
import Efdi.Stanag.GmtiUids
import Efdi.Pki.LinkPasswords
import Efdi.Pki.SingleUse
import Efdi.Tracks.MarkerMemory
import Efdi.Asterix.RecentFrames
import Efdi.Control.DeliveryLedger
import Efdi.Stanag.VsmStream
import Efdi.Stanag.JreapPackets
import Efdi.Tak.TcpSender
import Efdi.Tak.ClientPositions
import Efdi.Sapient.WireExact
import Efdi.Alerts.CommunityPolls
import Efdi.Alerts.RegionCrossings
import Efdi.Tak.GeoChat
import Efdi.Alerts.Zones
import Efdi.Alerts.Cap
import Efdi.Tracks.EchoFilter
import Efdi.Tak.FfiLocations
import Efdi.Sapient.Withdrawals
import Efdi.Tak.ShapeCots
import Efdi.Mainline.Alarms
import Efdi.Aartos.Sites
import Efdi.Aartos.Tombstones
import Efdi.Backbone.SocbxTopics
import Efdi.Asterix.Cat021
