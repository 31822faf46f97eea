import Matador.Library.Transition
import Matador.Wrapper.Country
import Matador.Wrapper.Matrix
import Matador.Wrapper.Schedule
import Matador.Wrapper.Move
import Matador.Wrapper.Blocks
import Matador.Library.Log
import Matador.Wrapper.Hosts
import Matador.Wrapper.History
import Matador.Wrapper.Reuse
import Matador.Wrapper.Files
import Matador.Wrapper.Settled
import Matador.Wrapper.Termination
import Matador.Controller.Experiment
import Matador.Library.Delimited
import Matador.Wrapper.Counter
import Matador.Controller.Captures
import Matador.Controller.Results
import Matador.Library.Buffer
import Matador.Library.Descriptor
import Matador.Proxy.Loop
import Matador.Proxy.Descriptors
import Matador.Proxy.Exit
import Matador.Library.Field
import Matador.Proxy.Reaction
import Matador.Proxy.Traffic
import Matador.Tunnel.Outbound
import Matador.Proxy.Capture
import Matador.Tunnel.Inbound
import Matador.Proxy.Echo
import Matador.Stun.Request
import Matador.Tunnel.Handshake
import Matador.Tunnel.Establish
import Matador.Controller.CleanUp
import Matador.Controller.Measured
import Matador.Phone.Adb
import Matador.Library.FirstMatch
import Matador.Phone.Iptables
import Matador.Phone.Firewall
import Matador.Phone.Restore
import Matador.Phone.Policy
import Matador.Controller.Blame
import Matador.Phone.Stop
import Matador.Library.Words
import Matador.Phone.Location
import Matador.Analysis.Extract
import Matador.Analysis.Measure
import Matador.Analysis.Modes
import Matador.Analysis.Files
import Matador.Library.Modify
import Matador.Network.SetUp
import Matador.Network.HangUp
import Matador.Library.Search
import Matador.Tunnel.Session
import Matador.Tunnel.Stores
import Matador.Library.Runs
import Matador.Proxy.FakeSockets
import Matador.Tunnel.Resolv
import Matador.Wrapper.Grouping
import Matador.Wrapper.Campaign
import Matador.Library.Shell
import Matador.Network.ForceTearDown
import Matador.Phone.Sentences
import Matador.Library.Serial
import Matador.Library.Check
import Matador.Lwip.Receive
import Matador.Lwip.Queue
import Matador.Lwip.Input
import Matador.Lwip.Stream
import Matador.Lwip.Loss
import Matador.Relay.Client
import Matador.Relay.Machine
import Matador.Relay.Invariant
import Matador.Relay.Handlers
import Matador.Relay.Downstream
import Matador.Relay.Runs
import Matador.Relay.Closing
import Matador.Relay.Frames
import Matador.Relay.Connection
import Matador.Library.Dialogue
import Matador.Socks.Client
import Matador.Socks.Handshake
import Matador.Socks.Outcome
import Matador.Ip.Reassembly
import Matador.Ip.Chain
import Matador.Ip.Eviction
import Matador.Ip.Arrival
import Matador.Ip.Datagrams
import Matador.Ip.Pieces
