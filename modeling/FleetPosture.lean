import FleetPosture.Cli.Command
import FleetPosture.Cli.Options
import FleetPosture.Cli.Run
import FleetPosture.Collections
import FleetPosture.Config
import FleetPosture.Failure
import FleetPosture.FileListing
import FleetPosture.Fleet.Directory
import FleetPosture.Fleet.Gateway
import FleetPosture.Fleet.HostList
import FleetPosture.Fleet.Scan
import FleetPosture.Fleet.Source
import FleetPosture.Fleet.Target
import FleetPosture.Inventory.Collect
import FleetPosture.Inventory.Command
import FleetPosture.Json.Basic
import FleetPosture.Json.Parser
import FleetPosture.Json.Printer
import FleetPosture.Json.Token
import FleetPosture.Main
import FleetPosture.Manifest.Audit
import FleetPosture.Manifest.Basic
import FleetPosture.Manifest.Yaml
import FleetPosture.Net.Address
import FleetPosture.Net.Connect
import FleetPosture.Net.Http
import FleetPosture.Net.Network
import FleetPosture.Net.Url
import FleetPosture.Net.Url.Host
import FleetPosture.Net.Url.Percent
import FleetPosture.Net.Url.Punycode
import FleetPosture.ProcessTable
import FleetPosture.Program
import FleetPosture.Proofs.FileListing
import FleetPosture.Proofs.Fleet.AddressChoice
import FleetPosture.Proofs.Fleet.Annotation
import FleetPosture.Proofs.Fleet.ForwardCounts
import FleetPosture.Proofs.Fleet.ForwardSpec
import FleetPosture.Proofs.Fleet.Forwards
import FleetPosture.Proofs.Fleet.HostList
import FleetPosture.Proofs.Fleet.HostScan
import FleetPosture.Proofs.Fleet.Listing
import FleetPosture.Proofs.Fleet.Machine
import FleetPosture.Proofs.Fleet.Outcomes
import FleetPosture.Proofs.Fleet.Scan
import FleetPosture.Proofs.Indexed
import FleetPosture.Proofs.Interleaving
import FleetPosture.Proofs.Inventory
import FleetPosture.Proofs.Inventory.Commands
import FleetPosture.Proofs.Inventory.Processes
import FleetPosture.Proofs.Json.Line
import FleetPosture.Proofs.Json.RoundTrip
import FleetPosture.Proofs.Json.Token
import FleetPosture.Proofs.KeepFirst
import FleetPosture.Proofs.Manifest.Drift
import FleetPosture.Proofs.Manifest.Fields
import FleetPosture.Proofs.Manifest.IgnoredPorts
import FleetPosture.Proofs.Manifest.Lookup
import FleetPosture.Proofs.Manifest.Projection
import FleetPosture.Proofs.Manifest.RoundTrip
import FleetPosture.Proofs.Manifest.SelfAudit
import FleetPosture.Proofs.Manifest.Unlisted
import FleetPosture.Proofs.Net.Address
import FleetPosture.Proofs.Net.Network
import FleetPosture.Proofs.Net.Url
import FleetPosture.Proofs.ProcessTable
import FleetPosture.Proofs.Program
import FleetPosture.Proofs.Remote.ShellWords
import FleetPosture.Proofs.Remote.SshArguments
import FleetPosture.Proofs.Report.Csv
import FleetPosture.Proofs.Report.HostOrder
import FleetPosture.Proofs.Report.RootExposure
import FleetPosture.Proofs.Report.SharedKeys
import FleetPosture.Proofs.Report.Table
import FleetPosture.Proofs.Report.Tightening
import FleetPosture.Proofs.Report.TlsCoverage
import FleetPosture.Proofs.Report.WorldReadable
import FleetPosture.Proofs.ServerBytes
import FleetPosture.Proofs.Snapshot.Dated
import FleetPosture.Proofs.Snapshot.Encoded
import FleetPosture.Proofs.Snapshot.Stored
import FleetPosture.Proofs.Socket.Agreement
import FleetPosture.Proofs.Socket.Block
import FleetPosture.Proofs.Socket.Bound
import FleetPosture.Proofs.Socket.Endpoint
import FleetPosture.Proofs.Socket.Lsof
import FleetPosture.Proofs.Socket.Netstat
import FleetPosture.Proofs.Socket.Row
import FleetPosture.Proofs.SortedMap
import FleetPosture.Proofs.Ssh.Checked
import FleetPosture.Proofs.Ssh.Collection
import FleetPosture.Proofs.Ssh.Framing
import FleetPosture.Proofs.Ssh.KexInit
import FleetPosture.Proofs.Ssh.Noise
import FleetPosture.Proofs.Ssh.Packet
import FleetPosture.Proofs.Store.Latest
import FleetPosture.Proofs.Store.Reading
import FleetPosture.Proofs.Store.Rows
import FleetPosture.Proofs.Store.Saving
import FleetPosture.Proofs.Store.Session
import FleetPosture.Proofs.Store.Write
import FleetPosture.Proofs.Text.Base64
import FleetPosture.Proofs.Text.Lines
import FleetPosture.Proofs.Text.Numeral
import FleetPosture.Proofs.Text.Pieces
import FleetPosture.Proofs.Text.Utf8
import FleetPosture.Proofs.Text.Words
import FleetPosture.Proofs.Time.Timestamp
import FleetPosture.Proofs.Tls.Acceptance
import FleetPosture.Proofs.Tls.Annotation
import FleetPosture.Proofs.Tls.Brackets
import FleetPosture.Proofs.Tls.Capture
import FleetPosture.Proofs.Tls.Checked.Exchange
import FleetPosture.Proofs.Tls.Checked.Messages
import FleetPosture.Proofs.Tls.ClientHello
import FleetPosture.Proofs.Tls.Flight
import FleetPosture.Proofs.Tls.Probe
import FleetPosture.Proofs.Tls.Reassembly
import FleetPosture.Proofs.Tls.Records
import FleetPosture.Proofs.Tls.ServerHello
import FleetPosture.Proofs.Tls.Survey
import FleetPosture.Proofs.Uuid
import FleetPosture.Proofs.Wire.Checked
import FleetPosture.Proofs.Wire.Fields
import FleetPosture.Proofs.Yaml.Decode
import FleetPosture.Proofs.Yaml.Inline
import FleetPosture.Proofs.Yaml.Lines
import FleetPosture.Proofs.Yaml.Node
import FleetPosture.Proofs.Yaml.ScalarText
import FleetPosture.Proofs.Yaml.Scanner
import FleetPosture.Remote.Launch
import FleetPosture.Remote.Ssh
import FleetPosture.Report.Inventory
import FleetPosture.Report.Policy
import FleetPosture.Report.Render
import FleetPosture.Report.Rules
import FleetPosture.Snapshot.Basic
import FleetPosture.Snapshot.Json
import FleetPosture.Socket.Basic
import FleetPosture.Socket.Lsof
import FleetPosture.Socket.Netstat
import FleetPosture.Ssh.Fault
import FleetPosture.Ssh.HostKeys
import FleetPosture.Ssh.KexInit
import FleetPosture.Ssh.Packet
import FleetPosture.Ssh.Version
import FleetPosture.Store.Basic
import FleetPosture.Store.Cell
import FleetPosture.Store.Load
import FleetPosture.Store.Overwrite
import FleetPosture.Store.Save
import FleetPosture.Store.Tables
import FleetPosture.Text.Base64
import FleetPosture.Text.Numeral
import FleetPosture.Text.Pieces
import FleetPosture.Text.Quoted
import FleetPosture.Text.Uppercase
import FleetPosture.Text.Utf8
import FleetPosture.Time.Calendar
import FleetPosture.Time.Timestamp
import FleetPosture.Tls.ClientHello
import FleetPosture.Tls.Exchange
import FleetPosture.Tls.Probe
import FleetPosture.Tls.ServerHello
import FleetPosture.Tls.ServerName
import FleetPosture.Tls.Suite
import FleetPosture.Tls.Version
import FleetPosture.Uuid
import FleetPosture.Wire
import FleetPosture.X509.Certificate
import FleetPosture.X509.Element
import FleetPosture.X509.Time
import FleetPosture.Yaml.Cursor
import FleetPosture.Yaml.Decode
import FleetPosture.Yaml.Node
import FleetPosture.Yaml.Resolve
import FleetPosture.Yaml.ScalarText
import FleetPosture.Yaml.Scanner
import FleetPosture.Yaml.Token
import FleetPosture.Yaml.Written
