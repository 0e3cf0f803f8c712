import GoLdap.Lib.Octets
import GoLdap.Lib.Escaped
import GoLdap.Lib.Pointwise
import GoLdap.Lib.GreedyMatch
import GoLdap.Lib.Machine
import GoLdap.Lib.Scanner
import GoLdap.Lib.Wildcard
import GoLdap.Go.Bytes
import GoLdap.Go.Utf8
import GoLdap.Go.Fold
import GoLdap.Go.Error
import GoLdap.Go.Strconv
import GoLdap.Go.Stateful
import GoLdap.Error
import GoLdap.Ber.Packet
import GoLdap.Ber.Codec
import GoLdap.Ber.Basic
import GoLdap.Ber.Schema
import GoLdap.DN.Model
import GoLdap.DN.Decode
import GoLdap.DN.Grammar
import GoLdap.DN.Escape
import GoLdap.DN.Fold
import GoLdap.DN.Compare
import GoLdap.DN.Compose
import GoLdap.DN.RoundTrip
import GoLdap.DN.Equal
import GoLdap.DN.EscapeDN
import GoLdap.DN.Padding
import GoLdap.Filter.Model
import GoLdap.Filter.Escape
import GoLdap.Filter.Scan
import GoLdap.Filter.Compile
import GoLdap.Filter.RoundTrip
import GoLdap.Filter.Total
import GoLdap.Filter.Items
import GoLdap.Filter.Brackets
import GoLdap.Filter.Substrings
import GoLdap.Filter.Stable
import GoLdap.Filter.Values
import GoLdap.Conn.Model
import GoLdap.Conn.Effects
import GoLdap.Conn.Mutex
import GoLdap.Conn.Clients
import GoLdap.Conn.Ownership
import GoLdap.Conn.Outstanding
import GoLdap.Conn.Readers
import GoLdap.Conn.MessageIds
import GoLdap.Conn.Quit
import GoLdap.Conn.Places
import GoLdap.Conn.Stream
import GoLdap.Conn.Deadlock
import GoLdap.Result
import GoLdap.Descriptions.Model
import GoLdap.Descriptions.Described
import GoLdap.Control.Model
import GoLdap.Control.Decode
import GoLdap.Control.Total
import GoLdap.Control.Descriptions
import GoLdap.Control.RoundTrip
import GoLdap.Control.Responses
import GoLdap.Request
import GoLdap.Bind.Gssapi
import GoLdap.Bind.Robust
import GoLdap.Bind.Digest
import GoLdap.Bind.WrapToken
import GoLdap.Search.Model
import GoLdap.Search.Async
import GoLdap.Search.Complete
import GoLdap.Search.Agree
import GoLdap.Search.Paging
import GoLdap.Search.Reuse
import GoLdap.Search.SizeLimit
import GoLdap.Search.Unmarshal
import GoLdap.PostalAddress
import GoLdap.Compare
import GoLdap.Modify
import GoLdap.Update
import GoLdap.Extended
import GoLdap.Bind.Simple
import GoLdap.Lib.Dialog
import GoLdap.Bind.Challenge
import GoLdap.Bind.Sound
import GoLdap.Bind.Kerberos
import GoLdap.Search.Robust
import GoLdap.Search.Cancel
import GoLdap.Protocol.Filter
import GoLdap.Protocol.Denotation
import GoLdap.Protocol.Message
import GoLdap.Protocol.Requests
import GoLdap.Protocol.Replies
import GoLdap.Protocol.Session
import GoLdap.Protocol.Password
import GoLdap.Protocol.Digest
import GoLdap.Lib.Responder
import GoLdap.Conn.Network
import GoLdap.Conn.Served
import GoLdap.Protocol.Concurrent
import GoLdap.Protocol.Paging
import GoLdap.Conn.Release
