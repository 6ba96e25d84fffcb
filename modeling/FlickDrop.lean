import FlickDrop.Foundations.Base64
import FlickDrop.Foundations.Json
import FlickDrop.Foundations.JsonDecoder
import FlickDrop.Foundations.JsonStruct
import FlickDrop.Foundations.Runs
import FlickDrop.Worker.ReceiptMachine
import FlickDrop.Events.Due
import FlickDrop.Events.Reconciliation
import FlickDrop.Pipeline.NoLoss
import FlickDrop.Relay.Channels
import FlickDrop.Relay.Transfer
import FlickDrop.Relay.Integrity
import FlickDrop.Relay.Rendezvous
import FlickDrop.Secrets.Availability
import FlickDrop.Secrets.Disposal
import FlickDrop.Secrets.Headers
import FlickDrop.Secrets.Objects
import FlickDrop.Secrets.Outcomes
import FlickDrop.Secrets.Pairing
import FlickDrop.Secrets.Sizes
import FlickDrop.Secrets.System
import FlickDrop.Requests.FirstWins
import FlickDrop.Requests.Forms
import FlickDrop.Requests.Accounts
import FlickDrop.Requests.Objects
import FlickDrop.Requests.Begin
import FlickDrop.Requests.Copies
import FlickDrop.Requests.Coalescing
import FlickDrop.Requests.Decode
import FlickDrop.Requests.Digest
import FlickDrop.Browser.Bundle
import FlickDrop.Browser.Cancel
import FlickDrop.Secrets.Gauge
import FlickDrop.Capabilities
import FlickDrop.Scanners
import FlickDrop.Deployment.Limits
import FlickDrop.Httpapi.ClientIP
import FlickDrop.Flickcli.CleanDisk
import FlickDrop.Flickcli.Memory
import FlickDrop.Flickcli.Hoist
import FlickDrop.Flickcli.Link
