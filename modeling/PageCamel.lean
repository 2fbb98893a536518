import PageCamel.Http2.HeaderFragments
import PageCamel.Http2.HeaderRoundTrip
import PageCamel.Http2.SendHeaders
import PageCamel.Http2.FlowControl
import PageCamel.Http2.PrefaceSearch
import PageCamel.Http2.EndedStreams
import PageCamel.Http2.Dispatch
import PageCamel.Http2.Directions
import PageCamel.Http2.TableSizes
import PageCamel.Http2.TableUses
import PageCamel.Http2.HeadersFrame
import PageCamel.Http2.StreamTree
import PageCamel.Http2.HuffmanPadding
import PageCamel.Http2.WindowBalance
import PageCamel.Http2.WindowBounds
import PageCamel.Http2.BlockedData
import PageCamel.Http2.DeliveredData
import PageCamel.Http2.RefusedStreams
import PageCamel.Http2.RequestLengths
import PageCamel.Http2.QueueOrder
import PageCamel.Http2.PeerStreams
import PageCamel.Http3.PacketFlush
import PageCamel.Http3.ChunkRuns
import PageCamel.Http3.FallibleWrites
import PageCamel.Http3.StreamTable
import PageCamel.Http3.SendCalls
import PageCamel.Http3.StuckStreams
import PageCamel.Http3.PacketPath
import PageCamel.Frontend.Translate
import PageCamel.Frontend.RequestFraming
import PageCamel.Frontend.Relay
import PageCamel.Frontend.ResponseBody
import PageCamel.Frontend.LateDispatch
import PageCamel.Frontend.StreamSlots
import PageCamel.Frontend.RelayedOctets
import PageCamel.Frontend.WrittenResponses
import PageCamel.Frontend.IssuedIds
import PageCamel.Frontend.Cleanups
import PageCamel.Frontend.Tunnels
import PageCamel.Frontend.UpgradeAnswers
import PageCamel.Helpers.WSockMessages
import PageCamel.Helpers.SystemSettings
import PageCamel.Worker.Commands
import PageCamel.Helpers.Userlevels
import PageCamel.Web.PCWebsocket
import PageCamel.Web.WebDrive
import PageCamel.WebBase.Keepalive
import PageCamel.Web.SessionRights
import PageCamel.Helpers.PrintProcessor
import PageCamel.Helpers.TemplateEngine
import PageCamel.Dns.GlueChains
import PageCamel.Helpers.Mod43Checksum
import PageCamel.Helpers.CSVFilter
import PageCamel.Helpers.Strings
import PageCamel.Helpers.URI
import PageCamel.Helpers.Dithering
import PageCamel.Helpers.DataBlobs
import PageCamel.Web.AdminSwitch
import PageCamel.Web.ExternalFiles
import PageCamel.Helpers.UTF
import PageCamel.WebBase.Params
import PageCamel.Lib.Cuts
import PageCamel.WebBase.PostData
import PageCamel.Svc.Main
import PageCamel.Worker.BlockCIDRWhois
import PageCamel.Worker.CommandPasses
import PageCamel.Worker.BackupCommand
import PageCamel.Helpers.Linebreak
import PageCamel.Web.MessageList
import PageCamel.Web.MessageQueueing
import PageCamel.Web.SqliteSaves
import PageCamel.Helpers.RoundNumber
import PageCamel.Helpers.Cents
import PageCamel.Http2.IntegerOctets
import PageCamel.Http3.RequestParts
import PageCamel.Helpers.ConfigLoader
import PageCamel.Helpers.Translator
import PageCamel.Helpers.TranslatorFiles
import PageCamel.Worker.DynamicFilesExternal
import PageCamel.Web.BasicAuth
import PageCamel.Helpers.AsyncUA
import PageCamel.Http2.ReceiveWindow
import PageCamel.Http2.Link
import PageCamel.Helpers.BlobSessions
