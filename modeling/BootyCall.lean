import BootyCall.Core.Activity
import BootyCall.Core.Config
import BootyCall.Core.Lossy
import BootyCall.Core.Mac
import BootyCall.Core.Path
import BootyCall.Core.Spelling
import BootyCall.Core.State
import BootyCall.Core.StoreSpec
import BootyCall.Core.Watch
import BootyCall.Dhcp.Reply
import BootyCall.Dhcp.Server
import BootyCall.Extractor.Cache
import BootyCall.Extractor.Coherence
import BootyCall.Extractor.Copy
import BootyCall.Extractor.FleetSync
import BootyCall.Extractor.Geometry
import BootyCall.Extractor.Interruption
import BootyCall.Extractor.Located
import BootyCall.Extractor.Metadata
import BootyCall.Extractor.Partitions
import BootyCall.Extractor.Readers
import BootyCall.Extractor.Readiness
import BootyCall.Extractor.Rounds
import BootyCall.Extractor.SizeCap
import BootyCall.Extractor.Slice
import BootyCall.Extractor.Walkers
import BootyCall.Fleet.Access
import BootyCall.Fleet.Assignment
import BootyCall.Fleet.Attribution
import BootyCall.Fleet.BootName
import BootyCall.Fleet.Handout
import BootyCall.Fleet.Identity
import BootyCall.Fleet.Injection
import BootyCall.Fleet.LastWriter
import BootyCall.Fleet.LogTexts
import BootyCall.Fleet.Servers
import BootyCall.Fleet.Twins
import BootyCall.Http.Api
import BootyCall.Http.BootChain
import BootyCall.Http.Dashboard
import BootyCall.Http.Files
import BootyCall.Http.Lookup
import BootyCall.Http.Menu
import BootyCall.Http.PollScript
import BootyCall.Http.Provision
import BootyCall.Http.Router
import BootyCall.Http.Scripts
import BootyCall.Http.Server
import BootyCall.Led.Manager
import BootyCall.Lib.Blocks
import BootyCall.Lib.ByteStore
import BootyCall.Lib.Codec
import BootyCall.Lib.Crc
import BootyCall.Lib.DepthFirst
import BootyCall.Lib.Dotted
import BootyCall.Lib.Endian
import BootyCall.Lib.FileOps
import BootyCall.Lib.FileTree
import BootyCall.Lib.Independence
import BootyCall.Lib.Iterate
import BootyCall.Lib.Jinja
import BootyCall.Lib.Json
import BootyCall.Lib.Lines
import BootyCall.Lib.Markup
import BootyCall.Lib.Nested
import BootyCall.Lib.Net
import BootyCall.Lib.Pointwise
import BootyCall.Lib.Reflect
import BootyCall.Lib.Rgb565
import BootyCall.Lib.Runs
import BootyCall.Lib.Segment
import BootyCall.Lib.Skeleton
import BootyCall.Lib.Slice
import BootyCall.Lib.Utf8
import BootyCall.Lib.WriteCache
import BootyCall.Oled.Display
import BootyCall.Oled.Drawing
import BootyCall.Oled.Framebuffer
import BootyCall.Oled.GpioLine
import BootyCall.Oled.Packing
import BootyCall.Oled.Pages
import BootyCall.Oled.Panel
import BootyCall.Oled.Placement
import BootyCall.Oled.Png
import BootyCall.Oled.PngDecoder
import BootyCall.Oled.RenderLoop
import BootyCall.Oled.Renderer
import BootyCall.Tftp.Agreement
import BootyCall.Tftp.Announcement
import BootyCall.Tftp.DataLoop
import BootyCall.Tftp.Effort
import BootyCall.Tftp.Handling
import BootyCall.Tftp.Listener
import BootyCall.Tftp.LossOutcome
import BootyCall.Tftp.LossyRun
import BootyCall.Tftp.Negotiation
import BootyCall.Tftp.Recovery
import BootyCall.Tftp.ReplyCodec
import BootyCall.Tftp.Request
import BootyCall.Tftp.RequestCodec
import BootyCall.Tftp.Slots
import BootyCall.Tftp.WindowInvariant
import BootyCall.Tftp.Wire
import BootyCall.Lib.Turns
import BootyCall.Service.Lifecycle
import BootyCall.Service.Invariant
import BootyCall.Service.Progress
import BootyCall.Service.Shutdown
