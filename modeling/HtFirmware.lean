import HtFirmware.Machinery.Run
import HtFirmware.Machinery.ByteOrder
import HtFirmware.Machinery.Memory
import HtFirmware.Machinery.Timeval
import HtFirmware.Radio.Module
import HtFirmware.Radio.Sa818
import HtFirmware.Radio.Cache
import HtFirmware.Radio.Ptt
import HtFirmware.Support.AllZeroes
import HtFirmware.Support.MatchBits
import HtFirmware.Pcp.Packet
import HtFirmware.Pcp.State
import HtFirmware.Pcp.Protocol
import HtFirmware.Pcp.System
import HtFirmware.Pcp.Epoch
import HtFirmware.Pcp.Maintain
import HtFirmware.Pcp.Renewal
import HtFirmware.Pcp.Records
import HtFirmware.Pcp.Acceptance
import HtFirmware.Pcp.InFlight
import HtFirmware.Stun.Message
import HtFirmware.Stun.Netif
import HtFirmware.Stun.Engine
import HtFirmware.Stun.Completion
import HtFirmware.Select.Tables
import HtFirmware.Select.Loop
import HtFirmware.Select.Timers
import HtFirmware.Select.Readiness
import HtFirmware.Select.Wakeup
import HtFirmware.Select.EventServer
import HtFirmware.Storage.Keys
import HtFirmware.Session.Cookie
import HtFirmware.Session.Session
import HtFirmware.Machinery.Text
import HtFirmware.Storage.Nonvolatile
import HtFirmware.Web.Settings
import HtFirmware.Web.Form
import HtFirmware.Pcp.Buffer
import HtFirmware.Web.Document
import HtFirmware.Machinery.Descriptors
import HtFirmware.Stun.Authentic
import HtFirmware.Stun.Sockets
import HtFirmware.Server.Services
import HtFirmware.Server.LogServer
import HtFirmware.Server.Startup
import HtFirmware.Ddns.DynamicDns
import HtFirmware.Server.Redirect
import HtFirmware.Web.Link
import HtFirmware.Radio.Startup
import HtFirmware.Radio.Failures
import HtFirmware.Pcp.Lists
import HtFirmware.Stun.XorAddress
import HtFirmware.Session.Lengths
import HtFirmware.Stun.Bounds
import HtFirmware.Wifi.Connection
import HtFirmware.Wifi.Networks
import HtFirmware.Session.SetCookie
import HtFirmware.Web.Parameters
import HtFirmware.Web.Target
import HtFirmware.Web.Chunks
import HtFirmware.Web.Verbatim
import HtFirmware.Server.Location
import HtFirmware.Server.Headers
import HtFirmware.Machinery.FirstBest
import HtFirmware.Machinery.Tiling
import HtFirmware.Machinery.Cells
import HtFirmware.Support.ZeroTest
import HtFirmware.Pcp.Addresses
import HtFirmware.Wifi.GlobalAddresses
import HtFirmware.Wifi.Interfaces
import HtFirmware.Wifi.Icmpv6
import HtFirmware.Stun.Attributes
import HtFirmware.Ddns.WebGet
import HtFirmware.Ddns.PatternBuffer
import HtFirmware.Ddns.PatternFailure
import HtFirmware.Ddns.Template
import HtFirmware.Machinery.FirstReached
import HtFirmware.Web.Trim
import HtFirmware.Support.TimerToHuman
import HtFirmware.Support.GmArray
import HtFirmware.Radio.Writes
import HtFirmware.Web.AcceptEncoding
import HtFirmware.Web.Frogfs
import HtFirmware.Server.Buffer
import HtFirmware.Server.BufferList
import HtFirmware.Server.Connections
import HtFirmware.Machinery.TailQueue
import HtFirmware.Machinery.Machine
import HtFirmware.Web.Handlers
import HtFirmware.Web.Requests
import HtFirmware.Support.TaskStats
import HtFirmware.Support.Commands
import HtFirmware.Machinery.Elements
import HtFirmware.Web.Reading
import HtFirmware.Web.SettingsPage
import HtFirmware.Pcp.Network
import HtFirmware.Wifi.Device
import HtFirmware.Web.Console
import HtFirmware.Ddns.AsSet
import HtFirmware.Machinery.Diversion
import HtFirmware.Server.Logging
