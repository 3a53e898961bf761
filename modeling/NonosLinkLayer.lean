import NonosLinkLayer.Base.LinkPool
import NonosLinkLayer.Base.Transitions
import NonosLinkLayer.Base.ExpiringScan
import NonosLinkLayer.Napt.Sessions
import NonosLinkLayer.Napt.Translate
import NonosLinkLayer.Napt.Represents
import NonosLinkLayer.Napt.Rules
import NonosLinkLayer.Napt.Flows
import NonosLinkLayer.Napt.System
import NonosLinkLayer.Napt.Translator
import NonosLinkLayer.Napt.Intact
import NonosLinkLayer.Napt.Replies
import NonosLinkLayer.Napt.History
import NonosLinkLayer.Napt.Tracking
import NonosLinkLayer.Napt.Independence
import NonosLinkLayer.Napt.Lifetime
import NonosLinkLayer.Napt.Mappings
import NonosLinkLayer.Napt.Exhaustion
import NonosLinkLayer.Dhcps.Pool
import NonosLinkLayer.Base.LeadingRun
import NonosLinkLayer.Dhcps.Outcomes
import NonosLinkLayer.Dhcps.Leases
import NonosLinkLayer.Base.OnesComplement
import NonosLinkLayer.Napt.Checksums
import NonosLinkLayer.Napt.Sums
import NonosLinkLayer.Napt.Within
import NonosLinkLayer.Napt.Frame
import NonosLinkLayer.Napt.Guarded
import NonosLinkLayer.Napt.Api
import NonosLinkLayer.Dhcps.Range
import NonosLinkLayer.Dhcps.Backing
import NonosLinkLayer.Dhcps.Allocation
import NonosLinkLayer.Dhcps.Handshake
import NonosLinkLayer.Dhcps.Bounds
import NonosLinkLayer.Base.HeapList
import NonosLinkLayer.Dhcps.Nodes
import NonosLinkLayer.Dhcps.Relinking
import NonosLinkLayer.Dhcps.Structure
import NonosLinkLayer.Dhcps.Upkeep
import NonosLinkLayer.Dhcps.Order
import NonosLinkLayer.Dhcps.Storage
import NonosLinkLayer.Base.RingQueue
import NonosLinkLayer.Espconn.RingBuffer
import NonosLinkLayer.Glue.Wrappers
import NonosLinkLayer.Glue.Linkoutput
import NonosLinkLayer.Glue.Ownership
import NonosLinkLayer.Glue.Reception
import NonosLinkLayer.Glue.Isolation
import NonosLinkLayer.Glue.Interfaces
import NonosLinkLayer.Glue.Devices
import NonosLinkLayer.Glue.Beside
import NonosLinkLayer.Glue.Alongside
import NonosLinkLayer.Espconn.Receive
import NonosLinkLayer.Base.HeapQueue
import NonosLinkLayer.Base.Turns
import NonosLinkLayer.Espconn.Sending
import NonosLinkLayer.Espconn.Stream
import NonosLinkLayer.Espconn.Acknowledged
import NonosLinkLayer.Espconn.Delivery
import NonosLinkLayer.Base.HeapWalk
import NonosLinkLayer.Connections.Calls
import NonosLinkLayer.Lwip.TimeWait
import NonosLinkLayer.Napt.Expiry
import NonosLinkLayer.Napt.NewPort
import NonosLinkLayer.Dhcps.Validation
import NonosLinkLayer.Base.LeastScan
import NonosLinkLayer.Dhcps.Ageing
import NonosLinkLayer.Base.TagLength
import NonosLinkLayer.Dhcps.Grammar
import NonosLinkLayer.Dhcps.Reservation
import NonosLinkLayer.Dhcps.Configuration
import NonosLinkLayer.Dhcps.Service
import NonosLinkLayer.Dhcps.Provider
import NonosLinkLayer.Dhcps.Renewal
import NonosLinkLayer.Glue.Station
import NonosLinkLayer.Lwip.Ping
import NonosLinkLayer.Connections.Identity
import NonosLinkLayer.Connections.Establish
import NonosLinkLayer.Connections.Frames
import NonosLinkLayer.Connections.Lifetime
import NonosLinkLayer.Connections.Limit
import NonosLinkLayer.Connections.Idle
import NonosLinkLayer.Connections.Arrivals
import NonosLinkLayer.Connections.Oldest
import NonosLinkLayer.Napt.Lookups
import NonosLinkLayer.Napt.Vacancy
import NonosLinkLayer.Espconn.Atomic
import NonosLinkLayer.Espconn.Gate
import NonosLinkLayer.Base.PastTime
import NonosLinkLayer.Napt.Discon
import NonosLinkLayer.Base.Pieces
import NonosLinkLayer.Espconn.Pbufs
import NonosLinkLayer.Espconn.Udp
import NonosLinkLayer.Espconn.Splitting
import NonosLinkLayer.Espconn.Broadcast
import NonosLinkLayer.Lwip.Millis
import NonosLinkLayer.Lwip.Gettimeofday
import NonosLinkLayer.Base.SharedSlots
import NonosLinkLayer.Lwip.ServerSlots
import NonosLinkLayer.Lwip.NtpServers
import NonosLinkLayer.Lwip.DnsServers
import NonosLinkLayer.Espconn.RingSearch
import NonosLinkLayer.Napt.Incremental
import NonosLinkLayer.Base.TimerList
import NonosLinkLayer.Lwip.PingSession
import NonosLinkLayer.Lwip.PingOutcomes
import NonosLinkLayer.Espconn.EndpointCalls
