import RpcBench.Lib.ProtoWire
import RpcBench.Lib.Run
import RpcBench.Lib.Fallible
import RpcBench.Lib.Interleave
import RpcBench.Lib.ByteList
import RpcBench.Lib.Ledger
import RpcBench.Lib.Weights
import RpcBench.Socket.Poll
import RpcBench.Socket.Buffer
import RpcBench.Socket.Kernel
import RpcBench.Socket.Endpoint
import RpcBench.Socket.Session
import RpcBench.Socket.Refinement
import RpcBench.Socket.Simulation
import RpcBench.Socket.Served
import RpcBench.Socket.Stream
import RpcBench.Socket.StraightLine
import RpcBench.Socket.Invariant
import RpcBench.Bandwidth.BwApp
import RpcBench.Bandwidth.HeaderWire
import RpcBench.Socket.Client
import RpcBench.Socket.Connection
import RpcBench.Socket.Frames
import RpcBench.Socket.FrameLimits
import RpcBench.Socket.Awake
import RpcBench.Socket.Wakeup
import RpcBench.Socket.Host
import RpcBench.Socket.Server
import RpcBench.Socket.Dispatch
import RpcBench.Socket.Registry
import RpcBench.Socket.Events
import RpcBench.Socket.Tokens
import RpcBench.Socket.Backlog
import RpcBench.Socket.Isolation
import RpcBench.Socket.Acks
import RpcBench.Socket.Completion
import RpcBench.Bandwidth.Rpc
import RpcBench.Bandwidth.Zeromq
import RpcBench.Bandwidth.ZeromqServer
import RpcBench.Bandwidth.Transports
import RpcBench.Acl.Filter
import RpcBench.Acl.RequestWire
import RpcBench.Acl.Bypass
import RpcBench.Acl.Totality
import RpcBench.Grpc.ClosedLoop
import RpcBench.Grpc.Workload
import RpcBench.Grpc.Clients
import RpcBench.Grpc.Summary
import RpcBench.Grpc.Servers
import RpcBench.Grpc.Deployment
import RpcBench.Grpc.Delivery
import RpcBench.Grpc.Linked
import RpcBench.Grpc.AtMostOnce
import RpcBench.Grpc.Drain
import RpcBench.Grpc.LatApp
import RpcBench.Grpc.LatClient
import RpcBench.Lib.Quantile
import RpcBench.Grpc.Percentiles
import RpcBench.RpcHello.Client
import RpcBench.RpcHello.Accounting
import RpcBench.RpcHello.Totals
import RpcBench.RpcHello.Latencies
import RpcBench.RpcHello.Deployment
import RpcBench.RpcHello.Served
import RpcBench.RpcHello.Handled
import RpcBench.RpcHello.Completion
import RpcBench.Grpc.Mix
import RpcBench.Acl.Vm
import RpcBench.Grpc.Reservations
import RpcBench.Socket.Transfer
import RpcBench.Socket.Encoder
import RpcBench.Metering.Meter
import RpcBench.Metering.RoundUp
import RpcBench.Metering.Sampling
import RpcBench.Metering.Windows
import RpcBench.Bandwidth.Run
import RpcBench.Bandwidth.Overhead
import RpcBench.Cpu.CpuStat
import RpcBench.Lib.Decimal
import RpcBench.Lib.Scanf
import RpcBench.Cpu.Snapshot
import RpcBench.Cpu.Monitor
import RpcBench.Lib.Getopt
import RpcBench.Lib.Settings
import RpcBench.Main.CommandLine
import RpcBench.Main.Create
