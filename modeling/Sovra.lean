import Sovra.Lib.Transition
import Sovra.Lib.Refine
import Sovra.Lib.Joint
import Sovra.Lib.Cut
import Sovra.Mpc.Exchange
import Sovra.Mpc.Authenticity
import Sovra.Mpc.Schedule
import Sovra.Mpc.Script
import Sovra.Mpc.Ceremony
import Sovra.Mpc.Simulation
import Sovra.Mpc.Ledger
import Sovra.Mpc.MemHub
import Sovra.Carbon.Rounds
import Sovra.Carbon.Shard
import Sovra.Carbon.Library
import Sovra.Carbon.Fragments
import Sovra.Carbon.Keygen
import Sovra.Carbon.Refresh
import Sovra.Carbon.Sign
import Sovra.Carbon.Ceremonies
import Sovra.Carbon.InProcess
import Sovra.Carbon.Panic
import Sovra.Lib.Rlp
import Sovra.Eth.Prepare
import Sovra.Eth.Encoding
import Sovra.Eth.Finalize
import Sovra.Eth.Network
import Sovra.Eth.Rpc
import Sovra.Cosigner.Types
import Sovra.Lib.Service
import Sovra.Cosigner.Api
import Sovra.Cosigner.Service
import Sovra.Cosigner.Sealing
import Sovra.Cosigner.Crash
import Sovra.Carbon.Backend
import Sovra.Cosigner.Generations
import Sovra.Cosigner.Answers
import Sovra.Cosigner.Torn
import Sovra.Cosigner.Sizes
import Sovra.Cosigner.Liveness
import Sovra.Cosigner.Replay
import Sovra.Cli.Identity
import Sovra.Secrets
import Sovra.State.Signers
import Sovra.Certs.Pairs
import Sovra.Api.Handlers
import Sovra.Api.Sign
import Sovra.Api.Relay
import Sovra.Api.Untouched
import Sovra.Api.Resubmit
import Sovra.Ipc.Remote
import Sovra.Ipc.Veto
import Sovra.Ipc.Frames
import Sovra.Ipc.Delivery
import Sovra.Ipc.Plane
import Sovra.Ipc.Backpressure
import Sovra.Ipc.Preflight
import Sovra.Ipc.Merge
import Sovra.Ipc.Subset
import Sovra.Ipc.Pinned
import Sovra.Api.Orchestrator
import Sovra.Api.Deployment
import Sovra.Api.Gates
import Sovra.Api.Payment
