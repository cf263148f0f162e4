import AivpnSpec.Common.FragmentDelivery
import AivpnSpec.Server.NodeRevocation
import AivpnSpec.Server.ClientDb.Convergence
import AivpnSpec.Server.AntiEntropy
import AivpnSpec.Tunnel.Rekey
import AivpnSpec.Wire.ControlRoundTrip
import AivpnSpec.Kernel.Delivery
import AivpnSpec.Offload.Uplink
import AivpnSpec.Gateway.MaskLayout
import AivpnSpec.Common.StunCarrier
import AivpnSpec.Offload.Downlink
import AivpnSpec.Gateway.SendCounters
import AivpnSpec.Client.MobileEncryptor
import AivpnSpec.Server.Session.WindowMerge
import AivpnSpec.Client.ServerHello
import AivpnSpec.Server.Manager.Admission
import AivpnSpec.Server.Manager.Handshake
import AivpnSpec.Server.Manager.Routing
import AivpnSpec.Server.Manager.Lookup
import AivpnSpec.Wire.MaskStateExact
import AivpnSpec.Wire.AssignedConfig
import AivpnSpec.Common.FragmentBounds
import AivpnSpec.Server.ClientDb.Partitions
import AivpnSpec.Server.ClientDb.DigestAgreement
import AivpnSpec.Server.ClientDb.Tombstones
import AivpnSpec.Server.ClientDb.Collisions
import AivpnSpec.Server.ClientDb.Mutation
import AivpnSpec.Server.BackupAuthenticity
import AivpnSpec.Server.AuditCrash
import AivpnSpec.Server.PoolDialer
import AivpnSpec.Server.MaskCatalog
import AivpnSpec.Common.FecNumbering
import AivpnSpec.Common.FecRefusal
import AivpnSpec.Common.FecUnwrapping
import AivpnSpec.Common.BootstrapRotation
import AivpnSpec.Kernel.OwnAddress
import AivpnSpec.Kernel.SessionCap
