import CeriosCluster.MCPacket.Safety
import CeriosCluster.MCPacket.Isolation
import CeriosCluster.MCPacket.CompressedRoundTrip
import CeriosCluster.MCPacket.RegistryCoherence
import CeriosCluster.MCPacket.ServerBound
import CeriosCluster.MCPacket.ClientBound
import CeriosCluster.MCPacket.PositionFields
import CeriosCluster.ClientGateway.LengthGuard
import CeriosCluster.InternalComms.FromData
import CeriosCluster.InternalComms.HeaderMemory
import CeriosCluster.MCPacket.DeflateLoop
import CeriosCluster.ClientGateway.Segmentation
import CeriosCluster.ClientGateway.Decryption
import CeriosCluster.ClientGateway.EncryptedSends
import CeriosCluster.ClientGateway.LoginOnce
import CeriosCluster.ClientGateway.ClientBoundForm
import CeriosCluster.ClientGateway.PendingEntries
import CeriosCluster.ClientGateway.LostClients
import CeriosCluster.ClientGateway.NullEntries
import CeriosCluster.ClientGateway.ClientKeys
import CeriosCluster.ClientGateway.AfterDisconnect
import CeriosCluster.ClientGateway.HandOff
import CeriosCluster.ClientGateway.PingCancel
import CeriosCluster.ClientGateway.WriteOrder
import CeriosCluster.ClientGateway.Chat
import CeriosCluster.ClientGateway.ChatText
import CeriosCluster.ClientGateway.Rearming
import CeriosCluster.ClientGateway.RelayedCompression
import CeriosCluster.ClientGateway.Rejection
import CeriosCluster.ClientGateway.Admission
import CeriosCluster.ClientGateway.RequestLine
import CeriosCluster.ClientGateway.SignedHex
import CeriosCluster.ClientGateway.SqlTexts
import CeriosCluster.ClientGateway.PlayerId
import CeriosCluster.ClientGateway.Shutdown
import CeriosCluster.ClientGateway.Console
import CeriosCluster.MCPacket.StaleMemory
import CeriosCluster.MCPacket.LoginName
import CeriosCluster.MCPacket.Calls
import CeriosCluster.ClientGateway.Resend
import CeriosCluster.ClientGateway.PingEcho
import CeriosCluster.ClientGateway.CipherFailure
import CeriosCluster.ClientGateway.Withheld
import CeriosCluster.ClientGateway.Atomicity
import CeriosCluster.ClientGateway.ChatJson
import CeriosCluster.ClientGateway.BodyAssembly
import CeriosCluster.MCPacket.VarLong
import CeriosCluster.ClientGateway.Conversation
import CeriosCluster.ClientGateway.Separation
