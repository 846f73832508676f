import UbApplication.Erpc.Credits
import UbApplication.Erpc.Orphans
import UbApplication.Erpc.SpscQueue
import UbApplication.Lrpc.Astack
import UbApplication.SocialNetwork.Inflight
import UbApplication.Tigon.Aria.Serial
import UbApplication.Tigon.BPlusTree.Adapter
import UbApplication.Tigon.BPlusTree.Structure
import UbApplication.Tigon.CxlEbr.Safety
import UbApplication.Tigon.Message
import UbApplication.Tigon.RowLayout
import UbApplication.Tigon.SharedLock
import UbApplication.Tigon.Sundial.Cleanup
import UbApplication.Tigon.TwoPLPasha.Phantoms
import UbApplication.Tigon.Wal.EpochLog
import UbApplication.UbDomain.PoolSafety
