import Rtl8821au.Lib.SerialNum
import Rtl8821au.Lib.Run
import Rtl8821au.Recv.Frame
import Rtl8821au.Recv.Reorder
import Rtl8821au.Recv.Delivery
import Rtl8821au.Recv.Defrag
import Rtl8821au.Lib.AuthEnc
import Rtl8821au.Security.Aes
import Rtl8821au.Security.Ccmp
import Rtl8821au.Lib.Places
import Rtl8821au.Xmit.Queues
import Rtl8821au.Xmit.Conserve
import Rtl8821au.Xmit.Sched
import Rtl8821au.Xmit.SleepQ
import Rtl8821au.Xmit.Coalesce
import Rtl8821au.Xmit.FragWalk
import Rtl8821au.Xmit.Aggregate
import Rtl8821au.Recv.Validate
import Rtl8821au.Lib.Keystream
import Rtl8821au.Security.Arcfour
import Rtl8821au.Security.TkipMix
import Rtl8821au.Lib.Feistel
import Rtl8821au.Security.TkipKeys
import Rtl8821au.Lib.Absorb
import Rtl8821au.Security.MichaelWords
import Rtl8821au.Lib.Fips197
import Rtl8821au.Security.AesFips
import Rtl8821au.Security.Rijndael
import Rtl8821au.Security.WepTkip
import Rtl8821au.Lib.Crc
import Rtl8821au.Security.Crc32
import Rtl8821au.Recv.Decache
import Rtl8821au.Recv.Decrypt
import Rtl8821au.Recv.CcmpBounds
import Rtl8821au.Sta.Table
import Rtl8821au.Sta.Assoc
import Rtl8821au.Xmit.Mcast2Uni
import Rtl8821au.Recv.Amsdu
import Rtl8821au.Recv.BlockAck
import Rtl8821au.Recv.Func
import Rtl8821au.Recv.Pool
import Rtl8821au.Recv.Indicate
import Rtl8821au.Recv.Portctrl
import Rtl8821au.Recv.Protected
import Rtl8821au.Sta.Class3
import Rtl8821au.Fw.H2c
import Rtl8821au.Lib.EndsWhen
import Rtl8821au.Lib.RegIo
import Rtl8821au.Lib.ReplaceFirst
import Rtl8821au.Fw.Download
import Rtl8821au.Mlme.ScanTable
import Rtl8821au.Mlme.ScanChan
import Rtl8821au.Sta.MacId
import Rtl8821au.Security.Cam
import Rtl8821au.Security.KeyRequest
import Rtl8821au.Security.KeyPlace
import Rtl8821au.Lib.Slots
import Rtl8821au.Security.Pmkid
import Rtl8821au.Usb.RecvAgg
import Rtl8821au.Usb.RecvBounds
import Rtl8821au.Usb.DefragRoom
import Rtl8821au.Lib.Elements
import Rtl8821au.Ap.BcnBody
import Rtl8821au.Ap.BcnWps
import Rtl8821au.Ap.BcnTim
import Rtl8821au.Sta.AuthTrace
import Rtl8821au.Lib.Census
import Rtl8821au.Ap.BssCap
import Rtl8821au.Ap.Acl
import Rtl8821au.Lib.FreeQueue
import Rtl8821au.Xmit.Pools
import Rtl8821au.Xmit.Encap
import Rtl8821au.Mlme.Join
import Rtl8821au.Phy.RegTable
import Rtl8821au.Phy.RssiForDm
import Rtl8821au.Phy.PowerLimit
import Rtl8821au.Phy.ChnlBw
import Rtl8821au.Phy.TxPower
import Rtl8821au.Phy.SwingTables
import Rtl8821au.Phy.ThermalTrack
import Rtl8821au.Phy.ByRate
import Rtl8821au.Pwr.PowerSave
import Rtl8821au.Efuse.Read
import Rtl8821au.Efuse.Write
import Rtl8821au.Efuse.WriteBack
import Rtl8821au.Lib.Fueled
import Rtl8821au.Efuse.Poll
import Rtl8821au.Lib.Checked
import Rtl8821au.Lib.Stores
import Rtl8821au.Lib.ElementWalk
import Rtl8821au.Lib.OptionalTail
import Rtl8821au.Mlme.ElemWalk
import Rtl8821au.Mlme.ElemCopy
import Rtl8821au.Mlme.IeLookup
import Rtl8821au.Mlme.IeRemove
import Rtl8821au.Mlme.ParseElems
import Rtl8821au.Mlme.SecIe
import Rtl8821au.Mlme.TranslateScan
import Rtl8821au.Mlme.Vht
import Rtl8821au.Mlme.WpaIe
import Rtl8821au.Mlme.WpaIn
import Rtl8821au.Mlme.AssocReq
import Rtl8821au.Mlme.WpsAttr
import Rtl8821au.Mlme.JoinIes
import Rtl8821au.Cmd.CmdThread
import Rtl8821au.Xmit.TxBlockAck
import Rtl8821au.Xmit.TxDesc
import Rtl8821au.Lib.Area
import Rtl8821au.Mlme.BssInfo
import Rtl8821au.Mlme.ScanReq
import Rtl8821au.Ap.HostapdIoctl
import Rtl8821au.Ap.BeaconData
import Rtl8821au.Ap.BeaconAdopt
import Rtl8821au.Phy.ThermalDrift
import Rtl8821au.Phy.ThermalRuns
import Rtl8821au.Usb.RecvBufs
import Rtl8821au.Usb.VendorReq
import Rtl8821au.Recv.Cursor
import Rtl8821au.Lib.BitField
import Rtl8821au.Phy.MaskedWrite
import Rtl8821au.Pwr.PwrSeq
import Rtl8821au.Lib.HeaderScan
import Rtl8821au.Mlme.SecSearch
import Rtl8821au.Mlme.BeaconCheck
import Rtl8821au.Mlme.ClientLink
import Rtl8821au.Mlme.Survey
