import AtbmWifi.Wsm.Matching
import AtbmWifi.Wsm.OperSafety
import AtbmWifi.Bh.CreditBalance
import AtbmWifi.Scan.Batch
import AtbmWifi.Scan.ProbeIes
import AtbmWifi.Scan.Cover
import AtbmWifi.Tx.PolicyMatch
import AtbmWifi.Tx.Linearize
import AtbmWifi.Wsm.RxFormat
import AtbmWifi.Sta.CapShare
import AtbmWifi.Sta.Keys
import AtbmWifi.Sta.PsCache
import AtbmWifi.Wsm.TxLockBalance
import AtbmWifi.Bh.Suspend
import AtbmWifi.Ble.HifTxConserve
import AtbmWifi.Usb.DmaRingOrder
import AtbmWifi.Usb.TxUrbLedger
import AtbmWifi.Mac80211.WorkqueueLists
import AtbmWifi.Mac80211.WorkqueueFlush
import AtbmWifi.Ble.CdevStream
import AtbmWifi.Mac80211.PrvMgmtRuns
import AtbmWifi.Mac80211.ApSmeEvent
import AtbmWifi.Ble.HciRx
import AtbmWifi.Ble.DataPath
import AtbmWifi.Mac80211.SpecialFilterRx
import AtbmWifi.Mac80211.BridgeReverse
import AtbmWifi.Ble.SmartCfgProtocol
import AtbmWifi.Pm.WowUndo
import AtbmWifi.Ble.StatusQueue
import AtbmWifi.Sdio.ThreadRuns
import AtbmWifi.Mac80211.ScanResultsRuns
import AtbmWifi.Sta.RemainOnChannelRuns
import AtbmWifi.Sdio.ReceiveRuns
import AtbmWifi.Sdio.Restart
import AtbmWifi.Mac80211.HandshakeRuns
import AtbmWifi.Mac80211.OffchannelRuns
import AtbmWifi.Queue.AgeOrder
import AtbmWifi.Sdio.FreeCredits
import AtbmWifi.Sdio.ReadLoop
import AtbmWifi.Usb.RxComplete
import AtbmWifi.Ap.MoreData
import AtbmWifi.Wsm.BufGrow
import AtbmWifi.P2p.IntentConfined
import AtbmWifi.P2p.ActionConfined
import AtbmWifi.Scan.RxInternalSound
import AtbmWifi.Smartconfig.Roundtrip
import AtbmWifi.Scan.ChannelSelectRun
import AtbmWifi.Scan.PolicyCover
import AtbmWifi.Mac80211.BridgeBounds
import AtbmWifi.Ap.SuspendResume
import AtbmWifi.Mac80211.SpecialFreq
import AtbmWifi.Mac80211.SpecialWorkRuns
import AtbmWifi.Mac80211.MinstrelRuns
import AtbmWifi.Sdio.DirectRegFour
import AtbmWifi.Scan.StaScanExport
import AtbmWifi.Fw.ImageLoad
import AtbmWifi.Mac80211.ReorderRuns
import AtbmWifi.Mac80211.DefragRuns
