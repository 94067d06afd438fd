import SourceMaster.Kconfig.MakeCondition
import SourceMaster.Kconfig.Meaning
import SourceMaster.Nand.V2Persistence
import SourceMaster.Sms.Robust
import SourceMaster.Sms.SysMessage
import SourceMaster.Hostapd.Rename
import SourceMaster.Realtek.Lag
import SourceMaster.Realtek.RouteCounters
import SourceMaster.Ead.Reflection
import SourceMaster.Mtd.Devices
import SourceMaster.Mtd.Fis
import SourceMaster.Nvram.RoundTrip
import SourceMaster.Bcm4908.Bootfs
import SourceMaster.Bwmon.Restart
import SourceMaster.Hostapd.Supplicant
import SourceMaster.Metadata.Reload
import SourceMaster.Rtl8366.Vlan
import SourceMaster.Nand.Nmbm.ReadBack
import SourceMaster.Nand.Nmbm.Unmap
import SourceMaster.Nand.V2Unmap
import SourceMaster.Nand.BbtHides
import SourceMaster.Nand.Access
import SourceMaster.Realtek.Rtl930xEntries
import SourceMaster.Sms.MergeTexts
import SourceMaster.Sms.Utf16
import SourceMaster.Sms.UserHeader
import SourceMaster.Realtek.RouteIds
import SourceMaster.Ead.Replay
import SourceMaster.Realtek.Bridge
import SourceMaster.Bwmon.Rollover
import SourceMaster.Hostapd.Macaddr
import SourceMaster.Nvram.Variables
import SourceMaster.Hostapd.Equal
import SourceMaster.Kconfig.ConfigFiles
import SourceMaster.Kconfig.PackageOrder
import SourceMaster.Kconfig.Versions
import SourceMaster.Hostapd.FirstBss
import SourceMaster.Bcm4908.Walk
import SourceMaster.Network.Ipcalc
import SourceMaster.Network.Mapcalc
import SourceMaster.Mtd.Split
import SourceMaster.Routerboot.Partitions
