import OpenNos.Lib.History
import OpenNos.Bde.Message
import OpenNos.Sdk.RouteLpm
import OpenNos.Sdk.DefipMatch
import OpenNos.Sdk.RouteMap
import OpenNos.Sdk.L2Store
import OpenNos.Switchd.LinkFlap
import OpenNos.Switchd.Wired
import OpenNos.Switchd.KernelFib
import OpenNos.Switchd.NextHopMac
import OpenNos.Switchd.RefIntegrity
import OpenNos.Switchd.NextHopLeak
import OpenNos.Switchd.AddrIntf
import OpenNos.Switchd.NeighL2
import OpenNos.Sdk.RouteShadow
import OpenNos.Lib.Registry
import OpenNos.Sdk.Vlan
import OpenNos.Sdk.Ecmp
import OpenNos.Sdk.L3Objects
import OpenNos.Sdk.EcmpGroups
import OpenNos.Sdk.EcmpBalance
import OpenNos.Sdk.VlanTables
import OpenNos.Sdk.VlanForwarding
import OpenNos.Sdk.VlanFaults
import OpenNos.Sdk.PortEnable
import OpenNos.Switchd.PortConfig
import OpenNos.Switchd.PortMap
import OpenNos.Sdk.L2Faults
import OpenNos.Lib.RingScan
import OpenNos.Sdk.PktioRx
import OpenNos.Sdk.PktioTx
import OpenNos.Bde.Containment
import OpenNos.Bde.Device
import OpenNos.Bde.Refusal
import OpenNos.Lib.RelyGuarantee
import OpenNos.Bde.Cmic
import OpenNos.Bde.SchanClean
import OpenNos.Sdk.Miim
import OpenNos.Sdk.SharedCtrl
import OpenNos.Sdk.Coexist
import OpenNos.Sdk.MiimBus
import OpenNos.Sdk.MiimIsolation
import OpenNos.Sdk.Serdes
import OpenNos.Sdk.SerdesIsolation
import OpenNos.Lib.OpProg
import OpenNos.Sdk.InitDatapath
import OpenNos.Sdk.DatapathReport
import OpenNos.Sdk.L2Layout
import OpenNos.Sdk.Stats
import OpenNos.Sdk.EcmpFastPath
import OpenNos.Sdk.L3Fields
import OpenNos.Sdk.VlanTagging
import OpenNos.Sdk.MiimDevice
import OpenNos.Sdk.SerdesAccess
import OpenNos.Lib.RegFile
import OpenNos.Sdk.SerdesRegs
import OpenNos.Sdk.SerdesFirmware
import OpenNos.Sdk.SerdesLink
import OpenNos.Lib.RegEdit
import OpenNos.Sdk.SerdesConfig
import OpenNos.Sdk.SerdesInit
import OpenNos.Sdk.L2User
import OpenNos.Sdk.L2UserAlloc
import OpenNos.Sdk.L2Codec
import OpenNos.Lib.Bump
import OpenNos.Sdk.PktioAlloc
import OpenNos.Sdk.PktioPool
import OpenNos.Switchd.NeighTable
import OpenNos.Lib.Scanf
import OpenNos.Switchd.IfName
import OpenNos.Switchd.IfindexMap
import OpenNos.Switchd.LinkRetry
import OpenNos.Lib.Walk
import OpenNos.Switchd.NetlinkBytes
import OpenNos.Switchd.NetlinkBounds
import OpenNos.Lib.Words
import OpenNos.Sdk.SocScript
import OpenNos.Sdk.SetregGrammar
import OpenNos.Sdk.SetBits
import OpenNos.Sdk.EcmpAlloc
import OpenNos.Sdk.DmaBump
import OpenNos.Lib.Nesting
import OpenNos.Sdk.SbusDevice
import OpenNos.Sdk.SocRun
import OpenNos.Sdk.SocModify
import OpenNos.Sdk.PortTabUpdate
import OpenNos.Lib.TextLines
import OpenNos.Switchd.PortList
import OpenNos.Lib.LastWrite
import OpenNos.Sdk.ConfigBcm
import OpenNos.Sdk.DmaRemap
import OpenNos.Bde.ChipReset
import OpenNos.Bde.SbusStack
import OpenNos.Lib.EditProg
import OpenNos.Sdk.ChipInit
import OpenNos.Bde.Lifecycle
import OpenNos.Lib.Decimal
import OpenNos.Platform.Cpld
import OpenNos.Platform.Mgrd
import OpenNos.Lib.Component
import OpenNos.Sdk.AsicOnStack
import OpenNos.Sdk.FilesApart
import OpenNos.Lib.Threads
import OpenNos.Switchd.NetlinkOnStack
import OpenNos.Switchd.Threads
