import OpenNos.Lib.Cstring
import OpenNos.Sdk.L2
import OpenNos.Sdk.Port

/-! The netlink thread of switchd (`netlink.c`): the maps it keeps and the
handlers of link, address, neighbour and route messages. A message is taken as
`parse_rtattr` leaves it, with the last attribute of each type; the bytes of an
attribute are those of the receive buffer from `RTA_DATA` on, past the end of
the attribute too, as the handlers read without comparing with its length.
Integers in a message are big-endian, as the target is. -/

namespace OpenNos.Switchd

open Sdk Cstring

/-- One `struct rtattr` found in a message. -/
structure RtAttr where
  /-- `RTA_PAYLOAD` -/
  payload : ℤ
  /-- the buffer from `RTA_DATA` on -/
  data : List Byte

/-- A message with its fixed header and the attributes `tb[]`. -/
structure Nlmsg (hdr : Type) where
  nlmsgLen : ℕ
  hdr : hdr
  tb : ℕ → Option RtAttr

structure Ifinfomsg where
  ifiIndex : BitVec 32
  ifiFlags : BitVec 32

structure Ifaddrmsg where
  ifaIndex : BitVec 32

structure Ndmsg where
  ndmFamily : BitVec 8
  ndmIfindex : BitVec 32

structure Rtmsg where
  rtmFamily : BitVec 8
  rtmDstLen : BitVec 8
  rtmType : BitVec 8

/-- A netlink message by `nlmsg_type`; `del` tells RTM_DEL from RTM_NEW. -/
inductive Nlmsghdr where
  | link (del : Bool) (m : Nlmsg Ifinfomsg)
  | addr (del : Bool) (m : Nlmsg Ifaddrmsg)
  | route (del : Bool) (m : Nlmsg Rtmsg)
  | neigh (del : Bool) (m : Nlmsg Ndmsg)
  | other

def NLMSG_LENGTH (len : ℕ) : ℕ := 16 + len

def IFLA_IFNAME : ℕ := 3

def IFA_ADDRESS : ℕ := 1

def NDA_DST : ℕ := 1

def NDA_LLADDR : ℕ := 2

def NDA_VLAN : ℕ := 5

def RTA_DST : ℕ := 1

def RTA_OIF : ℕ := 4

def RTA_GATEWAY : ℕ := 5

def RTN_UNICAST : BitVec 8 := 1

def AF_INET : BitVec 8 := 2

def IFF_UP : BitVec 32 := 1

def MAX_IFINDEX : ℕ := 512

def NEIGH_CACHE_SIZE : ℕ := 256

def MAX_PORTS : ℕ := 56

def RtAttr.byte (a : RtAttr) (i : ℕ) : Byte := a.data.getD i 0

/-- Two bytes of the attribute as a number. -/
def RtAttr.u16 (a : RtAttr) : BitVec 16 := a.byte 0 ++ a.byte 1

/-- Four bytes of the attribute as a number. -/
def RtAttr.u32 (a : RtAttr) : BitVec 32 := a.byte 0 ++ a.byte 1 ++ a.byte 2 ++ a.byte 3

/-- Six bytes of the attribute as an address. -/
def RtAttr.mac (a : RtAttr) : Mac :=
  #v[a.byte 0, a.byte 1, a.byte 2, a.byte 3, a.byte 4, a.byte 5]

/-- The number in an attribute, 0 where it is absent. -/
def Nlmsg.u32 {hdr : Type} (m : Nlmsg hdr) (type : ℕ) : BitVec 32 :=
  match m.tb type with
  | some a => a.u32
  | none => 0

/-! ### The state of the thread -/

structure NeighEntry where
  ip : BitVec 32
  ifindex : BitVec 32
  mac : Mac

structure NetState where
  sdk : SdkState
  /-- ifindex to port, -1 unknown -/
  ifindexToPort : ℕ → ℤ
  /-- port to the id from `l3_intf_create`, 0 for none -/
  portToIntfId : ℕ → ℕ
  /-- the first `neigh_cache_count` entries -/
  neighCache : List NeighEntry

/-- `netlink_thread` before its first message. -/
def NetState.init (sdk : SdkState) : NetState where
  sdk := sdk
  ifindexToPort := fun _ => -1
  portToIntfId := fun _ => 0
  neighCache := []

def NeighEntry.isFor (e : NeighEntry) (ip ifindex : BitVec 32) : Bool :=
  e.ip == ip && e.ifindex == ifindex

/-- The first entry of the key is replaced; a new key needs room. -/
def neighCacheSet (cache : List NeighEntry) (ip ifindex : BitVec 32) (mac : Mac) :
    List NeighEntry :=
  if cache.any (·.isFor ip ifindex) then
    let i := cache.findIdx (·.isFor ip ifindex)
    cache.set i { ip := ip, ifindex := ifindex, mac := mac }
  else if NEIGH_CACHE_SIZE ≤ cache.length then cache
  else cache ++ [{ ip := ip, ifindex := ifindex, mac := mac }]

def neighCacheGet (cache : List NeighEntry) (ip ifindex : BitVec 32) : Option Mac :=
  (cache.find? (·.isFor ip ifindex)).map (·.mac)

/-- The first entry of the key is taken out. -/
def neighCacheRemove (cache : List NeighEntry) (ip ifindex : BitVec 32) : List NeighEntry :=
  cache.eraseP (·.isFor ip ifindex)

/-! ### Calls whose result is ignored -/

inductive SdkCall where
  | portEnableSet (port : ℤ) (enable : Bool)
  | l2AddrAdd (addr : L2Addr)
  | l2AddrDelete (mac : Mac) (vid : BitVec 16)

def SdkCall.perform (sdk : SdkState) : SdkCall → SdkState
  | .portEnableSet port enable => (Sdk.portEnableSet sdk port enable).1
  | .l2AddrAdd addr => { sdk with asic := (Sdk.l2AddrAdd sdk.asic addr).1 }
  | .l2AddrDelete mac vid => { sdk with asic := (Sdk.l2AddrDelete sdk.asic mac vid).1 }

/-! ### Link messages -/

/-- "swp" and a number up to 56. -/
def ifnameToPort (ifname : List Byte) : Option ℤ :=
  if ifname.take 3 ≠ [0x73, 0x77, 0x70] then none
  else
    match scanUnsigned (ifname.drop 3) with
    | none => none
    | some n => if n = 0 ∨ 56 < n.toNat then none else some n.toNat

/-- The map and the call an interface message leads to. -/
def handleLink (s : NetState) (del : Bool) (m : Nlmsg Ifinfomsg) : NetState × List SdkCall :=
  let index := m.hdr.ifiIndex.toNat
  let mapTo (port : ℤ) : NetState :=
    if index < MAX_IFINDEX then
      { s with ifindexToPort := Function.update s.ifindexToPort index port }
    else s
  if m.nlmsgLen < NLMSG_LENGTH 16 then (s, [])
  else if del then (mapTo (-1), [])
  else
    match m.tb IFLA_IFNAME with
    | none => (s, [])
    | some name =>
      match ifnameToPort (cstr name.data) with
      | none => (s, [])
      | some port =>
        let up := m.hdr.ifiFlags &&& IFF_UP ≠ 0
        (mapTo port, [.portEnableSet port up])

/-! ### Address messages -/

/-- Synthetic port MAC 02:00:00:00:00:XX. -/
def portMac (port : ℤ) : Mac := #v[0x02, 0, 0, 0, 0, BitVec.ofInt 8 port]

def handleAddr (s : NetState) (del : Bool) (m : Nlmsg Ifaddrmsg) : NetState :=
  if m.nlmsgLen < NLMSG_LENGTH 8 then s
  else if (m.tb IFA_ADDRESS).isNone then s
  else if MAX_IFINDEX ≤ m.hdr.ifaIndex.toNat then s
  else
    let port := s.ifindexToPort m.hdr.ifaIndex.toNat
    if port ≤ 0 ∨ (MAX_PORTS : ℤ) ≤ port then s
    else if ¬ del then
      match l3IntfCreate s.sdk (portMac port) 0 with
      | (sdk, .ok intfId) =>
        { s with sdk := sdk, portToIntfId := Function.update s.portToIntfId port.toNat intfId }
      | (sdk, .error _) => { s with sdk := sdk }
    else if s.portToIntfId port.toNat ≠ 0 then
      let sdk := (l3IntfDestroy s.sdk (s.portToIntfId port.toNat)).1
      { s with sdk := sdk, portToIntfId := Function.update s.portToIntfId port.toNat 0 }
    else s

/-! ### Neighbour messages -/

/-- NDA_LLADDR of at least six bytes. -/
def neighLladdr (m : Nlmsg Ndmsg) : Option Mac :=
  match m.tb NDA_LLADDR with
  | some a => if 6 ≤ a.payload then some a.mac else none
  | none => none

def neighVid (m : Nlmsg Ndmsg) : BitVec 16 :=
  match m.tb NDA_VLAN with
  | some a => a.u16
  | none => 0

def handleNeigh (s : NetState) (del : Bool) (m : Nlmsg Ndmsg) : NetState × List SdkCall :=
  if m.nlmsgLen < NLMSG_LENGTH 12 then (s, [])
  else if m.hdr.ndmFamily ≠ AF_INET then (s, [])
  else
    let lladdr := neighLladdr m
    let dstIp := m.u32 NDA_DST
    let vid := neighVid m
    let ifindex := m.hdr.ndmIfindex
    if MAX_IFINDEX ≤ ifindex.toNat then (s, [])
    else
      let port := s.ifindexToPort ifindex.toNat
      if port ≤ 0 then (s, [])
      else if ¬ del then
        match lladdr with
        | none => (s, [])
        | some mac =>
          ({ s with neighCache := neighCacheSet s.neighCache dstIp ifindex mac },
            [.l2AddrAdd { mac := mac, vid := vid, port := port, staticEntry := 1 }])
      else
        let calls : List SdkCall :=
          match lladdr with
          | some mac => [.l2AddrDelete mac vid]
          | none =>
            if dstIp = 0 then []
            else
              match neighCacheGet s.neighCache dstIp ifindex with
              | some mac => [.l2AddrDelete mac vid]
              | none => []
        ({ s with neighCache := neighCacheRemove s.neighCache dstIp ifindex }, calls)

/-! ### Route messages -/

/-- The next hop of an RTM_NEWROUTE: a missing RTA_OIF reads as interface 0 and
an unknown gateway as the zero MAC. -/
def routeEgress (s : NetState) (m : Nlmsg Rtmsg) : Option L3Egress :=
  let oif := m.u32 RTA_OIF
  if MAX_IFINDEX ≤ oif.toNat then none
  else
    let port := s.ifindexToPort oif.toNat
    if port ≤ 0 then none
    else
      let intfId := if port < MAX_PORTS then s.portToIntfId port.toNat else 0
      let mac := (neighCacheGet s.neighCache (m.u32 RTA_GATEWAY) oif).getD (Vector.replicate 6 0)
      some { mac := mac, port := port, intfId := intfId }

/-- The route of a message, by way of a next hop. -/
def routeOf (m : Nlmsg Rtmsg) (egressId : ℕ) : L3Route where
  pfx := m.u32 RTA_DST
  prefixLen := m.hdr.rtmDstLen.toNat
  egressId := egressId
  isIpv6 := false

def handleRoute (s : NetState) (del : Bool) (m : Nlmsg Rtmsg) : NetState :=
  if m.nlmsgLen < NLMSG_LENGTH 12 then s
  else if m.hdr.rtmFamily ≠ AF_INET ∨ m.hdr.rtmType ≠ RTN_UNICAST then s
  else if del then { s with sdk := (l3RouteDelete s.sdk (routeOf m 0)).1 }
  else
    match routeEgress s m with
    | none => s
    | some egr =>
      match l3EgressCreate s.sdk egr with
      | (sdk, .error _) => { s with sdk := sdk }
      | (sdk, .ok egressId) => { s with sdk := (l3RouteAdd sdk (routeOf m egressId)).1 }

/-- A handler's calls, carried out in order. -/
def NetState.perform (r : NetState × List SdkCall) : NetState :=
  { r.1 with sdk := r.2.foldl SdkCall.perform r.1.sdk }

def dispatch (s : NetState) : Nlmsghdr → NetState
  | .link del m => NetState.perform (handleLink s del m)
  | .addr del m => handleAddr s del m
  | .route del m => handleRoute s del m
  | .neigh del m => NetState.perform (handleNeigh s del m)
  | .other => s

/-! ### Messages about swp1 -/

/-- The attributes of a message, by type. -/
def attrs (l : List (ℕ × List Byte)) (type : ℕ) : Option RtAttr :=
  (l.lookup type).map fun data => { payload := data.length, data := data }

/-- swp1 is interface 3. -/
def newlinkSwp1 : Nlmsghdr :=
  .link false
    { nlmsgLen := 44
      hdr := { ifiIndex := 3, ifiFlags := IFF_UP }
      tb := attrs [(IFLA_IFNAME, [0x73, 0x77, 0x70, 0x31, 0])] }

/-- 10.0.0.1 is an address of swp1. -/
def addrSwp1 (del : Bool) : Nlmsghdr :=
  .addr del
    { nlmsgLen := 32, hdr := { ifaIndex := 3 }, tb := attrs [(IFA_ADDRESS, [10, 0, 0, 1])] }

/-- The route 10.0.0.0/8 with further attributes. -/
def routeTen (del : Bool) (l : List (ℕ × List Byte)) : Nlmsghdr :=
  .route del
    { nlmsgLen := 60
      hdr := { rtmFamily := AF_INET, rtmDstLen := 8, rtmType := RTN_UNICAST }
      tb := attrs ((RTA_DST, [10, 0, 0, 0]) :: l) }

/-- RTA_OIF of swp1. -/
def oifSwp1 : ℕ × List Byte := (RTA_OIF, [0, 0, 0, 3])

/-- 10.0.0.`ip` on swp1 has MAC 02:00:00:00:00:`mac`. -/
def neighSwp1 (del : Bool) (ip mac : Byte) : Nlmsghdr :=
  .neigh del
    { nlmsgLen := 60
      hdr := { ndmFamily := AF_INET, ndmIfindex := 3 }
      tb := attrs [(NDA_DST, [10, 0, 0, ip]), (NDA_LLADDR, [2, 0, 0, 0, 0, mac])] }

end OpenNos.Switchd
