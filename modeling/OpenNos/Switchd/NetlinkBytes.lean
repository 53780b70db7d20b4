import OpenNos.Lib.Walk
import OpenNos.Switchd.IfName

/-! The receive buffer of the netlink thread, byte by byte: the loop over the messages,
`parse_rtattr`, and every read the handlers make. Both loops end and stay inside what
was received. The handlers ask for a whole header, but not for the length of the
attributes they read: only NDA_LLADDR is measured before it is used, and the name of an
interface is taken as a string. So a value that is too short is read past its end. -/

namespace OpenNos.Switchd

open Cstring

def NETLINK_BUF_SIZE : ℕ := 65536

def RTA_TB_SIZE : ℕ := 32

def NDA_TB_SIZE : ℕ := 32

def NLMSG_ERROR : ℕ := 2

def NLMSG_DONE : ℕ := 3

def RTM_NEWLINK : ℕ := 16

def RTM_DELLINK : ℕ := 17

def RTM_NEWADDR : ℕ := 20

def RTM_DELADDR : ℕ := 21

def RTM_NEWROUTE : ℕ := 24

def RTM_DELROUTE : ℕ := 25

def RTM_NEWNEIGH : ℕ := 28

def RTM_DELNEIGH : ℕ := 29

/-! ### The buffer -/

/-- The buffer after a call of `recv` that gave `len` bytes. -/
structure Recv where
  buf : List Byte
  len : ℕ
  size : buf.length = NETLINK_BUF_SIZE
  received : len ≤ NETLINK_BUF_SIZE

variable (buf : List Byte)

def byteAt (o : ℕ) : Byte := buf.getD o 0

def u16At (o : ℕ) : BitVec 16 := byteAt buf o ++ byteAt buf (o + 1)

def u32At (o : ℕ) : BitVec 32 :=
  byteAt buf o ++ byteAt buf (o + 1) ++ byteAt buf (o + 2) ++ byteAt buf (o + 3)

def nlmsgLen (nlh : ℕ) : ℕ := (u32At buf nlh).toNat

def nlmsgType (nlh : ℕ) : ℕ := (u16At buf (nlh + 4)).toNat

def rtaLen (rta : ℕ) : ℕ := (u16At buf rta).toNat

def rtaType (rta : ℕ) : ℕ := (u16At buf (rta + 2)).toNat

/-- In 32 bits. -/
def NLMSG_ALIGN (len : ℕ) : ℕ := (len + 3) % 2 ^ 32 / 4 * 4

def RTA_ALIGN (len : ℕ) : ℕ := (len + 3) / 4 * 4

def NLMSG_OK (nlh : ℕ) (len : ℤ) : Prop :=
  16 ≤ len ∧ 16 ≤ nlmsgLen buf nlh ∧ (nlmsgLen buf nlh : ℤ) ≤ len

instance (nlh : ℕ) (len : ℤ) : Decidable (NLMSG_OK buf nlh len) :=
  inferInstanceAs (Decidable (_ ∧ _ ∧ _))

def RTA_OK (rta : ℕ) (len : ℤ) : Prop :=
  4 ≤ len ∧ 4 ≤ rtaLen buf rta ∧ (rtaLen buf rta : ℤ) ≤ len

instance (rta : ℕ) (len : ℤ) : Decidable (RTA_OK buf rta len) :=
  inferInstanceAs (Decidable (_ ∧ _ ∧ _))

def RTA_DATA (rta : ℕ) : ℕ := rta + 4

def RTA_PAYLOAD (rta : ℕ) : ℤ := rtaLen buf rta - 4

/-! ### The two loops -/

/-- The loop of `netlink_thread` over the messages of a buffer. A turn takes at least
one byte, so there are not more turns than bytes. -/
def messageLoop (r : Recv) : Walk :=
  walk (NLMSG_OK r.buf) (fun nlh => NLMSG_ALIGN (nlmsgLen r.buf nlh)) (r.len + 1) 0 r.len

/-- The loop of `parse_rtattr`. -/
def rtattrLoop (rta : ℕ) (len : ℤ) : Walk :=
  walk (RTA_OK buf) (fun rta => RTA_ALIGN (rtaLen buf rta)) (len.toNat + 1) rta len

/-- `tb[]`: the last attribute of each type. -/
def parseRtattr (max rta : ℕ) (len : ℤ) : ℕ → Option ℕ :=
  (rtattrLoop buf rta len).recs.foldl
    (fun tb rta =>
      if rtaType buf rta < max then Function.update tb (rtaType buf rta) (some rta) else tb)
    (fun _ => none)

/-- The attributes of a message behind a header of `hdrLen` bytes, a multiple of 4. -/
def msgTb (max nlh hdrLen : ℕ) : ℕ → Option ℕ :=
  parseRtattr buf max (nlh + NLMSG_LENGTH hdrLen)
    ((nlmsgLen buf nlh : ℤ) - NLMSG_LENGTH hdrLen)

/-! ### The messages -/

/-- What a handler works with. -/
def nlmsgAt {hdr : Type} (max nlh hdrLen : ℕ) (h : hdr) : Nlmsg hdr where
  nlmsgLen := nlmsgLen buf nlh
  hdr := h
  tb := fun type => (msgTb buf max nlh hdrLen type).map fun rta =>
    { payload := RTA_PAYLOAD buf rta, data := buf.drop (RTA_DATA rta) }

/-- The message for `dispatch`. -/
def nlmsghdrAt (nlh : ℕ) : Nlmsghdr :=
  let type := nlmsgType buf nlh
  if type = RTM_NEWLINK ∨ type = RTM_DELLINK then
    .link (type = RTM_DELLINK) (nlmsgAt buf RTA_TB_SIZE nlh 16
      { ifiIndex := u32At buf (nlh + 20), ifiFlags := u32At buf (nlh + 24) })
  else if type = RTM_NEWADDR ∨ type = RTM_DELADDR then
    .addr (type = RTM_DELADDR) (nlmsgAt buf RTA_TB_SIZE nlh 8 { ifaIndex := u32At buf (nlh + 20) })
  else if type = RTM_NEWROUTE ∨ type = RTM_DELROUTE then
    .route (type = RTM_DELROUTE) (nlmsgAt buf RTA_TB_SIZE nlh 12
      { rtmFamily := byteAt buf (nlh + 16), rtmDstLen := byteAt buf (nlh + 17),
        rtmType := byteAt buf (nlh + 23) })
  else if type = RTM_NEWNEIGH ∨ type = RTM_DELNEIGH then
    .neigh (type = RTM_DELNEIGH) (nlmsgAt buf NDA_TB_SIZE nlh 12
      { ndmFamily := byteAt buf (nlh + 16), ndmIfindex := u32At buf (nlh + 20) })
  else .other

/-- One turn of the loop over the messages. -/
def messageTurn (s : NetState) (nlh : ℕ) : NetState :=
  if nlmsgType buf nlh = NLMSG_DONE ∨ nlmsgType buf nlh = NLMSG_ERROR then s
  else dispatch s (nlmsghdrAt buf nlh)

/-- The messages with the state of the thread that each finds. -/
def messagesFound : NetState → List ℕ → List (NetState × ℕ)
  | _, [] => []
  | s, nlh :: rest => (s, nlh) :: messagesFound (messageTurn buf s nlh) rest

/-! ### What the handlers read -/

/-- A read of `size` bytes at `off`, of the value of `attr` if it is one of a value. -/
structure Access where
  off : ℕ
  size : ℕ
  attr : Option ℕ

/-- A field of the headers. -/
def field (nlh off size : ℕ) : Access := { off := nlh + off, size := size, attr := none }

/-- The first bytes of a value. -/
def value (rta size : ℕ) : Access := { off := RTA_DATA rta, size := size, attr := some rta }

/-- `parse_rtattr` reads the length and the type of each attribute, and a length that
ends the loop. -/
def parseReads (nlh hdrLen : ℕ) : List Access :=
  let w := rtattrLoop buf (nlh + NLMSG_LENGTH hdrLen)
    ((nlmsgLen buf nlh : ℤ) - NLMSG_LENGTH hdrLen)
  (w.recs.flatMap fun rta =>
    [{ off := rta, size := 2, attr := none }, { off := rta + 2, size := 2, attr := none }]) ++
    match w.stop with
    | some (rta, len) => if 4 ≤ len then [{ off := rta, size := 2, attr := none }] else []
    | none => []

/-- How much `ifname_to_port` reads: `strncmp` up to the first difference from "swp",
`sscanf` the whole string. -/
def ifnameReads (s : List Byte) : ℕ :=
  if s.take 1 ≠ SWP.take 1 then 1
  else if s.take 2 ≠ SWP.take 2 then 2
  else if s.take 3 ≠ SWP then 3
  else 3 + ((cstr (s.drop 3)).length + 1)

def handleLinkReads (nlh : ℕ) : List Access :=
  if nlmsgLen buf nlh < NLMSG_LENGTH 16 then [field nlh 0 4]
  else
    [field nlh 0 4] ++ parseReads buf nlh 16 ++ [field nlh 4 2] ++
      if nlmsgType buf nlh = RTM_DELLINK then [field nlh 20 4]
      else
        match msgTb buf RTA_TB_SIZE nlh 16 IFLA_IFNAME with
        | none => []
        | some rta =>
          let name := buf.drop (RTA_DATA rta)
          value rta (ifnameReads name) ::
            if (ifnameToPort (cstr name)).isSome then [field nlh 20 4, field nlh 24 4] else []

def handleAddrReads (s : NetState) (nlh : ℕ) : List Access :=
  if nlmsgLen buf nlh < NLMSG_LENGTH 8 then [field nlh 0 4]
  else
    [field nlh 0 4] ++ parseReads buf nlh 8 ++
      if (msgTb buf RTA_TB_SIZE nlh 8 IFA_ADDRESS).isNone then []
      else
        let index := (u32At buf (nlh + 20)).toNat
        let port := s.ifindexToPort index
        if MAX_IFINDEX ≤ index ∨ port ≤ 0 ∨ (MAX_PORTS : ℤ) ≤ port then [field nlh 20 4]
        else [field nlh 20 4, field nlh 4 2]

/-- The value of an attribute, where it is there. -/
def valueReads (tb : ℕ → Option ℕ) (type size : ℕ) : List Access :=
  match tb type with
  | some rta => [value rta size]
  | none => []

/-- `RTA_PAYLOAD` of an attribute, where it is there. -/
def payloadReads (tb : ℕ → Option ℕ) (type : ℕ) : List Access :=
  match tb type with
  | some rta => [{ off := rta, size := 2, attr := none }]
  | none => []

/-- Where the interface is that of a port, the address is used, if it has been found to
have six bytes. -/
def lladdrReads (s : NetState) (nlh : ℕ) (tb : ℕ → Option ℕ) : List Access :=
  let index := (u32At buf (nlh + 20)).toNat
  if MAX_IFINDEX ≤ index ∨ s.ifindexToPort index ≤ 0 then []
  else
    field nlh 4 2 ::
      match (tb NDA_LLADDR).filter fun rta => 6 ≤ RTA_PAYLOAD buf rta with
      | some rta => [value rta 6]
      | none => []

def handleNeighReads (s : NetState) (nlh : ℕ) : List Access :=
  if nlmsgLen buf nlh < NLMSG_LENGTH 12 then [field nlh 0 4]
  else if byteAt buf (nlh + 16) ≠ AF_INET then [field nlh 0 4, field nlh 16 1]
  else
    let tb := msgTb buf NDA_TB_SIZE nlh 12
    [field nlh 0 4, field nlh 16 1] ++ parseReads buf nlh 12 ++ payloadReads tb NDA_LLADDR ++
      valueReads tb NDA_DST 4 ++ valueReads tb NDA_VLAN 2 ++ [field nlh 20 4] ++
      lladdrReads buf s nlh tb

def handleRouteReads (nlh : ℕ) : List Access :=
  if nlmsgLen buf nlh < NLMSG_LENGTH 12 then [field nlh 0 4]
  else if byteAt buf (nlh + 16) ≠ AF_INET then [field nlh 0 4, field nlh 16 1]
  else if byteAt buf (nlh + 23) ≠ RTN_UNICAST then
    [field nlh 0 4, field nlh 16 1, field nlh 23 1]
  else
    let tb := msgTb buf RTA_TB_SIZE nlh 12
    [field nlh 0 4, field nlh 16 1, field nlh 23 1] ++ parseReads buf nlh 12 ++
      valueReads tb RTA_DST 4 ++ [field nlh 17 1, field nlh 4 2] ++
      if nlmsgType buf nlh = RTM_DELROUTE then []
      else valueReads tb RTA_GATEWAY 4 ++ valueReads tb RTA_OIF 4

def dispatchReads (s : NetState) (nlh : ℕ) : List Access :=
  let type := nlmsgType buf nlh
  if type = NLMSG_DONE ∨ type = NLMSG_ERROR then []
  else if type = RTM_NEWLINK ∨ type = RTM_DELLINK then handleLinkReads buf nlh
  else if type = RTM_NEWADDR ∨ type = RTM_DELADDR then handleAddrReads buf s nlh
  else if type = RTM_NEWROUTE ∨ type = RTM_DELROUTE then handleRouteReads buf nlh
  else if type = RTM_NEWNEIGH ∨ type = RTM_DELNEIGH then handleNeighReads buf s nlh
  else []

end OpenNos.Switchd
